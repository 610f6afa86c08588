import Ccrc.CodexBridge.StreamGrammar

/-! What every call of the writer keeps: the bytes that arrived are the start of a
script, and the counters are where the script's blocks stand. -/

set_option autoImplicit false

namespace Ccrc.CodexBridge

open Library
open Library.Str (lit)

/-- The `ValueError` of a frame whose type is not its name never happens. -/
theorem MessageEvent.frame_eq (event : MessageEvent) :
    Sse.frame event.name event.data = some event.frame := by
  have written : ∃ bytes, Sse.frame event.name event.data = some bytes := by
    cases event with
    | block event => cases event <;> exact ⟨_, rfl⟩
    | messageStart id model => exact ⟨_, rfl⟩
    | messageDelta stopReason usage => exact ⟨_, rfl⟩
    | messageStop => exact ⟨_, rfl⟩
    | error e => exact ⟨_, rfl⟩
  obtain ⟨bytes, framed⟩ := written
  rw [MessageEvent.frame, framed, Option.getD_some]

theorem itemsBytes_append (client : Client) (before after : List Item) :
    itemsBytes client (before ++ after) = itemsBytes client before ++ itemsBytes client after :=
  List.flatMap_append

/-- An open block is the last one that was started. -/
def Legal (status : Nat × Option Nat) : Prop := ∀ index, status.2 = some index → status.1 = index + 1

theorem blockStep_legal {before after : Nat × Option Nat} {event : BlockEvent}
    (one : blockStep before event = some after) (legal : Legal before) : Legal after := by
  obtain ⟨number, live⟩ := before
  cases event <;> cases live <;> simp only [blockStep, Option.ite_none_right_eq_some,
    Option.some.injEq, reduceCtorEq] at one
  case start.none index block =>
      obtain ⟨rfl, rfl⟩ := one
      intro opened same
      cases same
      rfl
  case delta.some index delta live =>
      obtain ⟨rfl, rfl⟩ := one
      exact legal
  case stop.some index live =>
      obtain ⟨rfl, rfl⟩ := one
      intro opened same
      cases same

theorem Follows.legal {before after : Nat × Option Nat} {events : List BlockEvent}
    (follows : Follows before events after) (legal : Legal before) : Legal after := by
  induction events generalizing before with
  | nil =>
      cases follows
      exact legal
  | cons event rest ih =>
      obtain ⟨between, one, later⟩ := Option.bind_eq_some_iff.mp follows
      exact ih later (blockStep_legal one legal)

namespace AnthropicStream

/-- The bytes that arrived are those of the items, or the start of them where the
client is gone. -/
structure Holds (client : Client) (s : AnthropicStream) (items : List Item) : Prop where
  whole : s.closed = false → s.wire = itemsBytes client items
  arrived : s.wire <+: itemsBytes client items
  unfinished : Unfinished items

/-- The head, `message_start` and legal blocks. -/
def Streams (client : Client) (s : AnthropicStream) : Prop :=
  ∃ id model body, s.Holds client (opening id model body) ∧
    Follows (0, none) body.reduceOption (s.next, s.opened)

def Settled (client : Client) (s : AnthropicStream) : Prop :=
  ∃ script, Script script ∧ s.wire <+: itemsBytes client script

/-- A writer between two calls. -/
structure Sound (client : Client) (s : AnthropicStream) : Prop where
  settled : s.Settled client
  silent : s.closed = false → s.committed = false ∨ s.buffered = true → s.wire = []
  streaming : s.closed = false → s.committed = true → s.buffered = false → s.finished = false →
    s.Streams client
  uncommitted : s.committed = false → s.next = 0 ∧ s.opened = none
  legal : Legal (s.next, s.opened)

variable {client : Client} {s : AnthropicStream}

theorem Holds.settled {items : List Item} (holds : s.Holds client items) : s.Settled client := by
  obtain ⟨rest, script⟩ := holds.unfinished
  refine ⟨_, script, holds.arrived.trans ?_⟩
  rw [itemsBytes_append]
  exact List.prefix_append _ _

theorem sound_new (model messageId : Str) (buffered : Bool) :
    (new model messageId buffered).Sound client :=
  ⟨⟨_, .answer 0 [] [], List.nil_prefix⟩, fun _ _ => rfl, fun _ committed => (by cases committed),
    fun _ => ⟨rfl, rfl⟩, fun _ found => (by cases found)⟩

/-! ## One write -/

/-- What a write leaves as it is. -/
structure Standing where
  model : Str
  messageId : Str
  buffered : Bool
  committed : Bool
  finished : Bool
  base : Nat
  next : Nat
  opened : Option Nat

def standing (s : AnthropicStream) : Standing :=
  ⟨s.model, s.messageId, s.buffered, s.committed, s.finished, s.base, s.next, s.opened⟩

theorem Streams.legal (streams : s.Streams client) : Legal (s.next, s.opened) := by
  obtain ⟨_, _, _, -, legal⟩ := streams
  exact legal.legal fun _ found => (by cases found)

/-- The event at its index in the message. -/
def placed (s : AnthropicStream) (event : BlockEvent) : BlockEvent :=
  event.setIndex (s.base + event.index)

/-- Where the events of the response in hand stand in the message. -/
def Aligned (s : AnthropicStream) (status : Nat × Option Nat) : Prop :=
  s.next = s.base + status.1 ∧ s.opened = status.2.map (s.base + ·)

theorem blocks_closed (closed : s.closed = true) (events : List BlockEvent) :
    s.blocks client events = s := by
  simp [blocks, closed]

theorem blocks_opened {events : List BlockEvent}
    (opened : (s.blocks client events).closed = false) : s.closed = false := by
  cases closed : s.closed with
  | false => rfl
  | true => rwa [blocks_closed closed, closed] at opened

end AnthropicStream

end Ccrc.CodexBridge
