import Ccrc.CodexBridge.Stream

/-! What a client may get: one HTTP answer, or a stream whose blocks are numbered
from zero, one open at a time, and that ends once. -/

set_option autoImplicit false

namespace Ccrc.CodexBridge

open Library
open Library.Str (lit)

/-! ## Blocks -/

/-- The events of the block at one index. -/
def blockEvents (index : Nat) (block : ContentBlock) (deltas : List Delta) : List BlockEvent :=
  .start index block :: deltas.map (.delta index) ++ [.stop index]

/-- The events of blocks in their order, the first one at `first`. -/
def messageBlocks (first : Nat) : List (ContentBlock × List Delta) → List BlockEvent
  | [] => []
  | (block, deltas) :: rest => blockEvents first block deltas ++ messageBlocks (first + 1) rest

/-- The next index and the open block, after one event that is legal there. -/
def blockStep : Nat × Option Nat → BlockEvent → Option (Nat × Option Nat)
  | (next, none), .start index _ => if index = next then some (next + 1, some index) else none
  | (next, some opened), .delta index _ =>
      if index = opened then some (next, some opened) else none
  | (next, some opened), .stop index => if index = opened then some (next, none) else none
  | (_, some _), .start _ _ | (_, none), .delta _ _ | (_, none), .stop _ => none

/-- The events are legal one after another. -/
def Follows (before : Nat × Option Nat) (events : List BlockEvent) (after : Nat × Option Nat) :
    Prop := events.foldlM blockStep before = some after

@[simp] theorem follows_nil (status : Nat × Option Nat) : Follows status [] status := rfl

theorem Follows.append {before between after : Nat × Option Nat}
    {first second : List BlockEvent} (start : Follows before first between)
    (rest : Follows between second after) : Follows before (first ++ second) after := by
  unfold Follows at *
  rw [List.foldlM_append, start]
  exact rest

theorem Follows.unsnoc {before after : Nat × Option Nat} {events : List BlockEvent}
    {event : BlockEvent} (legal : Follows before (events ++ [event]) after) :
    ∃ between, Follows before events between ∧ blockStep between event = some after := by
  unfold Follows at *
  rw [List.foldlM_append] at legal
  obtain ⟨between, first, last⟩ := Option.bind_eq_some_iff.mp legal
  exact ⟨between, first, by simpa using last⟩

theorem follows_cons {before between after : Nat × Option Nat} {event : BlockEvent}
    {events : List BlockEvent} (one : blockStep before event = some between)
    (rest : Follows between events after) : Follows before (event :: events) after := by
  unfold Follows at *
  rw [List.foldlM_cons, one]
  exact rest

theorem follows_single {before after : Nat × Option Nat} {event : BlockEvent}
    (one : blockStep before event = some after) : Follows before [event] after :=
  follows_cons one (follows_nil after)

/-- Nothing starts a block without moving the next index. -/
theorem Follows.empty {events : List BlockEvent} {opened : Option Nat} {next : Nat}
    (legal : Follows (next, none) events (next, opened)) : events = [] := by
  have grows : ∀ (events : List BlockEvent) (before after : Nat × Option Nat),
      Follows before events after → before.1 ≤ after.1 := by
    intro events
    induction events with
    | nil =>
        intro before after legal
        cases legal
        exact Nat.le_refl _
    | cons event rest ih =>
        intro before after legal
        obtain ⟨between, one, later⟩ := Option.bind_eq_some_iff.mp legal
        have further := ih between after later
        obtain ⟨number, live⟩ := before
        cases event <;> cases live <;> simp only [blockStep, Option.ite_none_right_eq_some,
          Option.some.injEq, reduceCtorEq] at one
        all_goals
          obtain ⟨-, rfl⟩ := one
          simp only at further ⊢
          omega
  cases events with
  | nil => rfl
  | cons event rest =>
      obtain ⟨between, one, later⟩ := Option.bind_eq_some_iff.mp legal
      have further := grows rest between _ later
      cases event with
      | start index block =>
          simp only [blockStep, Option.ite_none_right_eq_some, Option.some.injEq] at one
          obtain ⟨-, rfl⟩ := one
          simp only at further
          omega
      | delta index delta => cases one
      | stop index => cases one

/-- The same events from another first index. -/
theorem Follows.shift {before after : Nat × Option Nat} {events : List BlockEvent}
    (legal : Follows before events after) (base : Nat) :
    Follows (base + before.1, before.2.map (base + ·))
      (events.map fun event => event.setIndex (base + event.index))
      (base + after.1, after.2.map (base + ·)) := by
  induction events generalizing before with
  | nil =>
      cases legal
      exact follows_nil _
  | cons event rest ih =>
      obtain ⟨between, one, later⟩ := Option.bind_eq_some_iff.mp legal
      refine follows_cons ?_ (ih later)
      obtain ⟨number, live⟩ := before
      cases event <;> cases live <;> simp only [blockStep, Option.ite_none_right_eq_some,
        Option.some.injEq, reduceCtorEq] at one
      all_goals
        obtain ⟨rfl, rfl⟩ := one
        simp [blockStep, BlockEvent.setIndex, BlockEvent.index, Nat.add_assoc]

theorem messageBlocks_append (first : Nat) (before after : List (ContentBlock × List Delta)) :
    messageBlocks first (before ++ after) =
      messageBlocks first before ++ messageBlocks (first + before.length) after := by
  induction before generalizing first with
  | nil => simp [messageBlocks]
  | cons block before ih =>
      rw [List.cons_append, messageBlocks, messageBlocks, ih, List.append_assoc,
        List.length_cons, Nat.add_assoc, Nat.add_comm 1]

/-- What is legal from the start is whole blocks, and the start of one more where a
block is open. -/
theorem Follows.blocks {events : List BlockEvent} {next : Nat} {opened : Option Nat}
    (legal : Follows (0, none) events (next, opened)) :
    ∃ blocks : List (ContentBlock × List Delta),
      match opened with
      | none => next = blocks.length ∧ events = messageBlocks 0 blocks
      | some index => index = blocks.length ∧ next = index + 1 ∧
          ∃ (block : ContentBlock) (deltas : List Delta), events =
            messageBlocks 0 blocks ++ .start index block :: deltas.map (.delta index) := by
  induction events using List.reverseRecOn generalizing next opened with
  | nil =>
      cases legal
      exact ⟨[], rfl, rfl⟩
  | append_singleton events event ih =>
      obtain ⟨⟨number, live⟩, first, one⟩ := legal.unsnoc
      obtain ⟨blocks, shape⟩ := ih first
      cases event <;> cases live <;> simp only [blockStep, Option.ite_none_right_eq_some,
        Option.some.injEq, Prod.mk.injEq, reduceCtorEq] at one
      case start.none index block =>
          obtain ⟨rfl, rfl, rfl⟩ := one
          exact ⟨blocks, shape.1, rfl, block, [], by rw [shape.2]; rfl⟩
      case delta.some index delta live =>
          obtain ⟨rfl, rfl, rfl⟩ := one
          obtain ⟨here, following, block, deltas, same⟩ := shape
          exact ⟨blocks, here, following, block, deltas ++ [delta], by simp [same]⟩
      case stop.some index live =>
          obtain ⟨rfl, rfl, rfl⟩ := one
          obtain ⟨here, following, block, deltas, same⟩ := shape
          refine ⟨blocks ++ [(block, deltas)], by simp [following, here], ?_⟩
          rw [messageBlocks_append, same, here]
          simp [messageBlocks, blockEvents]

/-! ## Scripts -/

/-- One thing that is written to the client. -/
inductive Item where
  | head
  | message (event : MessageEvent)
  | ping
  | answer (status : Nat) (headers : Map Bytes Bytes) (body : Bytes)

def Item.bytes (client : Client) : Item → Bytes
  | .head => AnthropicStream.streamHead client
  | .message event => event.frame
  | .ping => Sse.ping
  | .answer status headers body => answerBytes client.responses status headers body

def itemsBytes (client : Client) (items : List Item) : Bytes := items.flatMap (Item.bytes client)

/-- A block event, or a ping between two of them. -/
def Item.inBody : Option BlockEvent → Item
  | some event => .message (.block event)
  | none => .ping

/-- The head and `message_start`, then what stands between them and the end. -/
def opening (id model : Str) (body : List (Option BlockEvent)) : List Item :=
  .head :: .message (.messageStart id model) :: body.map Item.inBody

/-- Everything that one client may get, to its end. -/
inductive Script : List Item → Prop where
  | answer (status : Nat) (headers : Map Bytes Bytes) (body : Bytes) :
      Script [.answer status headers body]
  | finished (id model : Str) (body : List (Option BlockEvent))
      (blocks : List (ContentBlock × List Delta)) (stopReason : Option Str) (usage : PyDict)
      (whole : body.reduceOption = messageBlocks 0 blocks) :
      Script (opening id model body ++
        [.message (.messageDelta stopReason usage), .message .messageStop])
  | failed (id model : Str) (body : List (Option BlockEvent))
      (blocks : List (ContentBlock × List Delta)) (e : BridgeError)
      (whole : body.reduceOption = messageBlocks 0 blocks) :
      Script (opening id model body ++ [.message (.error e)])

/-- Where a stream may be cut off. -/
def Unfinished (items : List Item) : Prop := ∃ rest, Script (items ++ rest)

theorem Unfinished.front {items : List Item} (more : List Item)
    (unfinished : Unfinished (items ++ more)) :
    Unfinished items := by
  obtain ⟨rest, script⟩ := unfinished
  exact ⟨more ++ rest, by rwa [← List.append_assoc]⟩

theorem Script.unfinished {items : List Item} (script : Script items) : Unfinished items :=
  ⟨[], by rwa [List.append_nil]⟩

end Ccrc.CodexBridge
