import Ccrc.CodexBridge.Server
import Ccrc.CodexBridge.StreamGrammar

/-! What the reducer emits is legal, event by event: a live block is the one that
is open, and no other block is started before it is stopped. -/

set_option autoImplicit false

namespace Ccrc.CodexBridge

open Library
open Library.Str (lit)

namespace Reducer

/-- The next local index and the open block. -/
def status (r : Reducer) : Nat × Option Nat := (r.blocks, r.live.map (·.block))

/-- What the order of the emitted events depends on. -/
structure Core where
  out : List BlockEvent
  blocks : Nat
  releasedAny : Bool
  live : Option Live
  cursor : Nat
  terminal : Option Terminal

def core (r : Reducer) : Core :=
  ⟨r.out, r.blocks, r.releasedAny, r.live, r.cursor, r.terminal⟩

/-- What one operation emits, and that it is legal. -/
structure Emits (before after : Reducer) : Prop where
  legal : ∃ events, after.out = before.out ++ events ∧
    Follows before.status events after.status
  started : before.releasedAny = decide (0 < before.blocks) →
    after.releasedAny = decide (0 < after.blocks)
  terminal : after.terminal = before.terminal

theorem Emits.refl (r : Reducer) : Emits r r :=
  ⟨⟨[], by simp⟩, id, rfl⟩

theorem Emits.trans {first second third : Reducer} (left : Emits first second)
    (right : Emits second third) : Emits first third := by
  obtain ⟨before, emitted, legal⟩ := left.legal
  obtain ⟨after, emitted', legal'⟩ := right.legal
  exact ⟨⟨before ++ after, by rw [emitted', emitted, List.append_assoc], legal.append legal'⟩,
    right.started ∘ left.started, right.terminal.trans left.terminal⟩

theorem Emits.of_core {before after : Reducer} (same : after.core = before.core) :
    Emits before after := by
  simp only [core, Core.mk.injEq] at same
  obtain ⟨out, blocks, released, live, -, terminal⟩ := same
  exact ⟨⟨[], by simp [out], by simp [status, blocks, live]⟩, by rw [released, blocks]; exact id,
    terminal⟩

/-! ## Operations that emit nothing -/

@[simp] theorem core_name (r : Reducer) (family value : Str) :
    (r.name family value).core = r.core := rfl

@[simp] theorem core_warn (r : Reducer) (what : Str) : (r.warn what).core = r.core := by
  unfold warn
  split
  next => rfl
  next => split <;> rfl

@[simp] theorem core_key (r : Reducer) (key : ReplayKey) : (r.key key).core = r.core := rfl

@[simp] theorem core_mismatch (r : Reducer) : r.mismatch.core = r.core := rfl

@[simp] theorem core_setPhase (r : Reducer) (item : Option PyDict) (texts : List Str) :
    (r.setPhase item texts).core = r.core := by
  unfold setPhase
  split <;> rfl

@[simp] theorem core_hold (r : Reducer) (oi : Nat) (item : PyDict) :
    (r.hold oi item).core = r.core := rfl

@[simp] theorem core_reasoningItem (r : Reducer) (item : PyDict) :
    (r.reasoningItem item).core = r.core := by
  unfold reasoningItem
  split <;> rfl

@[simp] theorem core_countEmpty (r : Reducer) : r.countEmpty.core = r.core := rfl

@[simp] theorem core_toolArguments (host : Host) (r : Reducer) (item : PyDict) :
    (r.toolArguments host item).1.core = r.core := by
  unfold toolArguments
  split
  next => rfl
  next => split <;> rfl

@[simp] theorem core_created (r : Reducer) (d : PyDict) : (r.created d).core = r.core := by
  unfold created
  split <;> rfl

@[simp] theorem core_announce (r : Reducer) (d : PyDict) : (r.announce d).core = r.core := by
  unfold announce
  split <;> rfl

@[simp] theorem core_fill (r : Reducer) (entry : PyJson × Nat) : (r.fill entry).core = r.core := by
  obtain ⟨it, pos⟩ := entry
  simp only [fill]
  split
  next => rfl
  next =>
      split
      next => rfl
      next => simp only [apply_ite core, core_warn, core_hold, ite_self]

theorem core_fills (output : List (PyJson × Nat)) (r : Reducer) :
    (output.foldl fill r).core = r.core := by
  induction output generalizing r with
  | nil => rfl
  | cons entry output ih => rw [List.foldl_cons, ih, core_fill]

/-! ## Blocks -/

/-- A block that is started, sent into once and stopped, where none is open. -/
theorem emits_block (r : Reducer) (idle : r.live = none) (block : ContentBlock) (delta : Delta)
    {after : Reducer}
    (same : after.core =
      (((r.openBlock block).emit (.delta r.blocks delta)).emit (.stop r.blocks)).core) :
    Emits r after := by
  have out : after.out =
      r.out ++ [.start r.blocks block, .delta r.blocks delta, .stop r.blocks] := by
    refine (congrArg Core.out same).trans ?_
    simp [core, emit, openBlock]
  have blocks : after.blocks = r.blocks + 1 := congrArg Core.blocks same
  have live : after.live = none := (congrArg Core.live same).trans idle
  have released : after.releasedAny = true := congrArg Core.releasedAny same
  refine ⟨⟨_, out, ?_⟩, fun _ => by simp [released, blocks], congrArg Core.terminal same⟩
  simp only [status, idle, blocks, live, Option.map_none]
  simp [Follows, blockStep]

theorem emits_textBlock (r : Reducer) (idle : r.live = none) (text : Str) :
    Emits r (r.textBlock text) := emits_block r idle .text (.text text) rfl

theorem emits_sendLive (r : Reducer) {live : Live} (here : r.live = some live) (text : Str) :
    Emits r (r.sendLive live text) := by
  refine ⟨⟨[.delta live.block (.text text)], rfl, ?_⟩, id, rfl⟩
  simp only [status, here, sendLive, emit, Option.map_some]
  exact follows_single (by simp [blockStep])

theorem emits_closeLive (r : Reducer) (item : Option PyDict) : Emits r (r.closeLive item) := by
  unfold closeLive
  split
  next => exact Emits.refl r
  next live here =>
      have stopped : Emits r (({ r with live := none } : Reducer).emit (.stop live.block)) := by
        refine ⟨⟨[.stop live.block], rfl, ?_⟩, id, rfl⟩
        simp only [status, here, emit, Option.map_some, Option.map_none]
        exact follows_single (by simp [blockStep])
      exact stopped.trans (Emits.of_core (by rw [core_setPhase]; rfl))

@[simp] theorem live_closeLive (r : Reducer) (item : Option PyDict) :
    (r.closeLive item).live = none := by
  unfold closeLive
  split
  next none => exact none
  next => exact congrArg Core.live (core_setPhase _ _ _)

@[simp] theorem cursor_closeLive (r : Reducer) (item : Option PyDict) :
    (r.closeLive item).cursor = r.cursor := by
  unfold closeLive
  split
  next => rfl
  next => exact congrArg Core.cursor (core_setPhase _ _ _)

@[simp] theorem terminal_closeLive (r : Reducer) (item : Option PyDict) :
    (r.closeLive item).terminal = r.terminal := by
  unfold closeLive
  split
  next => rfl
  next => exact congrArg Core.terminal (core_setPhase _ _ _)

/-! ## Messages and calls -/

theorem emits_extendLive (r : Reducer) {live : Live} (here : r.live = some live)
    (groups : List (Bool × Str)) : Emits r (r.extendLive live groups).1 := by
  unfold extendLive
  split
  next text rest =>
      split
      next =>
          dsimp only
          split
          next => exact Emits.refl r
          next => exact emits_sendLive r here _
      next => exact Emits.of_core rfl
  next => exact Emits.of_core rfl

theorem emits_messageLive (r : Reducer) {live : Live} (here : r.live = some live) (item : PyDict)
    (incomplete : Bool) (groups : List (Bool × Str)) :
    Emits r (r.messageLive live item incomplete groups).1 ∧
      (r.messageLive live item incomplete groups).1.live = none := by
  unfold messageLive
  dsimp only
  refine ⟨?_, live_closeLive _ _⟩
  cases incomplete with
  | true => exact emits_closeLive r _
  | false => exact (emits_extendLive r here groups).trans (emits_closeLive _ _)

theorem emits_emitGroup (oi : Nat) (state : Reducer × List Str) (group : Bool × Str)
    (idle : state.1.live = none) :
    Emits state.1 (emitGroup oi state group).1 ∧ (emitGroup oi state group).1.live = none := by
  obtain ⟨r, texts⟩ := state
  simp only [emitGroup]
  by_cases first : texts = []
  · simp only [first, if_true]
    exact ⟨emits_block r idle .text (.text group.2) rfl, idle⟩
  · simp only [first, if_false]
    exact ⟨emits_block r idle .text (.text group.2) rfl, idle⟩

theorem emits_groups (oi : Nat) (groups : List (Bool × Str)) (state : Reducer × List Str)
    (idle : state.1.live = none) :
    Emits state.1 (groups.foldl (emitGroup oi) state).1 ∧
      (groups.foldl (emitGroup oi) state).1.live = none := by
  induction groups generalizing state with
  | nil => exact ⟨Emits.refl _, idle⟩
  | cons group groups ih =>
      obtain ⟨one, next⟩ := emits_emitGroup oi state group idle
      obtain ⟨rest, last⟩ := ih (emitGroup oi state group) next
      exact ⟨one.trans rest, last⟩

/-- A live block is the block of the item that is released. -/
def LiveAt (r : Reducer) (oi : Nat) : Prop := ∀ live, r.live = some live → live.oi = oi

theorem emits_message (r : Reducer) (oi : Nat) (item : PyDict) (here : r.LiveAt oi) :
    Emits r (r.message oi item) ∧ (r.message oi item).live = none := by
  unfold message
  dsimp only
  cases found : r.live with
  | none =>
      simp only [Option.filter_none, Option.isNone_none, and_true]
      split
      next => exact ⟨Emits.of_core (core_warn _ _), (congrArg Core.live (core_warn r _)).trans found⟩
      next =>
          obtain ⟨legal, idle⟩ := emits_groups oi (groupsOf item) (r, []) found
          exact ⟨legal.trans (Emits.of_core (core_setPhase _ _ _)),
            (congrArg Core.live (core_setPhase _ _ _)).trans idle⟩
  | some live =>
      have same : (live.oi == oi) = true := beq_iff_eq.mpr (here live found)
      simp only [Option.filter_some, same, if_true, Option.isNone_some, Bool.false_eq_true,
        and_false, if_false]
      generalize isStr "incomplete" (item.get? (lit "status")) = incomplete
      obtain ⟨closed, idle⟩ := emits_messageLive r found item incomplete (groupsOf item)
      obtain ⟨legal, idle'⟩ := emits_groups oi
        (r.messageLive live item incomplete (groupsOf item)).2.2
        ((r.messageLive live item incomplete (groupsOf item)).1,
          (r.messageLive live item incomplete (groupsOf item)).2.1) idle
      exact ⟨(closed.trans legal).trans (Emits.of_core (core_setPhase _ _ _)),
        (congrArg Core.live (core_setPhase _ _ _)).trans idle'⟩

theorem emits_tool (host : Host) (r : Reducer) (item : PyDict) (idle : r.live = none) :
    Emits r (r.tool host item) ∧ (r.tool host item).live = none := by
  unfold tool
  split
  next => exact ⟨Emits.of_core (core_warn _ _), (congrArg Core.live (core_warn r _)).trans idle⟩
  next =>
      split
      next => exact ⟨Emits.of_core (core_warn _ _), (congrArg Core.live (core_warn r _)).trans idle⟩
      next callId found =>
          have sent : ∀ r' : Reducer, r'.core = r.core → ∀ upstream arguments,
              Emits r (r'.callBlock callId upstream arguments) ∧
                (r'.callBlock callId upstream arguments).live = none := by
            intro r' same upstream arguments
            have live : r'.live = none := (congrArg Core.live same).trans idle
            exact ⟨(Emits.of_core same).trans
              (emits_block r' live (.toolUse callId _) (.inputJson arguments) rfl), live⟩
          dsimp only
          split
          next => exact sent _ ((core_countEmpty _).trans (core_toolArguments host r item)) _ _
          next => exact sent _ (core_toolArguments host r item) _ _

/-! ## Items -/

theorem emits_releaseItem (host : Host) {r after : Reducer} {oi : Nat} {item : PyDict}
    (here : r.LiveAt oi) (released : r.releaseItem host oi item = some after) :
    Emits r after ∧ after.live = none := by
  unfold releaseItem at released
  dsimp only at released
  split at released
  next =>
      cases released
      exact emits_message r oi item here
  next =>
      obtain ⟨closed, same, legal, idle⟩ : ∃ closed : Reducer,
          closed = (if r.live.any (fun live => live.oi == oi) then r.mismatch.closeLive none
            else r) ∧ Emits r closed ∧ closed.live = none := by
        refine ⟨_, rfl, ?_⟩
        cases found : r.live with
        | none => exact ⟨Emits.refl r, found⟩
        | some live =>
            have at_ : (live.oi == oi) = true := beq_iff_eq.mpr (here live found)
            simp only [Option.any_some, at_, if_true]
            exact ⟨(Emits.of_core (core_mismatch r)).trans (emits_closeLive _ _),
              live_closeLive _ _⟩
      rw [← same] at released
      split at released
      next => cases released
      next =>
          have quiet : ∀ named : Reducer, named.core = closed.core →
              Emits r named ∧ named.live = none := fun named same =>
            ⟨legal.trans (Emits.of_core same), (congrArg Core.live same).trans idle⟩
          split at released
          next =>
              cases released
              exact quiet _ (core_name _ _ _)
          next kind _ =>
              split at released
              next =>
                  cases released
                  obtain ⟨sent, still⟩ := emits_tool host closed item idle
                  exact ⟨legal.trans sent, still⟩
              next =>
                  split at released
                  next =>
                      cases released
                      exact quiet _ (core_reasoningItem _ _)
                  next =>
                      cases released
                      exact quiet _ (core_name _ _ _)

theorem liveAt_of_core {r after : Reducer} (same : after.core = r.core)
    (here : r.LiveAt r.cursor) : after.LiveAt after.cursor := by
  intro live found
  have kept : after.live = r.live := congrArg Core.live same
  have cursor : after.cursor = r.cursor := congrArg Core.cursor same
  exact (here live (kept.symm.trans found)).trans cursor.symm

theorem emits_move (r : Reducer) (cursor : Nat) (held : Map Nat PyDict) :
    Emits r { r with cursor := cursor, held := held } :=
  ⟨⟨[], by simp, rfl⟩, id, rfl⟩

theorem emits_releaseHeld (host : Host) (turns : Nat) {r after : Reducer}
    (here : r.LiveAt r.cursor) (released : r.releaseHeld host turns = some after) :
    Emits r after ∧ after.LiveAt after.cursor := by
  induction turns generalizing r with
  | zero =>
      cases released
      exact ⟨Emits.refl _, here⟩
  | succ turns ih =>
      unfold releaseHeld at released
      split at released
      next =>
          cases released
          exact ⟨Emits.refl _, here⟩
      next item _ =>
          split at released
          next => cases released
          next one taken =>
              obtain ⟨legal, idle⟩ := emits_releaseItem host
                (r := { r with held := r.held.erase r.cursor }) here taken
              have moved : ({ one with cursor := one.cursor + 1 } : Reducer).LiveAt
                  (one.cursor + 1) := fun live found => absurd (idle.symm.trans found) (by simp)
              obtain ⟨rest, last⟩ := ih moved released
              have taken := emits_move r r.cursor (r.held.erase r.cursor)
              have next := emits_move one (one.cursor + 1) one.held
              exact ⟨((taken.trans legal).trans next).trans rest, last⟩

theorem emits_done (host : Host) {r after : Reducer} (d : PyDict) (here : r.LiveAt r.cursor)
    (finished : r.done host d = some after) : Emits r after ∧ after.LiveAt after.cursor := by
  have warned : ∀ what, Emits r (r.warn what) ∧ (r.warn what).LiveAt (r.warn what).cursor := by
    intro what
    exact ⟨Emits.of_core (core_warn r what), liveAt_of_core (core_warn r what) here⟩
  unfold done at finished
  split at finished
  next =>
      cases finished
      exact warned _
  next item _ =>
      dsimp only at finished
      split at finished
      next =>
          cases finished
          exact warned _
      next =>
          obtain ⟨legal, last⟩ := emits_releaseHeld host _
            (r := r.hold _ item) here finished
          exact ⟨(Emits.of_core (core_hold r _ item)).trans legal, last⟩

theorem emits_liveDelta (r : Reducer) (d : PyDict) (here : r.LiveAt r.cursor) :
    Emits r (r.liveDelta d) ∧ (r.liveDelta d).LiveAt (r.liveDelta d).cursor := by
  unfold liveDelta
  split
  next => exact ⟨Emits.refl r, here⟩
  next =>
      split
      next => exact ⟨Emits.refl r, here⟩
      next oi _ =>
          split
          next => exact ⟨Emits.refl r, here⟩
          next fresh =>
              have at_ : oi = r.cursor := not_not.mp (not_or.mp fresh).1
              split
              next => exact ⟨Emits.refl r, here⟩
              next delta _ =>
                  split
                  next => exact ⟨Emits.refl r, here⟩
                  next =>
                      unfold openLive
                      cases found : r.live with
                      | some live =>
                          refine ⟨emits_sendLive r found delta, ?_⟩
                          intro sent same
                          cases same
                          exact here live found
                      | none =>
                          refine ⟨⟨⟨[.start r.blocks .text, .delta r.blocks (.text delta)],
                            ?_, ?_⟩, ?_, rfl⟩, ?_⟩
                          · simp [sendLive, emit, openBlock]
                          · simp [Follows, blockStep, status, found, sendLive, emit, openBlock]
                          · intro _
                            simp [sendLive, emit, openBlock]
                          · intro sent same
                            cases same
                            exact at_

/-! ## Terminals -/

theorem emits_releaseAll (host : Host) (indexes : List Nat) {r after : Reducer}
    (released : r.releaseAll host indexes = some after) :
    Emits r after ∧ (after.live = none ∨ after.live = r.live) := by
  induction indexes generalizing r with
  | nil =>
      cases released
      exact ⟨Emits.refl _, .inr rfl⟩
  | cons oi rest ih =>
      unfold releaseAll at released
      dsimp only at released
      obtain ⟨closed, same, legal, here⟩ : ∃ closed : Reducer,
          closed = (if r.live.any (fun live => live.oi != oi) then r.closeLive none else r) ∧
            Emits r closed ∧ closed.LiveAt oi := by
        refine ⟨_, rfl, ?_⟩
        split
        next =>
            exact ⟨emits_closeLive r none, fun live found =>
              absurd ((live_closeLive r none).symm.trans found) (by simp)⟩
        next apart =>
            refine ⟨Emits.refl r, fun live found => ?_⟩
            simpa [found] using apart
      rw [← same] at released
      split at released
      next => cases released
      next item _ =>
          split at released
          next => cases released
          next one taken =>
              obtain ⟨sent, idle⟩ := emits_releaseItem host
                (r := { closed with cursor := oi, held := closed.held.erase oi }) here taken
              obtain ⟨later, last⟩ := ih released
              have moved := emits_move closed oi (closed.held.erase oi)
              refine ⟨((legal.trans moved).trans sent).trans later, .inl ?_⟩
              exact last.elim id fun kept => kept.trans idle

/-- What a terminal leaves: legal events and no open block. -/
structure Ends (before after : Reducer) : Prop where
  legal : ∃ events, after.out = before.out ++ events ∧
    Follows before.status events after.status
  started : before.releasedAny = decide (0 < before.blocks) →
    after.releasedAny = decide (0 < after.blocks)
  live : after.live = none
  terminal : after.terminal.isSome

theorem ends_fail (r : Reducer) (err : BridgeError) (response : Option PyDict)
    (kind : TerminalKind) (reason : Option Str) : Ends r (r.fail err response kind reason) :=
  have closed := emits_closeLive r none
  ⟨closed.legal, closed.started, live_closeLive r none, rfl⟩

theorem ends_conclude (host : Host) {r after : Reducer} {kind : TerminalKind}
    {reason : Option Str} {resp : PyDict}
    (concluded : r.conclude host kind reason resp = some after) : Ends r after := by
  unfold conclude at concluded
  dsimp only at concluded
  split at concluded
  next => cases concluded
  next one released =>
      obtain ⟨sent, -⟩ := emits_releaseAll host _ released
      have filled := Emits.of_core (core_fills
        (((resp.get? (lit "output")).bind PyJson.list?).getD []).zipIdx r)
      have moved := emits_move one (one.cursor + 1) one.held
      have closed := ((filled.trans sent).trans moved).trans (emits_closeLive _ none)
      cases concluded
      exact ⟨closed.legal, closed.started, live_closeLive _ none, rfl⟩

/-- A quiet operation before a terminal. -/
theorem Ends.after {r quiet after : Reducer} (same : quiet.core = r.core) (ends : Ends quiet after) :
    Ends r after := by
  have emits := Emits.of_core same
  obtain ⟨events, emitted, legal⟩ := ends.legal
  refine ⟨⟨events, ?_, ?_⟩, ends.started ∘ emits.started, ends.live, ends.terminal⟩
  · have out : quiet.out = r.out := congrArg Core.out same
    rw [emitted, out]
  · have status : quiet.status = r.status :=
      congrArg₂ Prod.mk (congrArg Core.blocks same)
        (congrArg (Option.map (·.block)) (congrArg Core.live same))
    rwa [status] at legal

theorem ends_finishIncomplete (host : Host) {r after : Reducer} {response : Option PyJson}
    (finished : r.finishIncomplete host response = some after) : Ends r after := by
  unfold finishIncomplete at finished
  dsimp only at finished
  split at finished
  next =>
      cases finished
      exact (ends_fail _ _ _ _ _).after (core_name _ _ _)
  next => exact (ends_conclude host finished).after (core_name _ _ _)

/-! ## The feed -/

/-- A reducer between two calls. -/
structure Sound (r : Reducer) : Prop where
  atCursor : r.LiveAt r.cursor
  settled : r.terminal.isSome → r.live = none
  started : r.releasedAny = decide (0 < r.blocks)

/-- What one call adds to the events, and that it leaves the reducer sound. -/
def Advances (before after : Reducer) : Prop :=
  after.Sound ∧ ∃ events, after.out = before.out ++ events ∧
    Follows before.status events after.status

theorem sound_new (nameMap : Map Str Str) (toolsRequired : List Str) (liveText : Bool) :
    (new nameMap toolsRequired liveText).Sound :=
  ⟨fun _ found => (by cases found), fun _ => rfl, rfl⟩

theorem Advances.refl {r : Reducer} (sound : r.Sound) : Advances r r :=
  ⟨sound, [], by simp⟩

theorem Advances.trans {first second third : Reducer} (left : Advances first second)
    (right : Advances second third) : Advances first third := by
  obtain ⟨-, before, emitted, legal⟩ := left
  obtain ⟨sound, after, emitted', legal'⟩ := right
  exact ⟨sound, before ++ after, by rw [emitted', emitted, List.append_assoc],
    legal.append legal'⟩

theorem Ends.advances {r after : Reducer} (sound : r.Sound) (ends : Ends r after) :
    Advances r after :=
  ⟨⟨fun live found => absurd (ends.live.symm.trans found) (by simp), fun _ => ends.live,
    ends.started sound.started⟩, ends.legal⟩

theorem Emits.advances {r after : Reducer} (sound : r.Sound) (unended : r.terminal = none)
    (emits : Emits r after) (here : after.LiveAt after.cursor) : Advances r after := by
  refine ⟨⟨here, fun some => ?_, emits.started sound.started⟩, emits.legal⟩
  rw [emits.terminal, unended] at some
  cases some

theorem advances_of_core {r after : Reducer} (sound : r.Sound) (unended : r.terminal = none)
    (same : after.core = r.core) : Advances r after :=
  (Emits.of_core same).advances sound unended (liveAt_of_core same sound.atCursor)

theorem feedTyped_advances (host : Host) {r after : Reducer} {etype : Str} {d : PyDict}
    (sound : r.Sound) (unended : r.terminal = none)
    (fed : r.feedTyped host etype d = some after) : Advances r after := by
  unfold feedTyped at fed
  split at fed
  next =>
      cases fed
      exact advances_of_core sound unended (core_created r d)
  next =>
      split at fed
      next =>
          cases fed
          exact advances_of_core sound unended (core_announce r d)
      next =>
          split at fed
          next =>
              cases fed
              obtain ⟨emits, here⟩ := emits_liveDelta r d sound.atCursor
              exact emits.advances sound unended here
          next =>
              split at fed
              next =>
                  obtain ⟨emits, here⟩ := emits_done host d sound.atCursor fed
                  exact emits.advances sound unended here
              next =>
                  split at fed
                  next => exact (ends_conclude host fed).advances sound
                  next =>
                      split at fed
                      next => exact (ends_finishIncomplete host fed).advances sound
                      next =>
                          split at fed
                          next =>
                              cases fed
                              exact (ends_fail r _ _ _ _).advances sound
                          next =>
                              split at fed
                              next =>
                                  cases fed
                                  exact (ends_fail r _ _ _ _).advances sound
                              next =>
                                  split at fed
                                  next =>
                                      cases fed
                                      exact advances_of_core sound unended (core_name r _ _)
                                  next =>
                                      cases fed
                                      exact Advances.refl sound

theorem feed_advances (host : Host) {r after : Reducer} {ev : SseEvent} (sound : r.Sound)
    (fed : r.feed host ev = some after) : Advances r after := by
  unfold feed at fed
  split at fed
  next =>
      cases fed
      exact Advances.refl sound
  next unended =>
      split at fed
      next => exact feedTyped_advances host sound (Option.not_isSome_iff_eq_none.mp unended) fed
      next =>
          cases fed
          exact Advances.refl sound

end Reducer

theorem feedAll_advances (host : Host) (events : List SseEvent) {red after : Reducer}
    (sound : red.Sound) (fed : feedAll host events red = some after) :
    Reducer.Advances red after := by
  induction events generalizing red with
  | nil =>
      cases fed
      exact Reducer.Advances.refl sound
  | cons ev rest ih =>
      unfold feedAll at fed
      split at fed
      next => cases fed
      next one taken =>
          have first := Reducer.feed_advances host sound taken
          split at fed
          next =>
              cases fed
              exact first
          next => exact first.trans (ih first.1 fed)

end Ccrc.CodexBridge
