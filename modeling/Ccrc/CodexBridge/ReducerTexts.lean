import Ccrc.CodexBridge.ReducerProperties

/-! The texts that a reducer sent, block by block, and what releasing one item adds
to them. -/

set_option autoImplicit false

namespace Ccrc.CodexBridge

open Library
open Library.Str (lit)

/-- The texts of the text blocks: a text delta goes to the last one that was started. -/
def textStep (texts : List Str) : BlockEvent → List Str
  | .start _ .text => texts ++ [[]]
  | .delta _ (.text sent) => texts.dropLast ++ [texts.getLastD [] ++ sent]
  | .start _ (.toolUse _ _) | .delta _ (.inputJson _) | .stop _ => texts

def textsOf (events : List BlockEvent) : List Str := events.foldl textStep []

/-- The texts of an item that is released with no live block. -/
def itemTexts (item : PyDict) : List Str :=
  if isStr "message" (item.get? (lit "type")) ∧
      isStr "incomplete" (item.get? (lit "status")) = false then
    (Reducer.groupsOf item).map (·.2)
  else []

namespace Reducer

def texts (r : Reducer) : List Str := textsOf r.out

/-- What decides which item is released when. -/
structure Control where
  cursor : Nat
  held : Map Nat PyDict
  seen : List Nat
  finished : Map Nat PyDict
  added : Map Str Nat
  terminal : Option Terminal
  liveText : Bool

def control (r : Reducer) : Control :=
  ⟨r.cursor, r.held, r.seen, r.finished, r.added, r.terminal, r.liveText⟩

/-- The operation sends no text, keeps the live block and decides nothing. -/
structure Quiet (before after : Reducer) : Prop where
  out : after.out = before.out
  live : after.live = before.live
  control : after.control = before.control
  mismatch : after.counts.liveTextMismatch = before.counts.liveTextMismatch

theorem Quiet.texts {before after : Reducer} (quiet : Quiet before after) :
    after.texts = before.texts := by rw [Reducer.texts, quiet.out, Reducer.texts]

theorem Quiet.trans {first second third : Reducer} (left : Quiet first second)
    (right : Quiet second third) : Quiet first third :=
  ⟨right.out.trans left.out, right.live.trans left.live, right.control.trans left.control,
    right.mismatch.trans left.mismatch⟩

theorem quiet_warn (r : Reducer) (what : Str) : Quiet r (r.warn what) := by
  unfold warn
  split
  next => exact ⟨rfl, rfl, rfl, rfl⟩
  next => split <;> exact ⟨rfl, rfl, rfl, rfl⟩

theorem quiet_setPhase (r : Reducer) (item : Option PyDict) (texts : List Str) :
    Quiet r (r.setPhase item texts) := by
  unfold setPhase
  split <;> exact ⟨rfl, rfl, rfl, rfl⟩

theorem quiet_reasoningItem (r : Reducer) (item : PyDict) : Quiet r (r.reasoningItem item) := by
  unfold reasoningItem
  split <;> exact ⟨rfl, rfl, rfl, rfl⟩

theorem quiet_toolArguments (host : Host) (r : Reducer) (item : PyDict) :
    Quiet r (r.toolArguments host item).1 := by
  unfold toolArguments
  split
  next => exact ⟨rfl, rfl, rfl, rfl⟩
  next => split <;> exact ⟨rfl, rfl, rfl, rfl⟩

/-! ## Texts sent -/

/-- What one operation adds to the texts, where no block is live before or after it. -/
structure Sends (before after : Reducer) (texts : List Str) : Prop where
  texts : after.texts = before.texts ++ texts
  live : after.live = none
  control : after.control = before.control
  mismatch : after.counts.liveTextMismatch = before.counts.liveTextMismatch

theorem Sends.of_quiet {before after : Reducer} (idle : before.live = none)
    (quiet : Quiet before after) : Sends before after [] :=
  ⟨by rw [quiet.texts, List.append_nil], quiet.live.trans idle, quiet.control, quiet.mismatch⟩

theorem Sends.trans {first second third : Reducer} {before after : List Str}
    (left : Sends first second before) (right : Sends second third after) :
    Sends first third (before ++ after) :=
  ⟨by rw [right.texts, left.texts, List.append_assoc], right.live,
    right.control.trans left.control, right.mismatch.trans left.mismatch⟩

theorem Sends.quiet {first second third : Reducer} {texts : List Str}
    (left : Sends first second texts) (right : Quiet second third) : Sends first third texts := by
  simpa using left.trans (Sends.of_quiet left.live right)

theorem sends_textBlock (r : Reducer) (idle : r.live = none) (text : Str) :
    Sends r (r.textBlock text) [text] := by
  refine ⟨?_, idle, rfl, rfl⟩
  simp [texts, textsOf, textBlock, openBlock, emit, textStep]

theorem sends_group (oi : Nat) (state : Reducer × List Str) (group : Bool × Str)
    (idle : state.1.live = none) : Sends state.1 (emitGroup oi state group).1 [group.2] := by
  obtain ⟨r, sent⟩ := state
  unfold emitGroup
  dsimp only
  split
  next =>
      have keyed : Quiet r ({ r with
          emittedText := Map.set oi group.2 r.emittedText }.key (.text group.2)) :=
        ⟨rfl, rfl, rfl, rfl⟩
      exact ((Sends.of_quiet idle keyed).trans
        (sends_textBlock _ (keyed.live.trans idle) _)).quiet
        ⟨rfl, rfl, rfl, rfl⟩
  next => exact (sends_textBlock r idle _).quiet ⟨rfl, rfl, rfl, rfl⟩

theorem sends_groups (oi : Nat) (groups : List (Bool × Str)) (state : Reducer × List Str)
    (idle : state.1.live = none) :
    Sends state.1 (groups.foldl (emitGroup oi) state).1 (groups.map (·.2)) := by
  induction groups generalizing state with
  | nil => exact Sends.of_quiet idle ⟨rfl, rfl, rfl, rfl⟩
  | cons group groups ih =>
      have one := sends_group oi state group idle
      exact one.trans (ih (emitGroup oi state group) one.live)

theorem sends_message (r : Reducer) (idle : r.live = none) (oi : Nat) (item : PyDict)
    (message : isStr "message" (item.get? (lit "type")) = true) :
    Sends r (r.message oi item) (itemTexts item) := by
  unfold Reducer.message itemTexts
  dsimp only
  rw [idle]
  simp only [message, true_and, Option.filter_none, Option.isNone_none, and_true]
  cases isStr "incomplete" (item.get? (lit "status")) with
  | true =>
      simp only [Bool.true_eq_false, if_true, if_false]
      exact Sends.of_quiet idle (quiet_warn r _)
  | false =>
      simp only [Bool.false_eq_true, if_true, if_false]
      exact (sends_groups oi (groupsOf item) (r, []) idle).quiet (quiet_setPhase _ _ _)

theorem sends_callBlock (r : Reducer) (idle : r.live = none) (callId upstream arguments : Str) :
    Sends r (r.callBlock callId upstream arguments) [] := by
  refine ⟨?_, idle, rfl, rfl⟩
  simp [texts, textsOf, callBlock, openBlock, emit, key, textStep]

theorem sends_tool (host : Host) (r : Reducer) (idle : r.live = none) (item : PyDict) :
    Sends r (r.tool host item) [] := by
  unfold tool
  split
  next => exact Sends.of_quiet idle (quiet_warn r _)
  next =>
      split
      next => exact Sends.of_quiet idle (quiet_warn r _)
      next =>
          have read := quiet_toolArguments host r item
          dsimp only
          split
          next =>
              have counted : Quiet r (r.toolArguments host item).1.countEmpty :=
                read.trans ⟨rfl, rfl, rfl, rfl⟩
              exact (Sends.of_quiet idle counted).trans
                (sends_callBlock _ (counted.live.trans idle) _ _ _)
          next =>
              exact (Sends.of_quiet idle read).trans (sends_callBlock _ (read.live.trans idle) _ _ _)

/-- The only exception of a release. -/
def Raises (item : PyDict) : Prop :=
  isStr "message" (item.get? (lit "type")) = false ∧ isHashable (item.get? (lit "type")) = false

/-- What one item adds where no block is live. -/
theorem sends_releaseItem (host : Host) (r : Reducer) (idle : r.live = none) (oi : Nat)
    (item : PyDict) (fine : ¬Raises item) :
    ∃ after, r.releaseItem host oi item = some after ∧ Sends r after (itemTexts item) := by
  unfold releaseItem
  dsimp only
  cases message : isStr "message" (item.get? (lit "type")) with
  | true =>
      simp only [if_true]
      exact ⟨_, rfl, sends_message r idle oi item message⟩
  | false =>
      have hashable : isHashable (item.get? (lit "type")) = true := by
        simpa [Raises, message] using fine
      have nothing : itemTexts item = [] := by simp [itemTexts, message]
      simp only [Bool.false_eq_true, if_false, idle, Option.any_none, hashable, Bool.not_true,
        nothing]
      split
      next => exact ⟨_, rfl, Sends.of_quiet idle ⟨rfl, rfl, rfl, rfl⟩⟩
      next kind _ =>
          split
          next => exact ⟨_, rfl, sends_tool host r idle item⟩
          next =>
              split
              next => exact ⟨_, rfl, Sends.of_quiet idle (quiet_reasoningItem r item)⟩
              next => exact ⟨_, rfl, Sends.of_quiet idle ⟨rfl, rfl, rfl, rfl⟩⟩

/-- The exception does not depend on the live block. -/
theorem releaseItem_raises (host : Host) (r : Reducer) (oi : Nat) (item : PyDict) :
    r.releaseItem host oi item = none ↔ Raises item := by
  unfold releaseItem Raises
  dsimp only
  cases isStr "message" (item.get? (lit "type")) with
  | true => simp
  | false =>
      cases isHashable (item.get? (lit "type")) with
      | false => simp
      | true =>
          simp only [Bool.false_eq_true, if_false, Bool.not_true, Bool.true_eq_false, and_false,
            iff_false]
          split
          next => simp
          next =>
              split
              next => simp
              next => split <;> simp

/-! ## A live block -/

/-- The finished item is the message whose text was being sent. -/
def Extends (item : PyDict) (sent : Str) : Prop :=
  isStr "message" (item.get? (lit "type")) = true ∧
    isStr "incomplete" (item.get? (lit "status")) = false ∧
    ∃ text rest, groupsOf item = (false, text) :: rest ∧ text.startsWith sent = true

/-- The live block's text is the last one. -/
def LastLive (r : Reducer) : Prop :=
  ∀ live, r.live = some live → ∃ front, r.texts = front ++ [live.sent]

theorem texts_sendLive {r : Reducer} {live : Live} {front : List Str}
    (last : r.texts = front ++ [live.sent]) (text : Str) :
    (r.sendLive live text).texts = front ++ [live.sent ++ text] := by
  have sent : (r.sendLive live text).texts = textStep r.texts (.delta live.block (.text text)) := by
    simp [Reducer.texts, textsOf, sendLive, emit]
  rw [sent, last]
  simp [textStep]

/-- What closing the live block leaves. -/
theorem closeLive_keeps (r : Reducer) (item : Option PyDict) :
    (r.closeLive item).texts = r.texts ∧ (r.closeLive item).live = none ∧
      (r.closeLive item).control = r.control ∧
      (r.closeLive item).counts.liveTextMismatch = r.counts.liveTextMismatch := by
  refine ⟨?_, live_closeLive r item, ?_, ?_⟩
  all_goals
    unfold closeLive
    split
  next => rfl
  next =>
      rw [(quiet_setPhase _ _ _).texts]
      simp [Reducer.texts, textsOf, emit, key, textStep]
  next => rfl
  next => exact (quiet_setPhase _ _ _).control
  next => rfl
  next => exact (quiet_setPhase _ _ _).mismatch

/-- What a release does to the text of a live block in front of `texts`: it goes on
to the item's first text, or the difference is counted or seen in the number of blocks. -/
structure Closes (before after : Reducer) (front : List Str) (item : PyDict) (sent : Str) :
    Prop where
  live : after.live = none
  control : after.control = before.control
  extended : Extends item sent → after.texts = front ++ itemTexts item ∧
    after.counts.liveTextMismatch = before.counts.liveTextMismatch
  length : front.length + (itemTexts item).length ≤ after.texts.length
  counted : before.counts.liveTextMismatch ≤ after.counts.liveTextMismatch
  other : ¬Extends item sent →
    before.counts.liveTextMismatch < after.counts.liveTextMismatch ∨
      front.length + (itemTexts item).length < after.texts.length

/-- What is sent of a finished message's groups into and after its live block. -/
theorem extendLive_texts {r : Reducer} {live : Live} {front : List Str}
    (last : r.texts = front ++ [live.sent]) (groups : List (Bool × Str)) :
    (r.extendLive live groups).1.control = r.control ∧
      ((∃ text rest, groups = (false, text) :: rest ∧ text.startsWith live.sent = true ∧
          (r.extendLive live groups).1.texts = front ++ [text] ∧
          (r.extendLive live groups).1.counts.liveTextMismatch = r.counts.liveTextMismatch ∧
          (r.extendLive live groups).2 = rest) ∨
        ((r.extendLive live groups).1.texts = front ++ [live.sent] ∧
          (r.extendLive live groups).1.counts.liveTextMismatch = r.counts.liveTextMismatch + 1 ∧
          groups.length ≤ (r.extendLive live groups).2.length + 1 ∧
          ¬∃ text rest, groups = (false, text) :: rest ∧ text.startsWith live.sent = true)) := by
  unfold extendLive
  split
  next text rest =>
      split
      next starts =>
          obtain ⟨suffix, rfl⟩ := List.isPrefixOf_iff_prefix.mp starts
          dsimp only
          rw [List.drop_left]
          split
          next none =>
              refine ⟨rfl, .inl ⟨_, rest, rfl, starts, ?_, rfl, rfl⟩⟩
              rw [last, none, List.append_nil]
          next =>
              exact ⟨rfl, .inl ⟨_, rest, rfl, starts, texts_sendLive last suffix, rfl, rfl⟩⟩
      next apart =>
          refine ⟨rfl, .inr ⟨last, rfl, by simp, ?_⟩⟩
          rintro ⟨text', rest', same, starts⟩
          cases same
          exact apart starts
  next groups other =>
      refine ⟨rfl, .inr ⟨last, rfl, by simp, ?_⟩⟩
      rintro ⟨text, rest, same, -⟩
      exact other text rest same

theorem closes_message {r : Reducer} {live : Live} {front : List Str} {oi : Nat} {item : PyDict}
    (here : r.live = some live) (at_ : live.oi = oi) (last : r.texts = front ++ [live.sent])
    (message : isStr "message" (item.get? (lit "type")) = true) :
    Closes r (r.message oi item) front item live.sent := by
  have same : (live.oi == oi) = true := beq_iff_eq.mpr at_
  unfold Reducer.message
  dsimp only
  simp only [here, Option.filter_some, same, if_true, Option.isNone_some, Bool.false_eq_true,
    and_false, if_false]
  cases incomplete : isStr "incomplete" (item.get? (lit "status")) with
  | true =>
      have nothing : itemTexts item = [] := by simp [itemTexts, incomplete]
      obtain ⟨texts, idle, control, mismatch⟩ := closeLive_keeps r (some item)
      have quiet := quiet_setPhase (r.closeLive (some item)) (some item) [live.sent]
      simp only [messageLive, if_true, here, Option.map_some, Option.toList_some, List.foldl_nil]
      refine ⟨quiet.live.trans idle, quiet.control.trans control, fun extends_ => ?_, ?_, ?_,
        fun _ => .inr ?_⟩
      · exact absurd (extends_.2.1.symm.trans incomplete) (by decide)
      · rw [quiet.texts, texts, last, nothing]
        simp
      · exact Nat.le_of_eq (quiet.mismatch.trans mismatch).symm
      · rw [quiet.texts, texts, last, nothing]
        simp
  | false =>
      have whole : itemTexts item = (groupsOf item).map (·.2) := by
        simp [itemTexts, incomplete, message]
      obtain ⟨control, spec⟩ := extendLive_texts last (groupsOf item)
      simp only [messageLive, Bool.false_eq_true, if_false]
      generalize r.extendLive live (groupsOf item) = extended at control spec ⊢
      obtain ⟨texts, idle, control', mismatch⟩ := closeLive_keeps extended.1 (some item)
      generalize (extended.1.live.map (·.sent)).toList = texts'
      have sent := (sends_groups oi extended.2 (extended.1.closeLive (some item), texts')
        idle).quiet (quiet_setPhase _ (some item)
          (extended.2.foldl (emitGroup oi) (extended.1.closeLive (some item), texts')).2)
      have total := sent.texts
      have counts := sent.mismatch.trans mismatch
      rw [texts] at total
      refine ⟨sent.live, sent.control.trans (control'.trans control), ?_, ?_, ?_, ?_⟩
      · rintro ⟨-, -, text, rest, groups, starts⟩
        cases spec with
        | inl good =>
            obtain ⟨text', rest', groups', -, texts', same, more⟩ := good
            rw [groups] at groups'
            cases groups'
            refine ⟨?_, counts.trans same⟩
            rw [total, texts', more, whole, groups]
            simp
        | inr bad => exact absurd ⟨text, rest, groups, starts⟩ bad.2.2.2
      · cases spec with
        | inl good =>
            obtain ⟨text, rest, groups, -, texts', -, more⟩ := good
            rw [total, texts', more, whole, groups]
            simp
        | inr bad =>
            rw [total, bad.1, whole]
            have bound := bad.2.2.1
            simp only [List.length_append, List.length_map, List.length_singleton]
            omega
      · cases spec with
        | inl good =>
            obtain ⟨_, _, -, -, -, same, -⟩ := good
            exact Nat.le_of_eq (counts.trans same).symm
        | inr bad =>
            have more := counts.trans bad.2.1
            omega
      · intro other
        cases spec with
        | inl good =>
            obtain ⟨text, rest, groups, starts, -⟩ := good
            exact absurd ⟨message, incomplete, text, rest, groups, starts⟩ other
        | inr bad =>
            have more := counts.trans bad.2.1
            exact .inl (by omega)

/-- The release of the item whose text is being sent. -/
theorem closes_releaseItem (host : Host) {r : Reducer} {live : Live} {front : List Str} {oi : Nat}
    {item : PyDict} (here : r.live = some live) (at_ : live.oi = oi)
    (last : r.texts = front ++ [live.sent]) (fine : ¬Raises item) :
    ∃ after, r.releaseItem host oi item = some after ∧ Closes r after front item live.sent := by
  cases message : isStr "message" (item.get? (lit "type")) with
  | true =>
      refine ⟨r.message oi item, ?_, closes_message here at_ last message⟩
      simp [releaseItem, message]
  | false =>
      -- Any other item: the block is closed, and the item is released as if none were live.
      have same : (live.oi == oi) = true := beq_iff_eq.mpr at_
      obtain ⟨texts, idle, control, mismatch⟩ := closeLive_keeps r.mismatch none
      obtain ⟨after, released, sent⟩ :=
        sends_releaseItem host (r.mismatch.closeLive none) idle oi item fine
      have nothing : itemTexts item = [] := by simp [itemTexts, message]
      have texts' : after.texts = front ++ [live.sent] := by
        rw [sent.texts, texts, nothing, List.append_nil]
        exact last
      have counts : after.counts.liveTextMismatch = r.counts.liveTextMismatch + 1 :=
        sent.mismatch.trans mismatch
      refine ⟨after, ?_, sent.live, sent.control.trans control, fun extends_ => ?_, ?_, ?_,
        fun _ => .inl ?_⟩
      · rw [← released]
        simp [releaseItem, message, here, same]
      · exact absurd (extends_.1.symm.trans message) (by decide)
      · simp [texts', nothing]
      · omega
      · omega

end Reducer

end Ccrc.CodexBridge
