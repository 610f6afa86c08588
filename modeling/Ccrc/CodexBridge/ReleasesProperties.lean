import Ccrc.CodexBridge.Releases

/-! Where every message is sent as one text block, every text that a reply sent is
recorded with the reasoning before it and with its phase. -/

set_option autoImplicit false

namespace Ccrc.CodexBridge

open Library
open Library.Str (lit)

namespace Reducer

/-! ## What one release adds -/

/-- The texts of the blocks that are stopped. -/
def closedTexts (r : Reducer) : List Str := if r.live.isSome then r.texts.dropLast else r.texts

/-- The live block has text, and its text is the last one. -/
def LiveLast (r : Reducer) : Prop :=
  ∀ live, r.live = some live → live.sent ≠ [] ∧ r.texts = r.closedTexts ++ [live.sent]

/-- Every text is recorded under an index before this one. -/
def Fresh (r : Reducer) (oi : Nat) : Prop :=
  ∀ key text, r.emittedText.get? key = some text → key < oi

/-- What a move adds to the memory: one text at most, recorded under `oi` and keyed,
in the phase that its message names. -/
structure Adds (before after : Reducer) (oi : Nat) (sent named : Option Str) : Prop where
  live : after.live = none
  control : after.control = before.control
  texts : after.texts = before.closedTexts ++ sent.toList
  recorded : after.emittedText =
    sent.elim before.emittedText fun text => Map.set oi text before.emittedText
  phases : ∀ text, after.phases.get? text =
    (if sent = some text then named else none).or (before.phases.get? text)
  keyed : ∀ text, (∃ entry ∈ after.reasoning, entry.2 = some (.text text)) →
    sent = some text ∨ ∃ entry ∈ before.reasoning, entry.2 = some (.text text)
  nonempty : ∀ text, sent = some text → text ≠ []

theorem closedTexts_idle {r : Reducer} (idle : r.live = none) : r.closedTexts = r.texts := by
  simp [closedTexts, idle]

/-- What decides the memory but for the live block's own text. -/
def shelf (r : Reducer) : List Str × Control × Map Nat Str × Map Str Str ×
    List (PyDict × Option ReplayKey) :=
  (r.closedTexts, r.control, r.emittedText, r.phases, r.reasoning)

theorem Adds.of_shelf {before same after : Reducer} {oi : Nat} {sent named : Option Str}
    (shelf : same.shelf = before.shelf) (adds : Adds same after oi sent named) :
    Adds before after oi sent named := by
  simp only [Reducer.shelf, Prod.mk.injEq] at shelf
  obtain ⟨texts, control, recorded, phases, reasoning⟩ := shelf
  exact ⟨adds.live, adds.control.trans control, by rw [adds.texts, texts],
    by rw [adds.recorded, recorded], by rw [← phases]; exact adds.phases,
    by rw [← reasoning]; exact adds.keyed, adds.nonempty⟩

/-- A move that adds nothing. -/
structure Idles (before after : Reducer) : Prop where
  live : after.live = none
  control : after.control = before.control
  texts : after.texts = before.texts
  recorded : after.emittedText = before.emittedText
  phases : after.phases = before.phases
  keyed : ∀ text, (∃ entry ∈ after.reasoning, entry.2 = some (.text text)) →
    ∃ entry ∈ before.reasoning, entry.2 = some (.text text)

theorem Idles.refl {r : Reducer} (idle : r.live = none) : Idles r r :=
  ⟨idle, rfl, rfl, rfl, rfl, fun _ => id⟩

theorem Idles.trans {first second third : Reducer} (left : Idles first second)
    (right : Idles second third) : Idles first third :=
  ⟨right.live, right.control.trans left.control, right.texts.trans left.texts,
    right.recorded.trans left.recorded, right.phases.trans left.phases,
    fun text => left.keyed text ∘ right.keyed text⟩

theorem Idles.adds {before after : Reducer} (idle : before.live = none)
    (idles : Idles before after) (oi : Nat) (named : Option Str) :
    Adds before after oi none named where
  live := idles.live
  control := idles.control
  texts := by rw [idles.texts, closedTexts_idle idle]; simp
  recorded := idles.recorded
  phases := by simp [idles.phases]
  keyed text keyed := .inr (idles.keyed text keyed)
  nonempty _ none := by cases none

theorem Adds.idles {before middle after : Reducer} {oi : Nat} {sent named : Option Str}
    (adds : Adds before middle oi sent named) (idles : Idles middle after) :
    Adds before after oi sent named where
  live := idles.live
  control := idles.control.trans adds.control
  texts := idles.texts.trans adds.texts
  recorded := idles.recorded.trans adds.recorded
  phases := by rw [idles.phases]; exact adds.phases
  keyed text := adds.keyed text ∘ idles.keyed text
  nonempty := adds.nonempty

theorem idles_warn {r : Reducer} (idle : r.live = none) (what : Str) : Idles r (r.warn what) := by
  unfold warn
  split
  next => exact ⟨idle, rfl, rfl, rfl, rfl, fun _ => id⟩
  next => split <;> exact ⟨idle, rfl, rfl, rfl, rfl, fun _ => id⟩

theorem idles_reasoningItem {r : Reducer} (idle : r.live = none) (item : PyDict) :
    Idles r (r.reasoningItem item) := by
  unfold reasoningItem
  split
  next =>
      refine ⟨idle, rfl, rfl, rfl, rfl, ?_⟩
      rintro text ⟨entry, member, keyed⟩
      cases List.mem_append.mp member with
      | inl before => exact ⟨entry, before, keyed⟩
      | inr new =>
          rw [List.mem_singleton.mp new] at keyed
          cases keyed
  next => exact ⟨idle, rfl, rfl, rfl, rfl, fun _ => id⟩

/-- Keying gives the waiting items one key and leaves the others theirs. -/
theorem mem_key {r : Reducer} {given key : ReplayKey}
    (keyed : ∃ entry ∈ (r.key given).reasoning, entry.2 = some key) :
    key = given ∨ ∃ entry ∈ r.reasoning, entry.2 = some key := by
  obtain ⟨entry, member, keyed⟩ := keyed
  obtain ⟨⟨⟨item, before⟩, at_⟩, placed, rfl⟩ := List.mem_map.mp member
  dsimp only at keyed
  split at keyed
  next => exact .inl (Option.some.inj keyed).symm
  next =>
      have found := List.mem_of_getElem? (List.mk_mem_zipIdx_iff_getElem?.mp placed)
      exact .inr ⟨_, found, keyed⟩

theorem idles_toolArguments (host : Host) {r : Reducer} (idle : r.live = none) (item : PyDict) :
    Idles r (r.toolArguments host item).1 := by
  unfold toolArguments
  split
  next => exact Idles.refl idle
  next => split <;> exact ⟨idle, rfl, rfl, rfl, rfl, fun _ => id⟩

theorem idles_callBlock {r : Reducer} (idle : r.live = none) (callId upstream arguments : Str) :
    Idles r (r.callBlock callId upstream arguments) := by
  refine ⟨idle, rfl, ?_, rfl, rfl, fun text keyed => ?_⟩
  · simp [texts, textsOf, callBlock, openBlock, emit, key, textStep]
  · exact (mem_key keyed).resolve_left (by simp)

theorem idles_tool (host : Host) {r : Reducer} (idle : r.live = none) (item : PyDict) :
    Idles r (r.tool host item) := by
  unfold tool
  split
  next => exact idles_warn idle _
  next =>
      split
      next => exact idles_warn idle _
      next =>
          have read := idles_toolArguments host idle item
          dsimp only
          split
          next =>
              have counted : Idles r (r.toolArguments host item).1.countEmpty :=
                ⟨read.live, read.control, read.texts, read.recorded, read.phases, read.keyed⟩
              exact counted.trans (idles_callBlock counted.live _ _ _)
          next => exact read.trans (idles_callBlock read.live _ _ _)

/-! ## Texts that are recorded -/

def phaseIn (item : Option PyDict) : Option Str :=
  nonemptyStr? (item.bind (·.get? (lit "phase")))

theorem get?_setPhase (r : Reducer) (item : Option PyDict) (sent text : Str) :
    (r.setPhase item [sent]).phases.get? text =
      (if sent = text then phaseIn item else none).or (r.phases.get? text) := by
  unfold setPhase phaseIn
  split
  next absent => simp [absent]
  next phase found =>
      rw [found]
      by_cases same : sent = text
      · simp [same]
      · simp [same, Map.get?_set_ne (Ne.symm same)]

/-- The phase that a close has set is set once more. -/
theorem Adds.setPhase {before after : Reducer} {oi : Nat} {sent : Str} {named : Option Str}
    {item : Option PyDict} (adds : Adds before after oi (some sent) named)
    (same : named = none ∨ named = phaseIn item) :
    Adds before (after.setPhase item [sent]) oi (some sent) (phaseIn item) := by
  have quiet := quiet_setPhase after item [sent]
  have shelf : (after.setPhase item [sent]).emittedText = after.emittedText ∧
      (after.setPhase item [sent]).reasoning = after.reasoning := by
    unfold Reducer.setPhase
    split <;> exact ⟨rfl, rfl⟩
  refine ⟨quiet.live.trans adds.live, quiet.control.trans adds.control,
    quiet.texts.trans adds.texts, shelf.1.trans adds.recorded, fun text => ?_,
    by rw [shelf.2]; exact adds.keyed, adds.nonempty⟩
  rw [get?_setPhase, adds.phases]
  by_cases here : sent = text
  · subst here
    cases same with
    | inl unset => simp [unset]
    | inr set =>
        rw [set, if_pos rfl, if_pos rfl]
        cases phaseIn item <;> rfl
  · simp [here]

theorem setPhase_nil (r : Reducer) (item : Option PyDict) : r.setPhase item [] = r := by
  unfold setPhase
  split <;> rfl

theorem adds_closeLive {r : Reducer} {live : Live} (here : r.live = some live)
    (last : r.LiveLast) (item : Option PyDict) :
    Adds r (r.closeLive item) live.oi (some live.sent) (phaseIn item) := by
  obtain ⟨nonempty, texts⟩ := last live here
  unfold closeLive
  rw [here]
  refine @Adds.setPhase r _ _ _ none item ⟨rfl, rfl, ?_, rfl, fun text => by simp [key, emit],
    fun text keyed => ?_, fun text same => by cases same; exact nonempty⟩ (.inl rfl)
  · rw [Option.toList_some, ← texts]
    simp [Reducer.texts, textsOf, emit, key, textStep]
  · exact (mem_key keyed).imp_left fun same => by cases same; rfl

theorem adds_emitGroup {r : Reducer} (idle : r.live = none) (oi : Nat) (group : Bool × Str)
    (nonempty : group.2 ≠ []) :
    Adds r (emitGroup oi (r, []) group).1 oi (some group.2) none := by
  refine ⟨idle, rfl, ?_, rfl, fun text => by simp [emitGroup, textBlock, openBlock, emit, key],
    fun text keyed => ?_, fun text same => by cases same; exact nonempty⟩
  · rw [(sends_group oi (r, []) group idle).texts, closedTexts_idle idle]
    rfl
  · exact (mem_key keyed).imp_left fun same => by cases same; rfl

theorem groupsOf_nonempty {item : PyDict} {group : Bool × Str} (member : group ∈ groupsOf item) :
    group.2 ≠ [] := by
  simpa using (List.mem_filter.mp member).2

/-- A live block whose text grows keeps what stands before it. -/
theorem grown_shelf {r : Reducer} {live : Live} (here : r.live = some live) (last : r.LiveLast)
    (text : Str) : (r.sendLive live text).shelf = r.shelf ∧ (r.sendLive live text).LiveLast := by
  obtain ⟨nonempty, texts⟩ := last live here
  have grown := texts_sendLive texts text
  have closed : (r.sendLive live text).closedTexts = r.closedTexts := by
    rw [closedTexts, grown]
    simp [sendLive]
  refine ⟨?_, fun live' here' => ?_⟩
  · rw [shelf, closed]
    rfl
  · cases here'
    exact ⟨by simp [nonempty], grown.trans (by rw [closed])⟩

/-- A message of one text goes on in its live block or leaves the block as it is. -/
theorem extendLive_one {r : Reducer} {live : Live} (here : r.live = some live) (last : r.LiveLast)
    {groups : List (Bool × Str)} (one : groups = [] ∨ ∃ text, groups = [(false, text)]) :
    ∃ live', (r.extendLive live groups).1.live = some live' ∧ live'.oi = live.oi ∧
      (r.extendLive live groups).2 = [] ∧ (r.extendLive live groups).1.shelf = r.shelf ∧
      (r.extendLive live groups).1.LiveLast := by
  rcases one with rfl | ⟨text, rfl⟩
  · exact ⟨live, here, rfl, rfl, rfl, last⟩
  · simp only [extendLive]
    by_cases starts : text.startsWith live.sent = true
    · by_cases same : text.drop live.sent.length = []
      · simp only [starts, same, if_true]
        exact ⟨live, here, rfl, trivial, trivial, last⟩
      · simp only [starts, same, if_true, if_false]
        exact ⟨_, rfl, rfl, trivial, grown_shelf here last _⟩
    · rw [if_neg starts]
      exact ⟨live, here, rfl, rfl, rfl, last⟩

/-- The groups of a message that is sent as one text block at most. -/
theorem groups_one {x : Released} (message : x.isMessage = true) (finished : x.isIncomplete = false)
    (one : x.oneBlock = true) :
    groupsOf x.item = [] ∨ ∃ group, groupsOf x.item = [group] ∧
      ((x.before.live.any fun live => live.oi == x.oi) = true → group.1 = false) := by
  simp only [Released.oneBlock, message, finished, Bool.not_true, Bool.false_or] at one
  split at one
  next groups => exact .inl groups
  next group text live groups =>
      exact .inr ⟨_, groups, fun _ => by simpa using one⟩
  next idle groups =>
      refine .inr ⟨_, groups, fun live => ?_⟩
      rw [idle] at live
      cases live
  next => cases one

theorem adds_message {r : Reducer} {oi : Nat} {item : PyDict} (here : r.LiveAt oi)
    (last : r.LiveLast) (message : isStr "message" (item.get? (lit "type")) = true)
    (one : Released.oneBlock ⟨r, oi, item⟩ = true) :
    ∃ sent, Adds r (r.message oi item) oi sent (phaseIn (some item)) := by
  have groups := fun finished => groups_one (x := ⟨r, oi, item⟩) message finished one
  unfold Reducer.message
  dsimp only
  cases incomplete : isStr "incomplete" (item.get? (lit "status")) with
  | true =>
      cases found : r.live with
      | none =>
          simp only [Option.filter_none, Option.isNone_none, and_self, if_true]
          exact ⟨none, (idles_warn found _).adds found _ _⟩
      | some live =>
          have same : (live.oi == oi) = true := beq_iff_eq.mpr (here live found)
          simp only [Option.filter_some, same, if_true, Option.isNone_some, Bool.false_eq_true,
            and_false, if_false, messageLive, found, Option.map_some, Option.toList_some,
            List.foldl_nil]
          refine ⟨some live.sent, Adds.setPhase ?_ (.inr rfl)⟩
          rw [← here live found]
          exact adds_closeLive found last (some item)
  | false =>
      have groups := groups incomplete
      cases found : r.live with
      | none =>
          simp only [Option.filter_none, Bool.false_eq_true, false_and, if_false]
          rcases groups with none | ⟨group, only, -⟩
          · rw [none]
            dsimp only [List.foldl_nil]
            rw [setPhase_nil]
            exact ⟨_, (Idles.refl found).adds found _ _⟩
          · rw [only]
            exact ⟨some group.2, (adds_emitGroup found oi group (groupsOf_nonempty
              (only ▸ List.mem_singleton_self group))).setPhase (.inl rfl)⟩
      | some live =>
          have same : (live.oi == oi) = true := beq_iff_eq.mpr (here live found)
          have one : groupsOf item = [] ∨ ∃ text, groupsOf item = [(false, text)] := by
            refine groups.imp_right fun single => ?_
            obtain ⟨group, only, plain⟩ := single
            refine ⟨group.2, ?_⟩
            rw [only, ← plain (by simp [found, same])]
          obtain ⟨live', found', at_, rest, shelf, last'⟩ := extendLive_one found last one
          simp only [Option.filter_some, same, if_true, Bool.false_eq_true, false_and, if_false,
            messageLive, rest, found', Option.map_some, Option.toList_some, List.foldl_nil]
          refine ⟨some live'.sent, Adds.setPhase (Adds.of_shelf shelf ?_) (.inr rfl)⟩
          rw [← here live found, ← at_]
          exact adds_closeLive found' last' (some item)

theorem adds_releaseItem (host : Host) {r after : Reducer} {oi : Nat} {item : PyDict}
    (here : r.LiveAt oi) (last : r.LiveLast) (one : Released.oneBlock ⟨r, oi, item⟩ = true)
    (found : r.releaseItem host oi item = some after) :
    ∃ sent, Adds r after oi sent
      (if isStr "message" (item.get? (lit "type")) then phaseIn (some item) else none) := by
  unfold releaseItem at found
  dsimp only at found
  cases message : isStr "message" (item.get? (lit "type")) with
  | true =>
      rw [message, if_pos rfl] at found
      cases found
      exact adds_message here last message one
  | false =>
      rw [message] at found
      simp only [Bool.false_eq_true, if_false] at found ⊢
      obtain ⟨closed, same, sent, adds⟩ : ∃ closed : Reducer,
          closed = (if r.live.any (fun live => live.oi == oi) then r.mismatch.closeLive none
            else r) ∧ ∃ sent, Adds r closed oi sent none := by
        refine ⟨_, rfl, ?_⟩
        cases live : r.live with
        | none => exact ⟨none, (Idles.refl live).adds live oi none⟩
        | some block =>
            have at_ : block.oi = oi := here block live
            simp only [Option.any_some, beq_iff_eq.mpr at_, if_true]
            have kept : r.mismatch.shelf = r.shelf := rfl
            exact ⟨_, at_ ▸ Adds.of_shelf kept
              (adds_closeLive (r := r.mismatch) live last none)⟩
      rw [← same] at found
      have quiet : ∀ {named : Reducer}, Idles closed named → ∃ sent, Adds r named oi sent none :=
        fun idles => ⟨sent, adds.idles idles⟩
      have nothing : Idles closed closed := Idles.refl adds.live
      split at found
      next => cases found
      next =>
          split at found
          next =>
              cases found
              exact quiet ⟨nothing.live, rfl, rfl, rfl, rfl, fun _ => id⟩
          next kind _ =>
              split at found
              next =>
                  cases found
                  exact quiet (idles_tool host adds.live item)
              next =>
                  split at found
                  next =>
                      cases found
                      exact quiet (idles_reasoningItem adds.live item)
                  next =>
                      cases found
                      exact quiet ⟨nothing.live, rfl, rfl, rfl, rfl, fun _ => id⟩

end Reducer

/-! ## The trace -/

theorem phaseOf_snoc (trace : List Released) (x : Released) (text : Str) :
    phaseOf (trace ++ [x]) text =
      (if text ∈ x.sent then x.phase else none).or (phaseOf trace text) := by
  unfold phaseOf
  by_cases sent : text ∈ x.sent
  · cases named : x.phase with
    | none => simp [List.filter_append, sent, named]
    | some phase => simp [List.filter_append, sent, named]
  · simp [List.filter_append, sent]

theorem phaseOf_nonempty {trace : List Released} {text phase : Str}
    (found : phaseOf trace text = some phase) : phase ≠ [] := by
  obtain ⟨x, -, named⟩ := List.mem_filterMap.mp (List.mem_of_getLast? found)
  simpa using (Option.filter_eq_some_iff.mp named).2

namespace Reducer

/-- The release of a message sent what it added. -/
theorem Adds.sent {r after : Reducer} {oi : Nat} {item : PyDict} {sent named : Option Str}
    (adds : Adds r after oi sent named) (same : after = r.message oi item)
    (message : isStr "message" (item.get? (lit "type")) = true) :
    Released.sent ⟨r, oi, item⟩ = sent.toList := by
  have length : r.closedTexts.length = r.texts.length - if r.live.isSome then 1 else 0 := by
    unfold closedTexts
    split <;> simp
  simp only [Released.sent, Released.isMessage, message, if_true]
  rw [← same, adds.texts, ← length, List.drop_left]

/-- What a reducer remembers of the releases so far. -/
structure Remembers (trace : List Released) (r : Reducer) : Prop where
  last : r.LiveLast
  recorded : ∀ text, text ∈ r.closedTexts ↔ ∃ oi, r.emittedText.get? oi = some text
  nonempty : ∀ text ∈ r.closedTexts, text ≠ []
  keyed : ∀ text, (∃ entry ∈ r.reasoning, entry.2 = some (.text text)) → text ∈ r.closedTexts
  phases : ∀ text, r.phases.get? text = phaseOf trace text

theorem Remembers.adds {trace trace' : List Released} {r after : Reducer} {oi : Nat}
    {sent named : Option Str} (remembers : Remembers trace r) (fresh : r.Fresh oi)
    (adds : Adds r after oi sent named)
    (traced : ∀ text, phaseOf trace' text =
      (if sent = some text then named else none).or (phaseOf trace text)) :
    Remembers trace' after := by
  have closed : after.closedTexts = r.closedTexts ++ sent.toList := by
    rw [closedTexts_idle adds.live, adds.texts]
  have unset : r.emittedText.get? oi = none := by
    cases found : r.emittedText.get? oi with
    | none => rfl
    | some text => exact absurd (fresh oi text found) (Nat.lt_irrefl oi)
  refine ⟨fun live found => absurd (adds.live.symm.trans found) (by simp), fun text => ?_,
    fun text member => ?_, fun text keyed => ?_, fun text => ?_⟩
  · rw [closed, List.mem_append, remembers.recorded, adds.recorded]
    cases sent with
    | none => simp
    | some new =>
        simp only [Option.toList_some, List.mem_singleton, Option.elim_some]
        constructor
        · rintro (⟨at_, found⟩ | rfl)
          · refine ⟨at_, ?_⟩
            rw [Map.get?_set_ne (fun same => ?_), found]
            rw [same, unset] at found
            cases found
          · exact ⟨oi, Map.get?_set_self _ _ _⟩
        · rintro ⟨at_, found⟩
          by_cases same : at_ = oi
          · rw [same, Map.get?_set_self] at found
            exact .inr (Option.some.inj found).symm
          · rw [Map.get?_set_ne same] at found
            exact .inl ⟨at_, found⟩
  · rw [closed, List.mem_append] at member
    exact member.elim (remembers.nonempty text) fun new => adds.nonempty text (by simpa using new)
  · rw [closed, List.mem_append]
    exact (adds.keyed text keyed).symm.imp (remembers.keyed text) fun new => by simp [new]
  · rw [adds.phases, remembers.phases, traced]

/-- Everything that is remembered. -/
def memory (r : Reducer) : List BlockEvent × Option Live × Map Nat Str × Map Str Str ×
    List (PyDict × Option ReplayKey) :=
  (r.out, r.live, r.emittedText, r.phases, r.reasoning)

theorem Remembers.of_memory {trace : List Released} {r after : Reducer}
    (remembers : Remembers trace r) (same : after.memory = r.memory) : Remembers trace after := by
  simp only [memory, Prod.mk.injEq] at same
  obtain ⟨out, live, recorded, phases, reasoning⟩ := same
  have texts : after.texts = r.texts := by rw [Reducer.texts, out, Reducer.texts]
  have closed : after.closedTexts = r.closedTexts := by rw [closedTexts, closedTexts, live, texts]
  refine ⟨?_, ?_, ?_, ?_, ?_⟩
  · rw [LiveLast, live, texts, closed]
    exact remembers.last
  · rw [closed, recorded]
    exact remembers.recorded
  · rw [closed]
    exact remembers.nonempty
  · rw [closed, reasoning]
    exact remembers.keyed
  · rw [phases]
    exact remembers.phases

theorem Fresh.adds {r after : Reducer} {oi bound : Nat} {sent named : Option Str}
    (fresh : r.Fresh bound) (before : oi < bound) (adds : Adds r after oi sent named) :
    after.Fresh bound := by
  intro key text found
  rw [adds.recorded] at found
  cases sent with
  | none => exact fresh key text found
  | some new =>
      by_cases same : key = oi
      · rwa [same]
      · rw [Option.elim_some, Map.get?_set_ne same] at found
        exact fresh key text found

theorem Fresh.mono {r : Reducer} {oi bound : Nat} (fresh : r.Fresh oi) (before : oi ≤ bound) :
    r.Fresh bound := fun key text found => Nat.lt_of_lt_of_le (fresh key text found) before

/-- A close that no item ends. -/
theorem Remembers.close {trace : List Released} {r : Reducer} (remembers : Remembers trace r)
    (fresh : ∀ live, r.live = some live → r.Fresh live.oi) :
    Remembers trace (r.closeLive none) := by
  cases found : r.live with
  | none => rwa [closeLive_idle found]
  | some live =>
      refine remembers.adds (fresh live found) (adds_closeLive found remembers.last none) ?_
      simp [phaseIn, nonemptyStr?]

theorem Remembers.release (host : Host) {trace : List Released} {r after : Reducer} {oi : Nat}
    {item : PyDict} (remembers : Remembers trace r) (here : r.LiveAt oi) (fresh : r.Fresh oi)
    (one : Released.oneBlock ⟨r, oi, item⟩ = true)
    (found : r.releaseItem host oi item = some after) :
    Remembers (trace ++ [⟨r, oi, item⟩]) after ∧ after.live = none ∧
      after.control = r.control ∧ ∀ bound, oi < bound → r.Fresh bound → after.Fresh bound := by
  obtain ⟨sent, adds⟩ := adds_releaseItem host here remembers.last one found
  refine ⟨remembers.adds fresh adds fun text => ?_, adds.live, adds.control,
    fun bound before fresh => fresh.adds before adds⟩
  rw [phaseOf_snoc]
  cases message : isStr "message" (item.get? (lit "type")) with
  | true =>
      have same : after = r.message oi item := by
        simpa [releaseItem, message] using found.symm
      rw [adds.sent same message]
      cases sent <;> simp [Released.phase, phaseIn, eq_comm]
  | false => simp [Released.sent, Released.isMessage, message]

/-! ## Runs -/

/-- What holds of a reducer while its reply goes on. -/
structure Tracked (trace : List Released) (r : Reducer) : Prop extends Remembers trace r where
  here : r.LiveAt r.cursor
  fresh : r.Fresh r.cursor
  ahead : ∀ oi, (r.held.get? oi).isSome → r.cursor ≤ oi
  distinct : (r.held.map (·.1)).Nodup

theorem Tracked.of_memory {trace : List Released} {r after : Reducer} (tracked : Tracked trace r)
    (same : after.memory = r.memory) (cursor : after.cursor = r.cursor)
    (held : after.held = r.held) : Tracked trace after := by
  have recalled := tracked.toRemembers.of_memory same
  simp only [memory, Prod.mk.injEq] at same
  obtain ⟨-, live, recorded, -, -⟩ := same
  refine ⟨recalled, ?_, ?_, ?_, ?_⟩
  · rw [LiveAt, live, cursor]
    exact tracked.here
  · rw [Fresh, recorded, cursor]
    exact tracked.fresh
  · rw [held, cursor]
    exact tracked.ahead
  · rw [held]
    exact tracked.distinct

theorem Tracked.hold {trace : List Released} {r : Reducer} (tracked : Tracked trace r) {oi : Nat}
    (ahead : r.cursor ≤ oi) (item : PyDict) : Tracked trace (r.hold oi item) := by
  refine ⟨tracked.toRemembers.of_memory rfl, tracked.here, tracked.fresh, fun other found => ?_,
    Map.distinct_set oi item tracked.distinct⟩
  by_cases same : other = oi
  · rwa [same]
  · exact tracked.ahead other (by rwa [Reducer.hold, Map.get?_set_ne same] at found)

theorem memory_warn (r : Reducer) (what : Str) : (r.warn what).memory = r.memory := by
  unfold warn
  split
  next => rfl
  next => split <;> rfl

theorem Tracked.warn {trace : List Released} {r : Reducer} (tracked : Tracked trace r)
    (what : Str) : Tracked trace (r.warn what) :=
  tracked.of_memory (memory_warn r what) (warn_cursor r what)
    (congrArg Control.held (quiet_warn r what).control)

theorem Tracked.fill {trace : List Released} {r : Reducer} (tracked : Tracked trace r)
    (entry : PyJson × Nat) : Tracked trace (r.fill entry) := by
  rcases fill_cases r entry with ⟨same, -⟩ | ⟨item, -, -, ahead, ⟨same, -, -⟩ | ⟨same, -⟩⟩
  · rwa [same]
  · rw [same]
    exact tracked.warn _
  · rw [same]
    exact (tracked.warn wFilled).hold ((warn_cursor r wFilled).trans_le ahead) item

theorem Tracked.fills {trace : List Released} (entries : List (PyJson × Nat)) {r : Reducer}
    (tracked : Tracked trace r) : Tracked trace (entries.foldl Reducer.fill r) := by
  induction entries generalizing r with
  | nil => exact tracked
  | cons entry entries ih => exact ih (tracked.fill entry)

theorem Tracked.releaseHeld (host : Host) (turns : Nat) {trace : List Released}
    {r after : Reducer} (tracked : Tracked trace r)
    (one : ∀ x ∈ r.heldReleases host turns, x.oneBlock = true)
    (released : r.releaseHeld host turns = some after) :
    Tracked (trace ++ r.heldReleases host turns) after := by
  induction turns generalizing r trace with
  | zero =>
      cases released
      simpa [heldReleases] using tracked
  | succ turns ih =>
      rw [heldReleases] at one ⊢
      unfold Reducer.releaseHeld at released
      split at released
      next absent =>
          cases released
          simpa [absent] using tracked
      next item found =>
          simp only [found] at one ⊢
          split at released
          next => cases released
          next taken done =>
              have step : r.taken.releaseItem host r.cursor item = some taken := done
              simp only [step] at one ⊢
              have kept : Remembers trace r.taken := tracked.toRemembers.of_memory rfl
              obtain ⟨remembers, idle, control, fresh⟩ := kept.release host tracked.here
                tracked.fresh (one _ List.mem_cons_self) step
              have cursor : taken.cursor = r.cursor := congrArg Control.cursor control
              have held : taken.held = r.held.erase r.cursor := congrArg Control.held control
              have next : Tracked (trace ++ [⟨r.taken, r.cursor, item⟩]) taken.moved := by
                refine ⟨remembers.of_memory rfl, fun live there => ?_, ?_, fun oi there => ?_, ?_⟩
                · exact absurd (idle.symm.trans there) (by simp)
                · have after := fresh (r.cursor + 1) (Nat.lt_succ_self _)
                    (tracked.fresh.mono (Nat.le_succ _))
                  rw [moved, cursor]
                  exact after
                · have there : ((r.held.erase r.cursor).get? oi).isSome := by
                    rwa [moved, held] at there
                  have other : oi ≠ r.cursor := by
                    intro same
                    rw [same, Map.get?_erase_self] at there
                    cases there
                  rw [Map.get?_erase_ne other] at there
                  have ahead := tracked.ahead oi there
                  change taken.cursor + 1 ≤ oi
                  omega
                · change (taken.held.map (·.1)).Nodup
                  rw [held, Map.erase_keys]
                  exact tracked.distinct.filter _
              have rest := ih next (fun x member => one x (List.mem_cons_of_mem _ member)) released
              rwa [List.append_assoc, List.singleton_append] at rest

/-- The live block is recorded under no index that is still to come. -/
def ClosesAhead (r : Reducer) : Prop := ∀ live, r.live = some live → r.Fresh live.oi

theorem closesAhead_idle {r : Reducer} (idle : r.live = none) : r.ClosesAhead :=
  fun _ there => absurd (idle.symm.trans there) (by simp)

theorem Remembers.closeOther {trace : List Released} {r : Reducer} {oi : Nat} {rest : List Nat}
    (remembers : Remembers trace r) (closes : r.ClosesAhead)
    (before : ∀ live, r.live = some live → live.oi ≤ oi)
    (fresh : ∀ key ∈ oi :: rest, r.Fresh key) (sorted : ∀ key ∈ rest, oi < key) :
    Remembers trace (r.closeOther oi) ∧ (r.closeOther oi).LiveAt oi ∧
      ∀ key ∈ oi :: rest, (r.closeOther oi).Fresh key := by
  unfold Reducer.closeOther
  cases found : r.live with
  | none =>
      simp only [Option.any_none, Bool.false_eq_true, if_false]
      exact ⟨remembers, fun _ there => absurd (found.symm.trans there) (by simp), fresh⟩
  | some live =>
      have at_ := before live found
      by_cases same : live.oi = oi
      · simp only [Option.any_some, same, bne_self_eq_false, Bool.false_eq_true, if_false]
        refine ⟨remembers, fun live' there => ?_, fresh⟩
        rw [found] at there
        cases there
        exact same
      · simp only [Option.any_some, bne_iff_ne.mpr same, if_true]
        have adds := adds_closeLive found remembers.last none
        refine ⟨remembers.close closes,
          fun _ there => absurd (adds.live.symm.trans there) (by simp), fun key member => ?_⟩
        refine (fresh key member).adds ?_ adds
        cases List.mem_cons.mp member with
        | inl head => omega
        | inr later =>
            have := sorted key later
            omega

/-- The first of the indexes is released, and then the rest. -/
theorem releaseAll_cons (host : Host) (oi : Nat) (rest : List Nat) (r : Reducer) :
    r.releaseAll host (oi :: rest) = ((r.closeOther oi).held.get? oi).bind fun item =>
      (((r.closeOther oi).takenAt oi).releaseItem host oi item).bind (·.releaseAll host rest) := by
  rw [Reducer.releaseAll, ← Reducer.closeOther]
  cases (r.closeOther oi).held.get? oi with
  | none => rfl
  | some item =>
      simp only [Option.bind_some, takenAt]
      split <;> simp_all

theorem Remembers.releaseAll (host : Host) (indexes : List Nat) {trace : List Released}
    {r after : Reducer} (remembers : Remembers trace r) (closes : r.ClosesAhead)
    (before : ∀ live, r.live = some live → ∀ oi ∈ indexes, live.oi ≤ oi)
    (fresh : ∀ oi ∈ indexes, r.Fresh oi) (sorted : indexes.Pairwise (· < ·))
    (one : ∀ x ∈ r.allReleases host indexes, x.oneBlock = true)
    (released : r.releaseAll host indexes = some after) :
    Remembers (trace ++ r.allReleases host indexes) after ∧ after.ClosesAhead := by
  induction indexes generalizing r trace with
  | nil =>
      cases released
      exact ⟨by simpa [Reducer.allReleases] using remembers, closes⟩
  | cons oi rest ih =>
      obtain ⟨ahead, sorted⟩ := List.pairwise_cons.mp sorted
      obtain ⟨closed, here, fresh⟩ := remembers.closeOther closes
        (fun live there => before live there oi List.mem_cons_self) fresh ahead
      rw [Reducer.allReleases] at one ⊢
      cases found : (r.closeOther oi).held.get? oi with
      | none =>
          rw [releaseAll_cons, found] at released
          cases released
      | some item =>
          rw [releaseAll_cons, found, Option.bind_some] at released
          simp only [found] at one ⊢
          cases step : ((r.closeOther oi).takenAt oi).releaseItem host oi item with
          | none =>
              rw [step] at released
              cases released
          | some taken =>
              rw [step, Option.bind_some] at released
              simp only [step] at one ⊢
              have kept : Remembers trace ((r.closeOther oi).takenAt oi) := closed.of_memory rfl
              obtain ⟨remembers, idle, -, grown⟩ := kept.release host here
                (fresh oi List.mem_cons_self) (one _ List.mem_cons_self) step
              have next := ih remembers (closesAhead_idle idle)
                (fun live there => absurd (idle.symm.trans there) (by simp))
                (fun key member => grown key (ahead key member)
                  (fresh key (List.mem_cons_of_mem _ member))) sorted
                (fun x member => one x (List.mem_cons_of_mem _ member)) released
              rwa [List.append_assoc, List.singleton_append] at next

theorem Tracked.done (host : Host) {trace : List Released} {r after : Reducer}
    (tracked : Tracked trace r) (d : PyDict)
    (one : ∀ x ∈ r.doneReleases host d, x.oneBlock = true) (done : r.done host d = some after) :
    Tracked (trace ++ r.doneReleases host d) after := by
  unfold Reducer.done at done
  unfold doneReleases at one ⊢
  split at done
  next absent =>
      cases done
      simpa [absent] using tracked.warn wNotObject
  next item found =>
      simp only [found] at one ⊢
      dsimp only at done
      split at done
      next repeated =>
          cases done
          simpa [repeated] using tracked.warn wRepeat
      next fresh =>
          simp only [fresh, if_false] at one ⊢
          rw [not_or, Nat.not_lt] at fresh
          exact (tracked.hold fresh.2 item).releaseHeld host _ one done

theorem insertionSort_lt {keys : List Nat} (distinct : keys.Nodup) :
    (keys.insertionSort (· ≤ ·)).Pairwise (· < ·) := by
  have sorted := List.pairwise_insertionSort (· ≤ ·) keys
  have nodup := (List.perm_insertionSort (· ≤ ·) keys).nodup_iff.mpr distinct
  exact (sorted.and nodup).imp fun ⟨le, ne⟩ => Nat.lt_of_le_of_ne le ne

theorem Tracked.conclude (host : Host) {trace : List Released} {r after : Reducer}
    (tracked : Tracked trace r) {kind : TerminalKind} {reason : Option Str} {resp : PyDict}
    (one : ∀ x ∈ r.concludeReleases host resp, x.oneBlock = true)
    (ended : r.conclude host kind reason resp = some after) :
    Remembers (trace ++ r.concludeReleases host resp) after := by
  unfold Reducer.conclude at ended
  unfold concludeReleases at one ⊢
  dsimp only at one ended ⊢
  have filled := tracked.fills (((resp.get? (lit "output")).bind PyJson.list?).getD []).zipIdx
  generalize (((resp.get? (lit "output")).bind PyJson.list?).getD []).zipIdx.foldl
    Reducer.fill r = held at filled one ended ⊢
  have ahead : ∀ oi ∈ (held.held.map (·.1)).insertionSort (· ≤ ·), held.cursor ≤ oi := by
    intro oi member
    rw [List.mem_insertionSort, Map.mem_keys_iff] at member
    exact filled.ahead oi member
  split at ended
  next => cases ended
  next released all =>
      cases ended
      obtain ⟨remembers, closes⟩ := filled.toRemembers.releaseAll host _
        (fun live there => filled.here live there ▸ filled.fresh)
        (fun live there oi member => (filled.here live there).trans_le (ahead oi member))
        (fun oi member => filled.fresh.mono (ahead oi member)) (insertionSort_lt filled.distinct)
        one all
      have moved : Remembers _ ({ released with cursor := released.cursor + 1 } : Reducer) :=
        remembers.of_memory rfl
      exact (moved.close closes).of_memory rfl

/-- Text that is sent into a live block changes nothing that is closed. -/
theorem Tracked.grow {trace : List Released} {r after : Reducer} (tracked : Tracked trace r)
    (same : after.shelf = r.shelf) (last : after.LiveLast) (here : after.LiveAt after.cursor) :
    Tracked trace after := by
  simp only [shelf, Prod.mk.injEq] at same
  obtain ⟨closed, control, recorded, phases, reasoning⟩ := same
  have cursor : after.cursor = r.cursor := congrArg Control.cursor control
  have held : after.held = r.held := congrArg Control.held control
  refine ⟨⟨last, ?_, ?_, ?_, ?_⟩, here, ?_, ?_, ?_⟩
  · rw [closed, recorded]
    exact tracked.recorded
  · rw [closed]
    exact tracked.nonempty
  · rw [closed, reasoning]
    exact tracked.keyed
  · rw [phases]
    exact tracked.phases
  · rw [Fresh, recorded, cursor]
    exact tracked.fresh
  · rw [held, cursor]
    exact tracked.ahead
  · rw [held]
    exact tracked.distinct

theorem Tracked.liveDelta {trace : List Released} {r : Reducer} (tracked : Tracked trace r)
    (d : PyDict) : Tracked trace (r.liveDelta d) := by
  have here := (emits_liveDelta r d tracked.here).2
  unfold Reducer.liveDelta at here ⊢
  split
  next => exact tracked
  next liveText =>
      rw [if_neg liveText] at here
      split
      next => exact tracked
      next oi found =>
          simp only [found] at here
          split
          next => exact tracked
          next fresh =>
              rw [if_neg fresh] at here
              split
              next => exact tracked
              next delta given =>
                  simp only [given] at here
                  have nonempty : delta ≠ [] := by
                    simpa using (Option.filter_eq_some_iff.mp given).2
                  split
                  next => exact tracked
                  next first =>
                      rw [if_neg first] at here
                      cases live : r.live with
                      | some block =>
                          simp only [openLive, live] at here ⊢
                          obtain ⟨same, last⟩ := grown_shelf live tracked.last delta
                          exact tracked.grow same last here
                      | none =>
                          simp only [openLive, live] at here ⊢
                          have texts : ((r.openBlock .text).sendLive ⟨oi, r.blocks, []⟩
                              delta).texts = r.texts ++ [delta] := by
                            simp [Reducer.texts, textsOf, sendLive, emit, openBlock, textStep]
                          have closed : ((r.openBlock .text).sendLive ⟨oi, r.blocks, []⟩
                              delta).closedTexts = r.closedTexts := by
                            rw [closedTexts_idle live, closedTexts, texts]
                            simp [sendLive]
                          refine tracked.grow ?_ (fun block there => ?_) here
                          · rw [shelf, closed]
                            rfl
                          · cases there
                            exact ⟨by simpa using nonempty,
                              by rw [texts, closed, closedTexts_idle live]; rfl⟩

theorem Remembers.fail {trace : List Released} {r : Reducer} (tracked : Tracked trace r)
    (err : BridgeError) (response : Option PyDict) (kind : TerminalKind) (reason : Option Str) :
    Remembers trace (r.fail err response kind reason) :=
  (tracked.toRemembers.close fun live there => tracked.here live there ▸ tracked.fresh).of_memory
    rfl

/-- What holds after one event: the reply goes on, or it has ended. -/
def Standing (trace : List Released) (r : Reducer) : Prop :=
  Remembers trace r ∧ (r.terminal = none → Tracked trace r)

theorem Tracked.standing {trace : List Released} {r : Reducer} (tracked : Tracked trace r) :
    Standing trace r := ⟨tracked.toRemembers, fun _ => tracked⟩

theorem typedReleases_other (host : Host) (r : Reducer) {etype : Str} (d : PyDict)
    (done : etype ≠ lit "response.output_item.done") (completed : etype ≠ lit "response.completed")
    (incomplete : etype ≠ lit "response.incomplete") : r.typedReleases host etype d = [] := by
  simp [typedReleases, done, completed, incomplete]

theorem standing_fail {trace : List Released} {r : Reducer} (tracked : Tracked trace r)
    (err : BridgeError) (response : Option PyDict) (kind : TerminalKind) (reason : Option Str) :
    Standing trace (r.fail err response kind reason) :=
  ⟨Remembers.fail tracked err response kind reason, fun ongoing => by cases ongoing⟩

theorem standing_conclude (host : Host) {trace : List Released} {r after : Reducer}
    (tracked : Tracked trace r) {kind : TerminalKind} {reason : Option Str} {resp : PyDict}
    (one : ∀ x ∈ r.concludeReleases host resp, x.oneBlock = true)
    (ended : r.conclude host kind reason resp = some after) :
    Standing (trace ++ r.concludeReleases host resp) after := by
  refine ⟨tracked.conclude host one ended, fun ongoing => ?_⟩
  have isOver := (ends_conclude host ended).terminal
  rw [ongoing] at isOver
  cases isOver

theorem standing_incomplete (host : Host) {trace : List Released} {r after : Reducer}
    (tracked : Tracked trace r) {d : PyDict}
    (one : ∀ x ∈ r.typedReleases host (lit "response.incomplete") d, x.oneBlock = true)
    (ended : r.finishIncomplete host (d.get? (lit "response")) = some after) :
    Standing (trace ++ r.typedReleases host (lit "response.incomplete") d) after := by
  unfold finishIncomplete at ended
  unfold typedReleases at one ⊢
  have apart : (lit "response.incomplete" : Str) ≠ lit "response.output_item.done" ∧
      (lit "response.incomplete" : Str) ≠ lit "response.completed" := by decide
  simp only [apart.1, apart.2, if_false, true_and] at one ⊢
  dsimp only at ended
  split at ended
  next unknown =>
      cases ended
      simp only [unknown, if_false, List.append_nil]
      exact standing_fail (r := r.name _ _) (tracked.of_memory rfl rfl rfl) _ _ _ _
  next known =>
      rw [not_not] at known
      simp only [known, if_true] at one ⊢
      exact standing_conclude host (r := r.name _ _) (tracked.of_memory rfl rfl rfl) one ended

theorem standing_feedTyped (host : Host) {trace : List Released} {r after : Reducer}
    (tracked : Tracked trace r) {etype : Str} {d : PyDict}
    (one : ∀ x ∈ r.typedReleases host etype d, x.oneBlock = true)
    (fed : r.feedTyped host etype d = some after) :
    Standing (trace ++ r.typedReleases host etype d) after := by
  have other : etype ≠ lit "response.output_item.done" → etype ≠ lit "response.completed" →
      etype ≠ lit "response.incomplete" → Standing trace after →
      Standing (trace ++ r.typedReleases host etype d) after := by
    intro done completed incomplete standing
    rwa [typedReleases_other host r d done completed incomplete, List.append_nil]
  unfold feedTyped at fed
  split at fed
  next type =>
      cases fed
      refine other (by rw [type]; decide) (by rw [type]; decide) (by rw [type]; decide)
        (Tracked.standing (tracked.of_memory ?_ ?_ ?_))
      all_goals
        unfold created
        split <;> rfl
  next =>
  split at fed
  next type =>
      cases fed
      refine other (by rw [type]; decide) (by rw [type]; decide) (by rw [type]; decide)
        (Tracked.standing (tracked.of_memory ?_ ?_ ?_))
      all_goals
        unfold announce
        split <;> rfl
  next =>
  split at fed
  next type =>
      cases fed
      exact other (by rw [type]; decide) (by rw [type]; decide) (by rw [type]; decide)
        (tracked.liveDelta d).standing
  next =>
  split at fed
  next type =>
      have same : r.typedReleases host etype d = r.doneReleases host d := by
        simp [typedReleases, type]
      rw [same] at one ⊢
      exact (tracked.done host d one fed).standing
  next notDone =>
  split at fed
  next type =>
      have same : r.typedReleases host etype d =
          r.concludeReleases host (((d.get? (lit "response")).bind PyJson.dict?).getD []) := by
        rw [typedReleases, if_neg notDone, if_pos type]
      rw [same] at one ⊢
      exact standing_conclude host tracked one fed
  next notCompleted =>
  split at fed
  next type =>
      subst type
      exact standing_incomplete host tracked one fed
  next notIncomplete =>
  have other := other notDone notCompleted notIncomplete
  split at fed
  next =>
      cases fed
      exact other (standing_fail tracked _ _ _ _)
  next =>
  split at fed
  next =>
      cases fed
      exact other (standing_fail tracked _ _ _ _)
  next =>
  split at fed
  next =>
      cases fed
      exact other (Tracked.standing (tracked.of_memory rfl rfl rfl))
  next =>
      cases fed
      exact other tracked.standing

theorem standing_feed (host : Host) {trace : List Released} {r after : Reducer}
    (tracked : Tracked trace r) (ongoing : r.terminal = none) {ev : SseEvent}
    (one : ∀ x ∈ r.releases host ev, x.oneBlock = true) (fed : r.feed host ev = some after) :
    Standing (trace ++ r.releases host ev) after := by
  unfold feed at fed
  rw [ongoing] at fed
  simp only [Option.isSome_none, Bool.false_eq_true, if_false] at fed
  unfold releases at one ⊢
  rw [ongoing] at one ⊢
  split at fed
  next d etype data type =>
      simp only [data, type] at one ⊢
      exact standing_feedTyped host tracked one fed
  next malformed =>
      cases fed
      split
      next d etype _ data type => exact absurd type (malformed d etype data)
      next =>
          rw [List.append_nil]
          exact tracked.standing

theorem tracked_new (nameMap : Map Str Str) (toolsRequired : List Str) (liveText : Bool) :
    Tracked [] (new nameMap toolsRequired liveText) := by
  refine ⟨⟨?_, ?_, ?_, ?_, ?_⟩, ?_, ?_, ?_, ?_⟩
  all_goals
    simp [new, LiveLast, closedTexts, Reducer.texts, textsOf, phaseOf, LiveAt, Fresh]

end Reducer

theorem standing_feedAll (host : Host) (events : List SseEvent) {trace : List Released}
    {r after : Reducer} (tracked : Reducer.Tracked trace r) (ongoing : r.terminal = none)
    (one : ∀ x ∈ allReleases host events r, x.oneBlock = true)
    (fed : feedAll host events r = some after) :
    Reducer.Standing (trace ++ allReleases host events r) after := by
  induction events generalizing r trace with
  | nil =>
      cases fed
      simpa [allReleases] using tracked.standing
  | cons ev rest ih =>
      unfold feedAll at fed
      unfold allReleases at one ⊢
      split at fed
      next => cases fed
      next next_ step =>
          simp only [step] at one ⊢
          have standing := Reducer.standing_feed host tracked ongoing
            (fun x member => one x (List.mem_append_left _ member)) step
          split at fed
          next isOver =>
              cases fed
              simpa [isOver] using standing
          next goes =>
              simp only [goes, Bool.false_eq_true, if_false] at one ⊢
              have ongoing := Option.not_isSome_iff_eq_none.mp goes
              have rest := ih (standing.2 ongoing) ongoing
                (fun x member => one x (List.mem_append_right _ member)) fed
              rwa [List.append_assoc] at rest

end Ccrc.CodexBridge
