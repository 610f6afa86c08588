import Ccrc.Shared.AdvanceFile

/-! What the checks of the advance file let through, and what changes of one class and a write
to the disk leave of it. -/

set_option autoImplicit false

namespace Ccrc.Shared

open Library
open Library.Text (lit unit)

/-! ## What the checks let through -/

theorem require_iff {holds : Bool} {field what : Text} :
    require holds field what = .ok () ↔ holds = true := by
  cases holds <;> simp [require]

theorem check_bind {α : Type} {check : Except AdvanceInvalid Unit} {next : Except AdvanceInvalid α}
    {out : α} : (check >>= fun _ => next) = .ok out ↔ check = .ok () ∧ next = .ok out := by
  cases check with
  | error refused => simp [Bind.bind, Except.bind]
  | ok done => simp [Bind.bind, Except.bind]

theorem checkAll_iff {α : Type} {check : α → Except AdvanceInvalid Unit} {items : List α} :
    checkAll check items = .ok () ↔ ∀ item ∈ items, check item = .ok () := by
  induction items with
  | nil => simp [checkAll]
  | cons item rest ih =>
      rw [checkAll, List.forall_mem_cons, ← ih, check_bind]

/-- A history entry that the file may hold. -/
structure EntryOk (e : Value) : Prop where
  object : e.isObject = true
  atTime : isAt (e.field? (lit "at")) = true
  how : isOneOf hows (e.field? (lit "how")) = true
  former : isIdOrNull (e.field? (lit "from")) = true
  target : isIdOrNull (e.field? (lit "to")) = true
  ok : isBoolean (e.field? (lit "ok")) = true
  canary : isOneOf canaryResults (e.field? (lit "canary")) = true
  effort : ((e.field? (lit "effort")).isNone || isEffort (e.field? (lit "effort"))) = true
  reason : ((e.field? (lit "reason")).isNone || isReason (e.field? (lit "reason"))) = true
  tries : ((e.field? (lit "tries")).isNone ||
    (isFailedAdvance e && (integer? (e.field? (lit "tries"))).any (1 ≤ ·))) = true
  lastAt : ((e.field? (lit "lastAt")).isNone ||
    (isFailedAdvance e && isAt (e.field? (lit "lastAt")))) = true
  recovered : ((e.field? (lit "recovered")).isNone ||
    isBoolean (e.field? (lit "recovered"))) = true

theorem checkEntry_iff {e : Value} {f : Text} : checkEntry e f = .ok () ↔ EntryOk e := by
  unfold checkEntry
  simp only [check_bind, require_iff]
  constructor
  · rintro ⟨object, atTime, how, former, target, ok, canary, effort, reason, tries, lastAt, recovered⟩
    exact ⟨object, atTime, how, former, target, ok, canary, effort, reason, tries, lastAt, recovered⟩
  · rintro ⟨object, atTime, how, former, target, ok, canary, effort, reason, tries, lastAt, recovered⟩
    exact ⟨object, atTime, how, former, target, ok, canary, effort, reason, tries, lastAt, recovered⟩

/-- A history that the file may hold. -/
structure HistoryOk (entries : List Value) : Prop where
  length : entries.length ≤ historyCap
  entries : ∀ e ∈ entries, EntryOk e

theorem checkHistory_iff {f : Text} {history : Option Value} :
    checkHistory f history = .ok () ↔
      ∃ entries, entries? history = some entries ∧ HistoryOk entries := by
  unfold checkHistory
  simp only [check_bind, require_iff, checkAll_iff, checkEntry_iff, decide_eq_true_eq]
  cases entries? history with
  | none => simp
  | some entries =>
      simp only [Option.isSome_some, true_and, Option.getD_some, Option.some.injEq, exists_eq_left']
      constructor
      · rintro ⟨length, all⟩
        refine ⟨length, fun e member => ?_⟩
        rw [← List.zipIdx_map_fst 0 entries] at member
        obtain ⟨entry, isEntry, rfl⟩ := List.mem_map.mp member
        exact all entry isEntry
      · rintro ⟨length, all⟩
        refine ⟨length, fun entry member => all entry.1 ?_⟩
        rw [← List.zipIdx_map_fst 0 entries]
        exact List.mem_map_of_mem member

def HoldOk (hold : Option Value) : Prop :=
  isNull hold = true ∨ (isObj hold = true ∧ isAt (hold.bind (·.field? (lit "at"))) = true ∧
    isOneOf holdBy (hold.bind (·.field? (lit "by"))) = true)

theorem checkHold_iff {f : Text} {hold : Option Value} : checkHold f hold = .ok () ↔ HoldOk hold := by
  unfold checkHold HoldOk
  cases null : isNull hold with
  | true => simp
  | false => simp only [Bool.false_eq_true, if_false, check_bind, require_iff, false_or]

def PreviousOk (previous : Option Value) : Prop :=
  isNull previous = true ∨ (isObj previous = true ∧
    isIdOrNull (previous.bind (·.field? (lit "model"))) = true ∧
    isLevelOrNull (previous.bind (·.field? (lit "effort"))) = true)

theorem checkPrevious_iff {f : Text} {previous : Option Value} :
    checkPrevious f previous = .ok () ↔ PreviousOk previous := by
  unfold checkPrevious PreviousOk
  cases null : isNull previous with
  | true => simp
  | false => simp only [Bool.false_eq_true, if_false, check_bind, require_iff, false_or]

/-- A class's facts that the file may hold. -/
structure ClassOk (x : Option Value) : Prop where
  object : isObj x = true
  family : isFamily (x.bind (·.field? (lit "family"))) = true
  hold : HoldOk (x.bind (·.field? (lit "hold")))
  previous : PreviousOk (x.bind (·.field? (lit "previous")))
  history : ∃ entries, entries? (x.bind (·.field? (lit "history"))) = some entries ∧
    HistoryOk entries

theorem checkClass_iff {found : Option Value} {c : ModelClass} :
    checkClass found c = .ok () ↔ ClassOk (found.bind (·.field? c.text)) := by
  unfold checkClass
  simp only [check_bind, require_iff, checkHold_iff, checkPrevious_iff, checkHistory_iff]
  constructor
  · rintro ⟨object, family, hold, previous, history⟩
    exact ⟨object, family, hold, previous, history⟩
  · rintro ⟨object, family, hold, previous, history⟩
    exact ⟨object, family, hold, previous, history⟩

/-- A file that is accepted. -/
structure Accepted (adv : Value) : Prop where
  object : adv.isObject = true
  version : integer? (adv.field? (lit "v")) = some advanceVersion
  found : isObj (adv.field? (lit "classes")) = true
  names : ∀ key ∈ keys (adv.field? (lit "classes")), key ∈ classWords
  classes : ∀ c, ClassOk (classOf adv c)
  pending : checkPending (adv.field? (lit "pending")) = .ok ()

theorem mem_classes (c : ModelClass) : c ∈ classes := by cases c <;> decide

theorem parseAdvance_iff {spelled : Option Value → Text} {input adv : Value} :
    parseAdvance spelled input = .ok adv ↔ adv = copy input ∧ Accepted (copy input) := by
  unfold parseAdvance
  dsimp only
  generalize copy input = json
  cases object : json.isObject with
  | false =>
      simp only [Bool.not_false, if_true]
      refine iff_of_false (fun bad => by cases bad) ?_
      rintro ⟨-, accepted⟩
      rw [accepted.object] at object
      cases object
  | true =>
      simp only [Bool.not_true, Bool.false_eq_true, if_false, check_bind, require_iff,
        checkAll_iff, checkClass_iff, beq_iff_eq, List.contains_iff_mem]
      constructor
      · rintro ⟨version, found, names, all, pending, same⟩
        refine ⟨(Except.ok.inj same).symm, object, version, found, names, fun c => ?_, pending⟩
        exact all c (mem_classes c)
      · rintro ⟨rfl, accepted⟩
        exact ⟨accepted.version, accepted.found, accepted.names,
          fun c _ => accepted.classes c, accepted.pending, rfl⟩

/-! ## Changes of one class -/

section Update

variable {adv x : Value} {c other : ModelClass} {change : Value → Value} {key : Text}

theorem text_injective (same : c.text = other.text) : c = other := by
  cases c <;> cases other <;> first | rfl | exact absurd same (by decide)

theorem classOf_updateClass_self :
    classOf (updateClass c change adv) c = (classOf adv c).map change := by
  unfold classOf updateClass
  rw [Json.field?_update_self]
  cases adv.field? (lit "classes") with
  | none => rfl
  | some found =>
      simp only [Option.map_some, Option.bind_some, Json.field?_update_self]

theorem classOf_updateClass_ne (apart : other ≠ c) :
    classOf (updateClass c change adv) other = classOf adv other := by
  unfold classOf updateClass
  rw [Json.field?_update_self]
  cases adv.field? (lit "classes") with
  | none => rfl
  | some found =>
      have words : other.text ≠ c.text := fun same => apart (text_injective same)
      simp only [Option.map_some, Option.bind_some, Json.field?_update_ne words]

theorem field?_updateClass (apart : key ≠ lit "classes") :
    (updateClass c change adv).field? key = adv.field? key :=
  Json.field?_update_ne apart

theorem keys_update : keys (some (x.update key change)) = keys (some x) := by
  cases x with
  | object fields =>
      simp only [Json.update, keys, List.map_map]
      refine List.map_congr_left fun field member => ?_
      simp only [Function.comp]
      split <;> rfl
  | _ => rfl

theorem Accepted.updateClass (accepted : Accepted adv) (ok : ClassOk ((classOf adv c).map change)) :
    Accepted (updateClass c change adv) := by
  have found : (Ccrc.Shared.updateClass c change adv).field? (lit "classes") =
      (adv.field? (lit "classes")).map (Json.update c.text change) := Json.field?_update_self
  constructor
  case object =>
    rw [Ccrc.Shared.updateClass, Json.isObject_update, accepted.object]
  case version =>
    rw [field?_updateClass (by decide), accepted.version]
  case found =>
    have before := accepted.found
    rw [found]
    cases classes : adv.field? (lit "classes") with
    | none => simp [classes, isObj] at before
    | some value =>
        rw [classes] at before
        simpa [isObj, Json.isObject_update] using before
  case names =>
    have before := accepted.names
    rw [found]
    cases classes : adv.field? (lit "classes") with
    | none =>
        intro key member
        cases member
    | some value =>
        rw [classes] at before
        rw [Option.map_some, keys_update]
        exact before
  case classes =>
    intro other
    by_cases same : other = c
    · rw [same, classOf_updateClass_self]
      exact ok
    · rw [classOf_updateClass_ne same]
      exact accepted.classes other
  case pending =>
    rw [field?_updateClass (by decide)]
    exact accepted.pending

theorem ClassOk.updateHistory {found : Option Value} {change : List Value → List Value}
    (ok : ClassOk found) (keeps : ∀ entries, HistoryOk entries → HistoryOk (change entries)) :
    ClassOk (found.map (Json.update (lit "history") (changeEntries change))) := by
  cases found with
  | none => exact ok
  | some x =>
      have same : ∀ key, key ≠ lit "history" →
          (Json.update (lit "history") (changeEntries change) x).field? key = x.field? key :=
        fun key apart => Json.field?_update_ne apart
      obtain ⟨entries, isHistory, history⟩ := ok.history
      constructor
      case object => simpa [isObj, Json.isObject_update] using ok.object
      case family =>
        simpa only [Option.map_some, Option.bind_some, same (lit "family") (by decide)] using
          ok.family
      case hold =>
        simpa only [Option.map_some, Option.bind_some, same (lit "hold") (by decide)] using
          ok.hold
      case previous =>
        simpa only [Option.map_some, Option.bind_some, same (lit "previous") (by decide)] using
          ok.previous
      case history =>
        refine ⟨change entries, ?_, keeps entries history⟩
        rw [Option.bind_some] at isHistory
        rw [Option.map_some, Option.bind_some, Json.field?_update_self]
        cases value : x.field? (lit "history") with
        | none =>
            rw [value] at isHistory
            cases isHistory
        | some value' =>
            rw [value] at isHistory
            cases value' <;> cases isHistory
            rfl

end Update

/-! ## What the disk does to a value -/

/-- A value that a file holds as it is. -/
abbrev Stored (value : Value) : Prop := Json.Rereads Double.reread value

theorem Stored.copy_eq {value : Value} (stored : Stored value) : copy value = value := stored

section Copy

variable {value : Option Value}

theorem text?_copy : text? (value.map copy) = text? value := by
  cases value with
  | none => rfl
  | some value =>
      cases value with
      | number number =>
          simp only [Option.map_some, copy, Json.reread]
          split <;> rfl
      | _ => rfl

theorem readId_copy {id : Option Text} (reads : readId value = some id) :
    readId (value.map copy) = some id := by
  cases value with
  | none => cases reads
  | some value =>
      cases value with
      | number number => cases reads
      | null => exact reads
      | string text => exact reads
      | bool value => cases reads
      | array items => cases reads
      | object fields => cases reads

theorem isObj_copy : isObj (value.map copy) = isObj value := by
  cases value with
  | none => rfl
  | some value => exact Json.isObject_reread

theorem isBoolean_copy (isBool : isBoolean value = true) : isBoolean (value.map copy) = true := by
  cases value with
  | none => cases isBool
  | some value =>
      cases value with
      | bool value => rfl
      | _ => cases isBool

theorem integer?_copy {number : Int} (reads : integer? value = some number) (positive : 1 ≤ number) :
    integer? (value.map copy) = some number := by
  cases value with
  | none => cases reads
  | some value =>
      cases value with
      | number double =>
          have kept := Double.reread_whole reads positive
          simp only [Option.map_some, copy, Json.reread, kept]
          exact reads
      | _ => cases reads

theorem isIdOrNull_copy (isId : isIdOrNull value = true) : isIdOrNull (value.map copy) = true := by
  unfold isIdOrNull at isId ⊢
  cases reads : readId value with
  | none =>
      rw [reads] at isId
      cases isId
  | some id =>
      rw [reads] at isId
      rw [readId_copy reads]
      exact isId

theorem isLevelOrNull_copy (isLevel : isLevelOrNull value = true) :
    isLevelOrNull (value.map copy) = true := by
  unfold isLevelOrNull at isLevel ⊢
  cases reads : readId value with
  | none =>
      rw [reads] at isLevel
      cases isLevel
  | some level =>
      rw [reads] at isLevel
      rw [readId_copy reads]
      exact isLevel

theorem bind_field?_copy {key : Text} :
    ((value.map copy).bind (·.field? key)) = (value.bind (·.field? key)).map copy := by
  cases value with
  | none => rfl
  | some value => exact Json.field?_reread

theorem isEffort_copy (isEffort' : isEffort value = true) : isEffort (value.map copy) = true := by
  unfold isEffort at isEffort' ⊢
  rw [Bool.and_eq_true, Bool.and_eq_true] at isEffort' ⊢
  obtain ⟨⟨object, former⟩, target⟩ := isEffort'
  rw [isObj_copy, bind_field?_copy, bind_field?_copy]
  exact ⟨⟨object, isLevelOrNull_copy former⟩, isLevelOrNull_copy target⟩

end Copy

theorem field?_copy {e : Value} {key : Text} : (copy e).field? key = (e.field? key).map copy :=
  Json.field?_reread

theorem isFailedAdvance_copy {e : Value} (failed : isFailedAdvance e = true) :
    isFailedAdvance (copy e) = true := by
  unfold isFailedAdvance at failed ⊢
  rw [Bool.and_eq_true] at failed ⊢
  refine ⟨?_, ?_⟩
  · rw [field?_copy, isOneOf, text?_copy]
    exact failed.1
  · have refused := failed.2
    rw [field?_copy]
    cases ok : e.field? (lit "ok") with
    | none => simp [ok] at refused
    | some value =>
        cases value with
        | bool value => cases value <;> simp [ok, copy, Json.reread] at refused ⊢
        | _ => simp [ok] at refused

/-- A valid entry is valid as the file will hold it. -/
theorem EntryOk.copy {e : Value} (ok : EntryOk e) : EntryOk (copy e) := by
  have absentOr : ∀ {key : Text} {holds holds' : Bool},
      ((e.field? key).isNone || holds) = true → (holds = true → holds' = true) →
        ((((Ccrc.Shared.copy e).field? key)).isNone || holds') = true := by
    intro key holds holds' either step
    rw [field?_copy, Option.isNone_map, Bool.or_eq_true]
    rcases Bool.or_eq_true _ _ ▸ either with absent | held
    · exact .inl absent
    · exact .inr (step held)
  constructor
  case object => exact Json.isObject_reread.trans ok.object
  case atTime => rw [field?_copy, isAt, text?_copy]; exact ok.atTime
  case how => rw [field?_copy, isOneOf, text?_copy]; exact ok.how
  case former => rw [field?_copy]; exact isIdOrNull_copy ok.former
  case target => rw [field?_copy]; exact isIdOrNull_copy ok.target
  case ok => rw [field?_copy]; exact isBoolean_copy ok.ok
  case canary => rw [field?_copy, isOneOf, text?_copy]; exact ok.canary
  case effort =>
    refine absentOr ok.effort fun held => ?_
    rw [field?_copy]
    exact isEffort_copy held
  case reason =>
    refine absentOr ok.reason fun held => ?_
    rw [field?_copy, isReason, text?_copy]
    exact held
  case tries =>
    refine absentOr ok.tries fun held => ?_
    rw [Bool.and_eq_true] at held ⊢
    obtain ⟨failed, tries⟩ := held
    obtain ⟨number, reads, positive⟩ := (Option.any_eq_true _ _).mp tries
    refine ⟨isFailedAdvance_copy failed, ?_⟩
    rw [field?_copy, integer?_copy reads (by simpa using positive)]
    exact positive
  case lastAt =>
    refine absentOr ok.lastAt fun held => ?_
    rw [Bool.and_eq_true] at held ⊢
    refine ⟨isFailedAdvance_copy held.1, ?_⟩
    rw [field?_copy, isAt, text?_copy]
    exact held.2
  case recovered =>
    refine absentOr ok.recovered fun held => ?_
    rw [field?_copy]
    exact isBoolean_copy held

end Ccrc.Shared
