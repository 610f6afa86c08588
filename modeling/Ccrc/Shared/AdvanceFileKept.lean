import Ccrc.Shared.AdvanceFileProperties

/-! The operations of the advance file answer files that are accepted again and that the disk
holds as they are. -/

set_option autoImplicit false

namespace Ccrc.Shared

open Library
open Library.Text (lit unit)

section Keep

variable {adv : Value} {c : ModelClass}

/-- A file as a writer loads it: accepted, and as the disk holds it. -/
structure Loaded (adv : Value) : Prop where
  accepted : Accepted adv
  stored : Stored adv

/-- What is loaded parses as itself after a write and a read. -/
theorem Loaded.parse (loaded : Loaded adv) (spelled : Option Value → Text) :
    copy adv = adv ∧ parseAdvance spelled (copy adv) = .ok adv := by
  refine ⟨loaded.stored, parseAdvance_iff.mpr ?_⟩
  rw [loaded.stored.copy_eq, loaded.stored.copy_eq]
  exact ⟨rfl, loaded.accepted⟩

theorem Loaded.updateClass {change : Value → Value} (loaded : Loaded adv)
    (ok : ClassOk ((classOf adv c).map change))
    (stored : ∀ x, Stored x → Stored (change x)) : Loaded (updateClass c change adv) where
  accepted := loaded.accepted.updateClass ok
  stored := loaded.stored.update fun _ found => found.update stored

theorem Loaded.updateHistory {change : List Value → List Value} (loaded : Loaded adv)
    (ok : ∀ entries, HistoryOk entries → HistoryOk (change entries))
    (stored : ∀ entries, (∀ e ∈ entries, Stored e) → ∀ e ∈ change entries, Stored e) :
    Loaded (updateHistory c change adv) := by
  refine loaded.updateClass ((loaded.accepted.classes c).updateHistory ok) fun x held => ?_
  refine held.update fun history isStored => ?_
  cases history with
  | array entries => exact Json.rereads_array.mpr (stored entries (Json.rereads_array.mp isStored))
  | _ => exact isStored

/-- A failure that a caller may report. -/
structure Failure.Valid (f : Failure) : Prop where
  atTime : isAtText (lit "dddd-dd-ddTdd:dd:ddZ") f.atTime = true
  former : f.fromId.all isModelId = true
  target : isModelId f.toId = true

section Retried

variable {f : Failure} {last : Value}

end Retried

theorem classNamed_text (c : ModelClass) : classNamed c.text = some c := by cases c <;> decide

theorem mem_classWords {word : Text} : word ∈ classWords ↔ ∃ c : ModelClass, word = c.text := by
  constructor
  · intro member
    obtain ⟨c, -, rfl⟩ := List.mem_map.mp member
    exact ⟨c, rfl⟩
  · rintro ⟨c, rfl⟩
    exact List.mem_map_of_mem (mem_classes c)

/-- What the checks let through of an intent. -/
def Intent.Valid : Intent → Prop
  | .hand cls former target emptied atTime =>
      isAtText (lit "dddd-dd-ddTdd:dd:ddZ") atTime = true ∧ former.all isModelId = true ∧
        target.all isModelId = true ∧ cls ∉ emptied ∧ emptied.Nodup ∧
        (emptied ≠ [] → target ≠ none)
  | .advance _ former target effortFrom effortTo atTime =>
      isAtText (lit "dddd-dd-ddTdd:dd:ddZ") atTime = true ∧ former.all isModelId = true ∧
        isModelId target = true ∧ effortFrom.all (· ≠ []) = true ∧ effortTo.all (· ≠ []) = true

theorem text?_of_any {value : Option Value} {holds : Text → Bool}
    (found : (text? value).any holds = true) : ∃ text, text? value = some text ∧ holds text = true :=
  (Option.any_eq_true _ _).mp found

theorem readId_of_isIdOrNull {value : Option Value} (isId : isIdOrNull value = true) :
    ∃ id : Option Text, readId value = some id ∧ id.all isModelId = true := by
  unfold isIdOrNull at isId
  cases reads : readId value with
  | none =>
      rw [reads] at isId
      cases isId
  | some id =>
      rw [reads] at isId
      cases id with
      | none => exact ⟨none, rfl, rfl⟩
      | some id => exact ⟨some id, rfl, isId⟩

theorem readId_of_isLevelOrNull {value : Option Value} (isLevel : isLevelOrNull value = true) :
    ∃ level : Option Text, readId value = some level ∧ level.all (· ≠ []) = true := by
  unfold isLevelOrNull at isLevel
  cases reads : readId value with
  | none =>
      rw [reads] at isLevel
      cases isLevel
  | some level =>
      rw [reads] at isLevel
      cases level with
      | none => exact ⟨none, rfl, rfl⟩
      | some level => exact ⟨some level, rfl, isLevel⟩

theorem readEmptied_words {items : List Value} {words : List Text}
    (read : items.mapM (fun item => (text? (some item)).filter classWords.contains) = some words) :
    ∃ emptied, items.mapM (fun item => (text? (some item)).bind classNamed) = some emptied ∧
      words = emptied.map ModelClass.text := by
  induction items generalizing words with
  | nil =>
      cases read
      exact ⟨[], rfl, rfl⟩
  | cons item rest ih =>
      rw [List.mapM_cons] at read
      obtain ⟨word, isWord, read⟩ := Option.bind_eq_some_iff.mp read
      obtain ⟨words', isWords, made⟩ := Option.bind_eq_some_iff.mp read
      obtain ⟨emptied, isEmptied, same⟩ := ih isWords
      obtain ⟨isText, among⟩ := Option.filter_eq_some_iff.mp isWord
      obtain ⟨c, rfl⟩ := mem_classWords.mp (List.contains_iff_mem.mp among)
      cases made
      refine ⟨c :: emptied, ?_, by rw [same, List.map_cons]⟩
      rw [List.mapM_cons, isText, isEmptied]
      simp [classNamed_text]

/-- The classes that an accepted hand intent empties. -/
theorem readEmptied_of_isEmptied {cls : ModelClass} {named emptied : Option Value}
    (isClass : text? named = some cls.text) (checked : isEmptied named emptied = true) :
    ∃ others, readEmptied emptied = some others ∧ cls ∉ others ∧ others.Nodup ∧
      (emptiesNone emptied = true ↔ others = []) := by
  unfold isEmptied at checked
  split at checked
  next items =>
      cases words : items.mapM fun item => (text? (some item)).filter classWords.contains with
      | none => simp [words] at checked
      | some words' =>
          rw [words] at checked
          obtain ⟨others, read, rfl⟩ := readEmptied_words words
          simp only [isClass, Option.all_some, Bool.and_eq_true, decide_eq_true_eq] at checked
          obtain ⟨apart, distinct⟩ := checked
          have length : items.length = others.length :=
            (mapM_eq_some_iff.mp read).length_eq
          refine ⟨others, read, fun member => apart (List.mem_map_of_mem member),
            distinct.of_map _, ?_⟩
          rw [emptiesNone, List.isEmpty_iff, ← List.length_eq_zero_iff, length,
            List.length_eq_zero_iff]
  next => cases checked

theorem readIntent_of_check {p : Value} (checked : checkIntent p = .ok ()) :
    ∃ intent, readIntent p = some intent ∧ intent.Valid := by
  unfold checkIntent at checked
  simp only [check_bind, require_iff] at checked
  obtain ⟨-, isClass, isFormer, isTime, shape⟩ := checked
  obtain ⟨word, className, among⟩ := text?_of_any isClass
  obtain ⟨cls, rfl⟩ := mem_classWords.mp (List.contains_iff_mem.mp among)
  obtain ⟨former, readsFormer, formerValid⟩ := readId_of_isIdOrNull isFormer
  obtain ⟨atTime, readsTime, timeValid⟩ := text?_of_any isTime
  unfold readIntent
  simp only [className, readsFormer, readsTime, Option.bind_eq_bind, Option.bind_some,
    classNamed_text]
  cases hand : isHand p with
  | true =>
      rw [hand, if_pos rfl, checkHandPending] at shape
      simp only [check_bind, require_iff] at shape
      obtain ⟨isTarget, isEmptied', empties⟩ := shape
      obtain ⟨target, readsTarget, targetValid⟩ := readId_of_isIdOrNull isTarget
      obtain ⟨others, readsOthers, apart, distinct, none'⟩ :=
        readEmptied_of_isEmptied className isEmptied'
      refine ⟨.hand cls former target others atTime, ?_, timeValid, formerValid, targetValid, apart,
        distinct, fun some' noTarget => ?_⟩
      · simp [readsTarget, readsOthers]
      · rw [Bool.or_eq_true, none', Bool.not_eq_true'] at empties
        rcases empties with none'' | isTarget'
        · exact some' none''
        · rw [noTarget] at readsTarget
          cases target : p.field? (lit "to") with
          | none => simp [target, readId] at readsTarget
          | some value => cases value <;> simp [target, readId, isNull] at readsTarget isTarget'
  | false =>
      rw [hand, if_neg Bool.false_ne_true, checkAdvancePending] at shape
      simp only [check_bind, require_iff] at shape
      obtain ⟨isTarget, isEffortFrom, isEffortTo⟩ := shape
      obtain ⟨target, readsTarget, targetValid⟩ := text?_of_any isTarget
      obtain ⟨effortFrom, readsFrom, fromValid⟩ := readId_of_isLevelOrNull isEffortFrom
      obtain ⟨effortTo, readsTo, toValid⟩ := readId_of_isLevelOrNull isEffortTo
      refine ⟨.advance cls former target effortFrom effortTo atTime, ?_, timeValid, formerValid,
        targetValid, fromValid, toValid⟩
      simp [readsTarget, readsFrom, readsTo]

/-! ### Settling an intent -/

/-- The intent of an accepted file that has one. -/
theorem Accepted.intent (accepted : Accepted adv)
    (some' : isNull (some ((adv.field? (lit "pending")).getD .null)) = false) :
    ∃ intent, readIntent ((adv.field? (lit "pending")).getD .null) = some intent ∧ intent.Valid := by
  have checked := accepted.pending
  cases pending : adv.field? (lit "pending") with
  | none => simp [pending, isNull] at some'
  | some p =>
      rw [pending] at checked some'
      rw [Option.getD_some] at some'
      unfold checkPending at checked
      rw [some', if_neg Bool.false_ne_true] at checked
      simp only [check_bind, require_iff] at checked
      exact readIntent_of_check checked.2

end Keep

end Ccrc.Shared
