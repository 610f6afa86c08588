import Ccrc.Shared.AdvanceFileKept

/-! What an operation leaves of a file: the keys that are not known at each level, and the
newest entries of every history. -/

set_option autoImplicit false

namespace Ccrc.Shared

open Library
open Library.Text (lit unit)

/-- What a failed advance that is tried once more has rewritten of its entry. -/
def retriedKeys : List Text := [lit "tries", lit "lastAt", lit "reason", lit "canary"]

/-- What an entry holds under every other key. -/
def unknownOf (e : Value) (key : Text) : Option Value :=
  if key ∈ retriedKeys then none else e.field? key

/-- All that the file holds under other keys than those named, its classes under other keys
than those named, and the entries that stay is as it was; a history is the newest of the
entries before and of added ones. -/
structure Keeps (fileKeys classKeys : List Text) (adv result : Value) : Prop where
  file : ∀ key ∉ fileKeys, result.field? key = adv.field? key
  classes : ∀ c, ∀ key ∉ classKeys,
    (classOf result c).bind (·.field? key) = (classOf adv c).bind (·.field? key)
  entries : ∀ c, ∃ kept added, historyOf result c = capped (kept ++ added) ∧
    kept.map unknownOf = (historyOf adv c).map unknownOf

/-- What a recorded move or failure rewrites. -/
abbrev KeepsRecorded : Value → Value → Prop := Keeps [lit "classes"] [lit "history"]

/-- What settling an intent rewrites. -/
abbrev KeepsSettled : Value → Value → Prop :=
  Keeps [lit "classes", lit "pending"] [lit "family", lit "previous", lit "history"]

section Unknown

variable {adv middle result : Value} {c other : ModelClass} {fileKeys classKeys : List Text}

theorem capped_of_short {entries : List Value} (short : entries.length ≤ historyCap) :
    capped entries = entries := by
  rw [capped, Nat.sub_eq_zero_of_le short, List.drop_zero]

/-- What stands in front of enough entries is cut off. -/
theorem capped_behind {front entries : List Value}
    (enough : front = [] ∨ historyCap ≤ entries.length) :
    capped (front ++ entries) = capped entries := by
  rcases enough with rfl | enough
  · rfl
  · unfold capped
    have place : (front ++ entries).length - historyCap =
        front.length + (entries.length - historyCap) := by
      rw [List.length_append]
      omega
    rw [place, List.drop_append, List.drop_eq_nil_of_le (Nat.le_add_right _ _), List.nil_append,
      Nat.add_sub_cancel_left]

theorem Accepted.history_length (accepted : Accepted adv) :
    (historyOf adv c).length ≤ historyCap := by
  obtain ⟨entries, isHistory, history⟩ := (accepted.classes c).history
  rw [historyOf, isHistory]
  exact history.length

theorem Keeps.refl (accepted : Accepted adv) : Keeps fileKeys classKeys adv adv where
  file := fun _ _ => rfl
  classes := fun _ _ _ => rfl
  entries := fun c => ⟨historyOf adv c, [], by
    rw [List.append_nil, capped_of_short accepted.history_length], rfl⟩

theorem KeepsRecorded.settled (keeps : KeepsRecorded adv result) : KeepsSettled adv result where
  file := fun key unknown => keeps.file key fun bad => unknown (by
    rw [List.mem_singleton.mp bad]
    exact List.mem_cons_self)
  classes := fun c key unknown => keeps.classes c key fun bad => unknown (by
    rw [List.mem_singleton.mp bad]
    decide)
  entries := keeps.entries

theorem Keeps.trans (first : Keeps fileKeys classKeys adv middle)
    (second : Keeps fileKeys classKeys middle result) : Keeps fileKeys classKeys adv result where
  file := fun key unknown => (second.file key unknown).trans (first.file key unknown)
  classes := fun c key unknown =>
    (second.classes c key unknown).trans (first.classes c key unknown)
  entries := by
    intro c
    obtain ⟨kept, added, middle', same⟩ := first.entries c
    obtain ⟨kept', added', result', same'⟩ := second.entries c
    -- Before what the second step kept stands what the first step's cap had cut off.
    let cut := (kept ++ added).take ((kept ++ added).length - historyCap)
    have whole : cut ++ capped (kept ++ added) = kept ++ added := List.take_append_drop _ _
    rw [middle'] at same'
    have extended : (cut ++ kept').map unknownOf = (kept ++ added).map unknownOf := by
      rw [List.map_append, same', ← List.map_append, whole]
    refine ⟨(cut ++ kept').take kept.length, (cut ++ kept').drop kept.length ++ added', ?_, ?_⟩
    · rw [← List.append_assoc, List.take_append_drop, List.append_assoc, result']
      refine (capped_behind ?_).symm
      have length : kept'.length = (capped (kept ++ added)).length := by
        rw [← List.length_map unknownOf, same', List.length_map]
      rw [capped, List.length_drop] at length
      by_cases short : (kept ++ added).length ≤ historyCap
      · exact .inl (by simp only [cut, Nat.sub_eq_zero_of_le short, List.take_zero])
      · refine .inr ?_
        rw [List.length_append]
        omega
    · rw [List.map_take, extended, ← List.map_take, List.take_left, same]

/-! ## The histories after a change -/

theorem historyOf_updateHistory {change : List Value → List Value} (accepted : Accepted adv) :
    historyOf (updateHistory c change adv) c = change (historyOf adv c) := by
  obtain ⟨entries, isHistory, -⟩ := (accepted.classes c).history
  unfold historyOf updateHistory
  rw [classOf_updateClass_self]
  cases found : classOf adv c with
  | none => simp [found, entries?] at isHistory
  | some x =>
      rw [found, Option.bind_some] at isHistory
      rw [Option.map_some, Option.bind_some, Option.bind_some, Json.field?_update_self]
      cases value : x.field? (lit "history") with
      | none => simp [value, entries?] at isHistory
      | some history =>
          rw [value] at isHistory
          cases history <;> cases isHistory
          rfl

theorem historyOf_updateClass_ne {change : Value → Value} (apart : other ≠ c) :
    historyOf (updateClass c change adv) other = historyOf adv other := by
  rw [historyOf, classOf_updateClass_ne apart, historyOf]

theorem bind_updateClass {change : Value → Value} {key : Text}
    (same : ∀ x : Value, (change x).field? key = x.field? key) :
    (classOf (updateClass c change adv) other).bind (·.field? key) =
      (classOf adv other).bind (·.field? key) := by
  by_cases here : other = c
  · rw [here, classOf_updateClass_self]
    cases classOf adv c with
    | none => rfl
    | some x => exact same x
  · rw [classOf_updateClass_ne here]

theorem historyOf_assign {key : Text} {value : Value} (apart : lit "history" ≠ key) :
    historyOf (updateClass c (·.assign key value) adv) other = historyOf adv other := by
  rw [historyOf, bind_updateClass fun x => Json.field?_assign_ne apart, historyOf]

theorem KeepsRecorded.updateHistory {change : List Value → List Value} (accepted : Accepted adv)
    {kept added : List Value} (shape : change (historyOf adv c) = capped (kept ++ added))
    (same : kept.map unknownOf = (historyOf adv c).map unknownOf) :
    KeepsRecorded adv (Ccrc.Shared.updateHistory c change adv) where
  file := fun key unknown => field?_updateClass fun bad => unknown (List.mem_singleton.mpr bad)
  classes := fun other key unknown => bind_updateClass fun x =>
    Json.field?_update_ne fun bad => unknown (List.mem_singleton.mpr bad)
  entries := by
    intro other
    by_cases here : other = c
    · subst here
      exact ⟨kept, added, (historyOf_updateHistory accepted).trans shape, same⟩
    · refine ⟨historyOf adv other, [], ?_, rfl⟩
      rw [List.append_nil, capped_of_short accepted.history_length]
      exact historyOf_updateClass_ne here

theorem KeepsSettled.assign {key : Text} {value : Value} (accepted : Accepted adv)
    (known : key ∈ [lit "family", lit "previous", lit "history"]) (apart : lit "history" ≠ key) :
    KeepsSettled adv (updateClass c (·.assign key value) adv) where
  file := fun other unknown => field?_updateClass fun bad => unknown (bad ▸ List.mem_cons_self)
  classes := fun other key' unknown => bind_updateClass fun x =>
    Json.field?_assign_ne fun bad => unknown (bad ▸ known)
  entries := fun other => ⟨historyOf adv other, [], by
    rw [List.append_nil, capped_of_short accepted.history_length, historyOf_assign apart], rfl⟩

end Unknown

end Ccrc.Shared
