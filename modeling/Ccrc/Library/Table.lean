import Mathlib

/-! Rows of a table under one UPDATE: which rows a guard takes, what becomes of the
row of a key, and what the statement keeps; the first row under an order. -/

set_option autoImplicit false

namespace Ccrc.Library

variable {ρ κ : Type*}

/-- The rows that an UPDATE leaves, and how many it changed. -/
def updateRows (rows : List ρ) (guard : ρ → Bool) (set : ρ → ρ) : List ρ × Nat :=
  (rows.map fun row => if guard row then set row else row, rows.countP guard)

/-- The row of a key. -/
def rowOf [DecidableEq κ] (key : ρ → κ) (rows : List ρ) (sought : κ) : Option ρ :=
  rows.find? fun row => decide (key row = sought)

/-- `ORDER BY … LIMIT 1`: a row that no other one precedes, the first of several. -/
def firstUnder (precedes : ρ → ρ → Bool) : List ρ → Option ρ
  | [] => none
  | row :: rest =>
      match firstUnder precedes rest with
      | none => some row
      | some other => if precedes other row then some other else some row

section Update

variable {rows : List ρ} {guard : ρ → Bool} {set : ρ → ρ}

theorem mem_updateRows {next : ρ} : next ∈ (updateRows rows guard set).1 ↔
    ∃ row ∈ rows, (if guard row then set row else row) = next := by
  rw [updateRows, List.mem_map]

theorem updateRows_none (unchanged : (updateRows rows guard set).2 = 0) :
    (updateRows rows guard set).1 = rows := by
  have untaken : ∀ row ∈ rows, ¬guard row = true := List.countP_eq_zero.mp unchanged
  refine (List.map_congr_left fun row member => ?_).trans (List.map_id rows)
  rw [if_neg (untaken row member), id]

theorem updateRows_keys {key : ρ → κ} (keeps : ∀ row, key (set row) = key row) :
    (updateRows rows guard set).1.map key = rows.map key := by
  rw [updateRows, List.map_map]
  refine List.map_congr_left fun row _ => ?_
  simp only [Function.comp]
  split
  next => exact keeps row
  next => rfl

end Update

section Key

variable [DecidableEq κ] {key : ρ → κ} {rows : List ρ} {sought : κ} {row : ρ}

theorem rowOf_some (found : rowOf key rows sought = some row) : row ∈ rows ∧ key row = sought := by
  unfold rowOf at found
  have same := List.find?_some found
  exact ⟨List.mem_of_find?_eq_some found, of_decide_eq_true same⟩

theorem rowOf_none : rowOf key rows sought = none ↔ ∀ row ∈ rows, key row ≠ sought := by
  simp [rowOf]

/-- Of distinct keys every row is the one of its key. -/
theorem rowOf_mem (distinct : (rows.map key).Nodup) (member : row ∈ rows) :
    rowOf key rows (key row) = some row := by
  cases found : rowOf key rows (key row) with
  | none => exact absurd rfl (rowOf_none.mp found row member)
  | some other =>
      obtain ⟨isOther, same⟩ := rowOf_some found
      exact congrArg some (List.inj_on_of_nodup_map distinct isOther member same)

theorem rowOf_map {change : ρ → ρ} (keeps : ∀ row, key (change row) = key row) (sought : κ) :
    rowOf key (rows.map change) sought = (rowOf key rows sought).map change := by
  have same : ((fun row => decide (key row = sought)) ∘ change) =
      fun row => decide (key row = sought) := by
    funext row
    simp only [Function.comp, keeps]
  rw [rowOf, List.find?_map, same, rowOf]

theorem rowOf_updateRows {guard : ρ → Bool} {set : ρ → ρ}
    (keeps : ∀ row, key (set row) = key row) (sought : κ) :
    rowOf key (updateRows rows guard set).1 sought =
      (rowOf key rows sought).map fun row => if guard row then set row else row := by
  refine rowOf_map (fun row => ?_) sought
  split
  next => exact keeps row
  next => rfl

end Key

section Order

variable {precedes : ρ → ρ → Bool} {rows : List ρ}

theorem firstUnder_mem {row : ρ} (first : firstUnder precedes rows = some row) : row ∈ rows := by
  induction rows with
  | nil => cases first
  | cons head rest ih =>
      rw [firstUnder] at first
      cases later : firstUnder precedes rest with
      | none =>
          rw [later] at first
          cases first
          exact List.mem_cons_self
      | some other =>
          rw [later] at first
          dsimp only at first
          split at first
          next =>
              cases first
              exact List.mem_cons_of_mem head (ih later)
          next =>
              cases first
              exact List.mem_cons_self

theorem firstUnder_none : firstUnder precedes rows = none ↔ rows = [] := by
  cases rows with
  | nil => simp [firstUnder]
  | cons head rest =>
      rw [firstUnder]
      refine ⟨fun nothing => ?_, fun empty => absurd empty (List.cons_ne_nil head rest)⟩
      split at nothing
      next => cases nothing
      next =>
          split at nothing
          next => cases nothing
          next => cases nothing

end Order

end Ccrc.Library
