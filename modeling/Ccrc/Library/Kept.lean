import Mathlib

/-! Looking at a list of which some items were left out: the first items of a kind, the
one found, and the number of a kind. -/

set_option autoImplicit false

namespace Ccrc.Library

section Kept

variable {α : Type} {kept among : α → Bool}

theorem filter_kept {items : List α} (keeps : ∀ item ∈ items, among item = true → kept item = true) :
    (items.filter kept).filter among = items.filter among := by
  rw [List.filter_filter]
  refine List.filter_congr fun item member => ?_
  cases isAmong : among item with
  | false => rfl
  | true => rw [keeps item member isAmong, Bool.and_self]

theorem find?_kept {items : List α} (keeps : ∀ item ∈ items, among item = true → kept item = true) :
    (items.filter kept).find? among = items.find? among := by
  rw [← List.head?_filter, ← List.head?_filter, filter_kept keeps]

/-- The first of a kind are the first of it among those kept, where none of them was left out. -/
theorem take_kept {items : List α} {count : Nat}
    (keeps : ∀ item ∈ (items.filter among).take count, kept item = true) :
    ((items.filter kept).filter among).take count = (items.filter among).take count := by
  induction items generalizing count with
  | nil => rfl
  | cons head rest ih =>
      cases isAmong : among head with
      | false =>
          have drop : ∀ rest, (head :: rest).filter among = rest.filter among := fun rest =>
            List.filter_cons_of_neg (by simp [isAmong])
          rw [drop] at keeps ⊢
          cases isKept : kept head with
          | false => rw [List.filter_cons_of_neg (by simp [isKept]), ih keeps]
          | true => rw [List.filter_cons_of_pos isKept, drop, ih keeps]
      | true =>
          cases count with
          | zero => simp
          | succ count =>
              rw [List.filter_cons_of_pos isAmong, List.take_succ_cons] at keeps ⊢
              rw [List.filter_cons_of_pos (keeps head List.mem_cons_self),
                List.filter_cons_of_pos isAmong, List.take_succ_cons,
                ih fun item member => keeps item (List.mem_cons_of_mem head member)]

/-- As many of a kind are left out as there are items left out, exactly where all of those are
of the kind. -/
theorem length_left_out (items : List α) :
    ((items.filter kept).filter among).length + (items.length - (items.filter kept).length) =
        (items.filter among).length ↔
      ∀ item ∈ items, kept item = false → among item = true := by
  have all := List.length_eq_length_filter_add (l := items) kept
  have some := List.length_eq_length_filter_add (l := items.filter among) kept
  have inside : (items.filter among).filter kept = (items.filter kept).filter among := by
    rw [List.filter_filter, List.filter_filter]
    simp only [Bool.and_comm]
  have outside : ((items.filter among).filter fun item => !kept item) =
      (items.filter fun item => !kept item).filter among := by
    rw [List.filter_filter, List.filter_filter]
    simp only [Bool.and_comm]
  rw [inside, outside] at some
  have whole : ((items.filter fun item => !kept item).filter among).length =
      (items.filter fun item => !kept item).length ↔
        ∀ item ∈ items, kept item = false → among item = true := by
    rw [List.length_filter_eq_length_iff]
    simp [List.mem_filter]
  rw [← whole]
  omega

end Kept

end Ccrc.Library
