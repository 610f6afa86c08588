import Ccrc.Library.Table

/-! Turning one table into another by writing only what differs: rows added, and rows
swapped for others of their keys, one statement after another. -/

set_option autoImplicit false

namespace Ccrc.Library

variable {ρ κ : Type*} [DecidableEq ρ]

/-- Compare-and-swap UPDATEs in turn: each has to change exactly one row. -/
def swapRows : List ρ → List (ρ × ρ) → Option (List ρ)
  | rows, [] => some rows
  | rows, (old, new) :: rest =>
      let (written, changed) := updateRows rows (fun row => decide (row = old)) fun _ => new
      if changed = 1 then swapRows written rest else none

/-- What has to be written to turn the rows of one table into those of another. -/
structure TableDelta (key : ρ → κ) (before after : List ρ) (updates : List (ρ × ρ))
    (inserts : List ρ) : Prop where
  updated : ∀ update ∈ updates,
    update.1 ∈ before ∧ update.2 ∈ after ∧ key update.1 = key update.2
  updatedOnce : (updates.map fun update => key update.1).Nodup
  inserted : ∀ row ∈ inserts, row ∈ after ∧ ∀ old ∈ before, key old ≠ key row
  insertedOnce : (inserts.map key).Nodup
  covered : ∀ row ∈ after, row ∈ inserts ∨ (∃ update ∈ updates, update.2 = row) ∨ row ∈ before
  kept : ∀ old ∈ before, ∃ row ∈ after, key row = key old

section Swap

variable {key : ρ → κ} {rows : List ρ} {old new : ρ}

theorem countP_eq_row (distinct : (rows.map key).Nodup) (member : old ∈ rows) :
    rows.countP (fun row => decide (row = old)) = 1 := by
  have once := List.count_eq_one_of_mem distinct.of_map member
  rw [List.count] at once
  rw [← once]
  exact List.countP_congr fun row _ => by simp

theorem swapped_keys (sameKey : key old = key new) :
    (rows.map fun row => if decide (row = old) then new else row).map key = rows.map key := by
  rw [List.map_map]
  refine List.map_congr_left fun row _ => ?_
  by_cases here : row = old
  · simp [here, sameKey]
  · simp [here]

theorem mem_swapped {row : ρ} (member : old ∈ rows) :
    row ∈ (rows.map fun row => if decide (row = old) then new else row) ↔
      row = new ∨ row ∈ rows ∧ row ≠ old := by
  rw [List.mem_map]
  constructor
  · rintro ⟨held, among, rfl⟩
    by_cases here : held = old
    · exact .inl (by simp [here])
    · exact .inr ⟨by simpa [here] using among, by simpa [here] using here⟩
  · intro either
    cases either with
    | inl isNew => exact ⟨old, member, by simp [isNew]⟩
    | inr stays => exact ⟨row, stays.1, by simp [stays.2]⟩

/-- Swaps of different rows all succeed: they keep every key where it stands, and a row is
left where no swap has its key. -/
theorem swapRows_spec (updates : List (ρ × ρ)) (distinct : (rows.map key).Nodup)
    (held : ∀ update ∈ updates, update.1 ∈ rows ∧ key update.1 = key update.2)
    (once : (updates.map fun update => key update.1).Nodup) :
    ∃ written, swapRows rows updates = some written ∧ written.map key = rows.map key ∧
      ∀ row, row ∈ written ↔ (∃ update ∈ updates, update.2 = row) ∨
        row ∈ rows ∧ ∀ update ∈ updates, key update.1 ≠ key row := by
  induction updates generalizing rows with
  | nil => exact ⟨rows, rfl, rfl, fun row => by simp⟩
  | cons update rest ih =>
      obtain ⟨old, new⟩ := update
      rw [List.map_cons, List.nodup_cons] at once
      have here := held (old, new) List.mem_cons_self
      have others : ∀ update ∈ rest, key update.1 ≠ key old := fun update member same =>
        once.1 (same ▸ List.mem_map.mpr ⟨update, member, rfl⟩)
      have keys : (rows.map fun row => if decide (row = old) then new else row).map key =
          rows.map key := swapped_keys here.2
      obtain ⟨written, ran, sameKeys, members⟩ := @ih
        (rows.map fun row => if decide (row = old) then new else row)
        (by rw [keys]; exact distinct)
        (fun update member => ⟨(mem_swapped here.1).mpr (.inr
            ⟨(held update (List.mem_cons_of_mem _ member)).1,
              fun same => others update member (congrArg key same)⟩),
          (held update (List.mem_cons_of_mem _ member)).2⟩)
        once.2
      refine ⟨written, ?_, sameKeys.trans keys, fun row => ?_⟩
      · rw [swapRows]
        simp only [updateRows, countP_eq_row distinct here.1, if_true]
        exact ran
      · rw [members, mem_swapped here.1]
        constructor
        · rintro (⟨update, member, isRow⟩ | ⟨rfl | ⟨among, other⟩, untouched⟩)
          · exact .inl ⟨update, List.mem_cons_of_mem _ member, isRow⟩
          · exact .inl ⟨(old, row), List.mem_cons_self, rfl⟩
          · refine .inr ⟨among, fun update member => ?_⟩
            cases List.mem_cons.mp member with
            | inl first =>
                subst first
                exact fun same => other (List.inj_on_of_nodup_map distinct here.1 among same).symm
            | inr later => exact untouched update later
        · rintro (⟨update, member, isRow⟩ | ⟨among, untouched⟩)
          · cases List.mem_cons.mp member with
            | inl first =>
                subst first
                refine .inr ⟨.inl isRow.symm, fun update later same => ?_⟩
                exact others update later (same.trans ((congrArg key isRow).symm.trans here.2.symm))
            | inr later => exact .inl ⟨update, later, isRow⟩
          · refine .inr ⟨.inr ⟨among, fun same => ?_⟩, fun update later =>
              untouched update (List.mem_cons_of_mem _ later)⟩
            exact untouched (old, new) List.mem_cons_self (congrArg key same.symm)

end Swap

namespace TableDelta

variable {key : ρ → κ} {before after inserts : List ρ} {updates : List (ρ × ρ)}

/-- The rows to add have keys that no row has yet, each its own. -/
theorem inserts_free (delta : TableDelta key before after updates inserts)
    (distinct : (before.map key).Nodup) : ((before ++ inserts).map key).Nodup := by
  rw [List.map_append, List.nodup_append]
  refine ⟨distinct, delta.insertedOnce, fun one isOld other isNew same => ?_⟩
  obtain ⟨old, member, rfl⟩ := List.mem_map.mp isOld
  obtain ⟨row, added, rfl⟩ := List.mem_map.mp isNew
  exact (delta.inserted row added).2 old member same

/-- Written, a delta leaves the rows of the other table and no others. -/
theorem written (delta : TableDelta key before after updates inserts)
    (distinct : (before.map key).Nodup) (distinctAfter : (after.map key).Nodup) :
    ∃ result, swapRows (before ++ inserts) updates = some result ∧ result.Perm after := by
  have distinctAll := delta.inserts_free distinct
  obtain ⟨result, ran, keys, members⟩ := swapRows_spec updates distinctAll
    (fun update member => ⟨List.mem_append_left _ (delta.updated update member).1,
      (delta.updated update member).2.2⟩) delta.updatedOnce
  refine ⟨result, ran, ?_⟩
  have distinctResult : (result.map key).Nodup := keys ▸ distinctAll
  refine (List.perm_ext_iff_of_nodup distinctResult.of_map distinctAfter.of_map).mpr fun row => ?_
  rw [members]
  constructor
  · rintro (⟨update, member, rfl⟩ | ⟨among, untouched⟩)
    · exact (delta.updated update member).2.1
    · cases List.mem_append.mp among with
      | inr added => exact (delta.inserted row added).1
      | inl old =>
          obtain ⟨other, isAfter, sameKey⟩ := delta.kept row old
          rcases delta.covered other isAfter with added | ⟨update, member, rfl⟩ | isOld
          · exact absurd sameKey.symm ((delta.inserted other added).2 row old)
          · exact absurd ((delta.updated update member).2.2.trans sameKey) (untouched update member)
          · exact List.inj_on_of_nodup_map distinct isOld old sameKey ▸ isAfter
  · intro isAfter
    rcases delta.covered row isAfter with added | swapped | old
    · refine .inr ⟨List.mem_append_right _ added, fun update member => ?_⟩
      exact (delta.inserted row added).2 update.1 (delta.updated update member).1
    · exact .inl swapped
    · by_cases untouched : ∀ update ∈ updates, key update.1 ≠ key row
      · exact .inr ⟨List.mem_append_left _ old, untouched⟩
      · push Not at untouched
        obtain ⟨update, member, sameKey⟩ := untouched
        have facts := delta.updated update member
        exact .inl ⟨update, member, List.inj_on_of_nodup_map distinctAfter facts.2.1 isAfter
          (facts.2.2.symm.trans sameKey)⟩

end TableDelta

end Ccrc.Library
