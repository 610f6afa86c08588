import Ccrc.Library.JsonProperties

/-! Values whose objects have their members in the order of their names, and values that
differ in that order alone. -/

set_option autoImplicit false

namespace Ccrc.Library.Json

variable {ν μ : Type}

/-- One name does not come after another, by UTF-16 code units. -/
def NotAfter {α : Type} (first second : Text × α) : Prop := ¬second.1 < first.1

instance {α : Type} : DecidableRel (@NotAfter α) :=
  fun first second => inferInstanceAs (Decidable (¬second.1 < first.1))

mutual

/-- The members of every object in order. -/
def sorted : Json ν → Json ν
  | .null => .null
  | .bool value => .bool value
  | .number value => .number value
  | .string text => .string text
  | .array items => .array (sortedItems items)
  | .object fields => .object ((sortedFields fields).insertionSort NotAfter)

def sortedItems : List (Json ν) → List (Json ν)
  | [] => []
  | item :: rest => sorted item :: sortedItems rest

def sortedFields : List (Text × Json ν) → List (Text × Json ν)
  | [] => []
  | (key, value) :: rest => (key, sorted value) :: sortedFields rest

end

/-- Equal but for the order of their members. -/
def SameMembers (first second : Json ν) : Prop := first.sorted = second.sorted

theorem sortedFields_eq (fields : List (Text × Json ν)) :
    sortedFields fields = fields.map fun field => (field.1, field.2.sorted) := by
  induction fields with
  | nil => rfl
  | cons field fields ih => rw [sortedFields, ih, List.map_cons]

theorem sortedItems_eq (items : List (Json ν)) : sortedItems items = items.map sorted := by
  induction items with
  | nil => rfl
  | cons item items ih => rw [sortedItems, ih, List.map_cons]

theorem sortedFields_keys (fields : List (Text × Json ν)) :
    (sortedFields fields).map (·.1) = fields.map (·.1) := by
  rw [sortedFields_eq, List.map_map]
  rfl

/-! ## The order -/

theorem notAfter_total {α : Type} (first second : Text × α) :
    NotAfter first second ∨ NotAfter second first :=
  List.le_total first.1 second.1

theorem notAfter_trans {α : Type} {first second third : Text × α} (left : NotAfter first second)
    (right : NotAfter second third) : NotAfter first third :=
  List.le_trans left right

instance {α : Type} : Std.Total (@NotAfter α) := ⟨notAfter_total⟩

instance {α : Type} : IsTrans (Text × α) NotAfter := ⟨fun _ _ _ => notAfter_trans⟩

/-- Members in order stay as they are. -/
theorem insertionSort_idem {α : Type} (fields : List (Text × α)) :
    (fields.insertionSort NotAfter).insertionSort NotAfter = fields.insertionSort NotAfter :=
  List.Pairwise.insertionSort_eq (List.pairwise_insertionSort NotAfter fields)

/-- Changing the values alone changes nothing of the order. -/
theorem insertionSort_map {α β : Type} (change : α → β) (fields : List (Text × α)) :
    (fields.map fun field => (field.1, change field.2)).insertionSort NotAfter =
      (fields.insertionSort NotAfter).map fun field => (field.1, change field.2) :=
  (List.map_insertionSort NotAfter NotAfter (fun field => (field.1, change field.2)) fields
    fun _ _ _ _ => Iff.rfl).symm

/-! ## Sorted values -/

mutual

theorem sorted_idem (value : Json ν) : value.sorted.sorted = value.sorted := by
  cases value with
  | null | bool _ | number _ | string _ => rfl
  | array items => rw [sorted, sorted, sortedItems_idem items]
  | object fields =>
      rw [sorted, sorted, sortedFields_eq, ← insertionSort_map, ← sortedFields_eq,
        sortedFields_idem fields, insertionSort_idem]

theorem sortedItems_idem (items : List (Json ν)) :
    sortedItems (sortedItems items) = sortedItems items := by
  cases items with
  | nil => rfl
  | cons item items => rw [sortedItems, sortedItems, sorted_idem item, sortedItems_idem items]

theorem sortedFields_idem (fields : List (Text × Json ν)) :
    sortedFields (sortedFields fields) = sortedFields fields := by
  cases fields with
  | nil => rfl
  | cons field fields =>
      obtain ⟨key, value⟩ := field
      rw [sortedFields, sortedFields, sorted_idem value, sortedFields_idem fields]

end

mutual

theorem sorted_map (change : ν → μ) (value : Json ν) :
    (value.map change).sorted = value.sorted.map change := by
  cases value with
  | null | bool _ | number _ | string _ => rfl
  | array items => rw [map, sorted, sortedItems_map change items, sorted, map]
  | object fields =>
      have mapped (fields : List (Text × Json ν)) :
          mapFields change fields = fields.map fun field => (field.1, field.2.map change) := by
        induction fields with
        | nil => rfl
        | cons field fields ih => rw [mapFields, ih, List.map_cons]
      rw [map, sorted, sortedFields_map change fields, mapped, insertionSort_map, ← mapped, sorted,
        map]

theorem sortedItems_map (change : ν → μ) (items : List (Json ν)) :
    sortedItems (mapItems change items) = mapItems change (sortedItems items) := by
  cases items with
  | nil => rfl
  | cons item items =>
      rw [mapItems, sortedItems, sorted_map change item, sortedItems_map change items, sortedItems,
        mapItems]

theorem sortedFields_map (change : ν → μ) (fields : List (Text × Json ν)) :
    sortedFields (mapFields change fields) = mapFields change (sortedFields fields) := by
  cases fields with
  | nil => rfl
  | cons field fields =>
      obtain ⟨key, value⟩ := field
      rw [mapFields, sortedFields, sorted_map change value, sortedFields_map change fields,
        sortedFields, mapFields]

end

theorem distinctFields_iff {fields : List (Text × Json ν)} :
    DistinctFields fields ↔ ∀ field ∈ fields, field.2.Distinct := by
  induction fields with
  | nil => simp [DistinctFields]
  | cons field fields ih => rw [DistinctFields, ih, List.forall_mem_cons]

mutual

theorem sorted_distinct {value : Json ν} (distinct : value.Distinct) : value.sorted.Distinct := by
  cases value with
  | null | bool _ | number _ | string _ => exact trivial
  | array items => exact sortedItems_distinct distinct
  | object fields =>
      have perm := List.perm_insertionSort NotAfter (sortedFields fields)
      have inner := distinctFields_iff.mp (sortedFields_distinct distinct.2)
      refine ⟨(perm.map (·.1)).nodup_iff.mpr ?_, distinctFields_iff.mpr fun field member => ?_⟩
      · rw [sortedFields_keys]
        exact distinct.1
      · exact inner field (perm.mem_iff.mp member)

theorem sortedItems_distinct {items : List (Json ν)} (distinct : DistinctItems items) :
    DistinctItems (sortedItems items) := by
  cases items with
  | nil => exact trivial
  | cons item items => exact ⟨sorted_distinct distinct.1, sortedItems_distinct distinct.2⟩

theorem sortedFields_distinct {fields : List (Text × Json ν)} (distinct : DistinctFields fields) :
    DistinctFields (sortedFields fields) := by
  cases fields with
  | nil => exact trivial
  | cons field fields => exact ⟨sorted_distinct distinct.1, sortedFields_distinct distinct.2⟩

end

/-! ## Members -/

/-- Of distinct members their order does not matter. -/
theorem find?_perm {α : Type} {first second : List (Text × α)} (perm : first.Perm second)
    (nodup : (first.map (·.1)).Nodup) (key : Text) :
    first.find? (·.1 == key) = second.find? (·.1 == key) := by
  induction perm with
  | nil => rfl
  | cons field _ ih =>
      rw [List.find?_cons, List.find?_cons]
      split
      next => rfl
      next => exact ih (List.nodup_cons.mp nodup).2
  | swap field other fields =>
      rw [List.map_cons, List.map_cons, List.nodup_cons, List.mem_cons, not_or] at nodup
      simp only [List.find?_cons]
      cases here : other.1 == key with
      | false => cases field.1 == key <;> rfl
      | true =>
          have apart : (field.1 == key) = false := by
            rw [beq_eq_false_iff_ne]
            intro same
            exact nodup.1.1 ((beq_iff_eq.mp here).trans same.symm)
          rw [apart]
  | trans left _ first second =>
      exact (first nodup).trans (second ((left.map (·.1)).nodup_iff.mp nodup))

theorem field?_sorted {fields : List (Text × Json ν)} (nodup : (fields.map (·.1)).Nodup)
    (key : Text) :
    (Json.object fields).sorted.field? key = ((Json.object fields).field? key).map sorted := by
  have perm := List.perm_insertionSort NotAfter (sortedFields fields)
  have held : (sortedFields fields).find? (·.1 == key) =
      (fields.find? (·.1 == key)).map fun field => (field.1, field.2.sorted) := by
    rw [sortedFields_eq, List.find?_map]
    rfl
  rw [sorted, field?, field?, find?_perm perm (by
    rw [(perm.map _).nodup_iff, sortedFields_keys]
    exact nodup), held]
  cases fields.find? (·.1 == key) <;> rfl

end Ccrc.Library.Json
