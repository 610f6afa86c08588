import Ccrc.Library.Json

/-! JSON values that are written and read back, and changes of one field of an object. What
becomes of a number on its way is a parameter: it may come back as another one, or as null. -/

set_option autoImplicit false

namespace Ccrc.Library

namespace Json

variable {ν : Type}

mutual

/-- `JSON.parse(JSON.stringify(value))`. -/
def reread (number : ν → Option ν) : Json ν → Json ν
  | .null => .null
  | .bool value => .bool value
  | .number value =>
      match number value with
      | some read => .number read
      | none => .null
  | .string text => .string text
  | .array items => .array (rereadItems number items)
  | .object fields => .object (rereadFields number fields)

def rereadItems (number : ν → Option ν) : List (Json ν) → List (Json ν)
  | [] => []
  | item :: rest => reread number item :: rereadItems number rest

def rereadFields (number : ν → Option ν) : List (Text × Json ν) → List (Text × Json ν)
  | [] => []
  | (key, value) :: rest => (key, reread number value) :: rereadFields number rest

end

/-- An object with its field changed, where it has it. -/
def update (key : Text) (change : Json ν → Json ν) : Json ν → Json ν
  | .object fields =>
      .object (fields.map fun field => if field.1 = key then (field.1, change field.2) else field)
  | other => other

/-- An object's field assigned: changed in its place, or added behind the others. -/
def assign (object' : Json ν) (key : Text) (value : Json ν) : Json ν :=
  match object' with
  | .object fields => .object (setField fields (key, value))
  | other => other

def isObject : Json ν → Bool
  | .object _ => true
  | _ => false

/-! ## Reading back -/

section Reread

variable {number : ν → Option ν}

theorem rereadItems_eq (items : List (Json ν)) :
    rereadItems number items = items.map (reread number) := by
  induction items with
  | nil => rfl
  | cons item rest ih => rw [rereadItems, ih, List.map_cons]

theorem rereadFields_eq (fields : List (Text × Json ν)) :
    rereadFields number fields = fields.map fun field => (field.1, reread number field.2) := by
  induction fields with
  | nil => rfl
  | cons field rest ih =>
      obtain ⟨key, value⟩ := field
      rw [rereadFields, ih, List.map_cons]

/-- A value that comes back as it was. -/
def Rereads (number : ν → Option ν) (value : Json ν) : Prop := reread number value = value

theorem map_eq_self {α : Type} {change : α → α} {items : List α} :
    items.map change = items ↔ ∀ item ∈ items, change item = item := by
  induction items with
  | nil => simp
  | cons item rest ih => rw [List.map_cons, List.cons.injEq, ih, List.forall_mem_cons]

theorem rereads_array {items : List (Json ν)} :
    Rereads number (.array items) ↔ ∀ item ∈ items, Rereads number item := by
  rw [Rereads, reread, rereadItems_eq, array.injEq, map_eq_self]
  rfl

theorem rereads_object {fields : List (Text × Json ν)} :
    Rereads number (.object fields) ↔ ∀ field ∈ fields, Rereads number field.2 := by
  rw [Rereads, reread, rereadFields_eq, object.injEq, map_eq_self]
  exact forall₂_congr fun field _ => ⟨fun same => (Prod.mk.inj same).2, fun same => Prod.ext rfl same⟩

mutual

/-- What was read back is read back as it is. -/
theorem reread_rereads (stable : ∀ value read, number value = some read → number read = some read)
    (value : Json ν) : Rereads number (reread number value) := by
  cases value with
  | null => rfl
  | bool value => rfl
  | number value =>
      cases read : number value with
      | none => simp [Rereads, reread, read]
      | some back => simp [Rereads, reread, read, stable value back read]
  | string text => rfl
  | array items => exact rereads_array.mpr (rereadItems_rereads stable items)
  | object fields => exact rereads_object.mpr (rereadFields_rereads stable fields)

theorem rereadItems_rereads
    (stable : ∀ value read, number value = some read → number read = some read)
    (items : List (Json ν)) : ∀ item ∈ rereadItems number items, Rereads number item := by
  cases items with
  | nil =>
      intro item bad
      cases bad
  | cons item rest =>
      rw [rereadItems, List.forall_mem_cons]
      exact ⟨reread_rereads stable item, rereadItems_rereads stable rest⟩

theorem rereadFields_rereads
    (stable : ∀ value read, number value = some read → number read = some read)
    (fields : List (Text × Json ν)) :
    ∀ field ∈ rereadFields number fields, Rereads number field.2 := by
  cases fields with
  | nil =>
      intro field bad
      cases bad
  | cons field rest =>
      obtain ⟨key, value⟩ := field
      rw [rereadFields, List.forall_mem_cons]
      exact ⟨reread_rereads stable value, rereadFields_rereads stable rest⟩

end

end Reread

/-! ## One field of an object -/

section Field

variable {key other : Text} {change : Json ν → Json ν} {value object' : Json ν}

theorem field?_update_self :
    (update key change object').field? key = (object'.field? key).map change := by
  cases object' with
  | object fields =>
      simp only [update, field?]
      induction fields with
      | nil => rfl
      | cons field rest ih =>
          by_cases same : field.1 = key
          · simp [same]
          · simpa [same] using ih
  | _ => rfl

theorem field?_update_ne (apart : other ≠ key) :
    (update key change object').field? other = object'.field? other := by
  cases object' with
  | object fields =>
      simp only [update, field?]
      induction fields with
      | nil => rfl
      | cons field rest ih =>
          by_cases here : field.1 = key
          · simpa [here, Ne.symm apart] using ih
          · by_cases there : field.1 = other
            · simp [there, apart]
            · simpa [here, there] using ih
  | _ => rfl

theorem find?_replace_ne (apart : other ≠ key) (fields : List (Text × Json ν)) (value : Json ν) :
    (fields.map fun field => if field.1 == key then (key, value) else field).find? (·.1 == other) =
      fields.find? (·.1 == other) := by
  induction fields with
  | nil => rfl
  | cons field rest ih =>
      by_cases here : field.1 = key
      · simpa [here, Ne.symm apart] using ih
      · by_cases there : field.1 = other
        · simp [there, apart]
        · simpa [here, there] using ih

theorem find?_setField_ne (apart : other ≠ key) (fields : List (Text × Json ν)) (value : Json ν) :
    (setField fields (key, value)).find? (·.1 == other) = fields.find? (·.1 == other) := by
  unfold setField
  split
  next => exact find?_replace_ne apart fields value
  next => simp [List.find?_append, Ne.symm apart]

theorem field?_assign_ne (apart : other ≠ key) :
    (assign object' key value).field? other = object'.field? other := by
  cases object' with
  | object fields => simp only [assign, field?, find?_setField_ne apart]
  | _ => rfl

theorem isObject_update : (update key change object').isObject = object'.isObject := by
  cases object' <;> rfl

variable {number : ν → Option ν}

theorem isObject_reread : (reread number value).isObject = value.isObject := by
  cases value with
  | number value =>
      rw [reread]
      split <;> rfl
  | _ => rfl

theorem field?_reread : (reread number value).field? key = (value.field? key).map (reread number) := by
  cases value with
  | number value =>
      rw [reread]
      split <;> rfl
  | object fields =>
      rw [reread, rereadFields_eq]
      simp only [field?]
      induction fields with
      | nil => rfl
      | cons field rest ih =>
          by_cases same : field.1 = key
          · simp [same]
          · simpa [same] using ih
  | _ => rfl

theorem Rereads.field? (rereads : Rereads number object')
    (found : object'.field? key = some value) : Rereads number value := by
  cases object' with
  | object fields =>
      obtain ⟨field, isField, rfl⟩ := Option.map_eq_some_iff.mp found
      exact rereads_object.mp rereads field (List.mem_of_find?_eq_some isField)
  | _ => cases found

theorem Rereads.update (rereads : Rereads number object')
    (keeps : ∀ value, Rereads number value → Rereads number (change value)) :
    Rereads number (update key change object') := by
  cases object' with
  | object fields =>
      refine rereads_object.mpr fun field member => ?_
      obtain ⟨former, isFormer, rfl⟩ := List.mem_map.mp member
      have held := rereads_object.mp rereads former isFormer
      split
      next => exact keeps former.2 held
      next => exact held
  | _ => exact rereads

theorem Rereads.assign (rereads : Rereads number object') (held : Rereads number value) :
    Rereads number (assign object' key value) := by
  cases object' with
  | object fields =>
      refine rereads_object.mpr fun field member => ?_
      unfold setField at member
      split at member
      next =>
          obtain ⟨former, isFormer, rfl⟩ := List.mem_map.mp member
          split
          next => exact held
          next => exact rereads_object.mp rereads former isFormer
      next =>
          rcases List.mem_append.mp member with before | here
          · exact rereads_object.mp rereads field before
          · rw [List.mem_singleton.mp here]
            exact held
  | _ => exact rereads

end Field

end Json

end Ccrc.Library
