import Mathlib

/-! A finite map as the list of its entries, in insertion order: the first entry
of a key is its value, and setting a key replaces the value where it stands. -/

set_option autoImplicit false

namespace Ccrc.Library

variable {κ ν : Type} [DecidableEq κ]

abbrev Map (κ ν : Type) : Type := List (κ × ν)

namespace Map

def get? (key : κ) : Map κ ν → Option ν
  | [] => none
  | (held, value) :: rest => if held = key then some value else get? key rest

def set (key : κ) (value : ν) : Map κ ν → Map κ ν
  | [] => [(key, value)]
  | (held, before) :: rest =>
      if held = key then (key, value) :: rest else (held, before) :: set key value rest

def erase (key : κ) (map : Map κ ν) : Map κ ν := map.filter fun entry => entry.1 ≠ key

/-- `new Map(entries)`: of two entries of one key the later one holds. -/
def ofEntries (entries : List (κ × ν)) : Map κ ν :=
  entries.foldl (fun map (key, value) => map.set key value) []

@[simp] theorem get?_nil (key : κ) : get? key ([] : Map κ ν) = none := rfl

@[simp] theorem get?_set_self (key : κ) (value : ν) (map : Map κ ν) :
    (map.set key value).get? key = some value := by
  induction map with
  | nil => simp [set, get?]
  | cons entry rest ih =>
      obtain ⟨held, before⟩ := entry
      by_cases same : held = key
      · simp [set, get?, same]
      · simp [set, get?, same, ih]

theorem get?_set_ne {key other : κ} (different : other ≠ key) (value : ν) (map : Map κ ν) :
    (map.set key value).get? other = map.get? other := by
  induction map with
  | nil => simp [set, get?, different.symm]
  | cons entry rest ih =>
      obtain ⟨held, before⟩ := entry
      by_cases same : held = key
      · simp [set, get?, same, different.symm]
      · simp [set, get?, same, ih]

@[simp] theorem get?_erase_self (key : κ) (map : Map κ ν) : (map.erase key).get? key = none := by
  induction map with
  | nil => rfl
  | cons entry rest ih =>
      obtain ⟨held, value⟩ := entry
      by_cases same : held = key
      · simpa [erase, same] using ih
      · simpa [erase, same, get?] using ih

theorem get?_erase_ne {key other : κ} (different : other ≠ key) (map : Map κ ν) :
    (map.erase key).get? other = map.get? other := by
  induction map with
  | nil => rfl
  | cons entry rest ih =>
      obtain ⟨held, value⟩ := entry
      by_cases same : held = key
      · simpa [erase, same, get?, different.symm] using ih
      · by_cases here : held = other
        · simp [erase, same, get?, here, different]
        · simpa [erase, same, get?, here] using ih

theorem erase_keys (key : κ) (map : Map κ ν) :
    (map.erase key).map (·.1) = (map.map (·.1)).filter (· ≠ key) := by
  induction map with
  | nil => rfl
  | cons entry rest ih =>
      by_cases same : entry.1 = key
      · simpa [erase, same] using ih
      · simpa [erase, same] using ih

theorem mem_of_get? {key : κ} {value : ν} {map : Map κ ν} (found : map.get? key = some value) :
    (key, value) ∈ map := by
  induction map with
  | nil => cases found
  | cons entry rest ih =>
      obtain ⟨held, before⟩ := entry
      by_cases same : held = key
      · rw [get?, if_pos same] at found
        cases found
        rw [same]
        exact List.mem_cons_self
      · rw [get?, if_neg same] at found
        exact List.mem_cons_of_mem _ (ih found)

theorem mem_keys_iff {key : κ} {map : Map κ ν} :
    key ∈ map.map (·.1) ↔ (map.get? key).isSome := by
  induction map with
  | nil => simp
  | cons entry rest ih =>
      obtain ⟨held, value⟩ := entry
      by_cases same : held = key
      · simp [get?, same]
      · rw [get?, if_neg same, ← ih, List.map_cons, List.mem_cons, or_iff_right (Ne.symm same)]

/-- Setting a key that is not there adds it at the end. -/
theorem set_of_absent {key : κ} (value : ν) {map : Map κ ν} (absent : map.get? key = none) :
    map.set key value = map ++ [(key, value)] := by
  induction map with
  | nil => rfl
  | cons entry rest ih =>
      obtain ⟨held, before⟩ := entry
      by_cases same : held = key
      · rw [get?, if_pos same] at absent
        cases absent
      · rw [get?, if_neg same] at absent
        rw [set, if_neg same, ih absent, List.cons_append]

theorem nodup_set {key : κ} (value : ν) {map : Map κ ν} (distinct : (map.map (·.1)).Nodup)
    (absent : map.get? key = none) : ((map.set key value).map (·.1)).Nodup := by
  have fresh : key ∉ map.map (·.1) := by simp [mem_keys_iff, absent]
  rw [set_of_absent value absent, List.map_append, List.nodup_append]
  refine ⟨distinct, by simp, ?_⟩
  intro first left second right same
  rw [List.map_singleton, List.mem_singleton] at right
  subst right
  subst same
  exact fresh left

theorem keys_set_of_present {key : κ} (value : ν) {map : Map κ ν}
    (present : (map.get? key).isSome) : (map.set key value).map (·.1) = map.map (·.1) := by
  induction map with
  | nil => cases present
  | cons entry rest ih =>
      obtain ⟨held, before⟩ := entry
      by_cases same : held = key
      · simp [set, same]
      · rw [get?, if_neg same] at present
        simp [set, same, ih present]

theorem distinct_set (key : κ) (value : ν) {map : Map κ ν} (distinct : (map.map (·.1)).Nodup) :
    ((map.set key value).map (·.1)).Nodup := by
  cases found : map.get? key with
  | none => exact nodup_set value distinct found
  | some before => rwa [keys_set_of_present value (by simp [found])]

theorem erase_of_absent {key : κ} {map : Map κ ν} (absent : map.get? key = none) :
    map.erase key = map := by
  induction map with
  | nil => rfl
  | cons entry rest ih =>
      obtain ⟨held, before⟩ := entry
      by_cases same : held = key
      · rw [get?, if_pos same] at absent
        cases absent
      · rw [get?, if_neg same] at absent
        simpa [erase, same] using ih absent

theorem erase_set_of_absent {key : κ} (value : ν) {map : Map κ ν} (absent : map.get? key = none) :
    (map.set key value).erase key = map := by
  rw [set_of_absent value absent, erase, List.filter_append]
  simpa [erase] using erase_of_absent absent

theorem erase_set_comm {key other : κ} (different : key ≠ other) (value : ν) (map : Map κ ν) :
    (map.set other value).erase key = (map.erase key).set other value := by
  induction map with
  | nil => simp [set, erase, different.symm]
  | cons entry rest ih =>
      obtain ⟨held, before⟩ := entry
      by_cases here : held = other
      · simp [set, erase, here, different.symm]
      · by_cases same : held = key
        · simpa [set, erase, same, different] using ih
        · simpa [set, erase, here, same] using ih

/-- Of distinct keys every entry is the one found. -/
theorem get?_of_mem {key : κ} {value : ν} {map : Map κ ν} (distinct : (map.map (·.1)).Nodup)
    (member : (key, value) ∈ map) : map.get? key = some value := by
  induction map with
  | nil => cases member
  | cons entry rest ih =>
      obtain ⟨held, before⟩ := entry
      obtain ⟨fresh, others⟩ := List.nodup_cons.mp distinct
      cases List.mem_cons.mp member with
      | inl here =>
          cases here
          rw [get?, if_pos rfl]
      | inr later =>
          have different : held ≠ key := fun same =>
            fresh (List.mem_map.mpr ⟨(key, value), later, same.symm⟩)
          rw [get?, if_neg different]
          exact ih others later

end Map

end Ccrc.Library
