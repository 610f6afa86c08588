import Ccrc.Library.Map

/-! A map of lists, filled one value after another, and what is left when its groups are
laid out under their keys. -/

set_option autoImplicit false

namespace Ccrc.Library

variable {κ ν : Type} [DecidableEq κ]

/-- The values of one key, in the order they came. -/
def groupOf (pushes : List (κ × ν)) (key : κ) : List ν :=
  (pushes.filter fun push => decide (push.1 = key)).map (·.2)

namespace Map

/-- `map.get(key).push(value)`, with a list of its own for a key that has none. -/
def push (key : κ) (value : ν) (map : Map κ (List ν)) : Map κ (List ν) :=
  map.set key ((map.get? key).getD [] ++ [value])

def pushAll (pushes : List (κ × ν)) (map : Map κ (List ν)) : Map κ (List ν) :=
  pushes.foldl (fun map (key, value) => map.push key value) map

/-- `map.get(key) ?? []` -/
def listOf (map : Map κ (List ν)) (key : κ) : List ν := (map.get? key).getD []

theorem listOf_push (key other : κ) (value : ν) (map : Map κ (List ν)) :
    (map.push key value).listOf other =
      if key = other then map.listOf other ++ [value] else map.listOf other := by
  unfold listOf push
  by_cases same : key = other
  · subst same
    rw [get?_set_self, if_pos rfl, Option.getD_some]
  · rw [get?_set_ne (Ne.symm same), if_neg same]

theorem listOf_pushAll (pushes : List (κ × ν)) (map : Map κ (List ν)) (key : κ) :
    (map.pushAll pushes).listOf key = map.listOf key ++ groupOf pushes key := by
  induction pushes generalizing map with
  | nil => rw [pushAll, groupOf, List.foldl_nil, List.filter_nil, List.map_nil, List.append_nil]
  | cons push rest ih =>
      have step : map.pushAll (push :: rest) = (map.push push.1 push.2).pushAll rest := rfl
      rw [step, ih, listOf_push]
      by_cases same : push.1 = key
      · simp [groupOf, same, List.append_assoc]
      · simp [groupOf, same]

/-- Entries of different keys are the map that they make. -/
theorem ofEntries_of_nodup {entries : List (κ × ν)} (distinct : (entries.map (·.1)).Nodup) :
    ofEntries entries = entries := by
  suffices fold : ∀ before : Map κ ν, ((before ++ entries).map (·.1)).Nodup →
      entries.foldl (fun map (key, value) => map.set key value) before = before ++ entries by
    exact fold [] distinct
  clear distinct
  induction entries with
  | nil => exact fun before _ => (List.append_nil before).symm
  | cons entry rest ih =>
      obtain ⟨key, value⟩ := entry
      intro before fresh
      have absent : Map.get? key before = none := by
        rw [List.map_append, List.map_cons, List.nodup_append] at fresh
        have unheld : key ∉ before.map (·.1) := fun held =>
          fresh.2.2 _ held _ List.mem_cons_self rfl
        rwa [mem_keys_iff, Option.not_isSome_iff_eq_none] at unheld
      rw [List.foldl_cons]
      simp only [set_of_absent value absent]
      rw [ih _ (by simpa using fresh), List.append_assoc, List.singleton_append]

end Map

/-! ## Laid out -/

section Groups

variable {pushes : List (κ × ν)} {keys : List κ} {key : κ} {value : ν}

theorem mem_groupOf : value ∈ groupOf pushes key ↔ (key, value) ∈ pushes := by
  rw [groupOf, List.mem_map]
  constructor
  · rintro ⟨⟨held, other⟩, member, rfl⟩
    rw [List.mem_filter, decide_eq_true_eq] at member
    exact member.2 ▸ member.1
  · intro member
    exact ⟨(key, value), List.mem_filter.mpr ⟨member, decide_eq_true rfl⟩, rfl⟩

theorem groupOf_append (first second : List (κ × ν)) (key : κ) :
    groupOf (first ++ second) key = groupOf first key ++ groupOf second key := by
  rw [groupOf, List.filter_append, List.map_append]
  rfl

theorem groupOf_eq_nil (absent : ∀ push ∈ pushes, push.1 ≠ key) : groupOf pushes key = [] := by
  rw [groupOf, List.filter_eq_nil_iff.mpr, List.map_nil]
  intro push member
  rw [decide_eq_true_eq]
  exact absent push member

private theorem groupOf_filter (dropped : κ) (different : key ≠ dropped) :
    groupOf (pushes.filter fun push => decide (push.1 ≠ dropped)) key = groupOf pushes key := by
  rw [groupOf, List.filter_filter, groupOf]
  refine congrArg _ (List.filter_congr fun push _ => ?_)
  by_cases here : push.1 = key
  · simp [here, different]
  · simp [here]

/-- Under different keys that hold every group, each value stands once. -/
theorem flatMap_groupOf_perm (distinct : keys.Nodup) (covered : ∀ push ∈ pushes, push.1 ∈ keys) :
    (keys.flatMap (groupOf pushes)).Perm (pushes.map (·.2)) := by
  induction keys generalizing pushes with
  | nil =>
      have none : pushes = [] := List.eq_nil_iff_forall_not_mem.mpr fun push member =>
        absurd (covered push member) List.not_mem_nil
      rw [none, List.flatMap_nil, List.map_nil]
  | cons key rest ih =>
      rw [List.nodup_cons] at distinct
      have others := @ih (pushes.filter fun push => decide (push.1 ≠ key)) distinct.2
        fun push member => by
          obtain ⟨among, other⟩ := List.mem_filter.mp member
          exact (List.mem_cons.mp (covered push among)).resolve_left (of_decide_eq_true other)
      have same : rest.flatMap (groupOf (pushes.filter fun push => decide (push.1 ≠ key))) =
          rest.flatMap (groupOf pushes) :=
        List.flatMap_congr fun other member =>
          groupOf_filter key fun isKey => distinct.1 (isKey ▸ member)
      rw [same] at others
      rw [List.flatMap_cons]
      refine (others.append_left _).trans ?_
      rw [groupOf, ← List.map_append]
      refine List.Perm.map _ ?_
      have parts := List.filter_append_perm (fun push : κ × ν => decide (push.1 = key)) pushes
      simpa only [decide_not] using parts

end Groups

end Ccrc.Library
