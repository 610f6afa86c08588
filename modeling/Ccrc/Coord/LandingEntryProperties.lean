import Ccrc.Coord.LandingEntry
import Ccrc.Library.JsonProperties

/-! What a readable snapshot of the landing rows promises of its facts. -/

set_option autoImplicit false

namespace Ccrc.Coord

open Library Shared

/-! ## Stored values -/

theorem safeIntOf_eq_some {value least safe : Int} :
    safeIntOf value least = some safe ↔
      safe = value ∧ least ≤ value ∧ value ≤ Number.maxSafeInteger := by
  unfold safeIntOf
  split
  next inRange => simp [inRange, eq_comm]
  next outOfRange => simp [outOfRange]

theorem safeIntOf_isSome {value least : Int} :
    (safeIntOf value least).isSome = true ↔
      least ≤ value ∧ value ≤ Number.maxSafeInteger := by
  unfold safeIntOf
  split
  next inRange => simp [inRange]
  next outOfRange => simp [outOfRange]

theorem safeNumberOf_ofInt {value least : Int} (nonnegative : 0 ≤ least) (atLeast : least ≤ value)
    (safe : value ≤ Number.maxSafeInteger) :
    safeNumberOf (.number (Number.ofInt value)) least = some value := by
  have inRange : -Number.maxSafeInteger ≤ value ∧ value ≤ Number.maxSafeInteger := by
    unfold Number.maxSafeInteger at safe ⊢
    omega
  simp [safeNumberOf, Number.ofInt_safeInt? inRange, safeIntOf, atLeast, safe]

theorem safeNumberOf_bounds {value : Json Number} {least safe : Int}
    (read : safeNumberOf value least = some safe) : least ≤ safe ∧ safe ≤ Number.maxSafeInteger := by
  cases value with
  | number number =>
      obtain ⟨integer, _, inRange⟩ := Option.bind_eq_some_iff.mp read
      obtain ⟨rfl, bounds⟩ := safeIntOf_eq_some.mp inRange
      exact bounds
  | null | bool | string | array | object => cases read

/-- The members of a stored order are distinct, positive and safe. -/
theorem afterIdsOf_some {stored : Text} {ids : List Int} (read : afterIdsOf stored = some ids) :
    ids.Nodup ∧ ∀ id ∈ ids, 1 ≤ id ∧ id ≤ Number.maxSafeInteger := by
  unfold afterIdsOf at read
  split at read
  next items _ =>
      obtain ⟨members, distinct⟩ := Option.filter_eq_some_iff.mp read
      refine ⟨of_decide_eq_true distinct, fun id member => ?_⟩
      obtain ⟨item, _, isRead⟩ := forall₂_mem_right (mapM_eq_some_iff.mp members) member
      exact safeNumberOf_bounds isRead
  next => cases read

private theorem distinctItems_numbers (ids : List Int) :
    Json.DistinctItems (ids.map Json.number) := by
  induction ids with
  | nil => trivial
  | cons id ids ih => exact ⟨trivial, ih⟩

private theorem mapItems_numbers (ids : List Int) :
    Json.mapItems Number.ofInt (ids.map .number) =
      ids.map fun id => .number (Number.ofInt id) := by
  induction ids with
  | nil => rfl
  | cons id ids ih => rw [List.map_cons, Json.mapItems, ih, Json.map, List.map_cons]

/-- Reading back a written order. -/
theorem afterIdsOf_writeIds {ids : List Int} (distinct : ids.Nodup)
    (safe : ∀ id ∈ ids, 1 ≤ id ∧ id ≤ Number.maxSafeInteger) :
    afterIdsOf (writeIds ids) = some ids := by
  have members : (ids.map fun id => Json.number (Number.ofInt id)).mapM (safeNumberOf · 1) =
      some ids := by
    rw [mapM_eq_some_iff, List.forall₂_map_left_iff, List.forall₂_same]
    exact fun id member => safeNumberOf_ofInt Int.one_nonneg (safe id member).1 (safe id member).2
  have spelled : (Json.array (ids.map .number)).Distinct := distinctItems_numbers ids
  rw [afterIdsOf, writeIds, Json.parse_write _ spelled, Json.map, mapItems_numbers]
  simp [members, distinct]

/-- The allocated id is positive, safe and past every id there is. -/
theorem landingNextId_some {ids : List Int} {next : Int} (allocated : landingNextId ids = some next) :
    1 ≤ next ∧ next ≤ Number.maxSafeInteger ∧ ∀ id ∈ ids, id < next := by
  simp only [landingNextId] at allocated
  split at allocated
  next => cases allocated
  next small =>
      cases allocated
      obtain ⟨above, each⟩ := foldl_max_bounds (0 : Int) ids
      refine ⟨?_, ?_, fun id member => ?_⟩
      · omega
      · omega
      · have bound := each id member
        omega

/-! ## The snapshot -/

def LandingEntryRow.identity (row : LandingEntryRow) : LandingIdentity where
  id := row.id
  project := row.project
  pr := row.pr

theorem landingFactsOf_some {project : Text} {rows : LandingStoreRows}
    {facts : LandingMutationFacts} (read : landingFactsOf project rows = some facts) :
    ∃ subjects, subjectsOf rows = some subjects ∧ (∀ row ∈ rows.entries, row.keyed = true) ∧
      facts = landingFactsUnder project rows subjects := by
  obtain ⟨subjects, isRead, given⟩ := Option.bind_eq_some_iff.mp read
  split at given
  next keyed =>
      cases given
      exact ⟨subjects, isRead, List.all_eq_true.mp keyed, rfl⟩
  next => cases given

section Facts

variable (subjects : List LandingRecoverySubjectFact) (row : LandingEntryRow)

@[simp] theorem landingEntryFactsOf_id : (landingEntryFactsOf subjects row).entry.id = row.id := by
  unfold landingEntryFactsOf LandingEntryRow.overlay
  split <;> rfl

@[simp] theorem landingEntryFactsOf_project :
    (landingEntryFactsOf subjects row).entry.project = row.project := by
  unfold landingEntryFactsOf LandingEntryRow.overlay
  split <;> rfl

@[simp] theorem landingEntryFactsOf_pr : (landingEntryFactsOf subjects row).entry.pr = row.pr := by
  unfold landingEntryFactsOf LandingEntryRow.overlay
  split <;> rfl

theorem landingEntryFactsOf_identity :
    (landingEntryFactsOf subjects row).entry.identity = row.identity := by
  simp [LandingEntry.identity, LandingEntryRow.identity]

end Facts

theorem mem_landingConflicts (subjects : List LandingRecoverySubjectFact)
    {entries : List LandingEntryRow} {row : LandingEntryRow} {subject : LandingIdentity}
    (member : row ∈ entries) (different : row.identity ≠ subject)
    (shared : row.id = subject.id ∨ row.project = subject.project ∧ row.pr = subject.pr) :
    row.identity ∈ landingConflicts subject (entries.map (landingEntryFactsOf subjects)) := by
  refine List.mem_filter.mpr ⟨?_, decide_eq_true ⟨different, shared⟩⟩
  rw [List.map_map, List.mem_map]
  exact ⟨row, member, landingEntryFactsOf_identity subjects row⟩

/-- A project with nothing to recover holds no subject that an entry contradicts, and
every subject of the project has its entry. -/
theorem landingRecovery_empty {project : Text} {rows : LandingStoreRows}
    {subjects : List LandingRecoverySubjectFact}
    (resolved : (landingFactsUnder project rows subjects).recovery.subjects = [])
    {subject : LandingRecoverySubjectFact} (recovered : subject ∈ subjects) :
    (∀ row ∈ rows.entries, row.project = project →
      (row.id = subject.id ∨ row.project = subject.project ∧ row.pr = subject.pr) →
      row.identity = subject.toLandingIdentity) ∧
    (subject.project = project →
      ∃ row ∈ rows.entries, row.identity = subject.toLandingIdentity) := by
  have sorted : (subjects.filterMap _).insertionSort _ = [] := resolved
  have listed := (List.perm_insertionSort _ _).symm.trans (List.Perm.of_eq sorted)
  have unlisted := List.filterMap_eq_nil_iff.mp (List.perm_nil.mp listed) subject recovered
  rw [Option.bind_eq_none_iff] at unlisted
  constructor
  · intro row member ofProject shared
    by_contra different
    have conflict := mem_landingConflicts subjects member different shared
    have some : landingConflicts subject.toLandingIdentity
        (rows.entries.map (landingEntryFactsOf subjects)) ≠ [] := List.ne_nil_of_mem conflict
    refine absurd (unlisted _ (by rw [landingSubjectProjection, if_pos some])) ?_
    have involved : (landingConflicts subject.toLandingIdentity
        (rows.entries.map (landingEntryFactsOf subjects))).any (·.project == project) = true :=
      List.any_eq_true.mpr ⟨_, conflict, beq_iff_eq.mpr ofProject⟩
    dsimp only
    rw [if_pos (Or.inr involved)]
    exact Option.some_ne_none _
  · intro ofProject
    cases projected : landingSubjectProjection subject
        (rows.entries.map (landingEntryFactsOf subjects))
        (rows.witnesses.filterMap landingWitnessOf) with
    | some projection =>
        refine absurd (unlisted projection projected) ?_
        dsimp only
        rw [if_pos (Or.inl ofProject)]
        exact Option.some_ne_none _
    | none =>
        simp only [landingSubjectProjection] at projected
        split at projected
        next => cases projected
        next =>
            split at projected
            next => cases projected
            next exact found =>
                obtain ⟨member, same⟩ := List.mem_filter.mp (List.mem_of_getLast? found)
                obtain ⟨facts, among, rfl⟩ := List.mem_map.mp member
                obtain ⟨row, isRow, rfl⟩ := List.mem_map.mp among
                rw [landingEntryFactsOf_identity] at same
                exact ⟨row, isRow, beq_iff_eq.mp same⟩

end Ccrc.Coord
