import Ccrc.Coord.LandingStore
import Ccrc.Coord.LandingWritesProperties

/-! What a landing write does to the order that each entry's row is read under: an
order replaces its source's, a creation adds an empty one, and every other entry
keeps its own. -/

set_option autoImplicit false

namespace Ccrc.Coord

open Library Shared

def LandingSubjectRow.identity (row : LandingSubjectRow) : LandingIdentity where
  id := row.id
  project := row.project
  pr := row.pr

/-- The order that an entry's row is read under. -/
def storedAfter (subjects : List LandingRecoverySubjectFact) (row : LandingEntryRow) :
    Option (List Int) :=
  afterIdsOf (row.overlay (landingAuthorityOfEntry subjects row)).afterIds

/-! ## Recovered subjects -/

theorem landingSubjectOf_some {authorities : List LandingAuthorityRow} {row : LandingSubjectRow}
    {subject : LandingRecoverySubjectFact} (read : landingSubjectOf authorities row = some subject) :
    subject.toLandingIdentity = row.identity ∧
      landingAuthorityFor authorities row.id = some subject.authority := by
  simp only [landingSubjectOf, Option.bind_eq_bind, Option.bind_eq_some_iff] at read
  obtain ⟨id, isId, pr, isPr, seq, _, read⟩ := read
  obtain ⟨rfl, _⟩ := safeIntOf_eq_some.mp isId
  obtain ⟨rfl, _⟩ := safeIntOf_eq_some.mp isPr
  split at read
  next => cases read
  next =>
      simp only [Option.bind_eq_some_iff] at read
      obtain ⟨binding, _, creation, _, authority, isAuthority, same⟩ := read
      cases same
      exact ⟨rfl, isAuthority⟩

section Recovered

variable {tables : LandingTables} {subjects : List LandingRecoverySubjectFact}
  (recovered : tables.subjects.mapM (landingSubjectOf tables.authorities) = some subjects)
  {row : LandingEntryRow}

include recovered

theorem recovered_of_row {subject : LandingSubjectRow} (member : subject ∈ tables.subjects) :
    ∃ fact ∈ subjects, fact.toLandingIdentity = subject.identity := by
  obtain ⟨fact, isFact, read⟩ := forall₂_mem_left (mapM_eq_some_iff.mp recovered) member
  exact ⟨fact, isFact, (landingSubjectOf_some read).1⟩

/-- An entry without its exact subject is under no authority. -/
theorem authorityOfEntry_none (apart : ∀ subject ∈ tables.subjects, subject.identity ≠ row.identity) :
    landingAuthorityOfEntry subjects row = none := by
  rw [landingAuthorityOfEntry, Option.bind_eq_none_iff]
  intro fact found
  obtain ⟨subject, isSubject, read⟩ :=
    forall₂_mem_right (mapM_eq_some_iff.mp recovered) (List.mem_of_find?_eq_some found)
  have exact := List.find?_some found
  simp only [Bool.and_eq_true, beq_iff_eq] at exact
  have identity := (landingSubjectOf_some read).1
  refine absurd ?_ (apart subject isSubject)
  rw [← identity, LandingEntryRow.identity, ← exact.1.1, ← exact.1.2, ← exact.2]

/-- An entry with its exact subject is under the authority of its id. -/
theorem authorityOfEntry_some {subject : LandingSubjectRow} (member : subject ∈ tables.subjects)
    (same : subject.identity = row.identity) :
    landingAuthorityFor tables.authorities row.id = some (landingAuthorityOfEntry subjects row) := by
  have sameId : ∀ {subject : LandingSubjectRow}, subject.identity = row.identity →
      subject.id = row.id := fun same => congrArg LandingIdentity.id same
  rw [landingAuthorityOfEntry]
  cases found : subjects.find? fun subject =>
      subject.id == row.id && subject.project == row.project && subject.pr == row.pr with
  | none =>
      obtain ⟨fact, isFact, identity⟩ := recovered_of_row recovered member
      refine absurd (List.find?_eq_none.mp found fact isFact) ?_
      rw [same] at identity
      simp [show fact.id = row.id from congrArg LandingIdentity.id identity,
        show fact.project = row.project from congrArg LandingIdentity.project identity,
        show fact.pr = row.pr from congrArg LandingIdentity.pr identity]
  | some fact =>
      obtain ⟨other, isOther, read⟩ :=
        forall₂_mem_right (mapM_eq_some_iff.mp recovered) (List.mem_of_find?_eq_some found)
      have exact := List.find?_some found
      simp only [Bool.and_eq_true, beq_iff_eq] at exact
      obtain ⟨identity, authority⟩ := landingSubjectOf_some read
      have ofRow : other.id = row.id :=
        (congrArg LandingIdentity.id identity).symm.trans exact.1.1
      rw [ofRow] at authority
      exact authority

end Recovered

/-! ## Upserts -/

theorem upsertSubject_keeps {subjects : List LandingSubjectRow} (new : LandingSubjectRow)
    {identity : LandingIdentity} (present : ∃ subject ∈ subjects, subject.identity = identity) :
    ∃ subject ∈ upsertSubject subjects new, subject.identity = identity := by
  obtain ⟨subject, member, rfl⟩ := present
  unfold upsertSubject
  split
  next =>
      refine ⟨_, List.mem_map_of_mem member, ?_⟩
      split <;> rfl
  next => exact ⟨subject, List.mem_append_left _ member, rfl⟩

theorem upsertSubject_adds {subjects : List LandingSubjectRow} {new : LandingSubjectRow}
    {identity : LandingIdentity}
    (present : ∃ subject ∈ upsertSubject subjects new, subject.identity = identity) :
    (∃ subject ∈ subjects, subject.identity = identity) ∨ new.identity = identity := by
  obtain ⟨subject, member, rfl⟩ := present
  unfold upsertSubject at member
  split at member
  next =>
      obtain ⟨former, isFormer, rfl⟩ := List.mem_map.mp member
      refine Or.inl ⟨former, isFormer, ?_⟩
      split <;> rfl
  next =>
      cases List.mem_append.mp member with
      | inl old => exact Or.inl ⟨subject, old, rfl⟩
      | inr added => exact Or.inr (by rw [List.mem_singleton.mp added])

theorem upsertSubject_present (subjects : List LandingSubjectRow) (new : LandingSubjectRow)
    (agrees : ∀ subject ∈ subjects, subject.id = new.id → subject.identity = new.identity) :
    ∃ subject ∈ upsertSubject subjects new, subject.identity = new.identity := by
  by_cases known : (subjects.any (·.id == new.id)) = true
  · obtain ⟨subject, member, same⟩ := List.any_eq_true.mp known
    exact upsertSubject_keeps new
      ⟨subject, member, agrees subject member (beq_iff_eq.mp same)⟩
  · rw [upsertSubject, if_neg known]
    exact ⟨new, by simp, rfl⟩

theorem foldl_upsertSubject_keeps (seq : Int) (refs : List LandingSubjectRef)
    {subjects : List LandingSubjectRow} {identity : LandingIdentity}
    (present : ∃ subject ∈ subjects, subject.identity = identity) :
    ∃ subject ∈ refs.foldl (fun subjects ref =>
        upsertSubject subjects (landingSubjectRowOf seq none ref)) subjects,
      subject.identity = identity := by
  induction refs generalizing subjects with
  | nil => exact present
  | cons ref refs ih => exact ih (upsertSubject_keeps _ present)

theorem foldl_upsertSubject_adds {seq : Int} {refs : List LandingSubjectRef}
    {subjects : List LandingSubjectRow} {identity : LandingIdentity}
    (present : ∃ subject ∈ refs.foldl (fun subjects ref =>
        upsertSubject subjects (landingSubjectRowOf seq none ref)) subjects,
      subject.identity = identity) :
    (∃ subject ∈ subjects, subject.identity = identity) ∨
      ∃ ref ∈ refs, ref.toLandingIdentity = identity := by
  induction refs generalizing subjects with
  | nil => exact Or.inl present
  | cons ref refs ih =>
      cases ih present with
      | inr later =>
          obtain ⟨other, member, same⟩ := later
          exact Or.inr ⟨other, List.mem_cons_of_mem ref member, same⟩
      | inl early =>
          cases upsertSubject_adds early with
          | inl old => exact Or.inl old
          | inr new => exact Or.inr ⟨ref, List.mem_cons_self, new⟩

theorem landingAuthorityFor_upsert_ne (authorities : List LandingAuthorityRow)
    {new : LandingAuthorityRow} {id : Int} (other : id ≠ new.subjectId) :
    landingAuthorityFor (upsertAuthority authorities new) id =
      landingAuthorityFor authorities id := by
  have unmatched : ∀ {row : LandingAuthorityRow}, row.subjectId = new.subjectId →
      (safeIntOf row.subjectId 1 == some id) = false := by
    intro row same
    refine beq_eq_false_iff_ne.mpr fun found => other ?_
    rw [(safeIntOf_eq_some.mp found).1, same]
  have finds : (upsertAuthority authorities new).find?
      (fun row => safeIntOf row.subjectId 1 == some id) =
      authorities.find? fun row => safeIntOf row.subjectId 1 == some id := by
    unfold upsertAuthority
    split
    next =>
        refine find?_map_fixed authorities (fun row => ?_) fun row found => if_neg fun same => ?_
        · split
          next same => rw [unmatched rfl, unmatched same]
          next => rfl
        · rw [unmatched same] at found
          cases found
    next => simp [List.find?_append, unmatched rfl]
  rw [landingAuthorityFor, landingAuthorityFor, finds]

theorem landingAuthorityFor_upsert_self (authorities : List LandingAuthorityRow)
    (new : LandingAuthorityRow) (safe : safeIntOf new.subjectId 1 = some new.subjectId) :
    landingAuthorityFor (upsertAuthority authorities new) new.subjectId =
      (landingAuthorityOf new).map some := by
  have matched : ∀ row : LandingAuthorityRow,
      (safeIntOf row.subjectId 1 == some new.subjectId) = true ↔
        row.subjectId = new.subjectId := by
    intro row
    rw [beq_iff_eq]
    exact ⟨fun found => (safeIntOf_eq_some.mp found).1.symm, fun same => same ▸ safe⟩
  have finds : (upsertAuthority authorities new).find?
      (fun row => safeIntOf row.subjectId 1 == some new.subjectId) = some new := by
    unfold upsertAuthority
    split
    next present =>
        rw [List.find?_map]
        obtain ⟨row, member, same⟩ := List.any_eq_true.mp present
        rw [beq_iff_eq] at same
        cases found : authorities.find? ((fun row : LandingAuthorityRow =>
            safeIntOf row.subjectId 1 == some new.subjectId) ∘ fun authority =>
            if authority.subjectId = new.subjectId then new else authority) with
        | none =>
            refine absurd (List.find?_eq_none.mp found row member) (not_not.mpr ?_)
            rw [Function.comp_apply, if_pos same]
            exact (matched new).mpr rfl
        | some first =>
            have isSought := List.find?_some found
            by_cases here : first.subjectId = new.subjectId
            · rw [Option.map_some, if_pos here]
            · rw [Function.comp_apply, if_neg here] at isSought
              exact absurd ((matched first).mp isSought) here
    next absent =>
        have none : authorities.find? (fun row =>
            safeIntOf row.subjectId 1 == some new.subjectId) = none := by
          refine List.find?_eq_none.mpr fun row member found => absent ?_
          exact List.any_eq_true.mpr ⟨row, member, beq_iff_eq.mpr ((matched row).mp found)⟩
        rw [List.find?_append, none]
        simp [safe]
  rw [landingAuthorityFor, finds]

/-- An id with no subject has no authority. -/
theorem landingAuthorityFor_none {tables : LandingTables} (valid : tables.Valid) {id : Int}
    (apart : ∀ subject ∈ tables.subjects, subject.id ≠ id) :
    landingAuthorityFor tables.authorities id = some none := by
  have none : tables.authorities.find? (fun row => safeIntOf row.subjectId 1 == some id) =
      none := by
    refine List.find?_eq_none.mpr fun row member found => ?_
    obtain ⟨subject, isSubject, ofRow⟩ := valid.authoritySubjects row member
    exact apart subject isSubject
      (ofRow.trans (safeIntOf_eq_some.mp (beq_iff_eq.mp found)).1.symm)
  rw [landingAuthorityFor, none]

/-! ## One write -/

theorem applyLandingRecord_keeps {tables : LandingTables} (record : LandingJournalRecord)
    {identity : LandingIdentity}
    (present : ∃ subject ∈ tables.subjects, subject.identity = identity) :
    ∃ subject ∈ (applyLandingRecord tables record).subjects, subject.identity = identity :=
  foldl_upsertSubject_keeps record.seq _ (upsertSubject_keeps _ present)

theorem applyLandingRecord_adds {tables : LandingTables} {record : LandingJournalRecord}
    {identity : LandingIdentity}
    (present : ∃ subject ∈ (applyLandingRecord tables record).subjects,
      subject.identity = identity) :
    (∃ subject ∈ tables.subjects, subject.identity = identity) ∨
      ∃ ref ∈ record.mentions, ref.toLandingIdentity = identity := by
  have mentions : record.mentions = record.subject :: recordTargets record := by
    unfold LandingJournalRecord.mentions recordTargets
    cases record.body with
    | entry => rfl
    | order => rfl
  rw [mentions]
  cases foldl_upsertSubject_adds present with
  | inl early =>
      cases upsertSubject_adds early with
      | inl old => exact Or.inl old
      | inr here => exact Or.inr ⟨record.subject, List.mem_cons_self, here⟩
  | inr later =>
      obtain ⟨ref, member, same⟩ := later
      exact Or.inr ⟨ref, List.mem_cons_of_mem _ member, same⟩

section Write

variable {tables : LandingTables} (valid : tables.Valid) {project : Text}
  {subjects : List LandingRecoverySubjectFact}
  (recovered : tables.subjects.mapM (landingSubjectOf tables.authorities) = some subjects)
  (resolved : (landingFactsUnder project (tables.rows project) subjects).recovery.subjects = [])
  {record : LandingJournalRecord} {after : List LandingRecoverySubjectFact}
  (reread : (applyLandingRecord tables record).subjects.mapM
    (landingSubjectOf (applyLandingRecord tables record).authorities) = some after)

include recovered resolved

/-- A stored subject of an entry's id is that entry's. -/
theorem subject_agrees {row : LandingEntryRow} (member : row ∈ tables.entries)
    (ofProject : row.project = project) {subject : LandingSubjectRow}
    (isSubject : subject ∈ tables.subjects) (sameId : subject.id = row.id) :
    subject.identity = row.identity := by
  obtain ⟨fact, isFact, identity⟩ := recovered_of_row recovered isSubject
  have factId : row.id = fact.id :=
    sameId.symm.trans (congrArg LandingIdentity.id identity).symm
  exact identity.symm.trans ((landingRecovery_empty resolved isFact).1 row
    ((List.mem_insertionSort _).mpr member) ofProject (Or.inl factId)).symm

include valid reread

/-- A write leaves every entry but its source under the order it had. -/
theorem storedAfter_other {row : LandingEntryRow} (member : row ∈ tables.entries)
    (other : row.id ≠ record.subject.id)
    (named : ∀ ref ∈ record.mentions, ref.toLandingIdentity = row.identity →
      row.project = project) :
    storedAfter after row = storedAfter subjects row := by
  have authority : landingAuthorityFor (applyLandingRecord tables record).authorities row.id =
      landingAuthorityFor tables.authorities row.id := landingAuthorityFor_upsert_ne _ other
  have same : landingAuthorityOfEntry after row = landingAuthorityOfEntry subjects row := by
    by_cases before : ∃ subject ∈ tables.subjects, subject.identity = row.identity
    · obtain ⟨subject, isSubject, exact⟩ := before
      obtain ⟨still, isStill, stillExact⟩ :=
        applyLandingRecord_keeps record ⟨subject, isSubject, exact⟩
      have now := authorityOfEntry_some reread isStill stillExact
      rw [authority, authorityOfEntry_some recovered isSubject exact] at now
      exact (Option.some.inj now).symm
    · have unnamed : ∀ subject ∈ tables.subjects, subject.identity ≠ row.identity :=
        fun subject isSubject exact => before ⟨subject, isSubject, exact⟩
      rw [authorityOfEntry_none recovered unnamed]
      by_cases now : ∃ subject ∈ (applyLandingRecord tables record).subjects,
          subject.identity = row.identity
      · obtain ⟨ref, isRef, exact⟩ := (applyLandingRecord_adds now).resolve_left before
        obtain ⟨subject, isSubject, nowExact⟩ := now
        have none := landingAuthorityFor_none valid fun subject isSubject sameId =>
          unnamed subject isSubject
            (subject_agrees recovered resolved member (named ref isRef exact) isSubject sameId)
        have read := authorityOfEntry_some reread isSubject nowExact
        rw [authority, none] at read
        exact (Option.some.inj read).symm
      · exact authorityOfEntry_none reread fun subject isSubject exact =>
          now ⟨subject, isSubject, exact⟩
  rw [storedAfter, storedAfter, same]

end Write

/-- A write leaves its source under the order it records. -/
theorem storedAfter_source {tables : LandingTables} {record : LandingJournalRecord}
    {after : List LandingRecoverySubjectFact}
    (reread : (applyLandingRecord tables record).subjects.mapM
      (landingSubjectOf (applyLandingRecord tables record).authorities) = some after)
    {row : LandingEntryRow} (identity : row.identity = record.subject.toLandingIdentity)
    (safe : safeIntOf row.id 1 = some row.id)
    (agrees : ∀ subject ∈ tables.subjects, subject.id = row.id → subject.identity = row.identity)
    {ids : List Int} (ordered : afterIdsOf (authorityRowOf record).afterIds = some ids) :
    storedAfter after row = some ids := by
  have sameId : row.id = record.subject.id := congrArg LandingIdentity.id identity
  obtain ⟨first, isFirst, firstIdentity⟩ := upsertSubject_present tables.subjects
    (landingSubjectRowOf record.seq (creationClaimText record) record.subject)
    fun subject isSubject same =>
      (agrees subject isSubject (same.trans sameId.symm)).trans identity
  obtain ⟨subject, isSubject, exact⟩ :=
    foldl_upsertSubject_keeps record.seq (recordTargets record) ⟨first, isFirst, firstIdentity⟩
  have read := authorityOfEntry_some reread isSubject (exact.trans identity.symm)
  have safeSubject : safeIntOf record.subject.id 1 = some record.subject.id := sameId ▸ safe
  have written := landingAuthorityFor_upsert_self tables.authorities (authorityRowOf record)
    safeSubject
  rw [show row.id = (authorityRowOf record).subjectId from sameId] at read
  obtain ⟨set, isSet, authority⟩ := Option.map_eq_some_iff.mp (written.symm.trans read)
  simp only [landingAuthorityOf, Option.bind_eq_bind, Option.bind_eq_some_iff] at isSet
  obtain ⟨afterIds, isAfter, seq, _, fixes, _, isSet⟩ := isSet
  split at isSet
  next => cases isSet
  next =>
      cases isSet
      cases ordered.symm.trans isAfter
      rw [storedAfter, ← authority]
      exact afterIdsOf_writeIds (afterIdsOf_some ordered).1 (afterIdsOf_some ordered).2

/-! ## The read of a project -/

theorem landingFactsInner_eq_some {tables : LandingTables} {project : Text}
    {facts : LandingMutationFacts} :
    landingFactsInner tables project = some facts ↔
      ∃ subjects, tables.subjects.mapM (landingSubjectOf tables.authorities) = some subjects ∧
        (∀ row ∈ tables.entries, row.keyed = true) ∧
        facts = landingFactsUnder project (tables.rows project) subjects := by
  constructor
  · intro read
    obtain ⟨subjects, recovered, keyed, same⟩ := landingFactsOf_some read
    exact ⟨subjects, recovered, fun row member =>
      keyed row ((List.mem_insertionSort _).mpr member), same⟩
  · rintro ⟨subjects, recovered, keyed, rfl⟩
    have all : (tables.rows project).entries.all LandingEntryRow.keyed = true :=
      List.all_eq_true.mpr fun row member => keyed row ((List.mem_insertionSort _).mp member)
    rw [landingFactsInner, landingFactsOf, show subjectsOf (tables.rows project) = some subjects
      from recovered, Option.bind_eq_bind, Option.bind_some, if_pos all]
    rfl

theorem LandingEntryRow.keyed_safe {row : LandingEntryRow} (keyed : row.keyed = true) :
    safeIntOf row.id 1 = some row.id ∧ safeIntOf row.pr 1 = some row.pr := by
  simp only [LandingEntryRow.keyed, Bool.and_eq_true, safeIntOf_isSome] at keyed
  exact ⟨safeIntOf_eq_some.mpr ⟨rfl, keyed.1⟩, safeIntOf_eq_some.mpr ⟨rfl, keyed.2⟩⟩

section Facts

variable {tables : LandingTables} {project : Text} {subjects : List LandingRecoverySubjectFact}

/-- The entries of the facts are the project's rows. -/
theorem factsEntry_row {entry : LandingEntry}
    (member : entry ∈ (landingFactsUnder project (tables.rows project) subjects).entries) :
    ∃ row ∈ tables.entries, row.project = project ∧
      entry = (landingEntryFactsOf subjects row).entry := by
  obtain ⟨row, among, rfl⟩ := List.mem_map.mp member
  obtain ⟨isRow, ofProject⟩ := List.mem_filter.mp among
  exact ⟨row, (List.mem_insertionSort _).mp isRow, beq_iff_eq.mp ofProject, rfl⟩

theorem depsOf_row (valid : tables.Valid) {row : LandingEntryRow} (member : row ∈ tables.entries)
    (ofProject : row.project = project) :
    (landingFactsUnder project (tables.rows project) subjects).depsOf row.id =
      (landingEntryFactsOf subjects row).dependencies := by
  have distinct : (((tables.entries.insertionSort pinnedBefore).filter
      (·.project == project)).map (·.id)).Nodup :=
    (((List.perm_insertionSort _ _).map _).nodup_iff.mpr valid.entryIds).sublist
      (List.filter_sublist.map _)
  have found : (landingFactsUnder project (tables.rows project) subjects).dependencies.get? row.id =
      some (landingEntryFactsOf subjects row).dependencies := by
    refine Map.get?_of_mem ?_ (List.mem_map.mpr ⟨row, List.mem_filter.mpr
      ⟨(List.mem_insertionSort _).mpr member, beq_iff_eq.mpr ofProject⟩, by simp⟩)
    simpa [landingFactsUnder, LandingTables.rows, Function.comp_def] using distinct
  rw [LandingMutationFacts.depsOf, found, Option.getD_some]

end Facts

end Ccrc.Coord
