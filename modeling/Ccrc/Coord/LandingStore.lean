import Ccrc.Coord.LandingWrites
import Ccrc.Library.Run

/-! The landing tables under their constraints, and the one authoritative write to
them: read, decide, apply the record, read back. -/

set_option autoImplicit false

namespace Ccrc.Coord

open Library Shared

structure LandingProjectRow where
  project : Text
  flags : LandingFlagsRow
  deriving DecidableEq, Repr

structure LandingTables where
  entries : List LandingEntryRow
  subjects : List LandingSubjectRow
  authorities : List LandingAuthorityRow
  witnesses : List LandingWitnessRow
  projects : List LandingProjectRow
  runs : List LandingRunRow
  deriving DecidableEq, Repr

/-- The keys of the tables and the reference of an authority to its subject. -/
structure LandingTables.Valid (tables : LandingTables) : Prop where
  entryIds : (tables.entries.map (·.id)).Nodup
  entryKeys : (tables.entries.map fun row => (row.project, row.pr)).Nodup
  subjectIds : (tables.subjects.map (·.id)).Nodup
  subjectKeys : (tables.subjects.map fun row => (row.project, row.pr)).Nodup
  authorityIds : (tables.authorities.map (·.subjectId)).Nodup
  authoritySubjects : ∀ row ∈ tables.authorities, ∃ subject ∈ tables.subjects,
    subject.id = row.subjectId

instance (tables : LandingTables) : Decidable tables.Valid :=
  decidable_of_iff ((tables.entries.map (·.id)).Nodup ∧
      (tables.entries.map fun row => (row.project, row.pr)).Nodup ∧
      (tables.subjects.map (·.id)).Nodup ∧
      (tables.subjects.map fun row => (row.project, row.pr)).Nodup ∧
      (tables.authorities.map (·.subjectId)).Nodup ∧
      ∀ row ∈ tables.authorities, ∃ subject ∈ tables.subjects, subject.id = row.subjectId)
    ⟨fun ⟨one, two, three, four, five, six⟩ => ⟨one, two, three, four, five, six⟩,
      fun ⟨one, two, three, four, five, six⟩ => ⟨one, two, three, four, five, six⟩⟩

/-- Tables that hold their constraints. -/
abbrev LandingStore : Type := { tables : LandingTables // tables.Valid }

/-- What a commit answers: a broken constraint throws. -/
def LandingTables.commit (tables : LandingTables) : Option LandingStore :=
  if valid : tables.Valid then some ⟨tables, valid⟩ else none

/-! ## Reading -/

/-- `ORDER BY pinnedAt, id`. -/
def pinnedBefore (first second : LandingEntryRow) : Prop :=
  first.pinnedAt < second.pinnedAt ∨ first.pinnedAt = second.pinnedAt ∧ first.id ≤ second.id

instance (first second : LandingEntryRow) : Decidable (pinnedBefore first second) :=
  inferInstanceAs (Decidable (_ ∨ _ ∧ _))

/-- Every landing row that a read of one project takes. -/
def LandingTables.rows (tables : LandingTables) (project : Text) : LandingStoreRows where
  entries := tables.entries.insertionSort pinnedBefore
  subjects := tables.subjects
  authorities := tables.authorities
  witnesses := tables.witnesses
  flags := (tables.projects.find? (·.project == project)).map (·.flags)
  runs := tables.runs.filter fun run =>
    tables.entries.any fun row => row.project == project && row.runId == some run.id

def landingFactsInner (tables : LandingTables) (project : Text) : Option LandingMutationFacts :=
  landingFactsOf project (tables.rows project)

/-! ## Writing -/

/-- The subject row that a record's mention leaves. -/
def landingSubjectRowOf (seq : Int) (creation : Option Text) (ref : LandingSubjectRef) :
    LandingSubjectRow where
  id := ref.id
  project := ref.project
  pr := ref.pr
  bindingKind := match ref.binding with
    | .noRun => Text.lit "no-run"
    | .run _ => Text.lit "run"
  observedRunId := match ref.binding with
    | .noRun => none
    | .run observedRunId => some observedRunId
  observedSeq := seq
  creationSeq := creation.map fun _ => seq
  creationClaim := creation

/-- A first mention registers a subject, a later one replaces its observation. -/
def upsertSubject (subjects : List LandingSubjectRow) (row : LandingSubjectRow) :
    List LandingSubjectRow :=
  if subjects.any (·.id == row.id) then
    subjects.map fun subject =>
      if subject.id = row.id then
        { subject with bindingKind := row.bindingKind, observedRunId := row.observedRunId
                       observedSeq := row.observedSeq }
      else subject
  else subjects ++ [row]

def upsertAuthority (authorities : List LandingAuthorityRow) (row : LandingAuthorityRow) :
    List LandingAuthorityRow :=
  if authorities.any (·.subjectId == row.subjectId) then
    authorities.map fun authority => if authority.subjectId = row.subjectId then row else authority
  else authorities ++ [row]

/-- The stored text of a creation's claim. -/
def creationClaimText (record : LandingJournalRecord) : Option Text :=
  match record.body with
  | .entry pinnedSha handoffCommit =>
      some ((Json.object [(Text.lit "at", .number record.atTime),
        (Text.lit "setBy", .string record.setBy), (Text.lit "pinnedSha", .string pinnedSha),
        (Text.lit "handoffCommit", .string handoffCommit)]).write Text.ofInt)
  | .order _ _ => none

/-- The authority row that a record leaves. -/
def authorityRowOf (record : LandingJournalRecord) : LandingAuthorityRow where
  subjectId := record.subject.id
  afterIds := match record.body with
    | .entry _ _ => writeIds []
    | .order after _ => writeIds (after.map (·.id))
  fixesMain := match record.body with
    | .order _ true => 1
    | .order _ false | .entry _ _ => 0
  setBy := record.setBy
  seq := record.seq

def recordTargets (record : LandingJournalRecord) : List LandingSubjectRef :=
  match record.body with
  | .entry _ _ => []
  | .order after _ => after

/-- The one writer of the overlay tables. -/
def applyLandingRecord (tables : LandingTables) (record : LandingJournalRecord) :
    LandingTables :=
  let first := upsertSubject tables.subjects
    (landingSubjectRowOf record.seq (creationClaimText record) record.subject)
  { tables with
    subjects := (recordTargets record).foldl
      (fun subjects ref => upsertSubject subjects (landingSubjectRowOf record.seq none ref)) first
    authorities := upsertAuthority tables.authorities (authorityRowOf record) }

/-- The projection row of a creation, with the defaults of its other columns. -/
def landingEntryRowOf (id : Int) (project : Text) (pr : Int) (pinnedSha handoffCommit setBy : Text)
    (atTime : Int) : LandingEntryRow where
  id := id
  project := project
  pr := pr
  pinnedSha := pinnedSha
  handoffCommit := handoffCommit
  runId := none
  state := Text.lit "pinned"
  baseSha := none
  ejectionKind := none
  ejections := 0
  afterIds := writeIds []
  fixesMain := 0
  setBy := setBy
  pinnedAt := atTime
  quarantineKind := none

def applyLandingMutation (tables : LandingTables) (command : LandingAuthorityCommand)
    (mutation : LandingMutation) (seq atTime : Int) : LandingTables :=
  let recorded := applyLandingRecord tables (landingRecordOf command mutation seq atTime)
  match mutation with
  | .entry id project pr pinnedSha handoffCommit setBy =>
      { recorded with entries := recorded.entries ++
          [landingEntryRowOf id project pr pinnedSha handoffCommit setBy atTime] }
  | .order _ _ _ _ _ => recorded

/-- One attributed write after `seq - 1` records: the store that it commits. A
refusal, a no-op and a throw all leave the store as it was. -/
def writeLandingAuthority (store : LandingStore) (command : LandingAuthorityCommand)
    (seq atTime : Int) : Option LandingStore := do
  let facts ← landingFactsInner store.1 command.project
  match decideLandingMutation command facts with
  | .error _ | .ok (.noop _ _) => none
  | .ok (.mutate mutation) =>
      let applied := applyLandingMutation store.1 command mutation seq atTime
      let after ← landingFactsInner applied command.project
      if (after.entries.find? (·.pr == command.pr)).isNone then none else applied.commit

structure LandingWriteCall where
  command : LandingAuthorityCommand
  seq : Int
  atTime : Int
  deriving DecidableEq, Repr

def landingWriteStep (store : LandingStore) (call : LandingWriteCall) : LandingStore :=
  (writeLandingAuthority store call.command call.seq call.atTime).getD store

end Ccrc.Coord
