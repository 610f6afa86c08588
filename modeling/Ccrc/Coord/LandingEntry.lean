import Ccrc.Shared.LandingLine
import Ccrc.Library.Json
import Ccrc.Library.Lists
import Ccrc.Library.Map

/-! The reader of the landing line's rows: what one row says, what recovery lists of
a project, and the coherent facts that a write decides on. -/

set_option autoImplicit false

namespace Ccrc.Coord

open Library Shared

/-! ## Stored values -/

/-- A stored integer of at least `least` within the safe range. -/
def safeIntOf (value least : Int) : Option Int :=
  if least ≤ value ∧ value ≤ Number.maxSafeInteger then some value else none

/-- `safeIntOf` of a parsed value. -/
def safeNumberOf (value : Json Number) (least : Int) : Option Int :=
  match value with
  | .number number => number.safeInt?.bind (safeIntOf · least)
  | .null | .bool _ | .string _ | .array _ | .object _ => none

/-- A stored `afterIds`: a JSON array of distinct positive safe integers. -/
def afterIdsOf (stored : Text) : Option (List Int) :=
  match Json.parse stored with
  | some (.array items) =>
      (items.mapM (safeNumberOf · 1)).filter fun ids => decide ids.Nodup
  | _ => none

def staleEpisodeHead : Text := Text.lit "stale-episode-head"

/-- A row of `landing_entries`. -/
structure LandingEntryRow where
  id : Int
  project : Text
  pr : Int
  pinnedSha : Text
  handoffCommit : Text
  runId : Option Int
  state : Text
  baseSha : Option Text
  ejectionKind : Option Text
  ejections : Int
  afterIds : Text
  fixesMain : Int
  setBy : Text
  pinnedAt : Int
  quarantineKind : Option Text
  deriving DecidableEq, Repr

/-- A row of `landing_subjects`. -/
structure LandingSubjectRow where
  id : Int
  project : Text
  pr : Int
  bindingKind : Text
  observedRunId : Option Int
  observedSeq : Int
  creationSeq : Option Int
  creationClaim : Option Text
  deriving DecidableEq, Repr

/-- A row of `landing_authority`. -/
structure LandingAuthorityRow where
  subjectId : Int
  afterIds : Text
  fixesMain : Int
  setBy : Text
  seq : Int
  deriving DecidableEq, Repr

/-- A row of `landing_projection_witness`. -/
structure LandingWitnessRow where
  entryId : Int
  project : Text
  pr : Int
  observedSeq : Int
  runId : Int
  pinnedSha : Text
  handoffCommit : Text
  deriving DecidableEq, Repr

/-- A row of `landing_projects`, but for its key. -/
structure LandingFlagsRow where
  operatorPaused : Int
  mainRedHold : Int
  deriving DecidableEq, Repr

structure LandingRunRow where
  id : Int
  claimedBy : Option Text
  deriving DecidableEq, Repr

structure LandingStoreRows where
  entries : List LandingEntryRow
  subjects : List LandingSubjectRow
  authorities : List LandingAuthorityRow
  witnesses : List LandingWitnessRow
  flags : Option LandingFlagsRow
  runs : List LandingRunRow
  deriving DecidableEq, Repr

/-! ## One entry -/

inductive LandingDependencies where
  | readable (afterIds : List Int)
  | unreadable
  deriving DecidableEq, Repr

/-- A readable row is quarantined by its one marker, or not at all. -/
inductive LandingProjectionRead where
  | readable (staleHead : Bool)
  | unreadable
  deriving DecidableEq, Repr

structure LandingEntryFacts where
  entry : LandingEntry
  dependencies : LandingDependencies
  projection : LandingProjectionRead
  deriving DecidableEq, Repr

/-- A stored id, run id or number out of range is displayed as it is stored; only
its double would differ. -/
def landingEntryFactsOfRow (row : LandingEntryRow) : LandingEntryFacts :=
  let state := LandingEntryState.ofText? row.state
  let kindOk := row.ejectionKind.all fun kind => (LandingEjectionKind.ofText? kind).isSome
  let afterIds := afterIdsOf row.afterIds
  let runIdOk := row.runId.all fun runId => (safeIntOf runId 1).isSome
  let fixesOk := row.fixesMain == 0 || row.fixesMain == 1
  let pinnedAt := safeIntOf row.pinnedAt 0
  let ejections := safeIntOf row.ejections 0
  let numbersOk := afterIds.isSome && fixesOk && pinnedAt.isSome && ejections.isSome &&
    (safeIntOf row.id 1).isSome && (safeIntOf row.pr 1).isSome && runIdOk
  let word := state.any (· ≠ .unknown)
  let stateOk :=
    if word then row.quarantineKind.isNone
    else state == some .unknown && row.quarantineKind == some staleEpisodeHead
  let baseOk := row.baseSha.all (Text.isHexOf 40)
  let readable := stateOk && kindOk && baseOk && numbersOk && row.project.isNonblank &&
    row.pinnedSha.isHexOf 40 && row.handoffCommit.isHexOf 40 && row.setBy.isNonblank
  { entry :=
      { id := row.id, project := row.project, pr := row.pr, pinnedSha := row.pinnedSha
        handoffCommit := row.handoffCommit, runId := row.runId
        state := if kindOk && numbersOk then state.getD .unknown else .unknown
        baseSha := row.baseSha
        ejectionKind := row.ejectionKind.bind LandingEjectionKind.ofText?
        ejections := ejections.getD 0, afterIds := afterIds.getD []
        fixesMain := row.fixesMain == 1, setBy := row.setBy, pinnedAt := pinnedAt.getD 0 }
    dependencies := match afterIds with
      | some ids => .readable ids
      | none => .unreadable
    projection :=
      if readable then .readable (row.quarantineKind == some staleEpisodeHead) else .unreadable }

/-! ## Recovery -/

structure LandingProjectionWitness extends LandingIdentity where
  observedSeq : Int
  runId : Int
  pinnedSha : Text
  handoffCommit : Text
  deriving DecidableEq, Repr

/-- A recovered journal subject, from the overlay tables. -/
structure LandingRecoverySubjectFact extends LandingIdentity where
  binding : LandingHistoricalBinding
  observedSeq : Int
  creation : LandingCreation
  authority : Option LandingAuthority
  deriving DecidableEq, Repr

/-- The run association agrees with the latest historical observation, or a valid
witness of the same identity explains it. -/
def landingAssociationReadable (subject : LandingRecoverySubjectFact) (entry : LandingEntry)
    (witness : Option LandingProjectionWitness) : Bool :=
  if subject.toLandingIdentity ≠ entry.identity then false
  else if (match subject.binding with
      | .noRun => entry.runId == none
      | .run observedRunId => entry.runId == some observedRunId) then true
  else match witness with
    | none => false
    | some witness =>
        witness.toLandingIdentity == entry.identity &&
          witness.observedSeq == subject.observedSeq &&
          (safeIntOf witness.observedSeq 0).isSome && entry.runId == some witness.runId &&
          decide (0 < witness.runId) && witness.pinnedSha.isHexOf 40 &&
          witness.pinnedSha == entry.pinnedSha && witness.handoffCommit.isHexOf 40 &&
          witness.handoffCommit == entry.handoffCommit

/-- By id, then project, then PR. -/
def identityBefore (first second : LandingIdentity) : Prop :=
  first.id < second.id ∨ first.id = second.id ∧
    (first.project < second.project ∨ first.project = second.project ∧ first.pr ≤ second.pr)

instance (first second : LandingIdentity) : Decidable (identityBefore first second) :=
  inferInstanceAs (Decidable (_ ∨ _ ∧ (_ ∨ _ ∧ _)))

/-- The identities that contradict a subject's: its id on another key, or its key
under another id. -/
def landingConflicts (subject : LandingIdentity) (projections : List LandingEntryFacts) :
    List LandingIdentity :=
  (projections.map (·.entry.identity)).filter fun identity =>
    identity ≠ subject ∧ (identity.id = subject.id ∨
      identity.project = subject.project ∧ identity.pr = subject.pr)

/-- What keeps a subject unresolved. -/
def landingSubjectProjection (subject : LandingRecoverySubjectFact)
    (projections : List LandingEntryFacts) (witnesses : List LandingProjectionWitness) :
    Option LandingSubjectProjection :=
  let conflicts := landingConflicts subject.toLandingIdentity projections
  if conflicts ≠ [] then some (.identityConflict (conflicts.insertionSort identityBefore))
  else match ((projections.map (·.entry)).filter
      (·.identity == subject.toLandingIdentity)).getLast? with
    | none => some .missing
    | some exact =>
        if landingAssociationReadable subject exact (witnesses.find? (·.id == exact.id)) then none
        else some .associationUnmeasured

def landingRecoveryOf (project : Text) (subjects : List LandingRecoverySubjectFact)
    (projections : List LandingEntryFacts) (witnesses : List LandingProjectionWitness) :
    LandingRecovery :=
  let listed := (subjects.filterMap fun subject =>
    (landingSubjectProjection subject projections witnesses).bind fun projection =>
      let conflicts := landingConflicts subject.toLandingIdentity projections
      if subject.project = project ∨ conflicts.any (·.project == project) then
        some { toLandingIdentity := subject.toLandingIdentity, creation := subject.creation
               binding := subject.binding, observedSeq := subject.observedSeq
               projection, authority := subject.authority : LandingRecoverySubject }
      else none).insertionSort fun first second => first.id ≤ second.id
  let ids := firstBy id [] (listed.map (·.id))
  { subjects := listed, hold := if ids = [] then none else some ids }

/-- An absent row reads both flags clear; any value but zero reads as set. -/
def landingFlagsOfRow (row : Option LandingFlagsRow) : LandingLineFlags where
  operatorPaused := row.any (·.operatorPaused ≠ 0)
  mainRedHold := row.any (·.mainRedHold ≠ 0)


/-! ## The guarded read -/

def landingBindingOfRow (row : LandingSubjectRow) : Option LandingHistoricalBinding :=
  match row.observedRunId with
  | none => if row.bindingKind = Text.lit "no-run" then some .noRun else none
  | some observed =>
      if row.bindingKind = Text.lit "run" then (safeIntOf observed 1).map .run else none

def nonblankText? : Json Number → Option Text
  | .string text => if text.isNonblank then some text else none
  | .null | .bool _ | .number _ | .array _ | .object _ => none

def hashText? : Json Number → Option Text
  | .string text => if text.isHexOf 40 then some text else none
  | .null | .bool _ | .number _ | .array _ | .object _ => none

/-- A stored creation claim, as its own JSON text. -/
def landingCreationClaimOf (stored : Text) : Option LandingCreationClaim := do
  let claim ← Json.parse stored
  let atTime ← (claim.field? (Text.lit "at")).bind (safeNumberOf · 0)
  let setBy ← (claim.field? (Text.lit "setBy")).bind nonblankText?
  let pinnedSha ← (claim.field? (Text.lit "pinnedSha")).bind hashText?
  let handoffCommit ← (claim.field? (Text.lit "handoffCommit")).bind hashText?
  return { atTime, setBy, pinnedSha, handoffCommit }

def landingCreationOf (row : LandingSubjectRow) : Option LandingCreation :=
  match row.creationSeq with
  | none => some .notRecorded
  | some creationSeq => do
      let seq ← safeIntOf creationSeq 1
      let claim ← landingCreationClaimOf (row.creationClaim.getD [])
      return .recorded claim seq

def landingAuthorityOf (row : LandingAuthorityRow) : Option LandingAuthority := do
  let afterIds ← afterIdsOf row.afterIds
  let seq ← safeIntOf row.seq 1
  let fixes ← safeIntOf row.fixesMain 0
  if 1 < fixes ∨ ¬row.setBy.isNonblank then none
  else return { afterIds, fixesMain := fixes == 1, setBy := row.setBy, seq }

/-- A subject's authority, where it has a row; none is an unreadable one. -/
def landingAuthorityFor (authorities : List LandingAuthorityRow) (id : Int) :
    Option (Option LandingAuthority) :=
  match authorities.find? fun row => safeIntOf row.subjectId 1 == some id with
  | none => some none
  | some row => (landingAuthorityOf row).map some

def landingSubjectOf (authorities : List LandingAuthorityRow) (row : LandingSubjectRow) :
    Option LandingRecoverySubjectFact := do
  let id ← safeIntOf row.id 1
  let pr ← safeIntOf row.pr 1
  let observedSeq ← safeIntOf row.observedSeq 1
  if ¬row.project.isNonblank then none
  else
    let binding ← landingBindingOfRow row
    let creation ← landingCreationOf row
    let authority ← landingAuthorityFor authorities id
    return { id, project := row.project, pr, binding, observedSeq, creation, authority }

/-- The recovered subjects; none when a row is not what its constraints promise. -/
def subjectsOf (rows : LandingStoreRows) : Option (List LandingRecoverySubjectFact) :=
  rows.subjects.mapM (landingSubjectOf rows.authorities)

/-- A JSON array of integers. -/
def writeIds (ids : List Int) : Text := (Json.array (ids.map .number)).write Text.ofInt

/-- The row under the authority of its exact subject. -/
def LandingEntryRow.overlay (row : LandingEntryRow) (authority : Option LandingAuthority) :
    LandingEntryRow :=
  match authority with
  | none => row
  | some set =>
      { row with afterIds := writeIds set.afterIds, fixesMain := if set.fixesMain then 1 else 0
                 setBy := set.setBy }

def landingAuthorityOfEntry (subjects : List LandingRecoverySubjectFact) (row : LandingEntryRow) :
    Option LandingAuthority :=
  (subjects.find? fun subject =>
    subject.id == row.id && subject.project == row.project && subject.pr == row.pr).bind
    (·.authority)

def landingEntryFactsOf (subjects : List LandingRecoverySubjectFact) (row : LandingEntryRow) :
    LandingEntryFacts :=
  landingEntryFactsOfRow (row.overlay (landingAuthorityOfEntry subjects row))

def LandingEntryRow.keyed (row : LandingEntryRow) : Bool :=
  (safeIntOf row.id 1).isSome && (safeIntOf row.pr 1).isSome

def landingWitnessOf (row : LandingWitnessRow) : Option LandingProjectionWitness := do
  let id ← safeIntOf row.entryId 1
  let pr ← safeIntOf row.pr 1
  let observedSeq ← safeIntOf row.observedSeq 0
  let runId ← safeIntOf row.runId 1
  if row.project.isNonblank && row.pinnedSha.isHexOf 40 && row.handoffCommit.isHexOf 40 then
    return { id, project := row.project, pr, observedSeq, runId, pinnedSha := row.pinnedSha
             handoffCommit := row.handoffCommit }
  else none

/-- A readable association. -/
inductive LandingCoordinator where
  | noRun
  | run (runId : Int) (claimedBy : Option Text)
  deriving DecidableEq, Repr

/-- The current association of an entry, from its own run id; none is unreadable. -/
def landingCoordinatorOf (runs : List LandingRunRow) (row : LandingEntryRow) :
    Option LandingCoordinator :=
  match row.runId with
  | none => some .noRun
  | some stored => do
      let runId ← safeIntOf stored 1
      let run ← runs.find? fun run => safeIntOf run.id 1 == some runId
      return .run runId run.claimedBy

/-- The coherent facts of one project. -/
structure LandingMutationFacts where
  project : Text
  flags : LandingLineFlags
  entries : List LandingEntry
  projections : Map Int LandingProjectionRead
  dependencies : Map Int LandingDependencies
  recovery : LandingRecovery
  nextId : Option Int
  foreignIds : List Int
  coordinators : Map Int (Option LandingCoordinator)
  deriving DecidableEq, Repr

/-- MAX + 1, and nothing where that would overflow. -/
def landingNextId (ids : List Int) : Option Int :=
  let next := ids.foldl max 0 + 1
  if Number.maxSafeInteger < next then none else some next

/-- One project's facts under the recovered subjects. -/
def landingFactsUnder (project : Text) (rows : LandingStoreRows)
    (subjects : List LandingRecoverySubjectFact) : LandingMutationFacts :=
  let mine := rows.entries.filter (·.project == project)
  let factsOf := landingEntryFactsOf subjects
  { project, flags := landingFlagsOfRow rows.flags
    entries := mine.map fun row => (factsOf row).entry
    projections := mine.map fun row => ((factsOf row).entry.id, (factsOf row).projection)
    dependencies := mine.map fun row => ((factsOf row).entry.id, (factsOf row).dependencies)
    recovery := landingRecoveryOf project subjects (rows.entries.map factsOf)
      (rows.witnesses.filterMap landingWitnessOf)
    nextId := landingNextId (subjects.map (·.id) ++ rows.entries.map (·.id))
    foreignIds := firstBy id [] ((subjects.filter (·.project ≠ project)).map (·.id) ++
      (rows.entries.filter (·.project ≠ project)).map (·.id))
    coordinators := mine.map fun row =>
      ((factsOf row).entry.id, landingCoordinatorOf rows.runs row) }

/-- One project's coherent facts. An unreadable subject, or an invalid id or PR in
any row, refuses the whole snapshot. -/
def landingFactsOf (project : Text) (rows : LandingStoreRows) : Option LandingMutationFacts := do
  let subjects ← subjectsOf rows
  if rows.entries.all LandingEntryRow.keyed then
    return landingFactsUnder project rows subjects
  else none

end Ccrc.Coord
