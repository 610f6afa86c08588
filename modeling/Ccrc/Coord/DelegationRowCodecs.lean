import Ccrc.Coord.DelegationJson
import Ccrc.Coord.DelegationLeaseState
import Ccrc.Coord.DelegationSpoolLine
import Ccrc.Library.Map
import Ccrc.Library.Table

/-! The projection of a checkpoint into the five delegation tables: the row codecs, what a
store has to write to move the projection of one checkpoint to that of another one, and
the transaction that writes it. -/

set_option autoImplicit false

namespace Ccrc.Coord

open Library Shared
open Library.Text (lit unit)

/-! ## Rows -/

structure DelegationSessionRow where
  sessionId : Text
  parentIncarnation : Text
  explicitIntentAt : Option Text
  effective : Bool
  effectiveBasis : List DelegationIntentSource
  claudeSessionIds : List Text
  firstObservedAt : Text
  lastObservedAt : Text
  deriving DecidableEq, Repr

structure DelegationAttemptRow where
  attemptId : Text
  parentId : Text
  parentIncarnation : Text
  project : Text
  adminRecord : Text
  canonicalPath : Option Text
  attemptedAt : Text
  rung : Option Int
  verdict : DelegationAttemptVerdict
  evidenceJournalIds : List Text
  detail : Option Text
  deriving DecidableEq, Repr

structure DelegationActivityRow where
  activityId : Text
  parentId : Text
  parentIncarnation : Text
  sourceKind : DelegationActivitySourceKind
  upstreamId : Text
  identityJournalId : Text
  displayName : Option Text
  executionState : DelegationExecutionState
  openedAt : Text
  endedAt : Option Text
  lastEventAt : Text
  deriving DecidableEq, Repr

/-- A lease with the columns that none of its transitions reads. -/
structure DelegationProjectedLeaseRow extends DelegationLeaseRow where
  activityId : Text
  canonicalPath : Text
  creationBase : Option Text
  sourceKind : DelegationLeaseSourceKind
  parentageState : DelegationParentageState
  workspaceState : DelegationWorkspaceState
  cleanupState : DelegationCleanupState
  cleanupPopulation : DelegationCleanupPopulation
  lastObservedAt : Text
  cleanupStartedAt : Option Text
  cleanupFinishedAt : Option Text
  cleanupEvidenceJson : Option Text
  deriving DecidableEq, Repr

/-- The projected rows of a checkpoint. -/
structure DelegationProjectionRows where
  sessions : List DelegationSessionRow
  activities : List DelegationActivityRow
  attempts : List DelegationAttemptRow
  leases : List DelegationProjectedLeaseRow
  lineage : List DelegationLineageRow
  deriving DecidableEq, Repr

/-! ## Codecs -/

/-- What an encoding throws. -/
inductive DelegationThrown where
  | badInstant (message : Text)
  | json (message : DelegationJsonError)
  deriving DecidableEq, Repr

inductive DelegationSqlValue where
  | text (value : Text)
  | integer (value : Int)
  | null
  deriving DecidableEq, Repr

abbrev DelegationProjectionValues : Type := Map Text DelegationSqlValue

/-- `/^\d{4}-\d{2}-\d{2}T\d{2}:\d{2}:\d{2}\.\d{3}Z$/` -/
def isCanonicalInstant (iso : Text) : Bool :=
  iso.length == 24 && ((iso.zip (lit "0000-00-00T00:00:00.000Z")).all fun (held, mark) =>
    if mark = unit '0' then Text.isDigit held else held == mark)

def instantMs (iso : Text) : Except DelegationThrown DelegationSqlValue :=
  match parseDelegationInstant iso with
  | some ms => .ok (.integer ms)
  | none =>
      if isCanonicalInstant iso then
        .error (.badInstant (iso ++ lit " is not an instant a table can hold"))
      else .error (.badInstant
        (Json.writeString iso ++ lit " is not a canonical UTC millisecond instant"))

/-- A column of a record, with what its encoding answers. -/
abbrev EncodedColumn : Type := Text × Except DelegationThrown DelegationSqlValue

namespace EncodedColumn

def text (column : String) (value : Text) : EncodedColumn := (lit column, .ok (.text value))

def textOrNull (column : String) (value : Option Text) : EncodedColumn :=
  (lit column, .ok (value.elim .null .text))

def int (column : String) (value : Int) : EncodedColumn := (lit column, .ok (.integer value))

def intOrNull (column : String) (value : Option Int) : EncodedColumn :=
  (lit column, .ok (value.elim .null .integer))

def flag (column : String) (value : Bool) : EncodedColumn :=
  (lit column, .ok (.integer (if value then 1 else 0)))

def instant (column : String) (iso : Text) : EncodedColumn := (lit column, instantMs iso)

def instantOrNull (column : String) (iso : Option Text) : EncodedColumn :=
  (lit column, iso.elim (.ok .null) instantMs)

def textList (column : String) (items : List Text) : EncodedColumn :=
  (lit column, match canonicalDelegationJson (.array (items.map .string)) with
    | .ok body => .ok (.text body)
    | .error message => .error (.json message))

/-- The record, or what its first column that cannot be encoded throws. -/
def record : List EncodedColumn → Except DelegationThrown DelegationProjectionValues
  | [] => .ok []
  | (column, encoded) :: rest => do
      let value ← encoded
      return (column, value) :: (← record rest)

theorem record_cons {name : Text} {encoded : Except DelegationThrown DelegationSqlValue}
    {rest : List EncodedColumn} {values : DelegationProjectionValues} :
    record ((name, encoded) :: rest) = .ok values ↔ ∃ value others,
      encoded = .ok value ∧ record rest = .ok others ∧ values = (name, value) :: others := by
  rw [record]
  constructor
  · intro recorded
    cases encoded with
    | error thrown => cases recorded
    | ok value =>
        cases more : record rest with
        | error thrown => simp [more, bind, Except.bind] at recorded
        | ok others =>
            simp only [more, bind, Except.bind, pure, Except.pure, Except.ok.injEq] at recorded
            exact ⟨value, others, rfl, rfl, recorded.symm⟩
  · rintro ⟨value, others, rfl, more, rfl⟩
    rw [more]
    rfl

theorem record_columns {columns : List EncodedColumn} {values : DelegationProjectionValues}
    (recorded : record columns = .ok values) : values.map (·.1) = columns.map (·.1) := by
  induction columns generalizing values with
  | nil => cases recorded; rfl
  | cons column rest ih =>
      obtain ⟨value, others, -, more, rfl⟩ := record_cons.mp recorded
      rw [List.map_cons, List.map_cons, ih more]

/-- A column that cannot fail is recorded as it is. -/
theorem record_get? {columns : List EncodedColumn} {values : DelegationProjectionValues}
    (recorded : record columns = .ok values) {name : Text} {value : DelegationSqlValue}
    (held : Map.get? name columns = some (.ok value)) : values.get? name = some value := by
  induction columns generalizing values with
  | nil => cases held
  | cons column rest ih =>
      obtain ⟨first, others, isFirst, more, rfl⟩ := record_cons.mp recorded
      rw [Map.get?] at held ⊢
      split at held
      next same =>
        rw [if_pos same]
        rw [isFirst] at held
        exact congrArg some (Except.ok.inj (Option.some.inj held))
      next other =>
        rw [if_neg other]
        exact ih more held

end EncodedColumn

/-- One table's codec. The columns are the table's own, and a record names every one. -/
structure DelegationRowCodec (Row : Type) where
  table : Text
  columns : List Text
  encode : Row → List EncodedColumn
  named : ∀ row, (encode row).map (·.1) = columns
  distinct : columns.Nodup

def DelegationRowCodec.toDb {Row : Type} (codec : DelegationRowCodec Row) (row : Row) :
    Except DelegationThrown DelegationProjectionValues :=
  EncodedColumn.record (codec.encode row)

def sessionColumns : List Text :=
  ["sessionId", "parentIncarnation", "explicitIntentAt", "effective", "effectiveBasisJson",
    "claudeSessionIdsJson", "firstObservedAt", "lastObservedAt"].map lit

def delegationSessionCodec : DelegationRowCodec DelegationSessionRow where
  table := lit "delegation_sessions"
  columns := sessionColumns
  encode row :=
    [.text "sessionId" row.sessionId, .text "parentIncarnation" row.parentIncarnation,
      .instantOrNull "explicitIntentAt" row.explicitIntentAt, .flag "effective" row.effective,
      .textList "effectiveBasisJson" (row.effectiveBasis.map DelegationIntentSource.text),
      .textList "claudeSessionIdsJson" row.claudeSessionIds,
      .instant "firstObservedAt" row.firstObservedAt,
      .instant "lastObservedAt" row.lastObservedAt]
  named _ := rfl
  distinct := by decide +kernel

def attemptColumns : List Text :=
  ["attemptId", "parentId", "parentIncarnation", "project", "adminRecord", "canonicalPath",
    "attemptedAt", "rung", "verdict", "evidenceJournalIdsJson", "detail"].map lit

def delegationAttemptCodec : DelegationRowCodec DelegationAttemptRow where
  table := lit "delegation_attempts"
  columns := attemptColumns
  encode row :=
    [.text "attemptId" row.attemptId, .text "parentId" row.parentId,
      .text "parentIncarnation" row.parentIncarnation, .text "project" row.project,
      .text "adminRecord" row.adminRecord, .textOrNull "canonicalPath" row.canonicalPath,
      .instant "attemptedAt" row.attemptedAt, .intOrNull "rung" row.rung,
      .text "verdict" row.verdict.text,
      .textList "evidenceJournalIdsJson" row.evidenceJournalIds,
      .textOrNull "detail" row.detail]
  named _ := rfl
  distinct := by decide +kernel

def activityColumns : List Text :=
  ["activityId", "parentId", "parentIncarnation", "sourceKind", "upstreamId",
    "identityJournalId", "displayName", "executionState", "openedAt", "endedAt",
    "lastEventAt"].map lit

def delegationActivityCodec : DelegationRowCodec DelegationActivityRow where
  table := lit "delegation_activities"
  columns := activityColumns
  encode row :=
    [.text "activityId" row.activityId, .text "parentId" row.parentId,
      .text "parentIncarnation" row.parentIncarnation, .text "sourceKind" row.sourceKind.text,
      .text "upstreamId" row.upstreamId, .text "identityJournalId" row.identityJournalId,
      .textOrNull "displayName" row.displayName,
      .text "executionState" row.executionState.text, .instant "openedAt" row.openedAt,
      .instantOrNull "endedAt" row.endedAt, .instant "lastEventAt" row.lastEventAt]
  named _ := rfl
  distinct := by decide +kernel

def leaseColumns : List Text :=
  ["leaseId", "generation", "creatingJournalSequence", "currentJournalSequence", "activityId",
    "parentId", "parentIncarnation", "project", "adminRecord", "canonicalPath",
    "creationBase", "sourceKind", "parentageState", "workspaceState", "disposition",
    "cleanupState", "cleanupPopulation", "firstObservedAt", "lastObservedAt",
    "terminalEvidenceAt", "adoptedAt", "retainedAt", "promotedAt", "cleanupDueAt",
    "cleanupStartedAt", "cleanupFinishedAt", "cleanupEvidenceJson", "carrierGenerationSeen",
    "releasedAt"].map lit

def delegationLeaseCodec : DelegationRowCodec DelegationProjectedLeaseRow where
  table := lit "delegation_leases"
  columns := leaseColumns
  encode row :=
    [.text "leaseId" row.leaseId, .int "generation" row.generation,
      .int "creatingJournalSequence" row.creatingJournalSequence,
      .int "currentJournalSequence" row.currentJournalSequence,
      .text "activityId" row.activityId, .text "parentId" row.parentId,
      .text "parentIncarnation" row.parentIncarnation, .text "project" row.project,
      .text "adminRecord" row.adminRecord, .text "canonicalPath" row.canonicalPath,
      .textOrNull "creationBase" row.creationBase, .text "sourceKind" row.sourceKind.text,
      .text "parentageState" row.parentageState.text,
      .text "workspaceState" row.workspaceState.text,
      .text "disposition" row.disposition.text, .text "cleanupState" row.cleanupState.text,
      .text "cleanupPopulation" row.cleanupPopulation.text,
      .instant "firstObservedAt" row.firstObservedAt,
      .instant "lastObservedAt" row.lastObservedAt,
      .instantOrNull "terminalEvidenceAt" row.terminalEvidenceAt,
      .instantOrNull "adoptedAt" row.adoptedAt, .instantOrNull "retainedAt" row.retainedAt,
      .instantOrNull "promotedAt" row.promotedAt,
      .instantOrNull "cleanupDueAt" row.cleanupDueAt,
      .instantOrNull "cleanupStartedAt" row.cleanupStartedAt,
      .instantOrNull "cleanupFinishedAt" row.cleanupFinishedAt,
      .textOrNull "cleanupEvidenceJson" row.cleanupEvidenceJson,
      .intOrNull "carrierGenerationSeen" row.carrierGenerationSeen,
      .instantOrNull "releasedAt" row.releasedAt]
  named _ := rfl
  distinct := by decide +kernel

def lineageColumns : List Text :=
  ["lineageId", "parentId", "parentIncarnation", "activityId", "leaseId", "runId", "openedAt",
    "closedAt", "closeReason"].map lit

def delegationLineageCodec : DelegationRowCodec DelegationLineageRow where
  table := lit "delegation_lineage"
  columns := lineageColumns
  encode row :=
    [.text "lineageId" row.lineageId, .text "parentId" row.parentId,
      .text "parentIncarnation" row.parentIncarnation,
      .textOrNull "activityId" row.activityId, .textOrNull "leaseId" row.leaseId,
      .intOrNull "runId" row.runId, .instant "openedAt" row.openedAt,
      .instantOrNull "closedAt" row.closedAt, .textOrNull "closeReason" row.closeReason]
  named _ := rfl
  distinct := by decide +kernel

end Ccrc.Coord
