import Ccrc.Coord.DelegationRowCodecs
import Ccrc.Library.TableDelta

/-! The delta projection: what a store has to write to move the projection of one
checkpoint to that of another one, and the transaction that writes it. -/

set_option autoImplicit false

namespace Ccrc.Coord

open Library Shared
open Library.Text (lit unit)

/-! ## One table -/

structure DelegationProjectionUpdate where
  table : Text
  keyColumns : List Text
  prior : DelegationProjectionValues
  next : DelegationProjectionValues
  deriving DecidableEq, Repr

structure DelegationProjectionInsert where
  table : Text
  values : DelegationProjectionValues
  deriving DecidableEq, Repr

/-- The columns of a table's key, and the row's own properties of those names. -/
structure DelegationKey {Row : Type} (codec : DelegationRowCodec Row) where
  columns : List Text
  parts : Row → List Text
  stored : ∀ row, columns.map (fun column => Map.get? column (codec.encode row)) =
    (parts row).map fun part => some (.ok (.text part))

/-- A single part is its text, several are the JSON list of their values. -/
def keyOf : List Text → Text
  | [part] => part
  | parts => Json.write Text.ofInt (.array (parts.map .string))

/-- `prior === next` of two rows: rows that are one object are equal, equal rows need not
be one object. -/
structure SameObject (Row : Type) where
  same : Row → Row → Bool
  equal : ∀ prior next, same prior next = true → prior = next

inductive DelegationTableDiff where
  | reason (why : Text)
  | writes (updates : List DelegationProjectionUpdate) (inserts : List DelegationProjectionInsert)
  deriving DecidableEq, Repr

/-- Parts one after another: the first that throws or declines ends the loop. -/
def joinDiffs :
    List (Except DelegationThrown DelegationTableDiff) → Except DelegationThrown DelegationTableDiff
  | [] => .ok (.writes [] [])
  | part :: rest =>
      match part with
      | .error thrown => .error thrown
      | .ok (.reason why) => .ok (.reason why)
      | .ok (.writes updates inserts) =>
          match joinDiffs rest with
          | .error thrown => .error thrown
          | .ok (.reason why) => .ok (.reason why)
          | .ok (.writes moreUpdates moreInserts) =>
              .ok (.writes (updates ++ moreUpdates) (inserts ++ moreInserts))

/-- The first key that stands before already. -/
def heldTwice (seen : List Text) : List Text → Option Text
  | [] => none
  | key :: rest => if key ∈ seen then some key else heldTwice (key :: seen) rest

section Table

variable {Row : Type} (codec : DelegationRowCodec Row) (key : DelegationKey codec)
  (objects : SameObject Row) (frozen : Option Row → Row → Bool)

/-- One row of the later checkpoint against the row of its key in the earlier one. -/
def diffProjectionRow (prior : Option Row) (next : Row) :
    Except DelegationThrown DelegationTableDiff :=
  match prior with
  | none =>
      if frozen none next then
        .ok (.reason (codec.table ++ lit ": a new row is not a delta here"))
      else do
        let values ← codec.toDb next
        return .writes [] [{ table := codec.table, values }]
  | some prior =>
      if objects.same prior next then .ok (.writes [] [])
      else do
        let after ← codec.toDb next
        let before ← codec.toDb prior
        if codec.columns.all fun column => before.get? column == after.get? column then
          return .writes [] []
        else if frozen (some prior) next then
          return .reason (codec.table ++ lit ": a changed row is not a delta here")
        else return .writes [⟨codec.table, key.columns, before, after⟩] []

def diffProjectionTable (prior next : List Row) : Except DelegationThrown DelegationTableDiff :=
  let keyed (row : Row) := keyOf (key.parts row)
  match heldTwice [] (prior.map keyed) with
  | some k => .ok (.reason
      (codec.table ++ lit ": the prior checkpoint holds the key " ++ k ++ lit " twice"))
  | none =>
      match heldTwice [] (next.map keyed) with
      | some k => .ok (.reason
          (codec.table ++ lit ": the checkpoint holds the key " ++ k ++ lit " twice"))
      | none =>
          match (prior.map keyed).find? fun k => decide (k ∉ next.map keyed) with
          | some k => .ok (.reason (codec.table ++ lit ": the row " ++ k ++ lit " leaves"))
          | none => joinDiffs (next.map fun row =>
              diffProjectionRow codec key objects frozen (rowOf keyed prior (keyed row)) row)

end Table

/-! ## The five tables -/

def sessionKey : DelegationKey delegationSessionCodec where
  columns := [lit "sessionId", lit "parentIncarnation"]
  parts row := [row.sessionId, row.parentIncarnation]
  stored _ := rfl

def activityKey : DelegationKey delegationActivityCodec where
  columns := [lit "activityId"]
  parts row := [row.activityId]
  stored _ := rfl

def attemptKey : DelegationKey delegationAttemptCodec where
  columns := [lit "attemptId"]
  parts row := [row.attemptId]
  stored _ := rfl

def leaseKey : DelegationKey delegationLeaseCodec where
  columns := [lit "leaseId"]
  parts row := [row.leaseId]
  stored _ := rfl

def lineageKey : DelegationKey delegationLineageCodec where
  columns := [lit "lineageId"]
  parts row := [row.lineageId]
  stored _ := rfl

/-- Whether the later row is the earlier one closed, and nothing else about it changed. -/
def isLineageClose (prior next : DelegationLineageRow) : Bool :=
  prior.closedAt.isNone && next.closedAt.isSome && next.closeReason.isSome &&
    prior.lineageId == next.lineageId && prior.parentId == next.parentId &&
    prior.parentIncarnation == next.parentIncarnation &&
    prior.activityId == next.activityId && prior.leaseId == next.leaseId &&
    prior.runId == next.runId && prior.openedAt == next.openedAt

/-- A new lease is not a delta, because its opening lineage row arrives with it. -/
def leaseFrozen (prior : Option DelegationProjectedLeaseRow)
    (_next : DelegationProjectedLeaseRow) : Bool :=
  prior.isNone

/-- A lineage row of a lease may only close in a delta. -/
def lineageFrozen (prior : Option DelegationLineageRow) (next : DelegationLineageRow) : Bool :=
  match prior with
  | none => next.leaseId.isSome
  | some prior => (prior.leaseId.isSome || next.leaseId.isSome) && !isLineageClose prior next

/-- Which rows of two checkpoints are one object, in each table. -/
structure SameObjects where
  sessions : SameObject DelegationSessionRow
  activities : SameObject DelegationActivityRow
  attempts : SameObject DelegationAttemptRow
  leases : SameObject DelegationProjectedLeaseRow
  lineage : SameObject DelegationLineageRow

inductive DelegationProjectionDiff where
  | inapplicable (reason : Text)
  | applicable (updates : List DelegationProjectionUpdate)
      (inserts : List DelegationProjectionInsert) (counts : List (Text × Nat))
  deriving DecidableEq, Repr

/-- What a diff lists to write. -/
def DelegationProjectionDiff.listed :
    DelegationProjectionDiff → List DelegationProjectionUpdate × List DelegationProjectionInsert
  | .inapplicable _ => ([], [])
  | .applicable updates inserts _ => (updates, inserts)

def diffDelegationTables (objects : SameObjects) (prior next : DelegationProjectionRows) :
    List (Except DelegationThrown DelegationTableDiff) :=
  let free {Row : Type} (_prior : Option Row) (_next : Row) : Bool := false
  [diffProjectionTable delegationSessionCodec sessionKey objects.sessions free
      prior.sessions next.sessions,
    diffProjectionTable delegationActivityCodec activityKey objects.activities free
      prior.activities next.activities,
    diffProjectionTable delegationAttemptCodec attemptKey objects.attempts free
      prior.attempts next.attempts,
    diffProjectionTable delegationLeaseCodec leaseKey objects.leases leaseFrozen
      prior.leases next.leases,
    diffProjectionTable delegationLineageCodec lineageKey objects.lineage lineageFrozen
      prior.lineage next.lineage]

def diffDelegationProjection (objects : SameObjects) (prior next : DelegationProjectionRows) :
    Except DelegationThrown DelegationProjectionDiff :=
  match joinDiffs (diffDelegationTables objects prior next) with
  | .error thrown => .error thrown
  | .ok (.reason why) => .ok (.inapplicable why)
  | .ok (.writes updates inserts) => .ok (.applicable updates inserts
      [(delegationSessionCodec.table, next.sessions.length),
        (delegationActivityCodec.table, next.activities.length),
        (delegationAttemptCodec.table, next.attempts.length),
        (delegationLeaseCodec.table, next.leases.length),
        (delegationLineageCodec.table, next.lineage.length)])

/-! ## The store -/

/-- The stored rows of each table. -/
abbrev DelegationStore : Type := Text → List DelegationProjectionValues

/-- The five tables as a full projection of a checkpoint leaves them. -/
def projectedTables (rows : DelegationProjectionRows) : Except DelegationThrown DelegationStore := do
  let sessions ← rows.sessions.mapM delegationSessionCodec.toDb
  let activities ← rows.activities.mapM delegationActivityCodec.toDb
  let attempts ← rows.attempts.mapM delegationAttemptCodec.toDb
  let leases ← rows.leases.mapM delegationLeaseCodec.toDb
  let lineage ← rows.lineage.mapM delegationLineageCodec.toDb
  return fun table => (Map.get? table [(delegationSessionCodec.table, sessions),
    (delegationActivityCodec.table, activities), (delegationAttemptCodec.table, attempts),
    (delegationLeaseCodec.table, leases), (delegationLineageCodec.table, lineage)]).getD []

/-- A table as its statements know it; a new lease has no INSERT. -/
structure DelegationTable where
  table : Text
  columns : List Text
  primaryKey : List Text
  grows : Bool

def delegationTables : List DelegationTable :=
  [⟨delegationSessionCodec.table, sessionColumns, sessionKey.columns, true⟩,
    ⟨delegationActivityCodec.table, activityColumns, activityKey.columns, true⟩,
    ⟨delegationAttemptCodec.table, attemptColumns, attemptKey.columns, true⟩,
    ⟨delegationLeaseCodec.table, leaseColumns, leaseKey.columns, false⟩,
    ⟨delegationLineageCodec.table, lineageColumns, lineageKey.columns, true⟩]

def delegationTable? (table : Text) : Option DelegationTable :=
  rowOf (·.table) delegationTables table

/-- The values of a key's columns. -/
def keyValues (columns : List Text) (values : DelegationProjectionValues) :
    List (Option DelegationSqlValue) :=
  columns.map fun column => values.get? column

/-- The stored rows of a key. -/
def rowsOfKey (store : DelegationStore) (table : Text) (columns : List Text)
    (values : DelegationProjectionValues) : List DelegationProjectionValues :=
  (store table).filter fun row => decide (keyValues columns row = keyValues columns values)

/-- A plain INSERT; none is a statement that throws, as on a primary key that is held. -/
def insertRow (store : DelegationStore) (insert : DelegationProjectionInsert) :
    Option DelegationStore :=
  match delegationTable? insert.table with
  | none => none
  | some table =>
      if table.grows = true ∧
          rowsOfKey store insert.table table.primaryKey insert.values = [] then
        some (Function.update store insert.table (store insert.table ++ [insert.values]))
      else none

/-- An UPDATE of every column outside the key, on the row whose columns all hold their
prior values; it has to change exactly one row. -/
def updateRow (store : DelegationStore) (update : DelegationProjectionUpdate) :
    Option DelegationStore :=
  match delegationTable? update.table with
  | none => none
  | some table =>
      let (rows, changed) := updateRows (store update.table)
        (fun row => table.columns.all fun column => row.get? column == update.prior.get? column)
        fun row => row.map fun (column, held) =>
          if column ∈ update.keyColumns then (column, held)
          else (column, (update.next.get? column).getD held)
      if changed = 1 then some (Function.update store update.table rows) else none

/-- The transaction of a delta: its inserts, its updates, and the count of every table. -/
def writeDelta (store : DelegationStore) (updates : List DelegationProjectionUpdate)
    (inserts : List DelegationProjectionInsert) (counts : List (Text × Nat)) :
    Option DelegationStore := do
  let grown ← inserts.foldlM insertRow store
  let swapped ← updates.foldlM updateRow grown
  if counts.all fun (table, count) => (swapped table).length == count then return swapped
  else none

end Ccrc.Coord
