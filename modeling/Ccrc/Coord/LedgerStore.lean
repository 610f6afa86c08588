import Ccrc.Coord.LedgerLog
import Ccrc.Library.Run

/-! The deviation ledger: its floor, the allocation of numbers with the file first and
the commit second, and runs of both under crashes and put-back databases. -/

set_option autoImplicit false

namespace Ccrc.Coord

open Library

structure LedgerFloorRow where
  floor : Int
  evidence : Text
  updatedAt : Int
  deriving DecidableEq, Repr

inductive DeviationAllocState where
  | allocated | landed
  deriving DecidableEq, Repr

structure LedgerAllocRow where
  project : Text
  n : Int
  title : Text
  allocatedTo : Text
  runId : Option Int
  allocatedAt : Int
  state : DeviationAllocState
  deriving DecidableEq, Repr

structure LedgerDb where
  floors : Map Text LedgerFloorRow
  alloc : List LedgerAllocRow
  deriving DecidableEq, Repr

def LedgerDb.floor? (db : LedgerDb) (project : Text) : Option Int :=
  (db.floors.get? project).map (·.floor)

/-- The conflict arm updates where the new floor is above the stored one. -/
def raiseLedgerFloor (db : LedgerDb) (project : Text) (floor : Int) (evidence : Text)
    (updatedAt : Int) : LedgerDb :=
  match db.floors.get? project with
  | some stored =>
      if stored.floor < floor then
        { db with floors := db.floors.set project { floor, evidence, updatedAt } }
      else db
  | none => { db with floors := db.floors.set project { floor, evidence, updatedAt } }

structure AllocationInput where
  project : Text
  count : Number
  title : Text
  allocatedTo : Text
  runId : Option Int
  now : Int
  deriving DecidableEq, Repr

structure AllocatedBlock where
  project : Text
  numbers : List Int
  floor : Int
  title : Text
  allocatedTo : Text
  runId : Option Int
  allocatedAt : Int
  deriving DecidableEq, Repr

/-- `SELECT MAX(n) … WHERE project = ?` -/
def maxRow (db : LedgerDb) (project : Text) : Option Int :=
  ((db.alloc.filter (·.project = project)).map (·.n)).max?

/-- The decide step. -/
def allocationDecision (db : LedgerDb) (log : Option Bytes) (input : AllocationInput) :
    AllocationDecision :=
  decideAllocation (db.floor? input.project)
    (journalFloor (maxRow db input.project) (maxAllocated log input.project)) input.count

/-- The append step's bytes. -/
def allocationBytes (input : AllocationInput) (numbers : List Int) : Bytes :=
  appendedBytes <| numbers.map fun n =>
    { project := input.project, n, title := input.title, allocatedTo := input.allocatedTo
      recordedAt := input.now }

def allocationRow (input : AllocationInput) (n : Int) : LedgerAllocRow :=
  { project := input.project, n, title := input.title, allocatedTo := input.allocatedTo
    runId := input.runId, allocatedAt := input.now, state := .allocated }

/-- The apply step: an insert whose `(project, n)` stands already throws. -/
def insertAllocations (db : LedgerDb) (input : AllocationInput) : List Int → Option LedgerDb
  | [] => some db
  | n :: rest =>
      if db.alloc.any fun row => row.project = input.project && row.n = n then none
      else insertAllocations { db with alloc := db.alloc ++ [allocationRow input n] } input rest

inductive AllocateResult where
  | ok (allocation : AllocatedBlock)
  | refused (why : AllocationRefusal)
  deriving DecidableEq, Repr

/-- How an allocation ended: a crash after some bytes of its append, a crash before its
commit, or neither. -/
inductive AllocateEnd where
  | torn (bytes : Nat)
  | uncommitted
  | committed
  deriving DecidableEq, Repr

structure AllocateOutcome where
  db : LedgerDb
  log : Option Bytes
  result : Option AllocateResult
  deriving DecidableEq, Repr

/-- The file first, the commit second. -/
def allocateDeviations (db : LedgerDb) (log : Option Bytes) (input : AllocationInput)
    (ending : AllocateEnd) : AllocateOutcome :=
  match allocationDecision db log input with
  | .refused why => { db, log, result := some (.refused why) }
  | .ok numbers floor =>
      let bytes := allocationBytes input numbers
      let appended := some (log.getD [] ++ bytes)
      match ending with
      | .torn kept => { db, log := some (log.getD [] ++ bytes.take kept), result := none }
      | .uncommitted => { db, log := appended, result := none }
      | .committed =>
          match insertAllocations db input numbers with
          | none => { db, log := appended, result := none }
          | some db =>
              { db, log := appended
                result := some (.ok
                  { project := input.project, numbers, floor, title := input.title
                    allocatedTo := input.allocatedTo, runId := input.runId
                    allocatedAt := input.now }) }

/-! ## Runs -/

/-- A block that was answered, the floor that then stood, and whether its one line went
behind a torn one. -/
structure Issued where
  block : AllocatedBlock
  floorInForce : Option Int
  glued : Bool
  deriving DecidableEq, Repr

structure LedgerWorld where
  db : LedgerDb
  /-- What was committed before, the latest first. -/
  committed : List LedgerDb
  log : Option Bytes
  issued : List Issued
  deriving DecidableEq, Repr

def LedgerWorld.start : LedgerWorld :=
  { db := { floors := [], alloc := [] }, committed := [], log := none, issued := [] }

inductive LedgerStep where
  | raise (project : Text) (floor : Int) (evidence : Text) (updatedAt : Int)
  | allocate (input : AllocationInput) (ending : AllocateEnd)
  | putBack (back : Nat)
  deriving DecidableEq, Repr

/-- The database of an earlier commit; the current one where none is so old. -/
def LedgerWorld.earlier (world : LedgerWorld) (back : Nat) : LedgerDb :=
  world.committed[back]?.getD world.db

def LedgerWorld.commit (world : LedgerWorld) (db : LedgerDb) : LedgerWorld :=
  { world with db, committed := world.db :: world.committed }

def ledgerStep (world : LedgerWorld) : LedgerStep → LedgerWorld
  | .raise project floor evidence updatedAt =>
      world.commit (raiseLedgerFloor world.db project floor evidence updatedAt)
  | .allocate input ending =>
      let outcome := allocateDeviations world.db world.log input ending
      let next := { world.commit outcome.db with log := outcome.log }
      match outcome.result with
      | some (.ok block) =>
          { next with issued := world.issued ++
              [{ block, floorInForce := world.db.floor? input.project
                 glued := block.numbers.length = 1 && !atLineStart (world.log.getD []) }] }
      | some (.refused _) | none => next
  | .putBack back => world.commit (world.earlier back)

end Ccrc.Coord
