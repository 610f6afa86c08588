import Ccrc.Coord.LandingAdvance
import Ccrc.Coord.LandingJournalPolicy

/-! The landing line over its journal, its store and its fence: the attributed write
that appends and then applies, the advance, the replay that reopens the fence, and
where each of them may fail or die. -/

set_option autoImplicit false

namespace Ccrc.Coord

open Library Shared

inductive LandingFence where
  | replay | restart
  deriving DecidableEq, Repr

/-- None is an absent journal file. -/
structure LandingWorld where
  db : LineDb
  journal : Option Text
  fence : Option LandingFence
  deriving DecidableEq, Repr

/-! ## Where a call ends -/

/-- A throw before the append, at it, after it, or of the commit; `written` and `kept`
say what is there of the line and of the transaction. -/
inductive LandingPhase where
  | decide
  | append (written : Bool)
  | apply
  | commit (kept : Bool)
  deriving DecidableEq, Repr

/-- The fault of a call, whether the process died of it, and what the connection's
boundary proves where it did not. -/
structure LandingEnding where
  fault : Option LandingPhase
  crashed : Bool
  boundary : LandingFence
  deriving DecidableEq, Repr

/-- A process starts behind the fence. A failure past the append closes it, an
earlier one only where the connection is unusable. -/
def LandingEnding.fence (ending : LandingEnding) (uncertain : Bool) (fence : Option LandingFence) :
    Option LandingFence :=
  if ending.crashed then some .replay
  else if uncertain || ending.boundary = .restart then some ending.boundary
  else fence

/-- A throw of an advance that had not reached the line is not the line's. -/
def LandingEnding.lineFence (ending : LandingEnding) (line : Bool) (fence : Option LandingFence) :
    Option LandingFence :=
  if line then ending.fence true fence
  else if ending.crashed then some .replay
  else fence

/-! ## The journal and the overlay -/

/-- The applied record moves the cursor with the overlay. -/
def applyRecord (db : LandingTables × Int) (record : LandingJournalRecord) : LandingTables × Int :=
  (applyLandingRecord db.1 record, record.seq)

/-- The records of a journal that the cursor does not contradict; none is a refusal. -/
def landingHistory (world : LandingWorld) : Option (List LandingJournalRecord) :=
  match world.journal with
  | none =>
      if world.db.cursor = 0 ∧ world.db.store.1.subjects = [] ∧
          world.db.store.1.authorities = [] then some []
      else none
  | some text =>
      match parseLandingJournal text with
      | .error _ => none
      | .ok records => if records.length < world.db.cursor then none else some records

/-! ## Calls -/

/-- A request that was read, at a clock that its record can hold. -/
structure LandingWrite where
  kind : LandingWriteKind
  body : Json Number
  request : LandingRequest
  asked : parseLandingWrite kind body = some request
  atTime : Int
  clock : 0 ≤ atTime ∧ atTime ≤ Number.maxSafeInteger

inductive LandingCall where
  | writeLandingAuthority (write : LandingWrite) (ending : LandingEnding)
  | advanceLanding (runId : Int) (target : RunState) (causedBy : Text) (landing : LandingAdvance)
      (now : Int) (ending : LandingEnding)
  | replayLandingJournal (ending : LandingEnding)
  /-- A new process over the same files. -/
  | restart

/-- The store that the applied mutation commits; none is a throw. -/
def applyAuthority (store : LandingStore) (command : LandingAuthorityCommand)
    (mutation : LandingMutation) (seq atTime : Int) : Option LandingStore :=
  let applied := applyLandingMutation store.1 command mutation seq atTime
  if readsBack applied command.project (some command.pr) then applied.commit else none

def decideAuthority (store : LandingStore) (command : LandingAuthorityCommand) :
    Option LandingMutation :=
  match landingFactsInner store.1 command.project with
  | none => none
  | some facts =>
      match decideLandingMutation command facts with
      | .error _ | .ok (.noop _ _) => none
      | .ok (.mutate mutation) => some mutation

def appendLine (journal : Option Text) (record : LandingJournalRecord) : Text :=
  journal.getD [] ++ recordLine record ++ [lineFeed]

/-- The write past its decision, which the fault spared: append, apply, commit. -/
def commitAuthority (world : LandingWorld) (command : LandingAuthorityCommand)
    (mutation : LandingMutation) (seq atTime : Int) (ending : LandingEnding) : LandingWorld :=
  let appended := some (appendLine world.journal (landingRecordOf command mutation seq atTime))
  let fenced := ending.fence true world.fence
  match ending.fault with
  | some (.append written) =>
      { world with journal := if written then appended else world.journal, fence := fenced }
  | fault =>
      match applyAuthority world.db.store command mutation seq atTime with
      | none => { world with journal := appended, fence := fenced }
      | some store =>
          let committed := { world.db with store, cursor := seq }
          match fault with
          | none => { world with db := committed, journal := appended }
          | some (.commit true) => { db := committed, journal := appended, fence := fenced }
          | some _ => { world with journal := appended, fence := fenced }

/-- A call that wrote nothing. -/
def unwritten (world : LandingWorld) (ending : LandingEnding) : LandingWorld :=
  if ending.fault = none then world
  else { world with fence := ending.fence false world.fence }

def stepWrite (world : LandingWorld) (write : LandingWrite) (ending : LandingEnding) :
    LandingWorld :=
  if world.fence.isSome then world
  else if ending.fault = some .decide then unwritten world ending
  else
    let command := landingCommandOf write.request
    match landingHistory world with
    | none => { world with fence := some .replay }
    | some records =>
        if (records.length : Int) ≠ world.db.cursor then { world with fence := some .replay }
        else match decideAuthority world.db.store command with
          | none => unwritten world ending
          | some mutation =>
              if Number.maxSafeInteger ≤ records.length then unwritten world ending
              else commitAuthority world command mutation (records.length + 1) write.atTime ending

def stepAdvance (world : LandingWorld) (runId : Int) (target : RunState) (causedBy : Text)
    (landing : LandingAdvance) (now : Int) (ending : LandingEnding) : LandingWorld :=
  match advanceLanding world.db world.fence.isSome runId target causedBy landing now with
  | .unchanged => unwritten world ending
  | .threw line => { world with fence := ending.lineFence line world.fence }
  | .written line db =>
      match ending.fault with
      | none => { world with db }
      | some .decide => unwritten world ending
      | some (.commit true) => { world with db, fence := ending.lineFence line world.fence }
      | some _ => { world with fence := ending.lineFence line world.fence }

/-- A replay that failed leaves an open fence closed. -/
def replayFailed (world : LandingWorld) (ending : LandingEnding) : LandingWorld :=
  { world with fence :=
      if ending.crashed then some .replay
      else if ending.boundary = .restart then some .restart
      else some (world.fence.getD .replay) }

/-- The world after a replay, and whether it succeeded. -/
def replayLandingJournal (world : LandingWorld) (ending : LandingEnding) : LandingWorld × Bool :=
  if world.fence = some .restart then (world, false)
  else match landingHistory world with
    | none => (replayFailed world ending, false)
    | some records =>
        let suffix := records.filter fun record => world.db.cursor < record.seq
        let (tables, cursor) := suffix.foldl applyRecord (world.db.store.1, world.db.cursor)
        match ending.fault, tables.commit with
        | none, some store => ({ world with db := { world.db with store, cursor }, fence := none }, true)
        | some (.commit true), some store =>
            (replayFailed { world with db := { world.db with store, cursor } } ending, false)
        | _, _ => (replayFailed world ending, false)

def landingStep (world : LandingWorld) : LandingCall → LandingWorld
  | .writeLandingAuthority write ending => stepWrite world write ending
  | .advanceLanding runId target causedBy landing now ending =>
      stepAdvance world runId target causedBy landing now ending
  | .replayLandingJournal ending => (replayLandingJournal world ending).1
  | .restart => { world with fence := some .replay }

end Ccrc.Coord
