import Ccrc.Coord.ClaimStore
import Ccrc.Coord.MailRequeue

/-! The composite writes of a run: its dispatch and its close, each one transaction that
commits whatever its body answers and rolls back on a throw alone. -/

set_option autoImplicit false

namespace Ccrc.Coord

open Library Shared

/-- A row of `runs`: what the mail writers read of it, and what a dispatch or a close writes. -/
structure RunRow where
  run : Run
  workspace : Option Text
  branch : Option Text
  resumed : Bool
  clearedAt : Option Int
  closedAt : Option Int
  handoffCommit : Option Text
  dispatchStartedAt : Option Int
  briefQueued : Option Bool
  clearError : Option Text
  sessionBornAt : Option Int
  sessionBornFor : Option Text
  hadChild : Bool
  deriving DecidableEq, Repr

/-- The edge that a run may take to a state, by the table of its kind. -/
def RunRow.takes (row : RunRow) (target : RunState) : Bool :=
  (transitionsFor ((isRunKind row.run.kind).getD .unknown)
    ((isRunState row.run.state).getD .unknown)).contains target

/-- The row once it takes a transition; a terminal state dates the close. -/
def RunRow.move (target : RunState) (now : Int) (row : RunRow) : RunRow :=
  { row with
    run := { row.run with state := target.text }
    closedAt := if terminalRunStates.contains target then some now else row.closedAt }

/-- A row of `run_events`. -/
structure RunEvent where
  runId : Nat
  atTime : Int
  fromState : Text
  toState : Text
  causedBy : Text
  detail : Option Text
  deriving DecidableEq, Repr

/-- A row of `work_items`. -/
structure WorkItem where
  runId : Nat
  title : Text
  state : Text
  blockedBy : Text
  deriving DecidableEq, Repr

/-- A row of `programs`. -/
structure ProgramRow where
  slug : Text
  state : Text
  deriving DecidableEq, Repr

structure RunStore where
  runs : List RunRow
  events : List RunEvent
  mail : List Mail
  deliveries : List Delivery
  claims : ClaimStore
  items : List WorkItem
  programs : List ProgramRow
  deriving DecidableEq, Repr

structure DispatchRunInput where
  runId : Nat
  sessionId : Text
  workspace : Option Text
  branch : Option Text
  resumed : Bool
  clearedAt : Option Int
  items : List Text
  detail : Option Text
  briefQueued : Option Bool
  clearError : Option Text
  deriving DecidableEq, Repr

structure CloseRunInput where
  runId : Nat
  finalState : FinalState
  causedBy : Text
  handoffCommit : Option Text
  program : Text
  viaClosing : Bool
  expectClaimedBy : Option Text
  deriving DecidableEq, Repr

/-- A call of one of the public methods. -/
inductive RunCommit where
  | advance (runId : Nat) (target : RunState) (causedBy : Text) (detail : Option Text)
  | dispatchRun (input : DispatchRunInput)
  | closeRun (input : CloseRunInput)
  deriving DecidableEq, Repr

/-- `BEGIN IMMEDIATE`, the body, `COMMIT`; a body that throws is rolled back and thrown on. -/
def tx {α : Type} (store : RunStore) (body : RunStore → Option (RunStore × α)) :
    RunStore × Option α :=
  match body store with
  | some (written, answer) => (written, some answer)
  | none => (store, none)

namespace RunStore

def row? (store : RunStore) (runId : Nat) : Option RunRow := store.runs.find? (·.run.id == runId)

/-- `UPDATE runs SET … WHERE id = ?`. -/
def updateRun (store : RunStore) (runId : Nat) (set : RunRow → RunRow) : RunStore :=
  { store with runs := store.runs.map fun row => if row.run.id = runId then set row else row }

def mailStore (store : RunStore) : MailStore :=
  { mail := store.mail, runs := store.runs.map (·.run), deliveries := store.deliveries }

/-! ## Binding a session -/

/-- The newest placeable birth that a run records for the session. -/
def newestBirth (store : RunStore) (sessionId : Text) : Option Int :=
  (store.runs.filterMap fun row =>
    if row.sessionBornFor = some sessionId ∧ row.sessionBornAt = row.dispatchStartedAt then
      row.sessionBornAt
    else none).max?

def stampOccupantBirth (store : RunStore) (runId : Nat) (sessionId : Text) : RunStore :=
  match store.newestBirth sessionId with
  | none => store
  | some birth =>
      store.updateRun runId fun row =>
        if row.sessionBornAt.isNone then
          { row with sessionBornAt := some birth, sessionBornFor := some sessionId }
        else row

def inheritHadChild (store : RunStore) (runId : Nat) (sessionId : Text) : RunStore :=
  if store.runs.any fun row => decide (row.run.sessionId = some sessionId) && row.hadChild then
    store.updateRun runId fun row => { row with hadChild := true }
  else store

/-- The birth columns after a bind: an explicit birth is written, and a change of occupant
without one takes what the store knows of the occupant. -/
def bindBirth (store : RunStore) (runId : Nat) (sessionId : Text)
    (bornAt : Option (Option Int)) (changesOccupant : Bool) : RunStore :=
  match bornAt with
  | some birth =>
      store.updateRun runId fun row =>
        { row with sessionBornAt := birth, sessionBornFor := birth.map fun _ => sessionId }
  | none =>
      if changesOccupant then
        (store.updateRun runId fun row =>
          { row with sessionBornAt := none, sessionBornFor := none }).stampOccupantBirth
            runId sessionId
      else store

/-- The one writer that re-binds a run's session. The outgoing occupant's outstanding mail is
issued again to the new one. -/
def bindSession (store : RunStore) (runId : Nat) (sessionId : Text)
    (bornAt : Option (Option Int)) : Option (RunStore × BindResult) :=
  let predecessor := (store.row? runId).bind (·.run.sessionId)
  let changesOccupant := decide (predecessor ≠ some sessionId)
  let bound := store.updateRun runId fun row =>
    { row with run := { row.run with sessionId := some sessionId } }
  let born := bound.bindBirth runId sessionId bornAt changesOccupant
  let inherited := if changesOccupant then born.inheritHadChild runId sessionId else born
  match predecessor with
  | none => some (inherited, { rebound := false, reissued := 0 })
  | some predecessor =>
      if predecessor = sessionId then some (inherited, { rebound := false, reissued := 0 })
      else do
        let (deliveries, reissued) ←
          requeueAbandonedMail inherited.mailStore (.worker runId) sessionId [predecessor]
        pure ({ inherited with deliveries }, { rebound := true, reissued })

/-! ## The writers of single columns -/

def markDispatched (store : RunStore) (runId : Nat) (sessionId : Text)
    (workspace branch : Option Text) (resumed : Bool) (atTime : Int) : Option RunStore := do
  let (bound, _) ← store.bindSession runId sessionId none
  pure (bound.updateRun runId fun row =>
    { row with workspace, branch, resumed,
               run := { row.run with dispatchedAt := some atTime } })

def setClearedAt (store : RunStore) (runId : Nat) (atTime : Int) : RunStore :=
  store.updateRun runId fun row => { row with clearedAt := some atTime }

def setHandoffCommit (store : RunStore) (runId : Nat) (handoffCommit : Text) : RunStore :=
  store.updateRun runId fun row => { row with handoffCommit := some handoffCommit }

def addWorkItem (store : RunStore) (runId : Nat) (title : Text) (blockedBy : Text) : RunStore :=
  { store with
    items := store.items ++ [{ runId, title, state := Text.lit "pending", blockedBy }] }

def setProgramState (store : RunStore) (slug : Text) (state : Text) : RunStore :=
  { store with programs := store.programs.map fun program =>
      if program.slug = slug then { program with state } else program }

def programOpenRunCount (store : RunStore) (program : Text) : Nat :=
  (store.runs.filter fun row =>
    decide (row.run.program = program) &&
      !(terminalRunStates.map (·.text)).contains row.run.state).length

/-! ## Transitions -/

/-- `advance` without a transaction of its own. -/
def advanceInner (store : RunStore) (now : Int) (runId : Nat) (target : RunState)
    (causedBy : Text) (detail : Option Text) : RunStore × AdvanceResult :=
  match store.row? runId with
  | none => (store, .unknownRun)
  | some row =>
      let former := (isRunState row.run.state).getD .unknown
      if row.takes target then
        let moved := store.updateRun runId (RunRow.move target now)
        let event : RunEvent :=
          { runId, atTime := now, fromState := former.text, toState := target.text, causedBy, detail }
        ({ moved with events := moved.events ++ [event] }, .ok former target)
      else (store, .badTransition former target)

/-- The clear stamp, where the dispatch cleared the session. -/
def stampCleared (store : RunStore) (runId : Nat) : Option Int → RunStore
  | none => store
  | some clearedAt => store.setClearedAt runId clearedAt

/-- What the dispatch decided about the brief, where it says so. -/
def stampBrief (store : RunStore) (runId : Nat) (clearError : Option Text) :
    Option Bool → RunStore
  | none => store
  | some briefQueued =>
      store.updateRun runId fun row => { row with briefQueued := some briefQueued, clearError }

/-- What a dispatch writes before it takes the transition. -/
def dispatchStamps (store : RunStore) (now : Int) (input : DispatchRunInput) : Option RunStore := do
  let marked ← store.markDispatched input.runId input.sessionId input.workspace input.branch
    input.resumed now
  pure ((marked.stampCleared input.runId input.clearedAt).stampBrief input.runId input.clearError
    input.briefQueued)

def dispatchInner (now : Int) (input : DispatchRunInput) (store : RunStore) :
    Option (RunStore × AdvanceResult) := do
  let stamped ← store.dispatchStamps now input
  match stamped.advanceInner now input.runId .dispatched (Text.lit "coordinator") input.detail with
  | (advanced, .ok former target) =>
      pure (input.items.foldl (fun store title => store.addWorkItem input.runId title (Text.lit "[]"))
        advanced, .ok former target)
  | refused => pure refused

/-- What a close does once its last transition is taken. -/
def closeWrites (store : RunStore) (now : Int) (input : CloseRunInput) : RunStore :=
  let handed :=
    match input.handoffCommit with
    | none => store
    | some handoffCommit => store.setHandoffCommit input.runId handoffCommit
  let cancelled := { handed with
    deliveries := (cancelOutstandingDeliveries handed.mail handed.deliveries input.runId).1 }
  let released := { cancelled with
    claims := releaseClaimsForRun cancelled.claims input.runId now }
  if released.programOpenRunCount input.program = 0 then
    released.setProgramState input.program
      (match input.finalState with
      | .failed => Text.lit "abandoned"
      | .done => Text.lit "done")
  else released

/-- The close's last transition, and what is written once it is taken. -/
def closeFinal (now : Int) (input : CloseRunInput) (store : RunStore) :
    RunStore × AdvanceResult :=
  match store.advanceInner now input.runId input.finalState.runState input.causedBy none with
  | (final, .ok former target) => (final.closeWrites now input, .ok former target)
  | refused => refused

/-- A close after its compare-and-set; the close of a planned run takes no `closing` hop. -/
def closeClaimedRun (now : Int) (input : CloseRunInput) (store : RunStore) :
    RunStore × AdvanceResult :=
  if input.viaClosing then
    match store.advanceInner now input.runId .closing input.causedBy none with
    | (closing, .ok _ _) => closeFinal now input closing
    | refused => refused
  else closeFinal now input store

def closeInner (now : Int) (input : CloseRunInput) (store : RunStore) : RunStore × AdvanceResult :=
  match input.expectClaimedBy with
  | none => closeClaimedRun now input store
  | some expected =>
      match store.row? input.runId with
      | none => (store, .unknownRun)
      | some row =>
          if row.run.claimedBy ≠ some expected then (store, .claimantChanged row.run.claimedBy)
          else closeClaimedRun now input store

/-- The store after a call, and what the call answers; a call that throws answers nothing. -/
def commit (store : RunStore) (now : Int) : RunCommit → RunStore × Option AdvanceResult
  | .advance runId target causedBy detail =>
      tx store fun store => some (store.advanceInner now runId target causedBy detail)
  | .dispatchRun input => tx store (dispatchInner now input)
  | .closeRun input => tx store fun store => some (closeInner now input store)

end RunStore

end Ccrc.Coord
