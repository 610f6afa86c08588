import Ccrc.Coord.LandingStore
import Ccrc.Library.Table
import Ccrc.Shared.Runs

/-! The advance of a run together with its landing entry, in one transaction: the edge
of the run, the gate of an unresolved recovery, and the one statement that the line's
decision names. -/

set_option autoImplicit false

namespace Ccrc.Coord

open Library Shared

inductive ChecksMode where
  | live | shadow | off
  deriving DecidableEq, Repr

/-- What a `merging-at:` detail says. -/
structure MergingAt where
  head : Text
  pr : Option Int
  mode : ChecksMode
  deriving DecidableEq, Repr

/-- The one writer of the detail; none is its `RangeError`. -/
def mergingAtDetail (head : Text) (pr : Option Int) (mode : ChecksMode) : Option MergingAt :=
  if ¬head.isHexOf 40 then none
  else match pr with
    | none => if mode = .off then some { head, pr, mode } else none
    | some number => if (safeIntOf number 1).isSome then some { head, pr, mode } else none

/-! ## Runs and their events -/

structure LineRunRow where
  id : Int
  state : Text
  kind : Text
  project : Text
  deriving DecidableEq, Repr

/-- A row of `run_events`, with its detail where that is a `merging-at:` one. -/
structure RunEventRow where
  runId : Int
  atTime : Int
  fromState : Text
  toState : Text
  causedBy : Text
  detail : Option MergingAt
  deriving DecidableEq, Repr

structure LineDb where
  store : LandingStore
  cursor : Int
  runs : List LineRunRow
  events : List RunEventRow
  deriving DecidableEq, Repr

/-- The newest transition row into `merging`, where it carries the detail. -/
def currentEpisode (events : List RunEventRow) (runId : Int) : Option MergingAt :=
  (events.reverse.find? fun event => event.runId == runId &&
    event.toState == RunState.merging.text && event.fromState != RunState.merging.text).bind
    (·.detail)

def LineRunRow.source (row : LineRunRow) : RunState := (isRunState row.state).getD .unknown

def LineRunRow.permits (row : LineRunRow) (target : RunState) : Bool :=
  target ∈ transitionsFor ((isRunKind row.kind).getD .unknown) row.source

/-- The state of a run and the event of its move. -/
def LineDb.advanceInner (db : LineDb) (runId : Int) (target : RunState) (causedBy : Text)
    (detail : Option MergingAt) (now : Int) : LineDb :=
  match rowOf LineRunRow.id db.runs runId with
  | none => db
  | some row =>
      if row.permits target then
        { db with
          runs := (updateRows db.runs (·.id == runId) fun row =>
            { row with state := target.text }).1
          events := db.events ++ [{ runId, atTime := now, fromState := row.source.text
                                    toState := target.text, causedBy, detail }] }
      else db

/-! ## The decision -/

structure LandingEjection where
  base : Text
  kind : LandingEjectionKind
  deriving DecidableEq, Repr

inductive LandingAdvance where
  | plain
  | pin (head : Text) (pr : Option Int) (mode : ChecksMode) (handoffCommit : Text)
  | retreat (ejection : Option LandingEjection)
  deriving DecidableEq, Repr

inductive LandingWriteWord where
  | none | noPr | noEpisode | noEntry
  | kept (state : LandingEntryState)
  deriving DecidableEq, Repr

inductive LandingWriteDecision where
  | none (write : LandingWriteWord)
  | insert
  | repin (id : Int)
  | eject (id : Int) (base : Option Text) (kind : Option LandingEjectionKind) (ejections : Int)
  | quarantine (id : Int)
  | refuse
  deriving DecidableEq, Repr

def LandingProjectionRead.isReadable : LandingProjectionRead → Bool
  | .readable _ => true
  | .unreadable => false

def decideLandingWrite (landing : LandingAdvance) (source : RunState) (runId : Int)
    (current : Option LandingEntry) (projection : Option LandingProjectionRead)
    (episode : Option MergingAt) : LandingWriteDecision :=
  match landing with
  | .plain => .none .none
  | .pin _ none _ _ => .none .noPr
  | .pin _ (some _) _ _ =>
      match current with
      | none => .insert
      | some entry =>
          if entry.state = .pinned ∨ entry.state = .ejected then .repin entry.id
          else if entry.state = .unknown ∧ projection = some (.readable true) then .repin entry.id
          else .none (.kept entry.state)
  | .retreat ejection =>
      if source ≠ .merging then .none .none
      else match episode with
        | none => .none .noEpisode
        | some episode =>
            if episode.pr = none then .none .noPr
            else match current with
              | none => .none .noEntry
              | some entry =>
                  if entry.runId ≠ some runId ∨ entry.state ≠ .pinned then
                    .none (.kept entry.state)
                  else if entry.pinnedSha ≠ episode.head then
                    if projection.any (·.isReadable) then .quarantine entry.id else .refuse
                  else .eject entry.id (ejection.map (·.base)) (ejection.map (·.kind))
                    (if Number.maxSafeInteger ≤ entry.ejections then entry.ejections
                      else entry.ejections + 1)

/-- The recovered subject that a pin may resolve, where the recovery lets it pass. -/
def landingHoldGate (recovery : LandingRecovery) (isPin : Bool) (project : Text) (pr : Int)
    (projection : Option LandingProjectionRead) :
    Except LandingMutationCode (Option LandingRecoverySubject) :=
  if recovery.hold = none then .ok none
  else if recovery.subjects.any (LandingSubjectProjection.isConflict ·.projection) then
    .error .landingIdentityConflict
  else
    let own := if isPin then
        recovery.subjects.find? fun subject => subject.project == project && subject.pr == pr
      else none
    match own with
    | some subject =>
        if subject.projection = .missing ∨ subject.projection = .associationUnmeasured ∧
            projection.any (·.isReadable) then .ok (some subject)
        else .error .landingRecoveryUnresolved
    | none => if isPin ∧ projection = none then .ok none else .error .landingRecoveryUnresolved

/-! ## The statement -/

def LandingStore.modifyEntry (store : LandingStore) (id : Int)
    (set : LandingEntryRow → LandingEntryRow) : LandingTables :=
  { store.1 with entries := (updateRows store.1.entries (·.id == id) set).1 }

/-- `INSERT OR REPLACE`. -/
def replaceWitness (witnesses : List LandingWitnessRow) (row : LandingWitnessRow) :
    List LandingWitnessRow :=
  witnesses.filter (·.entryId != row.entryId) ++ [row]

/-- The witness of a verified pin, bound to its subject's latest observation. -/
def pinWitness (tables : LandingTables) (entryId : Int) (project : Text) (pr runId : Int)
    (head handoffCommit : Text) : LandingTables :=
  let seen := tables.subjects.find? fun row => row.project == project && row.pr == pr
  let row : LandingWitnessRow :=
    { entryId, project, pr, observedSeq := (seen.map (·.observedSeq)).getD 0, runId
      pinnedSha := head, handoffCommit }
  { tables with witnesses := replaceWitness tables.witnesses row }

structure LandingPin where
  head : Text
  pr : Int
  handoffCommit : Text
  deriving DecidableEq, Repr

def repinned (pin : LandingPin) (runId now : Int) (row : LandingEntryRow) : LandingEntryRow :=
  { row with
    pinnedSha := pin.head
    handoffCommit := pin.handoffCommit
    runId := some runId
    state := Text.lit "pinned"
    baseSha := none
    ejectionKind := none
    quarantineKind := none
    pinnedAt := now }

def ejected (base : Option Text) (kind : Option LandingEjectionKind) (ejections : Int)
    (row : LandingEntryRow) : LandingEntryRow :=
  { row with
    state := Text.lit "ejected"
    baseSha := base
    ejectionKind := kind.map (·.text)
    ejections := ejections }

def quarantined (row : LandingEntryRow) : LandingEntryRow :=
  { row with state := Text.lit "unknown", quarantineKind := some staleEpisodeHead }

def insertEntry (store : LandingStore) (id : Int) (project : Text) (pin : LandingPin) (runId : Int)
    (setBy : Text) (now : Int) : LandingTables :=
  let row := landingEntryRowOf id project pin.pr pin.head pin.handoffCommit setBy now
  { store.1 with entries := store.1.entries ++ [{ row with runId := some runId }] }

/-- What the decision makes of the tables; none is a decision that does not write
for the advance. -/
def applyLandingDecision (store : LandingStore) (decision : LandingWriteDecision)
    (pin : Option LandingPin) (reserved : Option Int) (project : Text) (runId : Int) (setBy : Text)
    (now : Int) : Option LandingTables :=
  match decision, pin, reserved with
  | .none _, _, _ | .refuse, _, _ => none
  | .insert, some pin, some id =>
      some (pinWitness (insertEntry store id project pin runId setBy now) id project pin.pr runId
        pin.head pin.handoffCommit)
  | .insert, _, _ => none
  | .repin id, some pin, _ =>
      some (pinWitness (store.modifyEntry id (repinned pin runId now)) id project pin.pr runId
        pin.head pin.handoffCommit)
  | .repin _, none, _ => none
  | .eject id base kind ejections, _, _ => some (store.modifyEntry id (ejected base kind ejections))
  | .quarantine id, _, _ => some (store.modifyEntry id quarantined)

/-! ## The advance -/

def LandingAdvance.isPin : LandingAdvance → Bool
  | .pin _ _ _ _ => true
  | .plain | .retreat _ => false

/-- The episode that a retreat leaves. -/
def LandingAdvance.episode (events : List RunEventRow) (runId : Int) :
    LandingAdvance → Option MergingAt
  | .retreat _ => currentEpisode events runId
  | .plain | .pin _ _ _ _ => none

def LandingAdvance.askedPr (episode : Option MergingAt) : LandingAdvance → Option Int
  | .pin _ pr _ _ => pr
  | .plain | .retreat _ => episode.bind (·.pr)

/-- An ejection of a run that is not at `merging`. -/
def LandingAdvance.strayEjection (source : RunState) : LandingAdvance → Bool
  | .retreat (some _) => source != .merging
  | .retreat none | .plain | .pin _ _ _ _ => false

/-- Where an advance ended. A throw of its writes leaves nothing; `line` says whether
the line had been reached. -/
inductive LineOutcome where
  | unchanged
  | threw (line : Bool)
  | written (line : Bool) (db : LineDb)
  deriving DecidableEq, Repr

def pairs (landing : LandingAdvance) (source target : RunState) : Bool :=
  match landing with
  | .plain => target != .merging && !(source == .merging && target == .working)
  | .pin _ _ _ _ => target == .merging
  | .retreat _ => target == .working

def LandingWriteDecision.isQuarantine : LandingWriteDecision → Bool
  | .quarantine _ => true
  | .none _ | .insert | .repin _ | .eject _ _ _ _ | .refuse => false

/-- The entry that was written is there to read. -/
def readsBack (tables : LandingTables) (project : Text) (pr : Option Int) : Bool :=
  ((landingFactsInner tables project).bind fun facts =>
    facts.entries.find? fun entry => some entry.pr == pr).isSome

/-- The edge, its event, and the row and the witness of the line. -/
def writeAdvance (db : LineDb) (runId : Int) (target : RunState) (causedBy : Text)
    (landing : LandingAdvance) (now : Int) (line : Bool) (project : Text) (pr : Option Int)
    (decision : LandingWriteDecision) (reserved : Option Int) : LineOutcome :=
  let detail := match landing with
    | .pin head pr mode _ => (mergingAtDetail head pr mode).map some
    | .plain | .retreat _ => some none
  match detail with
  | none => .threw line
  | some detail =>
      let advanced := db.advanceInner runId target causedBy detail now
      match decision with
      | .none _ | .refuse => .written line advanced
      | .insert | .repin _ | .eject _ _ _ _ | .quarantine _ =>
          let pin := match landing with
            | .pin head (some pr) _ handoffCommit => some ⟨head, pr, handoffCommit⟩
            | .pin _ none _ _ | .plain | .retreat _ => none
          match applyLandingDecision db.store decision pin reserved project runId causedBy now with
          | none => .threw line
          | some tables =>
              match tables.commit with
              | none => .threw line
              | some store =>
                  -- the entry is read back, but for a quarantine
                  if decision.isQuarantine || readsBack tables project pr then
                    .written line { advanced with store }
                  else .threw line

/-- An advance that names a PR of the line: the fence, the facts, the gate. -/
def advanceLine (db : LineDb) (fenced : Bool) (row : LineRunRow) (target : RunState)
    (causedBy : Text) (landing : LandingAdvance) (episode : Option MergingAt) (pr now : Int) :
    LineOutcome :=
  if fenced then .unchanged
  else match landingFactsInner db.store.1 row.project with
    | none => .unchanged
    | some facts =>
        let current := facts.entries.find? (·.pr == pr)
        let projection := current.bind fun entry => facts.projections.get? entry.id
        match landingHoldGate facts.recovery landing.isPin row.project pr projection with
        | .error _ => .unchanged
        | .ok own =>
            let reserved := (own.map (·.id)).or facts.nextId
            let decision := decideLandingWrite landing row.source row.id current projection episode
            if decision = .refuse ∨ decision = .insert ∧ reserved = none then .unchanged
            else writeAdvance db row.id target causedBy landing now true row.project (some pr)
              decision reserved

def advanceLanding (db : LineDb) (fenced : Bool) (runId : Int) (target : RunState)
    (causedBy : Text) (landing : LandingAdvance) (now : Int) : LineOutcome :=
  match rowOf LineRunRow.id db.runs runId with
  | none => .unchanged
  | some row =>
      if ¬row.permits target || ¬pairs landing row.source target ||
          landing.strayEjection row.source then .unchanged
      else
        let episode := landing.episode db.events runId
        match landing.askedPr episode with
        | some pr =>
            if landing.isPin || row.source == .merging then
              advanceLine db fenced row target causedBy landing episode pr now
            else writeAdvance db row.id target causedBy landing now false row.project (some pr)
              (decideLandingWrite landing row.source row.id none none episode) none
        | none => writeAdvance db row.id target causedBy landing now false row.project none
            (decideLandingWrite landing row.source row.id none none episode) none

end Ccrc.Coord
