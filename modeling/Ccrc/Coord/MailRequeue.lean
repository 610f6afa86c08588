import Ccrc.Coord.Envelope
import Ccrc.Coord.MailDelivery
import Ccrc.Library.Lists
import Ccrc.Library.Run
import Ccrc.Shared.Runs

/-! The store's operations that create or move deliveries: a chair's reclaim, a
worker's rebind and the revive of parked mail, each with its own selection, and
the close that cancels a run's mail. A table lists its rows by id. -/

set_option autoImplicit false

namespace Ccrc.Coord

open Library Shared

structure MailStore where
  mail : List Mail
  runs : List Run
  deliveries : List Delivery
  deriving DecidableEq, Repr

def deliberateCancelErrorsSql : List Text :=
  [mailRunClosedError, mailReclaimCancelledError, mailRebindSupersededError,
    mailChildReclaimedError]

/-- A delivery joined with its mail and its mail's run. -/
structure HeirSource where
  delivery : Delivery
  mail : Mail
  run : Run
  deriving DecidableEq, Repr

def heirSource (store : MailStore) (delivery : Delivery) : Option HeirSource := do
  let mail ← mailOf store.mail delivery
  let run ← runOf store.runs mail
  pure { delivery, mail, run }

/-- `HAS_HEIR_SQL`: some delivery names this one as its parent. -/
def hasHeir (rows : List Delivery) (row : Delivery) : Bool :=
  rows.any fun heir => heir.revivedFrom == some row.id

/-- `ABANDONED_PARK_SQL`. -/
def abandonedPark (rows : List Delivery) (source : HeirSource) : Bool :=
  source.delivery.rejected &&
    !deliberateCancelErrorsSql.contains (source.delivery.lastError.getD []) &&
    !(terminalRunStates.map (·.text)).contains source.run.state &&
    !hasHeir rows source.delivery

/-- `GROUP BY m.id ORDER BY MIN(d.id)` over rows listed by id. -/
def firstPerMail (sources : List HeirSource) : List HeirSource :=
  firstBy (·.mail.id) [] sources

/-- Queues a mail's new delivery and stamps the envelope that names its id. An
envelope that cannot be stamped throws. -/
def queueHeir (rows : List Delivery) (source : HeirSource) (target : Text)
    (revivedFrom : Option Nat) : Option (List Delivery × Nat) :=
  let (queued, id) := queueDelivery rows source.mail.id target [] revivedFrom
  let envelope := renderEnvelope
    { id, fromId := source.mail.fromId, toId := target, runId := source.mail.runId,
      program := some source.run.program, wave := some source.run.wave,
      waveOf := source.run.waveOf, kind := (isMailKind source.mail.kind).getD .unknown,
      subject := source.mail.subject, body := source.mail.body,
      artifacts := source.mail.artifacts }
  match setDeliveryEnvelope queued id envelope with
  | (stamped, .ok) => some (stamped, id)
  | _ => none

def queueHeirs (target : HeirSource → Text) (parent : HeirSource → Option Nat) :
    List Delivery → List HeirSource → Option (List Delivery × List Nat)
  | rows, [] => some (rows, [])
  | rows, source :: rest => do
      let (queued, id) ← queueHeir rows source (target source) (parent source)
      let (all, ids) ← queueHeirs target parent queued rest
      pure (all, id :: ids)

/-- Whose undelivered mail a re-queue moves, and to which scope. -/
inductive RequeueRole where
  | coordinator (program : Text)
  | worker (runId : Nat)
  deriving DecidableEq, Repr

namespace RequeueRole

def text : RequeueRole → Text
  | .coordinator _ => Text.lit "coordinator"
  | .worker _ => Text.lit "worker"

def source (rows : List Delivery) : RequeueRole → HeirSource → Bool
  | .coordinator _, source => abandonedPark rows source
  | .worker _, source => source.delivery.outstanding

def scope : RequeueRole → HeirSource → Bool
  | .coordinator program, source => source.run.program == program
  | .worker runId, source => source.mail.runId == some runId

end RequeueRole

/-- The `NOT EXISTS` of the re-queue. -/
def outstandingAt (rows : List Delivery) (mailId : Nat) (toId : Text) : Bool :=
  rows.any fun row => row.mailId == mailId && row.toId == toId && row.outstanding

def requeueSources (store : MailStore) (role : RequeueRole) (target : Text)
    (displaced : List Text) : List HeirSource :=
  firstPerMail ((store.deliveries.filterMap (heirSource store)).filter fun source =>
    role.source store.deliveries source && displaced.contains source.delivery.toId &&
      source.mail.toId == role.text && role.scope source &&
      !outstandingAt store.deliveries source.mail.id target)

/-- The rows after a re-queue, and how many mails it re-issued. -/
def requeueAbandonedMail (store : MailStore) (role : RequeueRole) (target : Text)
    (displaced : List Text) : Option (List Delivery × Nat) := do
  let sources := requeueSources store role target displaced
  let (queued, _) ← queueHeirs (fun _ => target) (fun _ => none) store.deliveries sources
  let parked := match role with
    | .coordinator _ => queued
    | .worker _ =>
        if sources = [] then queued
        else (parkSupersededDeliveries queued displaced (sources.map (·.mail.id))).1
  pure (parked, sources.length)

inductive ReclaimProgramResult where
  | ok (program : Text) (runIds : List Nat) (former : Text)
  | unknownRun
  | noClaimant
  deriving DecidableEq, Repr

/-- The claimants of a program's runs other than `target`, one for each run. -/
def movedClaims (runs : List Run) (program target : Text) : List (Nat × Text) :=
  runs.filterMap fun run =>
    if run.program = program then
      run.claimedBy.bind fun claimant =>
        if claimant = target then none else some (run.id, claimant)
    else none

/-- `claimedBy` and `coordProject` move together, on every claimed run of the
program. -/
def Run.reclaim (program target : Text) (coordProject : Option Text) (run : Run) : Run :=
  if run.program = program && run.claimedBy.isSome then
    { run with claimedBy := some target, coordProject }
  else run

def displacedBy (runs : List Run) (program target : Text) : List Text :=
  ((movedClaims runs program target).map (·.2)).eraseDups

/-- The mail half of a reclaim: kickoffs to the displaced are cancelled, the
outstanding mail of the chair follows it, and its abandoned mail is re-queued. -/
def reclaimMail (store : MailStore) (program target : Text) (displaced : List Text) :
    Option (List Delivery) := do
  let (cancelled, _) := cancelKickoffsTo store.mail store.deliveries displaced
  let (repointed, _) :=
    repointCoordinatorMail store.mail store.runs cancelled program target displaced
  let (queued, _) ← requeueAbandonedMail { store with deliveries := repointed }
    (.coordinator program) target displaced
  pure queued

def reclaimProgram (store : MailStore) (runId : Nat) (target : Text)
    (coordProject : Option Text) : Option (MailStore × ReclaimProgramResult) :=
  match store.runs.find? (·.id == runId) with
  | none => some (store, .unknownRun)
  | some run =>
      match run.claimedBy with
      | none => some (store, .noClaimant)
      | some claimant => do
          let moved := movedClaims store.runs run.program target
          let displaced := displacedBy store.runs run.program target
          let claimed := { store with
            runs := store.runs.map (·.reclaim run.program target coordProject) }
          let deliveries ←
            if displaced = [] then pure store.deliveries
            else reclaimMail claimed run.program target displaced
          pure ({ claimed with deliveries }, .ok run.program (moved.map (·.1)) claimant)

structure BindResult where
  rebound : Bool
  reissued : Nat
  deriving DecidableEq, Repr

def bindSession (store : MailStore) (runId : Nat) (sessionId : Text) :
    Option (MailStore × BindResult) :=
  let predecessor := (store.runs.find? (·.id == runId)).bind (·.sessionId)
  let bound := { store with
    runs := store.runs.map fun run =>
      if run.id = runId then { run with sessionId := some sessionId } else run }
  match predecessor with
  -- A first bind has no predecessor to inherit from.
  | none => some (bound, { rebound := false, reissued := 0 })
  | some predecessor =>
      if predecessor = sessionId then some (bound, { rebound := false, reissued := 0 })
      else do
        let (deliveries, reissued) ←
          requeueAbandonedMail bound (.worker runId) sessionId [predecessor]
        pure ({ bound with deliveries }, { rebound := true, reissued })

def sessionDeadError (lifecycle : Text) : Text := Text.lit "recipient session is " ++ lifecycle

def deadLifecycles : List Text :=
  [Text.lit "stopped", Text.lit "orphan", Text.lit "never-started"]

def revivableParkErrors : List Text :=
  deadLifecycles.map sessionDeadError ++ [Text.lit "draft-present", Text.lit "enter-ignored"]

def reviveSkippedSenders : List Text := [Text.lit "operator"]

def doneClaimAnswerSubjects : List Text :=
  [Text.lit "wave-done-rejected", Text.lit "wave-done-unmeasured",
    Text.lit "wave-advance-rejected", Text.lit "wave-advance-unmeasured",
    Text.lit "review-done-rejected", Text.lit "review-done-unmeasured"]

def reviveSkippedSubjectHeads : List Text :=
  doneClaimAnswerSubjects ++
    [Text.lit "stall-check:", Text.lit "stall:", Text.lit "orphaned:", Text.lit "failed:",
      Text.lit "restarted:", Text.lit "mail parked:", Text.lit "mail rejected:"]

/-- The relational half of the revive's selection, for one joined row. -/
def revives (rows : List Delivery) (liveIds : List Text) (source : HeirSource) : Bool :=
  abandonedPark rows source &&
    source.delivery.rejectCode == some MailRejectCode.undeliverable.text &&
    source.delivery.lastError.any revivableParkErrors.contains &&
    source.run.dispatchedAt.any (· ≤ source.mail.atTime) &&
    !reviveSkippedSenders.contains source.mail.fromId &&
    !reviveSkippedSubjectHeads.any source.mail.subject.startsWith &&
    (source.mail.toId != Text.lit "coordinator" ||
      source.run.claimedBy == some source.delivery.toId) &&
    (source.mail.toId != Text.lit "worker" ||
      source.run.sessionId == some source.delivery.toId) &&
    !rows.any (fun copy => copy.mailId == source.mail.id && !copy.rejected) &&
    liveIds.contains source.delivery.toId

structure RevivedDelivery where
  parent : Nat
  heir : Nat
  mailId : Nat
  toId : Text
  deriving DecidableEq, Repr

def reviveParkedDeliveries (store : MailStore) (liveIds : List Text) :
    Option (MailStore × List RevivedDelivery) :=
  if liveIds = [] then some (store, [])
  else do
    let sources := firstPerMail
      ((store.deliveries.filterMap (heirSource store)).filter (revives store.deliveries liveIds))
    let (deliveries, heirs) ← queueHeirs (·.delivery.toId) (fun source => some source.delivery.id)
      store.deliveries sources
    pure ({ store with deliveries }, (sources.zip heirs).map fun (source, heir) =>
      { parent := source.delivery.id, heir, mailId := source.mail.id,
        toId := source.delivery.toId })

inductive AdvanceResult where
  | ok (former target : RunState)
  | badTransition (former target : RunState)
  | unknownRun
  | claimantChanged (claimedBy : Option Text)
  deriving DecidableEq, Repr

def advanceInner (runs : List Run) (runId : Nat) (target : RunState) :
    List Run × AdvanceResult :=
  match runs.find? (·.id == runId) with
  | none => (runs, .unknownRun)
  | some run =>
      let former := (isRunState run.state).getD .unknown
      let kind := (isRunKind run.kind).getD .unknown
      if (transitionsFor kind former).contains target then
        (runs.map fun run => if run.id = runId then { run with state := target.text } else run,
          .ok former target)
      else (runs, .badTransition former target)

def AdvanceResult.isOk : AdvanceResult → Bool
  | .ok _ _ => true
  | _ => false

/-- Why a run closed. -/
inductive FinalState where
  | done | failed
  deriving DecidableEq, Repr

def FinalState.runState : FinalState → RunState
  | .done => .done
  | .failed => .failed

structure CloseInput where
  runId : Nat
  finalState : FinalState
  viaClosing : Bool
  /-- The claimant the close was decided against, where its caller names one. -/
  expectClaimedBy : Option Text
  deriving DecidableEq, Repr

/-- The close after its compare-and-set. -/
def closeClaimed (store : MailStore) (input : CloseInput) : MailStore × AdvanceResult :=
  let (closing, closingAdvance) :=
    if input.viaClosing then advanceInner store.runs input.runId .closing
    else (store.runs, .ok .unknown .closing)
  if !closingAdvance.isOk then (store, closingAdvance)
  else
    let (final, finalAdvance) := advanceInner closing input.runId input.finalState.runState
    if !finalAdvance.isOk then ({ store with runs := closing }, finalAdvance)
    else ({ store with
      runs := final
      deliveries := (cancelOutstandingDeliveries store.mail store.deliveries input.runId).1 },
      finalAdvance)

def closeRun (store : MailStore) (input : CloseInput) : MailStore × AdvanceResult :=
  match input.expectClaimedBy with
  | none => closeClaimed store input
  | some expected =>
      match store.runs.find? (·.id == input.runId) with
      | none => (store, .unknownRun)
      | some run =>
          if run.claimedBy = some expected then closeClaimed store input
          else (store, .claimantChanged run.claimedBy)

/-- A call that writes rows where they stand: it queues none and moves none to
another recipient. -/
def DeliveryCall.inPlace : DeliveryCall → Bool
  | .queueDelivery _ _ _ _ => false
  | .repointCoordinatorMail _ _ _ _ _ => false
  | _ => true

inductive MailStep where
  | write (call : { call : DeliveryCall // call.inPlace = true })
  | advance (runId : Nat) (target : RunState)
  | closeRun (input : CloseInput)
  | reclaimProgram (runId : Nat) (target : Text) (coordProject : Option Text)
  | bindSession (runId : Nat) (sessionId : Text)
  | reviveParkedDeliveries (liveIds : List Text)

/-- A transaction that throws leaves the store as it was. -/
def mailStep (store : MailStore) : MailStep → MailStore
  | .write call => { store with deliveries := (runCall store.deliveries call.1).1 }
  | .advance runId target => { store with runs := (advanceInner store.runs runId target).1 }
  | .closeRun input => (closeRun store input).1
  | .reclaimProgram runId target coordProject =>
      ((reclaimProgram store runId target coordProject).map (·.1)).getD store
  | .bindSession runId sessionId => ((bindSession store runId sessionId).map (·.1)).getD store
  | .reviveParkedDeliveries liveIds =>
      ((reviveParkedDeliveries store liveIds).map (·.1)).getD store

end Ccrc.Coord
