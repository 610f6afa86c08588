import Ccrc.Shared.Mail

/-! The rows of `mail_deliveries` and their writers. Every writer goes through
`writeDeliveries`, the one UPDATE of the table: a guard picks the rows it may
touch and a clause narrows them. -/

set_option autoImplicit false

namespace Ccrc.Coord

open Library Shared

structure Delivery where
  id : Nat
  mailId : Nat
  toId : Text
  /-- A stored word: any text at all, the vocabulary's or not. -/
  state : Text
  attempts : Int
  nextAttemptAt : Int
  envelope : Text
  lastError : Option Text
  deliveredAt : Option Int
  ingestedAt : Option Int
  ackedAt : Option Int
  rejectCode : Option Text
  replayCount : Int
  lastGate : Option Text
  gateCount : Int
  gateSince : Option Int
  gateAt : Option Int
  parkedAt : Option Int
  parkReason : Option Text
  parkBox : Option Text
  parkEscalatedAt : Option Int
  revivedFrom : Option Nat
  deriving DecidableEq, Repr

/-- A row of `mail`. -/
structure Mail where
  id : Nat
  atTime : Int
  fromId : Text
  /-- A role or the id of a session. -/
  toId : Text
  runId : Option Nat
  kind : Text
  subject : Text
  body : Text
  artifacts : List Text
  deriving DecidableEq, Repr

/-- The columns of `runs` that the mail writers read. -/
structure Run where
  id : Nat
  program : Text
  wave : Int
  waveOf : Option Int
  kind : Text
  state : Text
  claimedBy : Option Text
  coordProject : Option Text
  sessionId : Option Text
  dispatchedAt : Option Int
  deriving DecidableEq, Repr

def mailReplayCeilingError : Text := Text.lit "replayed without ack past the replay ceiling"
def mailRunClosedError : Text := Text.lit "run closed"
def mailReclaimCancelledError : Text := Text.lit "coordinator reclaimed"
def mailRebindSupersededError : Text := Text.lit "recipient rebound"
def mailChildReclaimedError : Text := Text.lit "child workspace reclaimed"

def outstandingStatesSql : List Text :=
  (outstandingDeliveryStates terminalDeliveryStates).map (·.text)

def terminalDeliverySql : List Text := terminalDeliveryStates.map (·.text)

namespace Delivery

def outstanding (row : Delivery) : Bool := outstandingStatesSql.contains row.state

def terminal (row : Delivery) : Bool := terminalDeliverySql.contains row.state

def acked (row : Delivery) : Bool := row.state == MailDeliveryState.acked.text

def rejected (row : Delivery) : Bool := row.state == MailDeliveryState.rejected.text

/-- A row rejected at the replay ceiling and nowhere else. -/
def replayCeilingPark (row : Delivery) : Bool :=
  row.rejected && row.rejectCode == some MailRejectCode.undeliverable.text &&
    row.lastError == some mailReplayCeilingError

end Delivery

def ackableDeliverySql (row : Delivery) : Bool := !row.terminal || row.replayCeilingPark

inductive DeliveryGuard where
  | outstanding | nonTerminal | ack
  deriving DecidableEq, Repr

def DeliveryGuard.admits : DeliveryGuard → Delivery → Bool
  | .outstanding, row => row.outstanding
  | .nonTerminal, row => !row.terminal
  | .ack, row => ackableDeliverySql row

/-- One UPDATE: the columns it sets, its guard and its narrowing clause. No
statement names the row's identity, its mail or its parent in the SET list. -/
structure DeliveryUpdate where
  set : Delivery → Delivery
  guard : DeliveryGuard
  narrow : Delivery → Bool := fun _ => true
  keeps : ∀ row, (set row).id = row.id ∧ (set row).mailId = row.mailId ∧
    (set row).revivedFrom = row.revivedFrom := by intro; exact ⟨rfl, rfl, rfl⟩

namespace DeliveryUpdate

def takes (update : DeliveryUpdate) (row : Delivery) : Bool :=
  update.guard.admits row && update.narrow row

def apply (update : DeliveryUpdate) (row : Delivery) : Delivery :=
  if update.takes row then update.set row else row

def onlyId (update : DeliveryUpdate) (id : Nat) : DeliveryUpdate :=
  { update with narrow := fun row => row.id == id && update.narrow row }

end DeliveryUpdate

structure DeliveryBulkWrite where
  changed : Nat
  deriving DecidableEq, Repr

/-- What a one-row write decided, and the row's state read back: `none` where
the row is gone. -/
structure DeliveryWrite where
  changed : Bool
  state : Option MailDeliveryState
  deriving DecidableEq, Repr

def writeDeliveries (rows : List Delivery) (update : DeliveryUpdate) :
    List Delivery × Nat :=
  (rows.map update.apply, rows.countP update.takes)

def delivery (rows : List Delivery) (id : Nat) : Option Delivery := rows.find? (·.id == id)

def deliveryState (word : Text) : MailDeliveryState := (isMailDeliveryState word).getD .unknown

def writeDelivery (rows : List Delivery) (id : Nat) (update : DeliveryUpdate) :
    List Delivery × DeliveryWrite :=
  let (written, changed) := writeDeliveries rows (update.onlyId id)
  (written, { changed := 0 < changed,
              state := (delivery written id).map fun row => deliveryState row.state })

def writeBulk (rows : List Delivery) (update : DeliveryUpdate) :
    List Delivery × DeliveryBulkWrite :=
  let (written, changed) := writeDeliveries rows update
  (written, { changed })

/-- The next AUTOINCREMENT id: the table never loses a row. -/
def nextDeliveryId (rows : List Delivery) : Nat :=
  (rows.map (·.id)).foldl max 0 + 1

def queueDelivery (rows : List Delivery) (mailId : Nat) (toId envelope : Text)
    (revivedFrom : Option Nat) : List Delivery × Nat :=
  let id := nextDeliveryId rows
  (rows ++ [{ id, mailId, toId, state := MailDeliveryState.queued.text, attempts := 0,
              nextAttemptAt := 0, envelope, lastError := none, deliveredAt := none,
              ingestedAt := none, ackedAt := none, rejectCode := none, replayCount := 0,
              lastGate := none, gateCount := 0, gateSince := none, gateAt := none,
              parkedAt := none, parkReason := none, parkBox := none, parkEscalatedAt := none,
              revivedFrom }], id)

inductive SetEnvelopeResult where
  | ok
  | absent
  | terminal (state : MailDeliveryState)
  deriving DecidableEq, Repr

def setDeliveryEnvelopeUpdate (envelope : Text) : DeliveryUpdate where
  set := fun row => { row with envelope }
  guard := .nonTerminal

def setDeliveryEnvelope (rows : List Delivery) (id : Nat) (envelope : Text) :
    List Delivery × SetEnvelopeResult :=
  let (written, answer) := writeDelivery rows id (setDeliveryEnvelopeUpdate envelope)
  (written,
    if answer.changed then .ok
    else match answer.state with
      | none => .absent
      | some state => .terminal state)

-- The gate and the park columns clear in the statement that moves the state.
def markDeliveredUpdate (atTime : Int) : DeliveryUpdate where
  set := fun row =>
    { row with state := MailDeliveryState.delivered.text, deliveredAt := some atTime,
               lastGate := none, gateCount := 0, gateSince := none, gateAt := none,
               parkedAt := none, parkReason := none, parkBox := none, parkEscalatedAt := none }
  guard := .nonTerminal

def markDelivered (rows : List Delivery) (id : Nat) (atTime : Int) :
    List Delivery × DeliveryWrite :=
  writeDelivery rows id (markDeliveredUpdate atTime)

inductive BumpReplayResult where
  | counted (replayCount : Int)
  | terminal
  deriving DecidableEq, Repr

def bumpReplayCountUpdate : DeliveryUpdate where
  set := fun row => { row with replayCount := row.replayCount + 1 }
  guard := .nonTerminal

def bumpReplayCount (rows : List Delivery) (id : Nat) : List Delivery × BumpReplayResult :=
  let (written, answer) := writeDelivery rows id bumpReplayCountUpdate
  (written,
    if answer.changed then .counted (((delivery written id).map (·.replayCount)).getD 0)
    else .terminal)

def markIngestedUpdate (atTime : Int) : DeliveryUpdate where
  set := fun row => { row with ingestedAt := some atTime }
  guard := .nonTerminal

def markIngested (rows : List Delivery) (id : Nat) (atTime : Int) :
    List Delivery × DeliveryWrite :=
  writeDelivery rows id (markIngestedUpdate atTime)

inductive MarkAckedResult where
  | ok
  | absent
  | alreadyAcked (state : MailDeliveryState)
  | parked (state : MailDeliveryState) (lastError : Option Text)
  deriving DecidableEq, Repr

def markAckedUpdate (atTime : Int) : DeliveryUpdate where
  set := fun row =>
    { row with state := MailDeliveryState.acked.text, ackedAt := some atTime,
               lastGate := none, gateCount := 0, gateSince := none, gateAt := none }
  guard := .ack

def markAcked (rows : List Delivery) (id : Nat) (atTime : Int) :
    List Delivery × MarkAckedResult :=
  let (written, answer) := writeDelivery rows id (markAckedUpdate atTime)
  (written,
    if answer.changed then .ok
    else match delivery written id with
      | none => .absent
      | some row =>
          if row.acked then .alreadyAcked (deliveryState row.state)
          else .parked (deliveryState row.state) row.lastError)

def backOffUpdate (lastError : Text) (nextAttemptAt : Int) (countsAsAttempt : Bool) :
    DeliveryUpdate where
  set := fun row =>
    { row with attempts := row.attempts + (if countsAsAttempt then 1 else 0),
               lastError := some lastError, nextAttemptAt }
  guard := .nonTerminal

def backOff (rows : List Delivery) (id : Nat) (lastError : Text) (nextAttemptAt : Int)
    (countsAsAttempt : Bool) : List Delivery × DeliveryWrite :=
  writeDelivery rows id (backOffUpdate lastError nextAttemptAt countsAsAttempt)

def noteGateUpdate (gate : MailGate) (now : Int) (same : Bool) (sinceIfSame : Option Int) :
    DeliveryUpdate where
  set := fun row =>
    { row with lastGate := some gate.text, gateAt := some now,
               gateCount := if same then row.gateCount + 1 else 1,
               gateSince := some (if same then sinceIfSame.getD now else now) }
  guard := .nonTerminal

def noteGate (rows : List Delivery) (id : Nat) (gate : MailGate) (now : Int) (same : Bool)
    (sinceIfSame : Option Int) : List Delivery × DeliveryWrite :=
  writeDelivery rows id (noteGateUpdate gate now same sinceIfSame)

def rejectDeliveryUpdate (code : MailRejectCode) (lastError : Text) : DeliveryUpdate where
  set := fun row =>
    { row with state := MailDeliveryState.rejected.text, rejectCode := some code.text,
               lastError := some lastError, lastGate := none, gateCount := 0,
               gateSince := none, gateAt := none }
  guard := .nonTerminal

def rejectDelivery (rows : List Delivery) (id : Nat) (code : MailRejectCode) (lastError : Text) :
    List Delivery × DeliveryWrite :=
  writeDelivery rows id (rejectDeliveryUpdate code lastError)

def parkDeliveryUpdate (reason : Text) (box : Option Text) (now nextAttemptAt : Int) :
    DeliveryUpdate where
  set := fun row =>
    { row with attempts := row.attempts + 1, lastError := some reason, nextAttemptAt,
               parkedAt := row.parkedAt.or (some now), parkReason := some reason,
               parkBox := box }
  guard := .outstanding
  narrow := fun row => row.deliveredAt.isNone

def parkDelivery (rows : List Delivery) (id : Nat) (reason : Text) (box : Option Text)
    (now nextAttemptAt : Int) : List Delivery × DeliveryWrite :=
  writeDelivery rows id (parkDeliveryUpdate reason box now nextAttemptAt)

/-- Parked and never delivered. -/
def Delivery.parked (row : Delivery) : Bool := row.parkedAt.isSome && row.deliveredAt.isNone

def holdParkedUpdate (nextAttemptAt : Int) : DeliveryUpdate where
  set := fun row => { row with nextAttemptAt }
  guard := .outstanding
  narrow := fun row => row.parked

def holdParked (rows : List Delivery) (id : Nat) (nextAttemptAt : Int) :
    List Delivery × DeliveryWrite :=
  writeDelivery rows id (holdParkedUpdate nextAttemptAt)

def wakeParkedUpdate (now : Int) : DeliveryUpdate where
  set := fun row => { row with nextAttemptAt := now }
  guard := .outstanding
  narrow := fun row => row.parked && now < row.nextAttemptAt

def wakeParked (rows : List Delivery) (id : Nat) (now : Int) : List Delivery × DeliveryWrite :=
  writeDelivery rows id (wakeParkedUpdate now)

def markParkEscalatedUpdate (atTime : Int) : DeliveryUpdate where
  set := fun row => { row with parkEscalatedAt := some atTime }
  guard := .outstanding
  narrow := fun row => row.parked && row.parkEscalatedAt.isNone

def markParkEscalated (rows : List Delivery) (id : Nat) (atTime : Int) :
    List Delivery × DeliveryWrite :=
  writeDelivery rows id (markParkEscalatedUpdate atTime)

def absorbParkEscalationUpdate (atTime : Int) : DeliveryUpdate where
  set := fun row => { row with parkEscalatedAt := some atTime }
  guard := .outstanding
  narrow := fun row => row.deliveredAt.isNone && row.parkEscalatedAt.isNone

def absorbParkEscalation (rows : List Delivery) (id : Nat) (atTime : Int) :
    List Delivery × DeliveryWrite :=
  writeDelivery rows id (absorbParkEscalationUpdate atTime)

def baselineParkBoxUpdate (box : Text) : DeliveryUpdate where
  set := fun row => { row with parkBox := some box }
  guard := .outstanding
  narrow := fun row => row.parked && row.parkBox.isNone

def baselineParkBox (rows : List Delivery) (id : Nat) (box : Text) :
    List Delivery × DeliveryWrite :=
  writeDelivery rows id (baselineParkBoxUpdate box)

/-- The SET list the bulk cancels share. The gate columns stay as they were. -/
def cancelUpdate (error : Text) (narrow : Delivery → Bool) : DeliveryUpdate where
  set := fun row =>
    { row with state := MailDeliveryState.rejected.text,
               rejectCode := some MailRejectCode.undeliverable.text, lastError := some error }
  guard := .outstanding
  narrow := narrow

/-- The mail of a delivery, where the mail table holds it. -/
def mailOf (mail : List Mail) (row : Delivery) : Option Mail := mail.find? (·.id == row.mailId)

/-- The run of a mail, where it names one that the runs table holds. -/
def runOf (runs : List Run) (mail : Mail) : Option Run :=
  mail.runId.bind fun runId => runs.find? (·.id == runId)

def cancelOutstandingUpdate (mail : List Mail) (runId : Nat) : DeliveryUpdate :=
  cancelUpdate mailRunClosedError fun row =>
    (mailOf mail row).any fun mail => mail.runId == some runId

def cancelOutstandingDeliveries (mail : List Mail) (rows : List Delivery) (runId : Nat) :
    List Delivery × DeliveryBulkWrite :=
  writeBulk rows (cancelOutstandingUpdate mail runId)

def cancelDeliveriesToUpdate (toId : Text) : DeliveryUpdate :=
  cancelUpdate mailChildReclaimedError fun row => row.toId == toId

def cancelDeliveriesTo (rows : List Delivery) (toId : Text) :
    List Delivery × DeliveryBulkWrite :=
  writeBulk rows (cancelDeliveriesToUpdate toId)

def cancelKickoffsUpdate (mail : List Mail) (displaced : List Text) : DeliveryUpdate :=
  cancelUpdate mailReclaimCancelledError fun row =>
    displaced.contains row.toId && (mailOf mail row).any fun mail =>
      mail.runId.isNone && mail.fromId == Text.lit "operator" &&
        mail.subject == programKickoffSubject

def cancelKickoffsTo (mail : List Mail) (rows : List Delivery) (displaced : List Text) :
    List Delivery × DeliveryBulkWrite :=
  writeBulk rows (cancelKickoffsUpdate mail displaced)

def parkSupersededUpdate (displaced : List Text) (mailIds : List Nat) : DeliveryUpdate :=
  cancelUpdate mailRebindSupersededError fun row =>
    displaced.contains row.toId && mailIds.contains row.mailId

def parkSupersededDeliveries (rows : List Delivery) (displaced : List Text)
    (mailIds : List Nat) : List Delivery × DeliveryBulkWrite :=
  writeBulk rows (parkSupersededUpdate displaced mailIds)

def repointUpdate (mail : List Mail) (runs : List Run) (program target : Text)
    (displaced : List Text) : DeliveryUpdate where
  set := fun row => { row with toId := target }
  guard := .outstanding
  narrow := fun row =>
    displaced.contains row.toId && (mailOf mail row).any fun mail =>
      mail.toId == Text.lit "coordinator" &&
        (runOf runs mail).any fun run => run.program == program

def repointCoordinatorMail (mail : List Mail) (runs : List Run) (rows : List Delivery)
    (program target : Text) (displaced : List Text) : List Delivery × DeliveryBulkWrite :=
  writeBulk rows (repointUpdate mail runs program target displaced)

/-- A call of one of the table's writers. A bulk writer reads the mail and the
runs as they stand when it is called. -/
inductive DeliveryCall where
  | queueDelivery (mailId : Nat) (toId envelope : Text) (revivedFrom : Option Nat)
  | setDeliveryEnvelope (id : Nat) (envelope : Text)
  | markDelivered (id : Nat) (atTime : Int)
  | bumpReplayCount (id : Nat)
  | markIngested (id : Nat) (atTime : Int)
  | markAcked (id : Nat) (atTime : Int)
  | backOff (id : Nat) (lastError : Text) (nextAttemptAt : Int) (countsAsAttempt : Bool)
  | noteGate (id : Nat) (gate : MailGate) (now : Int) (same : Bool) (sinceIfSame : Option Int)
  | rejectDelivery (id : Nat) (code : MailRejectCode) (lastError : Text)
  | parkDelivery (id : Nat) (reason : Text) (box : Option Text) (now nextAttemptAt : Int)
  | holdParked (id : Nat) (nextAttemptAt : Int)
  | wakeParked (id : Nat) (now : Int)
  | markParkEscalated (id : Nat) (atTime : Int)
  | absorbParkEscalation (id : Nat) (atTime : Int)
  | baselineParkBox (id : Nat) (box : Text)
  | cancelOutstandingDeliveries (mail : List Mail) (runId : Nat)
  | cancelDeliveriesTo (toId : Text)
  | cancelKickoffsTo (mail : List Mail) (displaced : List Text)
  | parkSupersededDeliveries (displaced : List Text) (mailIds : List Nat)
  | repointCoordinatorMail (mail : List Mail) (runs : List Run) (program target : Text)
      (displaced : List Text)
  deriving DecidableEq, Repr

/-- What a call answers. -/
inductive DeliveryAnswer where
  | queued (id : Nat)
  | one (write : DeliveryWrite)
  | bulk (write : DeliveryBulkWrite)
  | envelope (result : SetEnvelopeResult)
  | replay (result : BumpReplayResult)
  | ack (result : MarkAckedResult)
  deriving DecidableEq, Repr

def answered {α : Type} (tag : α → DeliveryAnswer) (result : List Delivery × α) :
    List Delivery × DeliveryAnswer :=
  (result.1, tag result.2)

def runCall (rows : List Delivery) : DeliveryCall → List Delivery × DeliveryAnswer
  | .queueDelivery mailId toId envelope revivedFrom =>
      answered .queued (queueDelivery rows mailId toId envelope revivedFrom)
  | .setDeliveryEnvelope id envelope =>
      answered .envelope (setDeliveryEnvelope rows id envelope)
  | .markDelivered id atTime => answered .one (markDelivered rows id atTime)
  | .bumpReplayCount id => answered .replay (bumpReplayCount rows id)
  | .markIngested id atTime => answered .one (markIngested rows id atTime)
  | .markAcked id atTime => answered .ack (markAcked rows id atTime)
  | .backOff id lastError nextAttemptAt countsAsAttempt =>
      answered .one (backOff rows id lastError nextAttemptAt countsAsAttempt)
  | .noteGate id gate now same sinceIfSame =>
      answered .one (noteGate rows id gate now same sinceIfSame)
  | .rejectDelivery id code lastError => answered .one (rejectDelivery rows id code lastError)
  | .parkDelivery id reason box now nextAttemptAt =>
      answered .one (parkDelivery rows id reason box now nextAttemptAt)
  | .holdParked id nextAttemptAt => answered .one (holdParked rows id nextAttemptAt)
  | .wakeParked id now => answered .one (wakeParked rows id now)
  | .markParkEscalated id atTime => answered .one (markParkEscalated rows id atTime)
  | .absorbParkEscalation id atTime => answered .one (absorbParkEscalation rows id atTime)
  | .baselineParkBox id box => answered .one (baselineParkBox rows id box)
  | .cancelOutstandingDeliveries mail runId =>
      answered .bulk (cancelOutstandingDeliveries mail rows runId)
  | .cancelDeliveriesTo toId => answered .bulk (cancelDeliveriesTo rows toId)
  | .cancelKickoffsTo mail displaced => answered .bulk (cancelKickoffsTo mail rows displaced)
  | .parkSupersededDeliveries displaced mailIds =>
      answered .bulk (parkSupersededDeliveries rows displaced mailIds)
  | .repointCoordinatorMail mail runs program target displaced =>
      answered .bulk (repointCoordinatorMail mail runs rows program target displaced)

end Ccrc.Coord
