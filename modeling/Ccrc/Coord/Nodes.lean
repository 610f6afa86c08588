import Ccrc.Library.Number
import Ccrc.Library.Run
import Ccrc.Library.Table
import Ccrc.Shared.Updates

/-! The rows of `nodes` and their writers: the measurement of a sweep, the lease and
its releases, the operator's request, and the re-keying of a row by a measured id.
A row that names its heir is retired, and every writer but the re-keying passes it
by. -/

set_option autoImplicit false

namespace Ccrc.Coord

open Library Shared

structure NodeRow where
  nodeId : Text
  label : Text
  currentVersion : Option Text
  highestVersion : Option Text
  measuredAt : Option Int
  reachable : Bool
  unreachableSince : Option Int
  /-- A stored word: one of `UpdateState` or any other text. -/
  updateState : Text
  updateTarget : Option Text
  updateStartedAt : Option Int
  updateDetail : Option Text
  requestedTag : Option Text
  requestedKind : Option Text
  requestedAt : Option Int
  supersededBy : Option Text
  deriving DecidableEq, Repr

structure RefusalRow where
  nodeId : Text
  tag : Text
  atTime : Int
  detail : Text
  deriving DecidableEq, Repr

structure NodeDb where
  nodes : List NodeRow
  refusals : List RefusalRow
  deriving DecidableEq, Repr

def NodeRow.live (row : NodeRow) : Bool := row.supersededBy.isNone

def NodeRow.settled (row : NodeRow) : Bool := isSettledWord row.updateState

/-- Live and in a state that is not settled: the row holds a lease. -/
def NodeRow.busy (row : NodeRow) : Bool := row.live && !row.settled

/-- `HALTED_UPDATE_SQL`: settled and not idle. -/
def NodeRow.halted (row : NodeRow) : Bool := row.settled && row.updateState != UpdateState.idle.text

/-- None is NULL: the detail of a failed row is compared and there is none. -/
def haltingRowSql (row : NodeRow) : Option Bool :=
  if !row.halted then some false
  else if row.updateState == UpdateState.failed.text then
    row.updateDetail.map fun detail => !detail.startsWith provenanceDetailPrefix
  else some true

/-- `/^[0-9a-f]{8}-[0-9a-f]{4}-[0-9a-f]{4}-[0-9a-f]{4}-[0-9a-f]{12}$/`. -/
def isNodeId (text : Text) : Bool :=
  match text.splitOn (Text.unit '-') with
  | [one, two, three, four, five] =>
      Text.isHexOf 8 one && Text.isHexOf 4 two && Text.isHexOf 4 three && Text.isHexOf 4 four &&
        Text.isHexOf 12 five
  | _ => false

abbrev nodeOf (nodes : List NodeRow) (nodeId : Text) : Option NodeRow :=
  rowOf NodeRow.nodeId nodes nodeId

/-- The latest first, those without a time last, then by id. -/
def latestFirst (time : NodeRow → Option Int) (first second : NodeRow) : Bool :=
  match time first, time second with
  | some one, some other =>
      decide (other < one) || (one == other && first.nodeId.binaryBefore second.nodeId)
  | some _, none => true
  | none, some _ => false
  | none, none => first.nodeId.binaryBefore second.nodeId

def nodeByLabel (nodes : List NodeRow) (label : Text) : Option NodeRow :=
  firstUnder (latestFirst NodeRow.measuredAt)
    (nodes.filter fun row => row.label == label && row.live)

/-! ## What a refused write reads back -/

structure NodeLeaseRow where
  updateState : UpdateState
  updateStartedAt : Option Int
  updateDetail : Option Text
  supersededBy : Option Text
  deriving DecidableEq, Repr

def nodeLeaseRow (nodes : List NodeRow) (nodeId : Text) : Option NodeLeaseRow :=
  (nodeOf nodes nodeId).map fun row =>
    { updateState := (isUpdateState row.updateState).getD .unknown
      updateStartedAt := row.updateStartedAt
      updateDetail := row.updateDetail
      supersededBy := row.supersededBy }

inductive NodeRefusal where
  | unknownNode
  | superseded (heir : Option Text)
  | labelKeyTaken (heir : Option Text)
  | notBusy (state : UpdateState)
  | staleReport (updateStartedAt : Option Int)
  | halted (state : UpdateState)
  | busy (state : UpdateState)
  | heldBy (nodeId : Text)
  | noRequest | badTag | badKind | badNodeId | noLeaseToHand
  deriving DecidableEq, Repr

/-- Every readback names a missing row and a retired one before its own reasons. -/
def refusalOf (nodes : List NodeRow) (nodeId : Text) (why : NodeLeaseRow → NodeRefusal) :
    NodeRefusal :=
  match nodeLeaseRow nodes nodeId with
  | none => .unknownNode
  | some row => if row.supersededBy.isSome then .superseded row.supersededBy else why row

/-! ## Measurement -/

structure NodeMeasurement where
  nodeId : Text
  label : Text
  currentVersion : Option Text
  highestVersion : Option Text
  measuredAt : Int
  deriving DecidableEq, Repr

/-- A row as the table's defaults leave it. -/
def newNode (nodeId label : Text) : NodeRow where
  nodeId := nodeId
  label := label
  currentVersion := none
  highestVersion := none
  measuredAt := none
  reachable := true
  unreachableSince := none
  updateState := UpdateState.idle.text
  updateTarget := none
  updateStartedAt := none
  updateDetail := none
  requestedTag := none
  requestedKind := none
  requestedAt := none
  supersededBy := none

def measured (measurement : NodeMeasurement) (row : NodeRow) : NodeRow :=
  { row with
    label := measurement.label
    currentVersion := measurement.currentVersion
    highestVersion := measurement.highestVersion
    measuredAt := some measurement.measuredAt
    reachable := true
    unreachableSince := none }

/-- Whether a row was created, where it was written. -/
def upsertNodeMeasurement (nodes : List NodeRow) (measurement : NodeMeasurement) :
    List NodeRow × Except NodeRefusal Bool :=
  match nodeOf nodes measurement.nodeId with
  | none =>
      let row := newNode measurement.nodeId measurement.label
      (nodes ++ [measured measurement row], .ok true)
  | some _ =>
      let (next, changes) := updateRows nodes
        (fun row => row.nodeId == measurement.nodeId && row.live) (measured measurement)
      if 0 < changes then (next, .ok false)
      else (next, .error (.superseded
        ((nodeLeaseRow next measurement.nodeId).bind (·.supersededBy))))

structure MarkedUnreachable where
  nodeId : Text
  created : Bool
  since : Option Int
  deriving DecidableEq, Repr

def markUnreachable (nodes : List NodeRow) (label : Text) (now : Int) :
    List NodeRow × Except NodeRefusal MarkedUnreachable :=
  let (next, changes) := updateRows nodes (fun row => row.label == label && row.live) fun row =>
    { row with reachable := false, unreachableSince := some (row.unreachableSince.getD now) }
  if 0 < changes then
    match nodeByLabel next label with
    | none => (next, .error .unknownNode)
    | some row => (next, .ok ⟨row.nodeId, false, row.unreachableSince⟩)
  else match nodeOf next label with
    | none =>
        (next ++ [{ newNode label label with reachable := false, unreachableSince := some now }],
          .ok ⟨label, true, some now⟩)
    | some _ =>
        (next, .error (.labelKeyTaken ((nodeLeaseRow next label).bind (·.supersededBy))))

/-! ## The lease -/

/-- The identity clause: a caller that saw another start is refused. -/
def sameLease (expectedStartedAt : Option Int) (row : NodeRow) : Bool :=
  expectedStartedAt.isNone || row.updateStartedAt.isNone ||
    row.updateStartedAt == expectedStartedAt

def releaseLease (nodes : List NodeRow) (nodeId : Text) (settles : SettledUpdateState)
    (detail : Text) (expectedStartedAt : Option Int) :
    List NodeRow × Except NodeRefusal SettledUpdateState :=
  let (next, changes) := updateRows nodes
    (fun row => row.nodeId == nodeId && row.live && !row.settled &&
      sameLease expectedStartedAt row) fun row =>
      { row with updateState := settles.state.text, updateDetail := some detail }
  if 0 < changes then (next, .ok settles)
  else (next, .error (refusalOf next nodeId fun row =>
    if isSettledWord row.updateState.text then .notBusy row.updateState
    else .staleReport row.updateStartedAt))

/-- A tag of a row that is a release tag the asked one is not newer than. -/
def notNewerThan (tag : Text) (version : Option Text) : Bool :=
  version.any fun version => isReleaseTag version && isNewerTag tag version != some true

/-- A request written beside the running lease, for an update newer than the lease's
target and than what the row runs. -/
def requestOutlivesLease (nodes : List NodeRow) (nodeId : Text) : Bool :=
  match nodeOf nodes nodeId with
  | none => false
  | some row =>
      if row.settled then false
      else if row.requestedKind ≠ some RequestKind.update.text then false
      else match row.requestedAt, row.updateStartedAt with
        | some requestedAt, some startedAt =>
            if requestedAt ≤ startedAt then false
            else match row.requestedTag, row.updateTarget with
              | some tag, some target =>
                  isReleaseTag tag && isReleaseTag target && isNewerTag tag target == some true &&
                    !([row.currentVersion, row.highestVersion].any (notNewerThan tag))
              | _, _ => false
        | _, _ => false

def requestedTagOf (nodes : List NodeRow) (nodeId : Text) : Option Text :=
  (nodeOf nodes nodeId).bind (·.requestedTag)

structure SettledNode where
  clearedRequest : Bool
  keptRequest : Bool
  deriving DecidableEq, Repr

def settleNode (nodes : List NodeRow) (nodeId detail : Text) (expectedStartedAt : Option Int) :
    List NodeRow × Except NodeRefusal SettledNode :=
  let had := (requestedTagOf nodes nodeId).isSome
  let kept := requestOutlivesLease nodes nodeId
  let (next, changes) := updateRows nodes
    (fun row => row.nodeId == nodeId && row.live && !row.halted &&
      sameLease expectedStartedAt row) fun row =>
      { row with
        updateState := UpdateState.idle.text
        updateDetail := some detail
        requestedTag := if kept then row.requestedTag else none
        requestedKind := if kept then row.requestedKind else none
        requestedAt := if kept then row.requestedAt else none }
  if 0 < changes then (next, .ok ⟨had && !kept, had && kept⟩)
  else (next, .error (refusalOf next nodeId fun row =>
    if isSettledWord row.updateState.text && row.updateState != .idle then .halted row.updateState
    else .staleReport row.updateStartedAt))

def ackDetail : Text := Text.lit "acknowledged by the operator"

structure AckedNode where
  clearedRequest : Bool
  clearedRefusals : Nat
  deriving DecidableEq, Repr

def ackNode (db : NodeDb) (nodeId : Text) : NodeDb × Except NodeRefusal AckedNode :=
  let had := (requestedTagOf db.nodes nodeId).isSome
  let (next, changes) := updateRows db.nodes
    (fun row => row.nodeId == nodeId && row.live && row.settled) fun row =>
      { row with
        updateState := UpdateState.idle.text
        updateDetail := some ackDetail
        requestedTag := none
        requestedKind := none
        requestedAt := none }
  if 0 < changes then
    ({ nodes := next, refusals := db.refusals.filter fun row => row.nodeId != nodeId },
      .ok ⟨had, db.refusals.countP fun row => row.nodeId == nodeId⟩)
  else ({ db with nodes := next }, .error (refusalOf next nodeId fun row =>
    .busy (if row.updateState ∈ busyUpdateStates then row.updateState else .unknown)))

/-- `at` is written where it is a timestamp; the caller's clock otherwise throws. -/
def isTimestamp (time : Int) : Bool := 0 ≤ time && time ≤ Number.maxSafeInteger

/-- A call that threw wrote nothing. -/
inductive NodeAnswer (α : Type) where
  | threw
  | answered (result : Except NodeRefusal α)
  deriving DecidableEq, Repr

structure ReplacedRequest where
  tag : Text
  kind : Option RequestKind
  deriving DecidableEq, Repr

def requestNode (nodes : List NodeRow) (nodeId tag kind : Text) (now : Int) :
    List NodeRow × NodeAnswer (Option ReplacedRequest) :=
  if ¬isTimestamp now then (nodes, .threw)
  else if ¬isReleaseTag tag then (nodes, .answered (.error .badTag))
  else if (isRequestKind kind).isNone then (nodes, .answered (.error .badKind))
  else
    let replaced := (nodeOf nodes nodeId).bind fun row => row.requestedTag.map fun tag =>
      ⟨tag, row.requestedKind.bind isRequestKind⟩
    let (next, changes) := updateRows nodes (fun row => row.nodeId == nodeId && row.live) fun row =>
      { row with requestedTag := some tag, requestedKind := some kind, requestedAt := some now }
    if 0 < changes then (next, .answered (.ok replaced))
    else (next, .answered (.error (match nodeLeaseRow next nodeId with
      | none => .unknownNode
      | some row => .superseded row.supersededBy)))

/-- The acquire: the row is live and settled, no live row holds a lease, and a
rollback is the one that was asked for. -/
def dispatchNode (nodes : List NodeRow) (nodeId target kind : Text) (startedAt : Int)
    (detail : Text) : List NodeRow × NodeAnswer Unit :=
  if ¬isTimestamp startedAt then (nodes, .threw)
  else if ¬isReleaseTag target then (nodes, .answered (.error .badTag))
  else if (isRequestKind kind).isNone then (nodes, .answered (.error .badKind))
  else
    let (next, changes) := updateRows nodes
      (fun row => row.nodeId == nodeId && row.live && row.settled && !nodes.any NodeRow.busy &&
        (kind != RequestKind.rollback.text ||
          (row.requestedKind == some RequestKind.rollback.text &&
            row.requestedTag == some target))) fun row =>
        { row with
          updateState := UpdateState.pending.text
          updateTarget := some target
          updateStartedAt := some startedAt
          updateDetail := some detail }
    if 0 < changes then (next, .answered (.ok ()))
    else (next, .answered (.error (refusalOf next nodeId fun _ =>
      match firstUnder (fun first second => first.nodeId.binaryBefore second.nodeId)
          (next.filter NodeRow.busy) with
      | some holder => .heldBy holder.nodeId
      | none => .noRequest)))

/-! ## Identity -/

def mayReceive (donor : NodeRow) (heirId : Text) (row : NodeRow) : Bool :=
  row.nodeId == heirId && row.live && haltingRowSql row == some false &&
    donor.label == row.label && donor.supersededBy == some row.nodeId && !donor.settled

def receiveLease (donor row : NodeRow) : NodeRow :=
  { row with
    updateState := donor.updateState
    updateTarget := donor.updateTarget
    updateStartedAt := donor.updateStartedAt
    updateDetail := donor.updateDetail }

/-- The lease of a busy row that was retired toward a live row of its label, copied
onto it. -/
def handOffLease (nodes : List NodeRow) (donorId heirId : Text) :
    List NodeRow × Except NodeRefusal Unit :=
  let (next, changes) := match nodeOf nodes donorId with
    | none => (nodes, 0)
    | some donor => updateRows nodes (mayReceive donor heirId) (receiveLease donor)
  if 0 < changes then (next, .ok ())
  else (next, .error (refusalOf next heirId fun row =>
    if isHaltingUpdate row.updateState.text row.updateDetail then .halted row.updateState
    else .noLeaseToHand))

def rekeyReleaseDetail : Text :=
  Text.lit ("released on a rekey: the node-id came back while another node held the lease; " ++
    "the request stands")

/-- The rest of the lease step: a revived row gives way to a busy row of another label. -/
def yieldLease (nodes : List NodeRow) (label nodeId : Text) (startedAt : Option Int) :
    List NodeRow :=
  match nodes.find? fun row => row.label != label && row.busy with
  | none => nodes
  | some other =>
      (releaseLease nodes nodeId .idle
        (rekeyReleaseDetail ++ Text.lit " (" ++ other.nodeId ++ Text.lit " holds the lease)")
        startedAt).1

def leaseFollowsLabel (nodes : List NodeRow) (label nodeId : Text) (donorId : Option Text) :
    List NodeRow :=
  match nodeLeaseRow nodes nodeId with
  | none => nodes
  | some row =>
      match donorId with
      | none => yieldLease nodes label nodeId row.updateStartedAt
      | some donorId =>
          match handOffLease nodes donorId nodeId with
          | (next, .ok _) => next
          | (next, .error _) => yieldLease next label nodeId row.updateStartedAt

/-- The busy row of the label that a revival is about to retire. -/
def rekeyDonor (nodes : List NodeRow) (label nodeId : Text) : Option NodeRow :=
  match nodeLeaseRow nodes nodeId with
  | none => none
  | some heir =>
      if heir.supersededBy.isNone then none
      else firstUnder (latestFirst NodeRow.updateStartedAt) (nodes.filter fun row =>
        row.label == label && row.live && row.nodeId != nodeId && !row.settled)

inductive Rekeying where
  | rekeyed | superseded | noLabelRow
  deriving DecidableEq, Repr

structure RekeyedNode where
  how : Rekeying
  retired : Nat
  revived : Bool
  deriving DecidableEq, Repr

def retireToward (heirId : Text) (row : NodeRow) : NodeRow :=
  { row with supersededBy := some heirId }

def reviveRow (row : NodeRow) : NodeRow := { row with supersededBy := none }

/-- The row that the label keys is superseded by the row of the id, or becomes it. -/
def rekeyLabelRow (db : NodeDb) (label nodeId : Text) : Option (NodeDb × Rekeying) :=
  let (superseding, superseded) := updateRows db.nodes
    (fun row => row.nodeId == label && row.live && (nodeOf db.nodes nodeId).isSome)
    (retireToward nodeId)
  if 0 < superseded then some ({ db with nodes := superseding }, .superseded)
  else
    let (moving, moved) := updateRows superseding (fun row => row.nodeId == label && row.live)
      fun row => { row with nodeId := nodeId }
    if moved = 0 then some ({ db with nodes := moving }, .noLabelRow)
    else
      let carried := db.refusals.filter (·.nodeId == label)
      -- the primary key of the refusals is the node and the tag
      if label != nodeId && carried.any fun row =>
          db.refusals.any fun other => other.nodeId == nodeId && other.tag == row.tag then none
      else some ({ nodes := moving
                   refusals := (updateRows db.refusals (·.nodeId == label) fun row =>
                     { row with nodeId := nodeId }).1 }, .rekeyed)

def rekeyNode (db : NodeDb) (label nodeId : Text) : NodeDb × NodeAnswer RekeyedNode :=
  if ¬isNodeId nodeId then (db, .answered (.error .badNodeId))
  else
    let donor := rekeyDonor db.nodes label nodeId
    match rekeyLabelRow db label nodeId with
    | none => (db, .threw)
    | some (keyed, how) =>
        let (reviving, revived) := updateRows keyed.nodes
          (fun row => row.nodeId == nodeId && !row.live) reviveRow
        let (retiring, retired) := updateRows reviving
          (fun row => row.label == label && row.live && row.nodeId != nodeId &&
            row.nodeId != label) (retireToward nodeId)
        let nodes := if 0 < revived then
            leaseFollowsLabel retiring label nodeId (donor.map (·.nodeId))
          else retiring
        ({ keyed with nodes }, .answered (.ok ⟨how, retired, decide (0 < revived)⟩))

/-! ## Runs -/

inductive NodeCall where
  | dispatchNode (nodeId target kind : Text) (startedAt : Int) (detail : Text)
  | releaseLease (nodeId : Text) (settles : SettledUpdateState) (detail : Text)
      (expectedStartedAt : Option Int)
  | settleNode (nodeId detail : Text) (expectedStartedAt : Option Int)
  | ackNode (nodeId : Text)
  | requestNode (nodeId tag kind : Text) (now : Int)
  | rekeyNode (label nodeId : Text)
  | upsertNodeMeasurement (measurement : NodeMeasurement)
  | markUnreachable (label : Text) (now : Int)
  deriving DecidableEq, Repr

def nodeStep (db : NodeDb) : NodeCall → NodeDb
  | .dispatchNode nodeId target kind startedAt detail =>
      { db with nodes := (dispatchNode db.nodes nodeId target kind startedAt detail).1 }
  | .releaseLease nodeId settles detail expectedStartedAt =>
      { db with nodes := (releaseLease db.nodes nodeId settles detail expectedStartedAt).1 }
  | .settleNode nodeId detail expectedStartedAt =>
      { db with nodes := (settleNode db.nodes nodeId detail expectedStartedAt).1 }
  | .ackNode nodeId => (ackNode db nodeId).1
  | .requestNode nodeId tag kind now =>
      { db with nodes := (requestNode db.nodes nodeId tag kind now).1 }
  | .rekeyNode label nodeId => (rekeyNode db label nodeId).1
  | .upsertNodeMeasurement measurement =>
      { db with nodes := (upsertNodeMeasurement db.nodes measurement).1 }
  | .markUnreachable label now => { db with nodes := (markUnreachable db.nodes label now).1 }

end Ccrc.Coord
