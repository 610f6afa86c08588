import Ccrc.Library.Groups
import Ccrc.Shared.Runs

/-! The rows of a project card: which of its sessions and spawns stand under which, and where
the card's delegated work is drawn. -/

set_option autoImplicit false

namespace Ccrc.Pwa

open Library Shared

/-! ## What a card is handed -/

inductive SessionBucket where
  | attention | working | done | idle | cleanup | archived | dead
  deriving DecidableEq, Repr

/-- A session, as far as its card's rows read it. A binding is the id of the run it names. -/
structure FleetSession where
  id : Text
  workdir : Text
  bucket : SessionBucket
  run : Option Int
  openRun : Option Int
  deriving DecidableEq, Repr

structure RunSummary where
  id : Int
  wave : Int
  state : RunState
  sessionId : Option Text
  claimedBy : Option Text
  dispatchStartedAt : Option Int
  deriving DecidableEq, Repr

inductive DelegationGroupKind where
  | offlineCoordinator | unowned
  deriving DecidableEq, Repr

inductive DelegationRowGroup where
  | parent | offlineCoordinator
  deriving DecidableEq, Repr

inductive DelegationActivityPlacement where
  | row | chip
  deriving DecidableEq, Repr

structure DelegationActivityWire where
  activityId : Text
  parentId : Text
  group : DelegationRowGroup
  placement : DelegationActivityPlacement
  openedAt : Text
  deriving DecidableEq, Repr

structure DelegationLeaseWire where
  leaseId : Text
  parentId : Text
  via : Option Text
  group : DelegationRowGroup
  canonicalPath : Text
  firstObservedAt : Text
  deriving DecidableEq, Repr

structure DelegationUnownedWire where
  project : Text
  adminRecord : Text
  deriving DecidableEq, Repr

/-- One card's slice of the delegation frame. -/
structure CardDelegation where
  activities : List DelegationActivityWire
  leases : List DelegationLeaseWire
  unowned : List DelegationUnownedWire
  deriving DecidableEq, Repr

inductive RowDepth where
  | zero | one
  deriving DecidableEq, Repr

inductive FleetRow where
  | session (depth : RowDepth) (session : FleetSession)
      (delegated : Option (List DelegationActivityWire))
  | pending (depth : RowDepth) (run : RunSummary)
  | activity (activity : DelegationActivityWire) (group : Option DelegationGroupKind)
  | lease (lease : DelegationLeaseWire) (via : Option Text) (group : Option DelegationGroupKind)
  | unowned (item : DelegationUnownedWire)
  | delegationGroup (group : DelegationGroupKind) (count : Nat)
  deriving DecidableEq, Repr

def FleetRow.depth : FleetRow → RowDepth
  | .session depth _ _ | .pending depth _ => depth
  | .activity _ _ | .lease _ _ _ | .unowned _ => .one
  | .delegationGroup _ _ => .zero

def FleetRow.session? : FleetRow → Option FleetSession
  | .session _ shown _ => some shown
  | .pending _ _ | .activity _ _ | .lease _ _ _ | .unowned _ | .delegationGroup _ _ => none

/-! ## Runs -/

def spawnStallMs : Int := 360000

inductive DispatchWindow where
  | none
  | inFlight (elapsedMs : Int)
  | stalled (elapsedMs : Int)
  deriving DecidableEq, Repr

def dispatchWindow (run : RunSummary) (nowMs : Int) : DispatchWindow :=
  if run.state ≠ .planned then .none
  else
    match run.dispatchStartedAt with
    | none => .none
    | some startedAt =>
        let elapsedMs := max 0 (nowMs - startedAt)
        if spawnStallMs ≤ elapsedMs then .stalled elapsedMs else .inFlight elapsedMs

def isDispatchPending (run : RunSummary) : Bool := dispatchWindow run 0 ≠ .none

def isRunClosed (run : RunSummary) : Bool := run.state == .done || run.state == .failed

/-- The listed session that is the run's worker. -/
def workerOf (run : RunSummary) (sessionsById : Map Text FleetSession) : Option FleetSession := do
  let session ← sessionsById.get? (← run.sessionId)
  if isRunClosed run ∨ session.openRun = some run.id ∨ session.run = some run.id then
    return session
  else none

def programOrder (a b : RunSummary) : Int :=
  if a.wave - b.wave ≠ 0 then a.wave - b.wave else a.id - b.id

def attentionFirst (byId : Map Text FleetSession) (a b : RunSummary) : Int :=
  let waiting (run : RunSummary) : Int :=
    if (workerOf run byId).map (·.bucket) = some .attention then 0 else 1
  if waiting a - waiting b ≠ 0 then waiting a - waiting b else programOrder a b

/-- `items.sort(compare)`, a stable sort. -/
def sortBy {α : Type} (compare : α → α → Int) (items : List α) : List α :=
  items.mergeSort fun a b => decide (compare a b ≤ 0)

/-! ## The programme's rows -/

def sessionsById (sessions : List FleetSession) : Map Text FleetSession :=
  Map.ofEntries (sessions.map fun session => (session.id, session))

/-- Whether an id names a session of the list. -/
def onList (byId : Map Text FleetSession) (id : Option Text) : Bool :=
  id.any fun id => (byId.get? id).isSome

/-- The runs whose two ends are both on the list, in the order their children read. -/
def settledRuns (byId : Map Text FleetSession) (runs : List RunSummary) : List RunSummary :=
  sortBy (attentionFirst byId) (runs.filter fun run =>
    onList byId run.sessionId && onList byId run.claimedBy && run.claimedBy != run.sessionId)

/-- The dispatches in flight whose session is not on the list. -/
def pendingRuns (byId : Map Text FleetSession) (runs : List RunSummary) : List RunSummary :=
  sortBy programOrder
    (runs.filter fun run => isDispatchPending run && !onList byId run.sessionId)

/-- The sessions that own an edge; none of them is a child. -/
def parentsOf (byId : Map Text FleetSession) (settled pending : List RunSummary) : List Text :=
  settled.filterMap (·.claimedBy) ++
    (pending.filter fun run => onList byId run.claimedBy).filterMap (·.claimedBy)

/-- Each child once, under the owner of the first run that names it; `placed` is what was
taken before. -/
def placeSettled (byId : Map Text FleetSession) (parents : List Text) :
    List Text → List RunSummary → List (Text × FleetSession)
  | _, [] => []
  | placed, run :: rest =>
      match run.claimedBy, run.sessionId with
      | some owner, some child =>
          if child ∈ parents ∨ child ∈ placed then placeSettled byId parents placed rest
          else
            match byId.get? child with
            | some session => (owner, session) :: placeSettled byId parents (child :: placed) rest
            | none => placeSettled byId parents placed rest
      | _, _ => placeSettled byId parents placed rest

/-- The spawns under a listed owner. -/
def placePending (byId : Map Text FleetSession) (pending : List RunSummary) :
    List (Text × RunSummary) :=
  pending.filterMap fun run =>
    if onList byId run.claimedBy then run.claimedBy.map fun owner => (owner, run) else none

/-- The rows of a card without its delegated work. -/
def programRows (sessions : List FleetSession) (runs : List RunSummary) : List FleetRow :=
  let byId := sessionsById sessions
  let settled := settledRuns byId runs
  let pending := pendingRuns byId runs
  let children := placeSettled byId (parentsOf byId settled pending) [] settled
  let spawns := placePending byId pending
  let kids := (Map.pushAll (children.map fun (owner, child) =>
    (owner, FleetRow.session .one child none)) []).pushAll
      (spawns.map fun (owner, run) => (owner, FleetRow.pending .one run))
  let orphanSpawns := pending.filter fun run => !onList byId run.claimedBy
  (sessions.filter fun session => session.id ∉ children.map (·.2.id)).flatMap (fun session =>
      .session .zero session none :: kids.listOf session.id) ++
    orphanSpawns.map (.pending .zero)

/-! ## The delegated work -/

section Delegation

variable (localeCompare : Text → Text → Int)

def byOpened (a b : DelegationActivityWire) : Int :=
  let opened := localeCompare a.openedAt b.openedAt
  if opened ≠ 0 then opened else localeCompare a.activityId b.activityId

def byObserved (a b : DelegationLeaseWire) : Int :=
  let observed := localeCompare a.firstObservedAt b.firstObservedAt
  if observed ≠ 0 then observed else localeCompare a.leaseId b.leaseId

/-- The depth of each listed session, as its rows say. -/
def depthEntries (rows : List FleetRow) : List (Text × RowDepth) :=
  rows.filterMap fun row => row.session?.map fun session => (session.id, row.depth)

/-- The session above each child; `top` is the one whose children are being read. -/
def bracketEntries : Option Text → List FleetRow → List (Text × Text)
  | _, [] => []
  | top, row :: rest =>
      match row.session?, row.depth, top with
      | some session, .zero, _ => bracketEntries (some session.id) rest
      | some session, .one, some owner => (session.id, owner) :: bracketEntries top rest
      | some _, .one, none | none, _, _ => bracketEntries top rest

structure SessionDepths where
  depth : Map Text RowDepth
  bracket : Map Text Text

def depthOf (rows : List FleetRow) : SessionDepths where
  depth := Map.ofEntries (depthEntries rows)
  bracket := Map.ofEntries (bracketEntries none rows)

/-- Where an activity is drawn. -/
inductive ActivityPlace where
  | offline | chip | row
  deriving DecidableEq, Repr

def activityPlace (depths : SessionDepths) (activity : DelegationActivityWire) : ActivityPlace :=
  match activity.group, depths.depth.get? activity.parentId with
  | .offlineCoordinator, _ | _, none => .offline
  | .parent, some depth =>
      if activity.placement = .chip ∨ depth = .one then .chip else .row

/-- Where a worktree is drawn: under a row, with the session it is shown by. -/
inductive LeasePlace where
  | honestRow
  | offline
  | under (owner : Option Text) (via : Option Text)
  deriving DecidableEq, Repr

def leasePlace (depths : SessionDepths) (workdirs : List Text) (lease : DelegationLeaseWire) :
    LeasePlace :=
  if lease.canonicalPath ∈ workdirs then .honestRow
  else
    match lease.group, depths.depth.get? lease.parentId with
    | .offlineCoordinator, _ | _, none => .offline
    | .parent, some .one => .under (depths.bracket.get? lease.parentId) (some lease.parentId)
    | .parent, some .zero => .under (some lease.parentId) lease.via

structure DelegationChildren where
  under : Map Text (List FleetRow)
  chips : Map Text (List DelegationActivityWire)
  offline : List FleetRow

def isActivityRow : FleetRow → Bool
  | .activity _ _ => true
  | _ => false

def isLeaseRow : FleetRow → Bool
  | .lease _ _ _ => true
  | _ => false

/-- The rows that worktrees push; an owner that no session is above has no row to stand under. -/
def leasePushes (depths : SessionDepths) (workdirs : List Text)
    (leases : List DelegationLeaseWire) : List (Text × FleetRow) :=
  leases.filterMap fun lease =>
    match leasePlace depths workdirs lease with
    | .under (some owner) via => some (owner, .lease lease via none)
    | .under none _ | .honestRow | .offline => none

def delegationChildren (rows : List FleetRow) (sessions : List FleetSession)
    (slice : CardDelegation) : DelegationChildren :=
  let depths := depthOf rows
  let workdirs := sessions.map (·.workdir)
  let activities := sortBy (byOpened localeCompare) slice.activities
  let leases := sortBy (byObserved localeCompare) slice.leases
  let placed (place : ActivityPlace) :=
    activities.filter fun activity => decide (activityPlace depths activity = place)
  let under := (Map.pushAll ((placed .row).map fun activity =>
    (activity.parentId, FleetRow.activity activity none)) []).pushAll
      (leasePushes depths workdirs leases)
  let offline := leases.filter fun lease =>
    decide (leasePlace depths workdirs lease = .offline)
  { under := under.map fun (owner, list) =>
      (owner, list.filter isActivityRow ++ list.filter isLeaseRow)
    chips := Map.pushAll ((placed .chip).map fun activity => (activity.parentId, activity)) []
    offline := offline.map (fun lease => .lease lease lease.via (some .offlineCoordinator)) ++
      (placed .offline).map fun activity => .activity activity (some .offlineCoordinator) }

def groupRows (group : DelegationGroupKind) (members : List FleetRow) : List FleetRow :=
  if members = [] then [] else .delegationGroup group members.length :: members

/-- `close()`: the delegated rows of the session whose children were read. -/
def closing (children : DelegationChildren) : Option Text → List FleetRow
  | some opened => children.under.listOf opened
  | none => []

/-- A session's row with the work that rides on it. -/
def withChips (children : DelegationChildren) : FleetRow → FleetRow
  | .session depth session delegated =>
      match children.chips.get? session.id with
      | some mine => .session depth session (some mine)
      | none => .session depth session delegated
  | row => row

/-- The rows with each parent's delegated work after its last child. -/
def spliced (children : DelegationChildren) : Option Text → List FleetRow → List FleetRow
  | opened, [] => closing children opened
  | opened, row :: rest =>
      let closed := if row.depth = .zero then closing children opened else []
      let next := if row.depth = .zero then row.session?.map (·.id) else opened
      closed ++ withChips children row :: spliced children next rest

def delegationPass (rows : List FleetRow) (sessions : List FleetSession)
    (slice : CardDelegation) : List FleetRow :=
  let children := delegationChildren localeCompare rows sessions slice
  spliced children none rows ++ groupRows .offlineCoordinator children.offline ++
    groupRows .unowned (slice.unowned.map .unowned)

def nestFleet (sessions : List FleetSession) (runs : List RunSummary)
    (delegation : Option CardDelegation) : List FleetRow :=
  match delegation with
  | none => programRows sessions runs
  | some slice => delegationPass localeCompare (programRows sessions runs) sessions slice

end Delegation

end Ccrc.Pwa
