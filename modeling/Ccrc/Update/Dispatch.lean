import Ccrc.Update.Resolve

/-! The dispatcher: the one move that the fleet makes next, and what each node that
does not move is told. None of a function is a `RangeError` of the comparison. -/

set_option autoImplicit false

namespace Ccrc.Update

open Library Shared
open Library.Text (lit)

inductive NodeRole where
  | server | fleet | both
  deriving DecidableEq, Repr

inductive StampRead where
  | ok | absent | unreadable | malformed
  deriving DecidableEq, Repr

def StampRead.text : StampRead → Text
  | .ok => lit "ok"
  | .absent => lit "absent"
  | .unreadable => lit "unreadable"
  | .malformed => lit "malformed"

inductive ProvenanceState where
  | verified | unverified | unknown
  deriving DecidableEq, Repr

def updateOp : Text := lit "update"
def detachCap : Text := lit "detach"
def rollbackCap : Text := lit "rollback"
def updateGateCap : Text := lit "update-gate"
def unversionedDetail : Text := lit "unversioned box — any eligible release is newer"

structure DispatchRow where
  nodeId : Text
  role : Option NodeRole
  label : Text
  currentVersion : Option Text
  highestVersion : Option Text
  floorRead : TagFileRead
  stampRead : StampRead
  caps : List Text
  agentOps : Option (List Text)
  reachable : Bool
  updateState : UpdateState
  updateDetail : Option Text
  channel : Option UpdateChannel
  desiredTag : Option Text
  provenance : ProvenanceState
  requestedTag : Option Text
  requestedKind : Option RequestKind

structure DispatchNodeView where
  row : DispatchRow
  auto : AutoMode
  refusedTags : List Text

structure DispatchInput where
  nodes : List DispatchNodeView
  releases : List EligibilityRow

inductive MoveSource where
  | request | auto
  deriving DecidableEq, Repr

def MoveSource.text : MoveSource → Text
  | .request => lit "requested"
  | .auto => lit "auto"

structure Intended where
  kind : RequestKind
  target : Text
  source : MoveSource

structure DispatchMove where
  nodeId : Text
  kind : RequestKind
  target : Text
  source : MoveSource
  viaLink : Bool
  detail : Text

inductive DispatchRefusal where
  | unknownTag | notNewer | refusedByNode | stampUnread | floorUnread | noDetachCap
  | noUpdateGate | noRollbackCap | agentPredatesUpdateOp | halted | waitingForFleet | noBundle
  deriving DecidableEq, Repr

def DispatchRefusal.text : DispatchRefusal → Text
  | .unknownTag => lit "unknown-tag"
  | .notNewer => lit "not-newer"
  | .refusedByNode => lit "refused-by-node"
  | .stampUnread => lit "stamp-unread"
  | .floorUnread => lit "floor-unread"
  | .noDetachCap => lit "no-detach-cap"
  | .noUpdateGate => lit "no-update-gate"
  | .noRollbackCap => lit "no-rollback-cap"
  | .agentPredatesUpdateOp => lit "agent-predates-update-op"
  | .halted => lit "halted"
  | .waitingForFleet => lit "waiting-for-fleet"
  | .noBundle => lit "no-bundle"

structure PlannedRefusal where
  nodeId : Text
  refusal : DispatchRefusal
  detail : Text

structure MetRequest where
  nodeId : Text
  tag : Text

structure FleetGate where
  haltedBy : List Text
  leaseHeldBy : Option Text

structure DispatchPlan where
  gate : FleetGate
  move : Option DispatchMove
  refusals : List PlannedRefusal
  met : List MetRequest

/-- The row that a refusal names besides the node itself. -/
structure RefusalBlocker where
  label : Text
  tag : Option Text
  auto : Bool

/-! ## What the dispatcher shares with the PWA -/

def autoPermits (auto : AutoMode) (channel : Option UpdateChannel) : Bool :=
  match auto with
  | .off => false
  | .stable => channel == some .stable
  | .channel => channel.isSome

def agentPredatesUpdateOp (agentOps : Option (List Text)) : Bool :=
  agentOps.any fun ops => !ops.contains updateOp

def stampUnread (stampRead : StampRead) (currentVersion : Option Text) : Bool :=
  stampRead != .ok || currentVersion.any fun version => !isReleaseTag version

def updateTargetListed (row : Option EligibilityRow) : Bool :=
  row.any fun row => row.bundleListed && !row.yanked

def rollbackTargetRefusal (release : Option EligibilityRow) (provenance : ProvenanceState) :
    Option DispatchRefusal :=
  match release with
  | none => some .unknownTag
  | some release =>
      if !release.bundleListed ∧ provenance = .verified then some .noBundle else none

def dispatchRank : Option NodeRole → Nat
  | some .fleet => 0
  | some .server | some .both => 1
  | none => 2

/-- `first < second`, by code units. -/
def unitBefore : Text → Text → Bool
  | _, [] => false
  | [], _ :: _ => true
  | first :: before, second :: after =>
      decide (first < second) || (first == second && unitBefore before after)

/-- Rank, then label, then id: the first row does not come after the second. -/
def dispatchOrdered (a b : DispatchRow) : Bool :=
  if dispatchRank a.role ≠ dispatchRank b.role then
    decide (dispatchRank a.role < dispatchRank b.role)
  else if a.label ≠ b.label then unitBefore a.label b.label
  else if a.nodeId ≠ b.nodeId then unitBefore a.nodeId b.nodeId
  else true

/-! ## One node -/

def isSettled (state : UpdateState) : Bool := isSettledWord state.text

def isHalting (row : DispatchRow) : Bool := isHaltingUpdate row.updateState.text row.updateDetail

def fleetGate (rows : List DispatchRow) : FleetGate :=
  let sorted := rows.mergeSort fun a b => !unitBefore b.nodeId a.nodeId
  ⟨(sorted.filter isHalting).map (·.nodeId),
    (sorted.find? fun r => !isSettled r.updateState).map (·.nodeId)⟩

inductive Current where
  | versioned (tag : Text)
  | unversioned
  | unread

def currentOf (row : DispatchRow) : Current :=
  if stampUnread row.stampRead row.currentVersion then .unread
  else
    match row.currentVersion with
    | none => .unversioned
    | some tag => .versioned tag

def refusedByNode (v : DispatchNodeView) (tag : Text) : Bool := v.refusedTags.contains tag

/-- A request outranks auto, also where its kind cannot be read. -/
def intendedMove (v : DispatchNodeView) : Option Intended :=
  match v.row.requestedTag with
  | some tag => v.row.requestedKind.map fun kind => ⟨kind, tag, .request⟩
  | none =>
      if autoPermits v.auto v.row.channel then
        v.row.desiredTag.map fun tag => ⟨.update, tag, .auto⟩
      else none

def releaseRowFor (releases : List EligibilityRow) (tag : Text) : Option EligibilityRow :=
  if isReleaseTag tag then releases.find? fun r => r.tag == tag else none

/-- Newer than the floor, where both can be compared. -/
def newerThanFloor (target : Text) : Option Text → Option Bool
  | some floor => if isReleaseTag target then isNewerTag target floor else some true
  | none => some true

/-- What refuses an update for the node's floor or for the target. -/
def floorRefusal (row : DispatchRow) (target : Text) (known : Option EligibilityRow) :
    Option (Option DispatchRefusal) :=
  if row.highestVersion = none ∧ row.floorRead = .unmeasured then some (some .floorUnread)
  else do
    let floor ← floorOf row.highestVersion row.currentVersion
    let newer ← newerThanFloor target floor
    if !newer then return some .notNewer
    else if !updateTargetListed known then return some .unknownTag
    else return none

def updateRefusal (row : DispatchRow) (target : Text) (known : Option EligibilityRow) :
    Option (Option DispatchRefusal) :=
  match currentOf row with
  | .unread => some (some .stampUnread)
  | .versioned _ | .unversioned => floorRefusal row target known

/-- What refuses any move: the node's own verdict and what it can do. -/
def moveCapRefusal (view : DispatchNodeView) (move : Intended) : Option DispatchRefusal :=
  if refusedByNode view move.target then some .refusedByNode
  else if !view.row.caps.contains detachCap then some .noDetachCap
  else if move.kind = .rollback ∧ !view.row.caps.contains rollbackCap then some .noRollbackCap
  else if move.source = .auto ∧ !view.row.caps.contains updateGateCap then some .noUpdateGate
  else if agentPredatesUpdateOp view.row.agentOps then some .agentPredatesUpdateOp
  else none

/-- The first refusal of a move, or none. -/
def moveRefusal (view : DispatchNodeView) (move : Intended) (releases : List EligibilityRow)
    (gate : FleetGate) : Option (Option DispatchRefusal) :=
  if gate.haltedBy ≠ [] then some (some .halted)
  else do
    let known := releaseRowFor releases move.target
    let refusal ← match move.kind with
      | .update => updateRefusal view.row move.target known
      | .rollback => some (rollbackTargetRefusal known view.row.provenance)
    return refusal.or (moveCapRefusal view move)

/-! ## The plan -/

def versionOr (version : Option Text) (otherwise : String) : Text :=
  version.getD (lit otherwise)

def refusalSentence (refusal : DispatchRefusal) (r : DispatchRow) (t : Text)
    (b : Option RefusalBlocker) : Option Text :=
  match refusal with
  | .unknownTag => some (t ++ lit " is not a release " ++ r.label ++
      lit " can be moved to — an update needs a catalogue row listed with its provenance bundle and not yanked, a rollback a catalogue row")
  | .notNewer => do
      match ← floorOf r.highestVersion r.currentVersion with
      | some floor =>
          if some floor ≠ r.currentVersion then
            return t ++ lit " is not newer than " ++ r.label ++ lit "'s floor " ++ floor ++
              lit " (it runs " ++ versionOr r.currentVersion "an unversioned build" ++
              lit ") — pin a newer tag, or use rollback"
          else
            return t ++ lit " is not newer than " ++ r.label ++ lit "'s " ++
              versionOr r.currentVersion "version" ++ lit " — moving a node down is a rollback"
      | none =>
          return t ++ lit " is not newer than " ++ r.label ++ lit "'s " ++
            versionOr r.currentVersion "version" ++ lit " — moving a node down is a rollback"
  | .refusedByNode => some (r.label ++ lit " refused " ++ t ++
      lit " on a provenance verdict — ack the node to clear the refusal")
  | .stampUnread => some (r.label ++ lit "'s build stamp reads " ++ r.stampRead.text ++
      lit ", so its version is unknown — " ++ t ++ lit " waits until the stamp reads")
  | .floorUnread => some (r.label ++ lit "'s floor has not been measured — " ++ t ++
      lit " waits until it is")
  | .noDetachCap => some (r.label ++ lit "'s ccrc-caps has no " ++ detachCap ++
      lit " — its ccrc predates the one-tap, or it is macOS (decision 17); " ++ t ++ lit " waits")
  | .noUpdateGate => some (lit "auto is on for " ++ r.label ++ lit " but its ccrc-caps has no " ++
      updateGateCap ++ lit ", so auto will not move it to " ++ t ++
      lit "; an operator request still can")
  | .noRollbackCap => some (r.label ++ lit "'s ccrc-caps has no " ++ rollbackCap ++
      lit " — its ccrc cannot roll back to " ++ t)
  | .noBundle => some (lit "the catalogue lists no provenance bundle for " ++ t ++ lit " and " ++
      r.label ++ lit "'s install is verified, so the one-tap is not sent — its ccrc refuses to download " ++
      t ++ lit " without --allow-unsigned, which a one-tap never passes; on that box, ccrc rollback --to " ++
      t ++ lit " flips to a kept copy if it keeps one, and otherwise ccrc update --to " ++ t ++
      lit " --downgrade --allow-unsigned installs it; or Refresh if a bundle was published since the last poll, or pick a newer release")
  | .agentPredatesUpdateOp => some (r.label ++ lit "'s agent does not advertise the " ++ updateOp ++
      lit " op — update its agent first; " ++ t ++ lit " waits")
  | .halted => some (lit "a failed or reverted node" ++
      (match b with
        | none => []
        | some b => lit " (" ++ b.label ++ lit ")") ++
      lit " halts every move until it is acked — " ++ r.label ++ lit " waits for " ++ t)
  | .waitingForFleet =>
      if b.any (·.auto) then
        some (((b.map (·.label)).getD []) ++ lit "'s auto update to " ++
          versionOr (b.bind (·.tag)) "a release" ++ lit " has not landed — " ++ r.label ++
          lit " moves to " ++ t ++ lit " after it does, or once that node's own auto is off")
      else
        some (versionOr (b.map (·.label)) "a fleet node" ++ lit "'s request for " ++
          versionOr (b.bind (·.tag)) "a release" ++ lit " is outstanding — " ++ r.label ++
          lit " moves to " ++ t ++ lit " after it is settled or acked")

def dispatchRefusalDetail (refusal : DispatchRefusal) (view : DispatchNodeView) (target : Text)
    (blocker : Option RefusalBlocker) : Option Text :=
  (refusalSentence refusal view.row target blocker).map fun sentence =>
    refusal.text ++ lit " — " ++ sentence

def moveDetail (row : DispatchRow) (m : Intended) : Text :=
  match currentOf row with
  | .unversioned =>
      if m.kind = .update then unversionedDetail
      else m.source.text ++ lit " " ++ m.kind.text ++ lit " from an unversioned build to " ++ m.target
  | .versioned tag =>
      m.source.text ++ lit " " ++ m.kind.text ++ lit " from " ++ tag ++ lit " to " ++ m.target
  | .unread =>
      m.source.text ++ lit " " ++ m.kind.text ++ lit " from an unread stamp to " ++ m.target

/-- A standing rollback request that is refused before any spawn. -/
def knownRefusedAsk (releases : List EligibilityRow) (v : DispatchNodeView) : Bool :=
  match v.row.requestedTag with
  | none => false
  | some tag =>
      v.row.requestedKind == some .rollback &&
        (rollbackTargetRefusal (releaseRowFor releases tag) v.row.provenance).isSome

/-- A fleet row whose request is outstanding. -/
def asks (releases : List EligibilityRow) (v : DispatchNodeView) : Bool :=
  dispatchRank v.row.role == 0 && v.row.requestedTag.any (fun tag => !refusedByNode v tag) &&
    !knownRefusedAsk releases v

/-- A fleet row that auto has not converged. -/
def autoPending (releases : List EligibilityRow) (v : DispatchNodeView) : Bool :=
  dispatchRank v.row.role == 0 && autoPermits v.auto v.row.channel &&
    v.row.desiredTag.any (fun tag => !refusedByNode v tag) && !knownRefusedAsk releases v

/-- What stands over the whole loop. -/
structure PlanContext where
  gate : FleetGate
  releases : List EligibilityRow
  fleetAsk : Option DispatchNodeView
  fleetAuto : Option DispatchNodeView
  haltedRow : Option DispatchNodeView

structure PlanState where
  met : List MetRequest
  refusals : List PlannedRefusal
  move : Option DispatchMove

/-- The hold of the fleet on a node of another rank. -/
def fleetHold (context : PlanContext) (v : DispatchNodeView) (m : Intended) :
    Option RefusalBlocker :=
  if dispatchRank v.row.role = 0 then none
  else
    match context.fleetAsk with
    | some ask => some ⟨ask.row.label, ask.row.requestedTag, false⟩
    | none =>
        match m.source, context.fleetAuto with
        | .auto, some auto => some ⟨auto.row.label, auto.row.desiredTag, true⟩
        | _, _ => none

/-- The refusal of a node's move and the row that it names. -/
def plannedRefusal (context : PlanContext) (v : DispatchNodeView) (m : Intended) :
    Option (Option (DispatchRefusal × Option RefusalBlocker)) :=
  (moveRefusal v m context.releases context.gate).map fun refusal =>
    match refusal with
    | some .halted =>
        some (.halted, context.haltedRow.map fun row => ⟨row.row.label, none, false⟩)
    | some refusal => some (refusal, none)
    | none => (fleetHold context v m).map fun blocker => (.waitingForFleet, some blocker)

def isMet (row : DispatchRow) (m : Intended) : Bool :=
  m.source == .request && row.updateState == .idle && row.stampRead == .ok &&
    row.currentVersion == some m.target

def planNode (context : PlanContext) (state : PlanState) (v : DispatchNodeView) :
    Option PlanState :=
  if !isSettled v.row.updateState ∨ !v.row.reachable then some state
  else
    match intendedMove v with
    | none => some state
    | some m =>
        if isMet v.row m then
          some { state with met := state.met ++ [⟨v.row.nodeId, m.target⟩] }
        else do
          match ← plannedRefusal context v m with
          | some (refusal, blocker) =>
              if v.row.updateState = .idle then
                let detail ← dispatchRefusalDetail refusal v m.target blocker
                return { state with
                  refusals := state.refusals ++ [⟨v.row.nodeId, refusal, detail⟩] }
              else return state
          | none =>
              if state.move.isNone ∧ context.gate.leaseHeldBy.isNone then
                return { state with move := some ⟨v.row.nodeId, m.kind, m.target, m.source,
                  v.row.agentOps.isSome, moveDetail v.row m⟩ }
              else return state

def planContext (input : DispatchInput) (ordered : List DispatchNodeView) : PlanContext :=
  let gate := fleetGate (input.nodes.map (·.row))
  { gate, releases := input.releases, fleetAsk := ordered.find? (asks input.releases),
    fleetAuto := ordered.find? (autoPending input.releases),
    haltedRow := gate.haltedBy.head?.bind fun nodeId =>
      ordered.find? fun v => v.row.nodeId == nodeId }

def planDispatch (input : DispatchInput) : Option DispatchPlan :=
  let ordered := input.nodes.mergeSort fun a b => dispatchOrdered a.row b.row
  let context := planContext input ordered
  (ordered.foldlM (planNode context) ⟨[], [], none⟩).map fun state =>
    ⟨context.gate, state.move, state.refusals, state.met⟩

end Ccrc.Update
