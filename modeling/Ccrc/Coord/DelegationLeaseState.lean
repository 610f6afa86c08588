import Ccrc.Shared.Delegation

/-! The lease transition table, the carrier-state derivation, the one decision
every lease transition and release goes through, and the folds that turn an
applied journal entry into the rows it writes. -/

set_option autoImplicit false

namespace Ccrc.Coord

open Library Shared
open Library.Text (lit)

inductive DelegationLeaseTransitionReason where
  | carrier | adopt | retain | operatorRetain | attach | transfer
  | transferRefused | transferRecovered | promote
  deriving DecidableEq, Repr

def DelegationLeaseTransitionReason.text : DelegationLeaseTransitionReason → Text
  | .carrier => lit "carrier"
  | .adopt => lit "adopt"
  | .retain => lit "retain"
  | .operatorRetain => lit "operator-retain"
  | .attach => lit "attach"
  | .transfer => lit "transfer"
  | .transferRefused => lit "transfer-refused"
  | .transferRecovered => lit "transfer-recovered"
  | .promote => lit "promote"

inductive DelegationLineageCloseReason where
  | nativeRemoved | transferred | foreign | transfer
  deriving DecidableEq, Repr

def DelegationLineageCloseReason.text : DelegationLineageCloseReason → Text
  | .nativeRemoved => lit "native-removed"
  | .transferred => lit "transferred"
  | .foreign => lit "foreign"
  | .transfer => lit "transfer"

inductive DelegationLeaseActRefusal where
  | leaseUnknown | leaseReleased | staleGeneration | wrongDisposition | notReady
  | carrierBehind
  deriving DecidableEq, Repr

structure DelegationAttemptMark where
  attemptedAt : Text
  attemptId : Text
  deriving DecidableEq, Repr

/-- The lease facts no lease column holds. -/
structure DelegationLeaseCarrierRow where
  leaseId : Text
  transferringSince : Option Text
  transferRun : Option Int
  promotedRun : Option Int
  promotedSession : Option Text
  releaseReason : Option DelegationLeaseReleaseReason
  resolvedThrough : Option DelegationAttemptMark
  deriving DecidableEq, Repr

/-- The columns of a lease that its transitions read or write. -/
structure DelegationLeaseRow where
  leaseId : Text
  generation : Int
  creatingJournalSequence : Int
  currentJournalSequence : Int
  parentId : Text
  parentIncarnation : Text
  project : Text
  adminRecord : Text
  disposition : DelegationDisposition
  firstObservedAt : Text
  terminalEvidenceAt : Option Text
  adoptedAt : Option Text
  retainedAt : Option Text
  promotedAt : Option Text
  cleanupDueAt : Option Text
  carrierGenerationSeen : Option Int
  releasedAt : Option Text
  deriving DecidableEq, Repr

structure DelegationLineageRow where
  lineageId : Text
  parentId : Text
  parentIncarnation : Text
  activityId : Option Text
  leaseId : Option Text
  runId : Option Int
  openedAt : Text
  closedAt : Option Text
  closeReason : Option Text
  deriving DecidableEq, Repr

structure LeaseTransitionEntry where
  leaseId : Text
  generation : Int
  reason : DelegationLeaseTransitionReason
  target : DelegationCarrierState
  atTime : Text
  expiresAt : Option Text
  terminalEvidenceAt : Option Text
  runId : Option Int
  promotedSession : Option Text
  lineageClose : Option DelegationLineageCloseReason
  lineageOpenRun : Option Int
  resolvesThrough : Option DelegationAttemptMark
  deriving DecidableEq, Repr

structure LeaseReleasedEntry where
  leaseId : Text
  generation : Int
  releaseReason : DelegationLeaseReleaseReason
  atTime : Text
  resolvesThrough : Option DelegationAttemptMark
  deriving DecidableEq, Repr

structure LeaseCarrierSeenEntry where
  leaseId : Text
  generation : Int
  atTime : Text
  deriving DecidableEq, Repr

def delegationCarrierGated : DelegationLeaseTransitionReason → Bool
  | .adopt | .retain | .operatorRetain | .attach | .transfer => true
  | .carrier | .transferRefused | .transferRecovered | .promote => false

def settled : List DelegationCarrierState := [.ephemeral, .adopted, .retained]

/-- One row of the transition table; a target of none is the lease's own disposition. -/
structure DelegationLeaseTransition where
  start : List DelegationCarrierState
  target : Option DelegationCarrierState
  deriving DecidableEq, Repr

def delegationLeaseTransitions : DelegationLeaseTransitionReason → DelegationLeaseTransition
  | .carrier => { start := [.ephemeral], target := some .ephemeral }
  | .adopt => { start := [.ephemeral], target := some .adopted }
  | .retain => { start := settled, target := some .retained }
  | .operatorRetain => { start := settled, target := some .retained }
  | .attach => { start := settled, target := some .retained }
  | .transfer => { start := settled, target := some .transferring }
  | .transferRefused => { start := [.transferring], target := none }
  | .transferRecovered => { start := [.transferring], target := none }
  | .promote => { start := [.transferring], target := some .promoted }

def delegationCarrierStateOf (lease : DelegationLeaseRow)
    (carrier : Option DelegationLeaseCarrierRow) : DelegationCarrierState :=
  if lease.releasedAt.isSome then .released
  else if (carrier.bind (·.transferringSince)).isSome then .transferring
  else lease.disposition.state

structure LeaseDecided where
  target : DelegationCarrierState
  generation : Int
  deriving DecidableEq, Repr

/-- Why an act was refused; `none` is the replay's own `bad-entry`. -/
structure LeaseRefused where
  refusal : Option DelegationLeaseActRefusal
  detail : Text
  deriving DecidableEq, Repr

def no (refusal : DelegationLeaseActRefusal) (detail : Text) : LeaseRefused :=
  { refusal := some refusal, detail }

def bad (detail : Text) : LeaseRefused := { refusal := none, detail }

/-- The checks every generation-writing act shares. -/
def decideCommon (lease : Option DelegationLeaseRow) (expectGeneration : Int) (what : Text) :
    Except LeaseRefused DelegationLeaseRow :=
  match lease with
  | none => .error (no .leaseUnknown (what ++ lit ": no such lease"))
  | some lease =>
      match lease.releasedAt with
      | some releasedAt =>
          .error (no .leaseReleased
            (what ++ lit ": lease " ++ lease.leaseId ++ lit " was released at " ++ releasedAt))
      | none =>
          if expectGeneration ≠ lease.generation then
            .error (no .staleGeneration
              (what ++ lit ": lease " ++ lease.leaseId ++ lit " is at generation " ++
                Text.ofInt lease.generation ++ lit ", not " ++ Text.ofInt expectGeneration))
          else .ok lease

def decideLeaseTransition (lease : Option DelegationLeaseRow)
    (carrier : Option DelegationLeaseCarrierRow) (reason : DelegationLeaseTransitionReason)
    (expectGeneration : Int) (carrierRequired : Bool) : Except LeaseRefused LeaseDecided := do
  let lease ← decideCommon lease expectGeneration reason.text
  let row := delegationLeaseTransitions reason
  let state := delegationCarrierStateOf lease carrier
  if state ∉ row.start then
    .error (no .wrongDisposition
      (reason.text ++ lit ": lease " ++ lease.leaseId ++ lit " is " ++ state.text ++ lit "; " ++
        reason.text ++ lit " starts only from " ++
        Text.join (lit ", ") (row.start.map (·.text))))
  else if reason = .carrier ∧ lease.generation ≠ 0 then
    .error (no .wrongDisposition
      (lit "carrier: lease " ++ lease.leaseId ++ lit " is at generation " ++
        Text.ofInt lease.generation ++ lit "; carrier is only its first transition"))
  else if carrierRequired ∧ delegationCarrierGated reason ∧
      lease.carrierGenerationSeen.all (· < lease.generation) then
    .error (no .carrierBehind
      (reason.text ++ lit ": lease " ++ lease.leaseId ++ lit "'s carrier was read back at " ++
        (lease.carrierGenerationSeen.map Text.ofInt).getD (lit "null") ++
        lit ", behind generation " ++ Text.ofInt lease.generation))
  else .ok { target := row.target.getD lease.disposition.state, generation := lease.generation + 1 }

/-- The release's decision: any unreleased state but `transferring`. -/
def decideLeaseRelease (lease : Option DelegationLeaseRow)
    (carrier : Option DelegationLeaseCarrierRow) (expectGeneration : Int) :
    Except LeaseRefused LeaseDecided := do
  let lease ← decideCommon lease expectGeneration (lit "release")
  if delegationCarrierStateOf lease carrier = .transferring then
    .error (no .wrongDisposition
      (lit "release: lease " ++ lease.leaseId ++
        lit " is transferring; a transfer finishes before a release"))
  else .ok { target := .released, generation := lease.generation + 1 }

/-- What one lease entry writes. -/
structure DelegationLeaseFold where
  lease : DelegationLeaseRow
  carrier : Option DelegationLeaseCarrierRow
  lineage : List DelegationLineageRow
  deriving DecidableEq, Repr

def attemptMarkAbove (a b : DelegationAttemptMark) : Bool :=
  b.attemptedAt < a.attemptedAt || (a.attemptedAt == b.attemptedAt && b.attemptId < a.attemptId)

def emptyCarrier (leaseId : Text) : DelegationLeaseCarrierRow :=
  { leaseId, transferringSince := none, transferRun := none, promotedRun := none,
    promotedSession := none, releaseReason := none, resolvedThrough := none }

/-- A carrier row all of whose fields are null is not kept. -/
def carrierOrNull (c : DelegationLeaseCarrierRow) : Option DelegationLeaseCarrierRow :=
  if c = emptyCarrier c.leaseId then none else some c

def resolved (c : DelegationLeaseCarrierRow) (mark : Option DelegationAttemptMark) :
    DelegationLeaseCarrierRow :=
  match mark with
  | none => c
  | some mark =>
      if c.resolvedThrough.any (fun through => !attemptMarkAbove mark through) then c
      else { c with resolvedThrough := some mark }

def closeLeaseLineage (lineage : List DelegationLineageRow) (leaseId atTime reason : Text) :
    List DelegationLineageRow :=
  (lineage.filter fun n => n.leaseId == some leaseId && n.closedAt.isNone).map fun n =>
    { n with closedAt := some atTime, closeReason := some reason }

/-- The three keeps and the adoption, whose entries must carry an expiry. -/
def keeps : DelegationLeaseTransitionReason → Bool
  | .adopt | .retain | .operatorRetain | .attach => true
  | .carrier | .transfer | .transferRefused | .transferRecovered | .promote => false

/-- What contradicts the decision in an entry the decision allows. -/
def badTransition (lease : DelegationLeaseRow) (d : LeaseDecided) (e : LeaseTransitionEntry) :
    Option LeaseRefused :=
  let named := lit ": lease " ++ e.leaseId
  if d.generation ≠ e.generation then
    some (bad (e.reason.text ++ named ++ lit " would go to generation " ++
      Text.ofInt d.generation ++ lit ", not " ++ Text.ofInt e.generation))
  else if d.target ≠ e.target then
    some (bad (e.reason.text ++ named ++ lit " goes to " ++ d.target.text ++
      lit ", but the entry says " ++ e.target.text))
  else if keeps e.reason ∧ e.expiresAt = none then
    some (bad (e.reason.text ++ named ++ lit "'s entry carries no expiry"))
  else if (e.reason = .transfer ∨ e.reason = .promote) ∧ e.runId = none then
    some (bad (e.reason.text ++ named ++ lit "'s entry names no run"))
  else if e.reason = .adopt then
    match e.terminalEvidenceAt with
    | none => some (bad (lit "adopt" ++ named ++ lit "'s entry carries no terminal-evidence instant"))
    | some evidence =>
        if e.atTime < evidence then
          some (bad (lit "adopt" ++ named ++ lit "'s terminal evidence " ++ evidence ++
            lit " is after the adoption at " ++ e.atTime))
        else if evidence < lease.firstObservedAt then
          some (bad (lit "adopt" ++ named ++ lit "'s terminal evidence " ++ evidence ++
            lit " is before its first observation " ++ lease.firstObservedAt))
        else none
  else if e.terminalEvidenceAt ≠ none then
    some (bad (e.reason.text ++ lit ": only adopt records terminal evidence"))
  else none

/-- The columns an applied transition writes on the lease. -/
def transitionLease (lease : DelegationLeaseRow) (d : LeaseDecided) (e : LeaseTransitionEntry)
    (sequence : Int) : DelegationLeaseRow :=
  let row := { lease with
    generation := e.generation
    currentJournalSequence := sequence
    disposition := d.target.disposition?.getD lease.disposition }
  match e.reason with
  | .adopt => { row with
      adoptedAt := some e.atTime
      terminalEvidenceAt := e.terminalEvidenceAt
      cleanupDueAt := e.expiresAt }
  | .retain | .operatorRetain | .attach => { row with
      retainedAt := some e.atTime
      cleanupDueAt := e.expiresAt }
  | .promote => { row with promotedAt := some e.atTime }
  | .carrier | .transfer | .transferRefused | .transferRecovered => row

/-- The fields an applied transition writes on the carrier row. -/
def transitionCarrier (c : DelegationLeaseCarrierRow) (e : LeaseTransitionEntry) :
    DelegationLeaseCarrierRow :=
  match e.reason with
  | .transfer => { c with transferringSince := some e.atTime, transferRun := e.runId }
  | .transferRefused | .transferRecovered =>
      { c with transferringSince := none, transferRun := none }
  | .promote => { c with
      transferringSince := none
      transferRun := none
      promotedRun := e.runId
      promotedSession := e.promotedSession }
  | .carrier | .adopt | .retain | .operatorRetain | .attach => c

def transitionLineage (lease : DelegationLeaseRow) (lineage : List DelegationLineageRow)
    (e : LeaseTransitionEntry) (runLineageId : Int → Text) : List DelegationLineageRow :=
  let closed := match e.lineageClose with
    | none => []
    | some reason => closeLeaseLineage lineage e.leaseId e.atTime reason.text
  match e.lineageOpenRun with
  | none => closed
  | some runId => closed ++
      [{ lineageId := runLineageId runId, parentId := lease.parentId,
         parentIncarnation := lease.parentIncarnation, activityId := none, leaseId := none,
         runId := some runId, openedAt := e.atTime, closedAt := none, closeReason := none }]

/-- The rows one applied `lease-transition` entry at `sequence` writes. -/
def foldLeaseTransition (lease : Option DelegationLeaseRow)
    (carrier : Option DelegationLeaseCarrierRow) (lineage : List DelegationLineageRow)
    (e : LeaseTransitionEntry) (sequence : Int) (runLineageId : Int → Text) :
    Except LeaseRefused DelegationLeaseFold := do
  let d ← decideLeaseTransition lease carrier e.reason (e.generation - 1) false
  match lease with
  | none => .error (bad (e.reason.text ++ lit ": no such lease " ++ e.leaseId))
  | some lease =>
      match badTransition lease d e with
      | some refused => .error refused
      | none =>
          let c := transitionCarrier (carrier.getD (emptyCarrier e.leaseId)) e
          .ok { lease := transitionLease lease d e sequence
                carrier := carrierOrNull (resolved c e.resolvesThrough)
                lineage := transitionLineage lease lineage e runLineageId }

/-- The rows one applied `lease-released` entry writes. -/
def foldLeaseRelease (lease : Option DelegationLeaseRow)
    (carrier : Option DelegationLeaseCarrierRow) (lineage : List DelegationLineageRow)
    (e : LeaseReleasedEntry) (sequence : Int) : Except LeaseRefused DelegationLeaseFold := do
  let d ← decideLeaseRelease lease carrier (e.generation - 1)
  match lease with
  | none => .error (bad (lit "release: no such lease " ++ e.leaseId))
  | some lease =>
      if d.generation ≠ e.generation then
        .error (bad (lit "release: lease " ++ e.leaseId ++ lit " would go to generation " ++
          Text.ofInt d.generation ++ lit ", not " ++ Text.ofInt e.generation))
      else
        let c := { carrier.getD (emptyCarrier e.leaseId) with
          releaseReason := some e.releaseReason }
        .ok { lease := { lease with
                generation := e.generation
                currentJournalSequence := sequence
                releasedAt := some e.atTime }
              carrier := carrierOrNull (resolved c e.resolvesThrough)
              lineage := closeLeaseLineage lineage e.leaseId e.atTime e.releaseReason.text }

/-- What one applied `lease-carrier-seen` entry writes: the generation seen,
raised and never lowered. -/
def foldLeaseCarrierSeen (lease : Option DelegationLeaseRow) (entry : LeaseCarrierSeenEntry) :
    Except LeaseRefused DelegationLeaseRow :=
  match lease with
  | none => .error (no .leaseUnknown (lit "carrier seen: no such lease " ++ entry.leaseId))
  | some lease =>
      if entry.generation < 1 ∨ lease.generation < entry.generation then
        .error (no .staleGeneration
          (lit "carrier seen: lease " ++ lease.leaseId ++ lit " is at generation " ++
            Text.ofInt lease.generation ++ lit ", not " ++ Text.ofInt entry.generation))
      else .ok { lease with
        carrierGenerationSeen := some (max (lease.carrierGenerationSeen.getD 0) entry.generation) }

end Ccrc.Coord
