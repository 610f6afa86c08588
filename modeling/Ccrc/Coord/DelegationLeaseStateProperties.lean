import Ccrc.Library.Run
import Ccrc.Coord.DelegationLeaseState

/-! The life of one lease over any journal. The three folds are inverted once;
the invariant and the step facts are read off those inversions. -/

set_option autoImplicit false

namespace Ccrc.Coord

open Library Shared

/-- A lease and its carrier row. -/
structure LeaseRows where
  lease : DelegationLeaseRow
  carrier : Option DelegationLeaseCarrierRow
  deriving DecidableEq, Repr

def LeaseRows.state (rows : LeaseRows) : DelegationCarrierState :=
  delegationCarrierStateOf rows.lease rows.carrier

def LeaseRows.transferringSince (rows : LeaseRows) : Option Text :=
  rows.carrier.bind (·.transferringSince)

inductive LeaseEntry where
  | transition (entry : LeaseTransitionEntry)
  | released (entry : LeaseReleasedEntry)
  | carrierSeen (entry : LeaseCarrierSeenEntry)
  deriving DecidableEq, Repr

/-- A journal record of a lease kind, with the lineage that stands when it is folded. -/
structure LeaseRecord where
  sequence : Int
  entry : LeaseEntry
  lineage : List DelegationLineageRow
  runLineageId : Int → Text

def LeaseRecord.fold (rows : LeaseRows) (record : LeaseRecord) : Except LeaseRefused LeaseRows :=
  match record.entry with
  | .transition entry => do
      let fold ← foldLeaseTransition (some rows.lease) rows.carrier record.lineage entry
        record.sequence record.runLineageId
      pure { lease := fold.lease, carrier := fold.carrier }
  | .released entry => do
      let fold ← foldLeaseRelease (some rows.lease) rows.carrier record.lineage entry record.sequence
      pure { lease := fold.lease, carrier := fold.carrier }
  | .carrierSeen entry => do
      let lease ← foldLeaseCarrierSeen (some rows.lease) entry
      pure { rows with lease }

def LeaseRecord.accepted (rows : LeaseRows) (record : LeaseRecord) : Bool :=
  (record.fold rows).isOk

/-- A refused record leaves the rows as they were. -/
def leaseStep (rows : LeaseRows) (record : LeaseRecord) : LeaseRows :=
  match record.fold rows with
  | .ok next => next
  | .error _ => rows

/-- The kinds of entry that write a generation. -/
def LeaseEntry.writesGeneration : LeaseEntry → Bool
  | .transition _ | .released _ => true
  | .carrierSeen _ => false

def LeaseEntry.isTransfer : LeaseEntry → Bool
  | .transition entry => entry.reason == .transfer
  | .released _ | .carrierSeen _ => false

/-- The two endings that hand a transfer back. -/
def LeaseEntry.endsTransfer : LeaseEntry → Bool
  | .transition entry => entry.reason == .transferRefused || entry.reason == .transferRecovered
  | .released _ | .carrierSeen _ => false

/-- A sequence of two fallible parts that answers had both parts answer. -/
private theorem parts_of_ok {Refusal First Second : Type} {first : Except Refusal First}
    {second : First → Except Refusal Second} {answer : Second}
    (answered : (first >>= second) = .ok answer) :
    ∃ between, first = .ok between ∧ second between = .ok answer := by
  cases first with
  | error refusal => cases answered
  | ok between => exact ⟨between, rfl, answered⟩

private theorem decideCommon_ok {lease found : DelegationLeaseRow} {expectGeneration : Int}
    {what : Text} (decided : decideCommon (some lease) expectGeneration what = .ok found) :
    found = lease ∧ lease.releasedAt = none ∧ expectGeneration = lease.generation := by
  cases released : lease.releasedAt with
  | some releasedAt => simp [decideCommon, released] at decided
  | none =>
      by_cases stale : expectGeneration = lease.generation
      · simp only [decideCommon, released, stale, ne_eq, not_true, if_false] at decided
        cases decided
        exact ⟨rfl, rfl, stale⟩
      · simp [decideCommon, released, stale] at decided

theorem decideLeaseTransition_ok {lease : DelegationLeaseRow}
    {carrier : Option DelegationLeaseCarrierRow} {reason : DelegationLeaseTransitionReason}
    {expectGeneration : Int} {carrierRequired : Bool} {d : LeaseDecided}
    (decided : decideLeaseTransition (some lease) carrier reason expectGeneration
      carrierRequired = .ok d) :
    lease.releasedAt = none ∧
      delegationCarrierStateOf lease carrier ∈ (delegationLeaseTransitions reason).start ∧
      d = { target := (delegationLeaseTransitions reason).target.getD lease.disposition.state,
            generation := lease.generation + 1 } := by
  obtain ⟨found, common, rest⟩ := parts_of_ok decided
  obtain ⟨rfl, unreleased, -⟩ := decideCommon_ok common
  simp only at rest
  split at rest
  · cases rest
  next inTable =>
    split at rest
    · cases rest
    · split at rest
      · cases rest
      · cases rest
        exact ⟨unreleased, not_not.mp inTable, rfl⟩

theorem decideLeaseRelease_ok {lease : DelegationLeaseRow}
    {carrier : Option DelegationLeaseCarrierRow} {expectGeneration : Int} {d : LeaseDecided}
    (decided : decideLeaseRelease (some lease) carrier expectGeneration = .ok d) :
    lease.releasedAt = none ∧ delegationCarrierStateOf lease carrier ≠ .transferring ∧
      d.generation = lease.generation + 1 := by
  obtain ⟨found, common, rest⟩ := parts_of_ok decided
  obtain ⟨rfl, unreleased, -⟩ := decideCommon_ok common
  split at rest
  · cases rest
  next notTransferring =>
    cases rest
    exact ⟨unreleased, notTransferring, rfl⟩

@[simp] theorem resolved_transferringSince (c : DelegationLeaseCarrierRow)
    (mark : Option DelegationAttemptMark) :
    (resolved c mark).transferringSince = c.transferringSince := by
  cases mark with
  | none => rfl
  | some mark =>
      simp only [resolved]
      split <;> rfl

/-- Dropping an empty carrier row loses no transfer. -/
@[simp] theorem carrierOrNull_transferringSince (c : DelegationLeaseCarrierRow) :
    (carrierOrNull c).bind (·.transferringSince) = c.transferringSince := by
  by_cases empty : c = emptyCarrier c.leaseId
  · rw [carrierOrNull, if_pos empty, empty]
    rfl
  · rw [carrierOrNull, if_neg empty]
    rfl

@[simp] theorem carrier_getD_transferringSince (carrier : Option DelegationLeaseCarrierRow)
    (leaseId : Text) :
    (carrier.getD (emptyCarrier leaseId)).transferringSince =
      carrier.bind (·.transferringSince) := by
  cases carrier with
  | none => rfl
  | some carrier => rfl

/-- The instant a transition leaves on the carrier row. -/
def transferringAfter (entry : LeaseTransitionEntry) (before : Option Text) : Option Text :=
  match entry.reason with
  | .transfer => some entry.atTime
  | .transferRefused | .transferRecovered | .promote => none
  | .carrier | .adopt | .retain | .operatorRetain | .attach => before

/-- Everything an accepted transition tells about the rows on both its sides. -/
structure TransitionTaken (before after : LeaseRows) (entry : LeaseTransitionEntry) : Prop where
  unreleased : before.lease.releasedAt = none
  start : before.state ∈ (delegationLeaseTransitions entry.reason).start
  generation : after.lease.generation = before.lease.generation + 1
  stillUnreleased : after.lease.releasedAt = none
  seen : after.lease.carrierGenerationSeen = before.lease.carrierGenerationSeen
  disposition : after.lease.disposition =
    ((delegationLeaseTransitions entry.reason).target.bind (·.disposition?)).getD
      before.lease.disposition
  transferring : after.transferringSince = transferringAfter entry before.transferringSince

structure ReleaseTaken (before after : LeaseRows) : Prop where
  unreleased : before.lease.releasedAt = none
  settledState : before.state ≠ .transferring
  generation : after.lease.generation = before.lease.generation + 1
  released : after.lease.releasedAt.isSome
  seen : after.lease.carrierGenerationSeen = before.lease.carrierGenerationSeen
  disposition : after.lease.disposition = before.lease.disposition
  transferring : after.transferringSince = before.transferringSince

structure SeenTaken (before after : LeaseRows) (entry : LeaseCarrierSeenEntry) : Prop where
  inRange : 1 ≤ entry.generation ∧ entry.generation ≤ before.lease.generation
  rows : after = { before with lease := { before.lease with
    carrierGenerationSeen :=
      some (max (before.lease.carrierGenerationSeen.getD 0) entry.generation) } }

theorem transitionCarrier_transferringSince (c : DelegationLeaseCarrierRow)
    (e : LeaseTransitionEntry) :
    (transitionCarrier c e).transferringSince = transferringAfter e c.transferringSince := by
  cases reason : e.reason <;> simp only [transitionCarrier, transferringAfter, reason]

theorem transitionLease_disposition (lease : DelegationLeaseRow) (d : LeaseDecided)
    (e : LeaseTransitionEntry) (sequence : Int) :
    (transitionLease lease d e sequence).disposition =
      d.target.disposition?.getD lease.disposition := by
  cases reason : e.reason <;> simp only [transitionLease, reason]

theorem transitionLease_kept (lease : DelegationLeaseRow) (d : LeaseDecided)
    (e : LeaseTransitionEntry) (sequence : Int) :
    (transitionLease lease d e sequence).generation = e.generation ∧
      (transitionLease lease d e sequence).releasedAt = lease.releasedAt ∧
      (transitionLease lease d e sequence).carrierGenerationSeen =
        lease.carrierGenerationSeen := by
  cases reason : e.reason <;> simp only [transitionLease, reason, and_self]

theorem fold_transition {before after : LeaseRows} {record : LeaseRecord}
    {entry : LeaseTransitionEntry} (isTransition : record.entry = .transition entry)
    (folded : record.fold before = .ok after) : TransitionTaken before after entry := by
  simp only [LeaseRecord.fold, isTransition] at folded
  obtain ⟨fold, transitioned, written⟩ := parts_of_ok folded
  cases written
  obtain ⟨d, decided, rest⟩ := parts_of_ok transitioned
  obtain ⟨unreleased, start, isDecided⟩ := decideLeaseTransition_ok decided
  simp only at rest
  split at rest
  · cases rest
  next agrees =>
    cases rest
    have generation : d.generation = entry.generation := by
      by_contra differs
      simp [badTransition, differs] at agrees
    obtain ⟨generationKept, releasedKept, seenKept⟩ :=
      transitionLease_kept before.lease d entry record.sequence
    refine ⟨unreleased, start, ?_, releasedKept.trans unreleased, seenKept, ?_, ?_⟩
    · rw [generationKept, ← generation, isDecided]
    · rw [transitionLease_disposition, isDecided]
      cases target : (delegationLeaseTransitions entry.reason).target with
      | none => simp
      | some target => simp
    · simp [LeaseRows.transferringSince, transitionCarrier_transferringSince]

theorem fold_released {before after : LeaseRows} {record : LeaseRecord}
    {entry : LeaseReleasedEntry} (isReleased : record.entry = .released entry)
    (folded : record.fold before = .ok after) : ReleaseTaken before after := by
  simp only [LeaseRecord.fold, isReleased] at folded
  obtain ⟨fold, released, written⟩ := parts_of_ok folded
  cases written
  obtain ⟨d, decided, rest⟩ := parts_of_ok released
  obtain ⟨unreleased, notTransferring, generation⟩ := decideLeaseRelease_ok decided
  simp only at rest
  split at rest
  · cases rest
  next agrees =>
    cases rest
    have agreed := not_not.mp agrees
    refine ⟨unreleased, notTransferring, ?_, rfl, rfl, rfl, ?_⟩
    · rw [← generation, agreed]
    · simp [LeaseRows.transferringSince]

theorem fold_carrierSeen {before after : LeaseRows} {record : LeaseRecord}
    {entry : LeaseCarrierSeenEntry} (isSeen : record.entry = .carrierSeen entry)
    (folded : record.fold before = .ok after) : SeenTaken before after entry := by
  simp only [LeaseRecord.fold, isSeen] at folded
  obtain ⟨lease, seen, written⟩ := parts_of_ok folded
  cases written
  simp only [foldLeaseCarrierSeen] at seen
  split at seen
  · cases seen
  next inRange =>
    cases seen
    exact ⟨by omega, rfl⟩

theorem LeaseRows.state_of_unreleased {rows : LeaseRows}
    (unreleased : rows.lease.releasedAt = none) :
    rows.state = if rows.transferringSince.isSome then .transferring
      else rows.lease.disposition.state := by
  rw [LeaseRows.state, delegationCarrierStateOf, unreleased]
  rfl

/-- From a settled state the state is the disposition and no transfer is in flight. -/
theorem LeaseRows.settled_state {rows : LeaseRows} (inSettled : rows.state ∈ settled) :
    rows.lease.releasedAt = none ∧ rows.transferringSince = none ∧
      rows.state = rows.lease.disposition.state := by
  cases released : rows.lease.releasedAt with
  | some releasedAt =>
      simp [LeaseRows.state, delegationCarrierStateOf, released, settled] at inSettled
  | none =>
      rw [rows.state_of_unreleased released] at inSettled ⊢
      cases since : rows.transferringSince with
      | some since => simp [since, settled] at inSettled
      | none => simp

theorem LeaseRows.transferring_state {rows : LeaseRows} (transferring : rows.state = .transferring) :
    rows.lease.releasedAt = none ∧ rows.transferringSince.isSome := by
  cases released : rows.lease.releasedAt with
  | some releasedAt =>
      simp [LeaseRows.state, delegationCarrierStateOf, released] at transferring
  | none =>
      rw [rows.state_of_unreleased released] at transferring
      cases since : rows.transferringSince with
      | some since => simp
      | none =>
          rw [since] at transferring
          cases disposition : rows.lease.disposition <;>
            simp [disposition, DelegationDisposition.state] at transferring

/-- The disposition a transition leaves. -/
def dispositionAfter (reason : DelegationLeaseTransitionReason)
    (before : DelegationDisposition) : DelegationDisposition :=
  ((delegationLeaseTransitions reason).target.bind (·.disposition?)).getD before

/-- The rows of the table that start from a settled state. -/
theorem dispositionAfter_settled {reason : DelegationLeaseTransitionReason}
    {before : DelegationDisposition}
    (start : before.state ∈ (delegationLeaseTransitions reason).start) :
    before ≠ .promoted ∧ (before ≠ .ephemeral → dispositionAfter reason before ≠ .ephemeral) ∧
      dispositionAfter reason before ≠ .promoted := by
  cases reason <;> cases before <;> revert start <;> decide

/-- The rows of the table that start from a transfer end it. -/
theorem dispositionAfter_transferring {reason : DelegationLeaseTransitionReason}
    (start : .transferring ∈ (delegationLeaseTransitions reason).start)
    (before : DelegationDisposition) :
    (reason = .promote ∧ dispositionAfter reason before = .promoted) ∨
      ((reason = .transferRefused ∨ reason = .transferRecovered) ∧
        dispositionAfter reason before = before) := by
  cases reason <;> cases before <;> revert start <;> decide

/-- No transition starts from a released lease. -/
theorem transition_start_unreleased (reason : DelegationLeaseTransitionReason) :
    .released ∉ (delegationLeaseTransitions reason).start := by
  cases reason <;> decide

/-- An accepted transition starts from a disposition or ends a transfer. -/
theorem TransitionTaken.start_cases {before after : LeaseRows} {entry : LeaseTransitionEntry}
    (taken : TransitionTaken before after entry) :
    (before.transferringSince = none ∧ before.state = before.lease.disposition.state) ∨
      (before.transferringSince.isSome ∧ before.state = .transferring) := by
  rw [before.state_of_unreleased taken.unreleased]
  cases since : before.transferringSince with
  | none => exact .inl ⟨rfl, by simp⟩
  | some since => exact .inr ⟨by simp, by simp⟩

/-- The joint invariant of a lease and its carrier row. -/
structure LeaseValid (rows : LeaseRows) : Prop where
  seen : ∀ seen, rows.lease.carrierGenerationSeen = some seen →
    1 ≤ seen ∧ seen ≤ rows.lease.generation
  transferring : rows.transferringSince.isSome →
    rows.lease.releasedAt = none ∧ rows.lease.disposition ≠ .promoted

/-- What every step keeps of the rows before it. -/
structure LeaseAdvances (before after : LeaseRows) : Prop where
  seen : ∀ seen, before.lease.carrierGenerationSeen = some seen →
    ∃ later, after.lease.carrierGenerationSeen = some later ∧ seen ≤ later
  released : before.lease.releasedAt.isSome → after.lease.releasedAt.isSome
  ephemeral : before.lease.disposition ≠ .ephemeral → after.lease.disposition ≠ .ephemeral
  promoted : before.lease.disposition = .promoted → after.lease.disposition = .promoted

theorem LeaseAdvances.refl (rows : LeaseRows) : LeaseAdvances rows rows :=
  ⟨fun seen isSeen => ⟨seen, isSeen, Int.le_refl _⟩, id, id, id⟩

theorem LeaseAdvances.trans {first second third : LeaseRows}
    (advances : LeaseAdvances first second) (further : LeaseAdvances second third) :
    LeaseAdvances first third := by
  refine ⟨?_, further.released ∘ advances.released, further.ephemeral ∘ advances.ephemeral,
    further.promoted ∘ advances.promoted⟩
  intro seen isSeen
  obtain ⟨later, isLater, above⟩ := advances.seen seen isSeen
  obtain ⟨last, isLast, aboveLater⟩ := further.seen later isLater
  exact ⟨last, isLast, Int.le_trans above aboveLater⟩

theorem TransitionTaken.valid {before after : LeaseRows} {entry : LeaseTransitionEntry}
    (taken : TransitionTaken before after entry) (valid : LeaseValid before) :
    LeaseValid after := by
  constructor
  · intro seen isSeen
    rw [taken.seen] at isSeen
    have bounds := valid.seen seen isSeen
    have generation := taken.generation
    exact ⟨bounds.1, by omega⟩
  · intro transferring
    refine ⟨taken.stillUnreleased, ?_⟩
    have start := taken.start
    rw [taken.disposition]
    rcases taken.start_cases with ⟨noTransfer, isDisposition⟩ | ⟨-, isTransferring⟩
    · rw [isDisposition] at start
      exact (dispositionAfter_settled start).2.2
    · -- Every reason that starts from a transfer clears it.
      rw [isTransferring] at start
      rw [taken.transferring] at transferring
      rcases dispositionAfter_transferring start .ephemeral with ⟨reason, -⟩ | ⟨reason | reason, -⟩ <;>
        simp [transferringAfter, reason] at transferring

theorem TransitionTaken.advances {before after : LeaseRows} {entry : LeaseTransitionEntry}
    (taken : TransitionTaken before after entry) (valid : LeaseValid before) :
    LeaseAdvances before after := by
  have start := taken.start
  have disposition : after.lease.disposition =
      dispositionAfter entry.reason before.lease.disposition := taken.disposition
  refine ⟨?_, ?_, ?_, ?_⟩
  · intro seen isSeen
    exact ⟨seen, taken.seen.trans isSeen, Int.le_refl _⟩
  · intro released
    simp [taken.unreleased] at released
  · intro left
    rw [disposition]
    rcases taken.start_cases with ⟨-, isDisposition⟩ | ⟨-, isTransferring⟩
    · rw [isDisposition] at start
      exact (dispositionAfter_settled start).2.1 left
    · rw [isTransferring] at start
      rcases dispositionAfter_transferring start before.lease.disposition with
        ⟨-, promoted⟩ | ⟨-, same⟩
      · simp [promoted]
      · rwa [same]
  · intro promoted
    rcases taken.start_cases with ⟨-, isDisposition⟩ | ⟨inFlight, -⟩
    · rw [isDisposition] at start
      exact absurd promoted (dispositionAfter_settled start).1
    · exact absurd promoted (valid.transferring inFlight).2

theorem ReleaseTaken.valid {before after : LeaseRows} (taken : ReleaseTaken before after)
    (valid : LeaseValid before) : LeaseValid after := by
  constructor
  · intro seen isSeen
    rw [taken.seen] at isSeen
    have bounds := valid.seen seen isSeen
    have generation := taken.generation
    exact ⟨bounds.1, by omega⟩
  · intro transferring
    rw [taken.transferring] at transferring
    have state := before.state_of_unreleased taken.unreleased
    rw [if_pos transferring] at state
    exact absurd state taken.settledState

theorem ReleaseTaken.advances {before after : LeaseRows} (taken : ReleaseTaken before after) :
    LeaseAdvances before after where
  seen := fun seen isSeen => ⟨seen, taken.seen.trans isSeen, Int.le_refl _⟩
  released := fun _ => taken.released
  ephemeral := fun left => by rwa [taken.disposition]
  promoted := fun promoted => by rwa [taken.disposition]

theorem SeenTaken.valid {before after : LeaseRows} {entry : LeaseCarrierSeenEntry}
    (taken : SeenTaken before after entry) (valid : LeaseValid before) : LeaseValid after := by
  obtain ⟨inRange, rfl⟩ := taken
  constructor
  · intro seen isSeen
    obtain rfl := Option.some.inj isSeen
    cases prior : before.lease.carrierGenerationSeen with
    | none =>
        simp only [Option.getD_none]
        omega
    | some prior' =>
        have bounds := valid.seen prior' prior
        simp only [Option.getD_some]
        omega
  · exact valid.transferring

theorem SeenTaken.advances {before after : LeaseRows} {entry : LeaseCarrierSeenEntry}
    (taken : SeenTaken before after entry) : LeaseAdvances before after := by
  obtain ⟨-, rfl⟩ := taken
  refine ⟨?_, id, id, id⟩
  intro seen isSeen
  refine ⟨_, rfl, ?_⟩
  simp only [isSeen, Option.getD_some]
  omega

/-- What one record does: refused, it changes nothing. -/
theorem leaseStep_cases (rows : LeaseRows) (record : LeaseRecord) :
    (record.accepted rows = false ∧ leaseStep rows record = rows) ∨
    (record.accepted rows = true ∧ record.fold rows = .ok (leaseStep rows record)) := by
  unfold LeaseRecord.accepted leaseStep
  cases record.fold rows with
  | error refused => exact .inl ⟨rfl, rfl⟩
  | ok next => exact .inr ⟨rfl, rfl⟩

theorem leaseStep_kept (rows : LeaseRows) (record : LeaseRecord) (valid : LeaseValid rows) :
    LeaseValid (leaseStep rows record) ∧ LeaseAdvances rows (leaseStep rows record) := by
  rcases leaseStep_cases rows record with ⟨-, same⟩ | ⟨-, folded⟩
  · rw [same]
    exact ⟨valid, .refl rows⟩
  · cases kind : record.entry with
    | transition entry =>
        have taken := fold_transition kind folded
        exact ⟨taken.valid valid, taken.advances valid⟩
    | released entry =>
        have taken := fold_released kind folded
        exact ⟨taken.valid valid, taken.advances⟩
    | carrierSeen entry =>
        have taken := fold_carrierSeen kind folded
        exact ⟨taken.valid valid, taken.advances⟩

theorem leaseStep_generation (rows : LeaseRows) (record : LeaseRecord) :
    (leaseStep rows record).lease.generation = rows.lease.generation +
      if record.entry.writesGeneration ∧ record.accepted rows then 1 else 0 := by
  rcases leaseStep_cases rows record with ⟨refused, same⟩ | ⟨accepted, folded⟩
  · simp [refused, same]
  · cases kind : record.entry with
    | transition entry =>
        simp [LeaseEntry.writesGeneration, accepted, (fold_transition kind folded).generation]
    | released entry =>
        simp [LeaseEntry.writesGeneration, accepted, (fold_released kind folded).generation]
    | carrierSeen entry =>
        simp [LeaseEntry.writesGeneration, (fold_carrierSeen kind folded).rows]

/-- A released lease takes no further transition and no second release. -/
theorem released_refuses {rows : LeaseRows} (released : rows.lease.releasedAt.isSome)
    {record : LeaseRecord} (writes : record.entry.writesGeneration) :
    record.accepted rows = false := by
  rcases leaseStep_cases rows record with ⟨refused, -⟩ | ⟨-, folded⟩
  · exact refused
  · cases kind : record.entry with
    | transition entry => simp [(fold_transition kind folded).unreleased] at released
    | released entry => simp [(fold_released kind folded).unreleased] at released
    | carrierSeen entry => simp [kind, LeaseEntry.writesGeneration] at writes

/-- While no other transfer is accepted, a lease that is still transferring
holds the disposition it was transferred with. -/
def HoldsTransferred (disposition : DelegationDisposition) (rows : LeaseRows) : Prop :=
  rows.transferringSince.isSome → rows.lease.disposition = disposition

def NoTransfer (rows : LeaseRows) (record : LeaseRecord) : Prop :=
  ¬(record.entry.isTransfer ∧ record.accepted rows)

instance (rows : LeaseRows) (record : LeaseRecord) : Decidable (NoTransfer rows record) :=
  inferInstanceAs (Decidable (¬(_ ∧ _)))

theorem HoldsTransferred.step {disposition : DelegationDisposition} (rows : LeaseRows)
    (record : LeaseRecord) (noTransfer : NoTransfer rows record)
    (holds : HoldsTransferred disposition rows) :
    HoldsTransferred disposition (leaseStep rows record) := by
  rcases leaseStep_cases rows record with ⟨-, same⟩ | ⟨accepted, folded⟩
  · rwa [same]
  · intro transferring
    cases kind : record.entry with
    | transition entry =>
        have taken := fold_transition kind folded
        have otherReason : entry.reason ≠ .transfer := by
          intro reason
          exact noTransfer ⟨by simp [kind, LeaseEntry.isTransfer, reason], accepted⟩
        have start := taken.start
        rw [taken.transferring] at transferring
        rcases taken.start_cases with ⟨unset, -⟩ | ⟨-, isTransferring⟩
        · cases reason : entry.reason <;> simp_all [transferringAfter]
        · rw [isTransferring] at start
          rcases dispositionAfter_transferring start .ephemeral with
            ⟨reason, -⟩ | ⟨reason | reason, -⟩ <;> simp [transferringAfter, reason] at transferring
    | released entry =>
        have taken := fold_released kind folded
        rw [taken.disposition]
        exact holds (taken.transferring ▸ transferring)
    | carrierSeen entry =>
        have taken := fold_carrierSeen kind folded
        rw [taken.rows] at transferring ⊢
        exact holds transferring

/-- A transfer starts from the disposition, and keeps it. -/
theorem TransitionTaken.transferred {before after : LeaseRows} {entry : LeaseTransitionEntry}
    (taken : TransitionTaken before after entry) (reason : entry.reason = .transfer) :
    before.state = before.lease.disposition.state ∧
      after.lease.disposition = before.lease.disposition := by
  have start := taken.start
  have disposition := taken.disposition
  rw [reason] at start disposition
  exact ⟨(before.settled_state start).2.2, disposition⟩

/-- A refused or recovered transfer was in flight and ends at the disposition. -/
theorem TransitionTaken.handedBack {before after : LeaseRows} {entry : LeaseTransitionEntry}
    (taken : TransitionTaken before after entry)
    (reason : entry.reason = .transferRefused ∨ entry.reason = .transferRecovered) :
    before.transferringSince.isSome ∧ after.lease.disposition = before.lease.disposition ∧
      after.state = after.lease.disposition.state := by
  have start := taken.start
  have disposition := taken.disposition
  have state := after.state_of_unreleased taken.stillUnreleased
  rw [taken.transferring] at state
  rcases reason with reason | reason
  all_goals
    rw [reason] at start disposition
    have inFlight := (before.transferring_state (List.mem_singleton.mp start)).2
    exact ⟨inFlight, disposition, by simpa [transferringAfter, reason] using state⟩

/-- An accepted ending hands back what the transfer took. -/
theorem transfer_restored {rows middle : LeaseRows} {transfer ending : LeaseRecord}
    (isTransfer : transfer.entry.isTransfer) (transferAccepted : transfer.accepted rows)
    (ends : ending.entry.endsTransfer) (endingAccepted : ending.accepted middle)
    (holds : HoldsTransferred (leaseStep rows transfer).lease.disposition middle) :
    (leaseStep middle ending).state = rows.state ∧
      (leaseStep middle ending).lease.disposition = rows.lease.disposition := by
  rcases leaseStep_cases rows transfer with ⟨refused, -⟩ | ⟨-, transferFolded⟩
  · simp [refused] at transferAccepted
  rcases leaseStep_cases middle ending with ⟨refused, -⟩ | ⟨-, endingFolded⟩
  · simp [refused] at endingAccepted
  cases transferKind : transfer.entry with
  | released entry | carrierSeen entry => simp [transferKind, LeaseEntry.isTransfer] at isTransfer
  | transition entry =>
      cases endingKind : ending.entry with
      | released last | carrierSeen last => simp [endingKind, LeaseEntry.endsTransfer] at ends
      | transition last =>
          obtain ⟨stateBefore, transferKept⟩ :=
            (fold_transition transferKind transferFolded).transferred
              (by simpa [transferKind, LeaseEntry.isTransfer] using isTransfer)
          obtain ⟨inFlight, endingKept, stateAfter⟩ :=
            (fold_transition endingKind endingFolded).handedBack
              (by simpa [endingKind, LeaseEntry.endsTransfer] using ends)
          have disposition := endingKept.trans ((holds inFlight).trans transferKept)
          exact ⟨by rw [stateAfter, disposition, stateBefore], disposition⟩

/-- A lease as it is created: unreleased, at generation 0, `ephemeral`, with no
carrier row and no carrier read back. -/
structure LeaseBorn (rows : LeaseRows) : Prop where
  unreleased : rows.lease.releasedAt = none
  generation : rows.lease.generation = 0
  disposition : rows.lease.disposition = .ephemeral
  uncarried : rows.carrier = none
  unseen : rows.lease.carrierGenerationSeen = none

instance (rows : LeaseRows) : Decidable (LeaseBorn rows) :=
  decidable_of_iff
    (rows.lease.releasedAt = none ∧ rows.lease.generation = 0 ∧
      rows.lease.disposition = .ephemeral ∧ rows.carrier = none ∧
      rows.lease.carrierGenerationSeen = none)
    ⟨fun ⟨a, b, c, d, e⟩ => ⟨a, b, c, d, e⟩, fun ⟨a, b, c, d, e⟩ => ⟨a, b, c, d, e⟩⟩

theorem LeaseBorn.valid {rows : LeaseRows} (born : LeaseBorn rows) : LeaseValid rows where
  seen := fun seen isSeen => by simp [born.unseen] at isSeen
  transferring := fun inFlight => by simp [LeaseRows.transferringSince, born.uncarried] at inFlight

/-- The life of a lease over any journal: its invariant, what each next record
does to its generation, what no later journal takes back, and that a transfer
that is not promoted is undone. -/
theorem leaseLife {start : LeaseRows} (born : LeaseBorn start) (journal : List LeaseRecord) :
    let rows := runFrom leaseStep start journal
    (∀ seen, rows.lease.carrierGenerationSeen = some seen →
      1 ≤ seen ∧ seen ≤ rows.lease.generation) ∧
    (rows.transferringSince.isSome → rows.lease.releasedAt = none ∧
      rows.lease.disposition ∈
        [DelegationDisposition.ephemeral, .adopted, .retained]) ∧
    (∀ record, (leaseStep rows record).lease.generation = rows.lease.generation +
      if record.entry.writesGeneration ∧ record.accepted rows then 1 else 0) ∧
    (∀ later, let after := runFrom leaseStep rows later
      (∀ seen, rows.lease.carrierGenerationSeen = some seen →
        ∃ last, after.lease.carrierGenerationSeen = some last ∧ seen ≤ last) ∧
      (rows.lease.releasedAt.isSome →
        ∀ record : LeaseRecord, record.entry.writesGeneration → record.accepted after = false) ∧
      (rows.lease.disposition ≠ .ephemeral → after.lease.disposition ≠ .ephemeral) ∧
      (rows.lease.disposition = .promoted → after.lease.disposition = .promoted)) ∧
    (∀ (transfer : LeaseRecord) (between : List LeaseRecord) (ending : LeaseRecord),
      transfer.entry.isTransfer → transfer.accepted rows →
      Guarded leaseStep NoTransfer (leaseStep rows transfer) between →
      let middle := runFrom leaseStep (leaseStep rows transfer) between
      ending.entry.endsTransfer → ending.accepted middle →
        (leaseStep middle ending).state = rows.state ∧
          (leaseStep middle ending).lease.disposition = rows.lease.disposition) := by
  intro rows
  have kept := fun state record valid => (leaseStep_kept state record valid).1
  have valid : LeaseValid rows := runFrom_invariant kept born.valid journal
  refine ⟨valid.seen, ?_, leaseStep_generation rows, ?_, ?_⟩
  · intro inFlight
    obtain ⟨unreleased, notPromoted⟩ := valid.transferring inFlight
    refine ⟨unreleased, ?_⟩
    cases disposition : rows.lease.disposition <;> simp_all
  · intro later after
    have advances : LeaseAdvances rows after :=
      runFrom_relates LeaseAdvances.refl LeaseAdvances.trans kept
        (fun state record valid => (leaseStep_kept state record valid).2) valid later
    exact ⟨advances.seen,
      fun released record writes => released_refuses (advances.released released) writes,
      advances.ephemeral, advances.promoted⟩
  · intro transfer between ending isTransfer transferred quiet middle ends ended
    have holds : HoldsTransferred (leaseStep rows transfer).lease.disposition middle :=
      quiet.invariant HoldsTransferred.step (fun _ => rfl)
    exact transfer_restored isTransfer transferred ends ended holds

private def newLease : LeaseRows where
  lease :=
    { leaseId := Text.lit "l1", generation := 0, creatingJournalSequence := 1,
      currentJournalSequence := 1, parentId := Text.lit "p", parentIncarnation := Text.lit "i",
      project := Text.lit "demo", adminRecord := Text.lit "tree", disposition := .ephemeral,
      firstObservedAt := Text.lit "2026-01-01", terminalEvidenceAt := none, adoptedAt := none,
      retainedAt := none, promotedAt := none, cleanupDueAt := none,
      carrierGenerationSeen := none, releasedAt := none }
  carrier := none

private def transitionRecord (generation : Int) (reason : DelegationLeaseTransitionReason)
    (target : DelegationCarrierState) (runId : Option Int) : LeaseRecord where
  sequence := generation + 1
  entry := .transition
    { leaseId := Text.lit "l1", generation, reason, target, atTime := Text.lit "2026-01-02",
      expiresAt := none, terminalEvidenceAt := none, runId, promotedSession := none,
      lineageClose := none, lineageOpenRun := none, resolvesThrough := none }
  lineage := []
  runLineageId := Text.ofInt

private def seenRecord (generation : Int) : LeaseRecord where
  sequence := 9
  entry := .carrierSeen
    { leaseId := Text.lit "l1", generation, atTime := Text.lit "2026-01-02" }
  lineage := []
  runLineageId := Text.ofInt

/-- A first carrier, a transfer to run 7, and its recovery. -/
theorem leaseLife_recovered :
    (leaseStep (runFrom leaseStep
      (leaseStep (runFrom leaseStep newLease [transitionRecord 1 .carrier .ephemeral none])
        (transitionRecord 2 .transfer .transferring (some 7))) [seenRecord 2])
      (transitionRecord 3 .transferRecovered .ephemeral none)).state =
    (runFrom leaseStep newLease [transitionRecord 1 .carrier .ephemeral none]).state :=
  ((leaseLife (by decide) [transitionRecord 1 .carrier .ephemeral none]).2.2.2.2
    (transitionRecord 2 .transfer .transferring (some 7)) [seenRecord 2]
    (transitionRecord 3 .transferRecovered .ephemeral none)
    (by decide) (by decide) (by decide) (by decide) (by decide)).1

end Ccrc.Coord
