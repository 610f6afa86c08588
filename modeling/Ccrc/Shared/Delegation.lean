import Ccrc.Library.Text

/-! The delegation vocabulary: dispositions, the states a lease's carrier
records, and the reasons a lease is released. -/

set_option autoImplicit false

namespace Ccrc.Shared

open Library

inductive DelegationDisposition where
  | ephemeral | adopted | retained | promoted
  deriving DecidableEq, Repr

/-- The dispositions and the two states that only a carrier records. -/
inductive DelegationCarrierState where
  | ephemeral | adopted | retained | promoted | transferring | released
  deriving DecidableEq, Repr

def DelegationCarrierState.text : DelegationCarrierState → Text
  | .ephemeral => Text.lit "ephemeral"
  | .adopted => Text.lit "adopted"
  | .retained => Text.lit "retained"
  | .promoted => Text.lit "promoted"
  | .transferring => Text.lit "transferring"
  | .released => Text.lit "released"

def DelegationDisposition.state : DelegationDisposition → DelegationCarrierState
  | .ephemeral => .ephemeral
  | .adopted => .adopted
  | .retained => .retained
  | .promoted => .promoted

/-- The disposition a carrier state names, where it names one. -/
def DelegationCarrierState.disposition? : DelegationCarrierState → Option DelegationDisposition
  | .ephemeral => some .ephemeral
  | .adopted => some .adopted
  | .retained => some .retained
  | .promoted => some .promoted
  | .transferring | .released => none

inductive DelegationLeaseReleaseReason where
  | nativeRemoved | transferred | foreign
  deriving DecidableEq, Repr

def DelegationLeaseReleaseReason.text : DelegationLeaseReleaseReason → Text
  | .nativeRemoved => Text.lit "native-removed"
  | .transferred => Text.lit "transferred"
  | .foreign => Text.lit "foreign"

def DelegationDisposition.text (disposition : DelegationDisposition) : Text :=
  disposition.state.text

/-! ## The closed words of the projected rows -/

inductive DelegationActivitySourceKind where
  | agent | workflow | bashWorktree
  deriving DecidableEq, Repr

def DelegationActivitySourceKind.text : DelegationActivitySourceKind → Text
  | .agent => Text.lit "agent"
  | .workflow => Text.lit "workflow"
  | .bashWorktree => Text.lit "bash-worktree"

inductive DelegationLeaseSourceKind where
  | agent | workflow | raw | attached
  deriving DecidableEq, Repr

def DelegationLeaseSourceKind.text : DelegationLeaseSourceKind → Text
  | .agent => Text.lit "agent"
  | .workflow => Text.lit "workflow"
  | .raw => Text.lit "raw"
  | .attached => Text.lit "attached"

inductive DelegationExecutionState where
  | active | ended | unknown
  deriving DecidableEq, Repr

def DelegationExecutionState.text : DelegationExecutionState → Text
  | .active => Text.lit "active"
  | .ended => Text.lit "ended"
  | .unknown => Text.lit "unknown"

/-- The verdicts of an attempt, and the states of a lease's parentage. -/
inductive DelegationParentageState where
  | linked | unresolved | conflicting | unmeasured
  deriving DecidableEq, Repr

def DelegationParentageState.text : DelegationParentageState → Text
  | .linked => Text.lit "linked"
  | .unresolved => Text.lit "unresolved"
  | .conflicting => Text.lit "conflicting"
  | .unmeasured => Text.lit "unmeasured"

abbrev DelegationAttemptVerdict : Type := DelegationParentageState

inductive DelegationWorkspaceState where
  | none | provisioning | present | absent | unmeasured
  deriving DecidableEq, Repr

def DelegationWorkspaceState.text : DelegationWorkspaceState → Text
  | .none => Text.lit "none"
  | .provisioning => Text.lit "provisioning"
  | .present => Text.lit "present"
  | .absent => Text.lit "absent"
  | .unmeasured => Text.lit "unmeasured"

inductive DelegationCleanupState where
  | notDue | pending | running | refused | reclaimed | unmeasured
  deriving DecidableEq, Repr

def DelegationCleanupState.text : DelegationCleanupState → Text
  | .notDue => Text.lit "not-due"
  | .pending => Text.lit "pending"
  | .running => Text.lit "running"
  | .refused => Text.lit "refused"
  | .reclaimed => Text.lit "reclaimed"
  | .unmeasured => Text.lit "unmeasured"

inductive DelegationCleanupPopulation where
  | ephemeralLease
  deriving DecidableEq, Repr

def DelegationCleanupPopulation.text : DelegationCleanupPopulation → Text
  | .ephemeralLease => Text.lit "ephemeral-lease"

inductive DelegationIntentSource where
  | explicit | runOwner | delegationInferred | retainedLineage
  deriving DecidableEq, Repr

def DelegationIntentSource.text : DelegationIntentSource → Text
  | .explicit => Text.lit "explicit"
  | .runOwner => Text.lit "run-owner"
  | .delegationInferred => Text.lit "delegation-inferred"
  | .retainedLineage => Text.lit "retained-lineage"

@[simp] theorem DelegationDisposition.disposition?_state (disposition : DelegationDisposition) :
    disposition.state.disposition? = some disposition := by
  cases disposition <;> rfl

end Ccrc.Shared
