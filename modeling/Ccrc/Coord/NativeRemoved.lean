import Ccrc.Library.Json
import Ccrc.Library.Map
import Ccrc.Coord.DelegationLeaseState

/-! The native-removed release: which unreleased leases' trees a census shows
gone, counted over the passes of the lane by a memory it carries from pass to
pass. -/

set_option autoImplicit false

namespace Ccrc.Coord

open Library Shared

/-- The one key of a tree. -/
def delegationTreeKey (project adminRecord : Text) : Text :=
  Json.write Text.ofInt (.array [.string project, .string adminRecord])

/-- The rows of a checkpoint that a release is planned from; a checkpoint that
names a lease twice does not validate. -/
structure DelegationCheckpoint where
  leases : List DelegationLeaseRow
  leaseCarriers : List DelegationLeaseCarrierRow
  uniqueLeases : (leases.map (·.leaseId)).Nodup

/-- What the lane carries from one pass to the next. -/
structure NativeRemovedMemory where
  absentListings : Map Text Int
  lastHeads : Map Text Text

def NativeRemovedMemory.empty : NativeRemovedMemory := { absentListings := [], lastHeads := [] }

structure NativeRemovedInput where
  checkpoint : DelegationCheckpoint
  censused : List Text
  listed : List Text
  absent : List Text
  unreadable : List Text
  heads : Map Text Text
  memory : NativeRemovedMemory

def delegationNativeRemovedListings : Int := 2

def delegationLeaseReleasesPerPass : Nat := 8

structure NativeRemovedRelease where
  leaseId : Text
  expectGeneration : Int
  releaseReason : DelegationLeaseReleaseReason
  lastHeadSha : Option Text
  deriving DecidableEq, Repr

/-- What a pass makes of one lease. -/
inductive LeaseListing where
  | released | transferring | uncensused | unreadable | present | missing
  deriving DecidableEq, Repr

namespace NativeRemovedInput

def carrierOf (input : NativeRemovedInput) (lease : DelegationLeaseRow) :
    Option DelegationLeaseCarrierRow :=
  (Map.ofEntries (input.checkpoint.leaseCarriers.map fun c => (c.leaseId, c))).get? lease.leaseId

def keyOf (lease : DelegationLeaseRow) : Text := delegationTreeKey lease.project lease.adminRecord

def listing (input : NativeRemovedInput) (lease : DelegationLeaseRow) : LeaseListing :=
  if lease.releasedAt.isSome then .released
  else if delegationCarrierStateOf lease (input.carrierOf lease) = .transferring then .transferring
  else if lease.project ∉ input.censused then .uncensused
  else if keyOf lease ∈ input.unreadable then .unreadable
  else if keyOf lease ∈ input.listed ∧ keyOf lease ∉ input.absent then .present
  else .missing

/-- The head that this pass's census sees for the lease's record. -/
def headSeen (input : NativeRemovedInput) (lease : DelegationLeaseRow) : Option Text :=
  if lease.project ∈ input.censused then input.heads.get? (keyOf lease) else none

def head (input : NativeRemovedInput) (lease : DelegationLeaseRow) : Option Text :=
  (input.headSeen lease).or (input.memory.lastHeads.get? lease.leaseId)

def prior (input : NativeRemovedInput) (lease : DelegationLeaseRow) : Int :=
  (input.memory.absentListings.get? lease.leaseId).getD 0

end NativeRemovedInput

structure NativeRemovedPlan where
  release : List NativeRemovedRelease
  memory : NativeRemovedMemory
  uncensused : Nat

/-- `keep(count)`: the memory of one unreleased lease. -/
def NativeRemovedPlan.keep (plan : NativeRemovedPlan) (input : NativeRemovedInput)
    (lease : DelegationLeaseRow) (count : Int) : NativeRemovedPlan :=
  { plan with memory :=
    { absentListings :=
        if 0 < count then plan.memory.absentListings.set lease.leaseId count
        else plan.memory.absentListings
      lastHeads :=
        match input.head lease with
        | some head => plan.memory.lastHeads.set lease.leaseId head
        | none => plan.memory.lastHeads } }

def releaseOf (input : NativeRemovedInput) (lease : DelegationLeaseRow) : NativeRemovedRelease :=
  { leaseId := lease.leaseId
    expectGeneration := lease.generation
    releaseReason := if lease.disposition = .promoted then .transferred else .nativeRemoved
    lastHeadSha := input.head lease }

def planLease (input : NativeRemovedInput) (plan : NativeRemovedPlan)
    (lease : DelegationLeaseRow) : NativeRemovedPlan :=
  match input.listing lease with
  | .released => plan
  | .transferring => plan.keep input lease (input.prior lease)
  | .uncensused =>
      { plan.keep input lease (input.prior lease) with uncensused := plan.uncensused + 1 }
  | .unreadable | .present => plan.keep input lease 0
  | .missing =>
      let count := input.prior lease + 1
      let kept := plan.keep input lease count
      if count < delegationNativeRemovedListings ∨
          delegationLeaseReleasesPerPass ≤ plan.release.length then kept
      else { kept with release := plan.release ++ [releaseOf input lease] }

/-- By creating sequence, then by lease. -/
def createdBefore (a b : DelegationLeaseRow) : Prop :=
  a.creatingJournalSequence < b.creatingJournalSequence ∨
    (a.creatingJournalSequence = b.creatingJournalSequence ∧ a.leaseId ≤ b.leaseId)

instance : DecidableRel createdBefore := fun _ _ => inferInstanceAs (Decidable (_ ∨ _))

def oldestFirst (leases : List DelegationLeaseRow) : List DelegationLeaseRow :=
  leases.insertionSort createdBefore

def planNativeRemoved (input : NativeRemovedInput) : NativeRemovedPlan :=
  (oldestFirst input.checkpoint.leases).foldl (planLease input)
    { release := [], memory := .empty, uncensused := 0 }

end Ccrc.Coord
