import Ccrc.Coord.ClaimStore

/-! The two lanes that sweep the live claims, one renewing and one lapsing them, on
what the tick's rows say of each holder. -/

set_option autoImplicit false

namespace Ccrc.Coord

open Library

inductive IdentityField where
  | uuid | wrapper | workdir
  deriving DecidableEq, Repr

inductive Presence where
  | alive | asleep | dead | unknown
  deriving DecidableEq, Repr

inductive SessionLifecycle where
  | running | unsupervised | unclaimed | stopped | restarting | orphan | neverStarted
  | unmeasurable
  deriving DecidableEq, Repr

/-- The fields of a session's row that the lanes read. -/
structure ClaimProbeRow where
  id : Text
  unmeasured : List IdentityField
  presence : Option Presence
  lifecycle : Option SessionLifecycle
  deriving DecidableEq, Repr

def rowStanding (row : ClaimProbeRow) : RowStanding :=
  if row.unmeasured ≠ [] then .doubt
  else match row.presence with
    | some .alive => if row.lifecycle = some .restarting then .doubt else .here
    | some .asleep => .asleep
    | some .dead => .gone
    | some .unknown => if row.lifecycle = some .unmeasurable then .gone else .doubt
    | none => .doubt

/-- One pass of a lane: the tick's rows, the ids its listing refused, the clock. -/
structure ClaimSweep where
  sessions : List ClaimProbeRow
  refused : List Text
  now : Int
  deriving DecidableEq, Repr

/-- `claimProbe`. A later row of one id replaces an earlier one. -/
def ClaimSweep.liveness (sweep : ClaimSweep) (id : Text) : LivenessVerdict :=
  if id ∈ sweep.refused then .unmeasurable
  else match sweep.sessions.reverse.find? (·.id == id) with
    | none => .gone
    | some row => claimVerdictOf (rowStanding row)

def activeClaims (store : ClaimStore) : List Claim := store.claims.filter (·.isLive)

/-- Doubt renews in this lane. -/
def renewClaim (sweep : ClaimSweep) (store : ClaimStore) (claim : Claim) : ClaimStore :=
  let verdict := sweep.liveness claim.heldBy
  match claimExpiry claim.expiresAt claim.hardExpiresAt sweep.now
      (if verdict = .unmeasurable then .running else verdict) with
  | .renew expiresAt => renewClaimRow store claim.id expiresAt sweep.now
  | .lapse _ | .hold => store

def renewClaims (store : ClaimStore) (sweep : ClaimSweep) : ClaimStore :=
  (activeClaims store).foldl (renewClaim sweep) store

def lapseClaim (sweep : ClaimSweep) (store : ClaimStore) (claim : Claim) : ClaimStore :=
  match claimExpiry claim.expiresAt claim.hardExpiresAt sweep.now
      (sweep.liveness claim.heldBy) with
  | .lapse endedBy => lapseClaimRow store claim.id endedBy.text sweep.now
  | .renew _ | .hold => store

def lapseClaims (store : ClaimStore) (sweep : ClaimSweep) : ClaimStore :=
  (activeClaims store).foldl (lapseClaim sweep) store

inductive ClaimEvent where
  | claimAttempt (input : ClaimInput)
  | renewClaims (sweep : ClaimSweep)
  | lapseClaims (sweep : ClaimSweep)
  | claimRelease (id : Nat) (endedBy : Text) (now : Int)
  | claimBreak (id : Nat) (endedBy : Text) (now : Int)
  | releaseClaimsForRun (runId : Nat) (atTime : Int)

def claimEventStep (store : ClaimStore) (event : ClaimEvent) : ClaimStore :=
  match event with
  | .claimAttempt input => claimStep store (.claimAttempt input)
  | .renewClaims sweep => renewClaims store sweep
  | .lapseClaims sweep => lapseClaims store sweep
  | .claimRelease id endedBy now => claimStep store (.claimRelease id endedBy now)
  | .claimBreak id endedBy now => claimStep store (.claimBreak id endedBy now)
  | .releaseClaimsForRun runId atTime => claimStep store (.releaseClaimsForRun runId atTime)

end Ccrc.Coord
