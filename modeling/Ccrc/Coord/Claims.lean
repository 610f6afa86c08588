import Ccrc.Library.Lists
import Ccrc.Library.Text

/-! Path claims: what a claimed path may spell, when two paths overlap, what an
attempt is answered and what a sweep decides about a standing claim. -/

set_option autoImplicit false

namespace Ccrc.Coord

open Library

def claimLeaseMs : Int := 45 * 60000

def claimHardCapMs : Int := 8 * 60 * 60000

def slash : UInt16 := Text.unit '/'

/-- `while (p.startsWith('./')) p = p.slice(2)`. -/
def dropDotSlash : Text → Text
  | first :: second :: rest =>
      if first = Text.unit '.' ∧ second = slash then dropDotSlash rest
      else first :: second :: rest
  | text => text

/-- `while (p.endsWith('/')) p = p.slice(0, -1)`. -/
def dropTrailingSlashes (text : Text) : Text := (text.reverse.dropWhile (· = slash)).reverse

/-- A repository path in its one spelling, or nothing. -/
def normalizeClaimPath (raw : Text) : Option Text :=
  let path := dropTrailingSlashes (dropDotSlash raw)
  if path = [] ∨ path = Text.lit "." then none
  else if path.head? = some slash then none
  else if (path.splitOn slash).any fun segment =>
      segment = [] || segment = Text.lit "." || segment = Text.lit ".." then none
  else some path

/-- Exact match or directory containment, both ways. -/
def pathsOverlap (first second : Text) : Bool :=
  first == second || second.startsWith (first ++ [slash]) ||
    first.startsWith (second ++ [slash])

structure ClaimRow where
  id : Nat
  project : Text
  paths : List Text
  heldBy : Text
  heldByUuid : Text
  intent : Text
  runId : Option Nat
  expiresAt : Int
  holderDeliverable : Text
  deriving DecidableEq, Repr

structure ClaimRequest where
  project : Text
  paths : List Text
  sessionId : Text
  deriving DecidableEq, Repr

structure MailHint where
  toId : Text
  subject : Text
  deriving DecidableEq, Repr

structure ClaimConflict where
  path : Text
  claimedPath : Text
  claimId : Nat
  heldBy : Text
  heldByUuid : Text
  intent : Text
  runId : Option Nat
  expiresAt : Int
  deliverable : Text
  mailHint : Option MailHint
  deriving DecidableEq, Repr

inductive ClaimDecision where
  | ok (paths : List Text)
  | badPath (paths : List Text)
  | conflict (conflicts : List ClaimConflict)
  deriving DecidableEq, Repr

/-- The address of a holder. One measured undeliverable gets none. -/
def claimMailHint (path heldBy deliverable : Text) : Option MailHint :=
  if deliverable.startsWith (Text.lit "no:") then none
  else some { toId := heldBy, subject := Text.lit "claim conflict: " ++ path }

def claimConflict (path claimedPath : Text) (claim : ClaimRow) : ClaimConflict where
  path := path
  claimedPath := claimedPath
  claimId := claim.id
  heldBy := claim.heldBy
  heldByUuid := claim.heldByUuid
  intent := claim.intent
  runId := claim.runId
  expiresAt := claim.expiresAt
  deliverable := claim.holderDeliverable
  mailHint := claimMailHint path claim.heldBy claim.holderDeliverable

/-- The other holders' overlapping paths, one address for each path and claim. -/
def conflictsOf (existing : List ClaimRow) (request : ClaimRequest) (paths : List Text) :
    List ClaimConflict :=
  firstBy (fun conflict => (conflict.path, conflict.claimId)) []
    (paths.flatMap fun path => existing.flatMap fun claim =>
      if claim.project ≠ request.project ∨ claim.heldBy = request.sessionId then []
      else (claim.paths.filter (pathsOverlap path)).map (claimConflict path · claim))

def decideClaim (existing : List ClaimRow) (request : ClaimRequest) : ClaimDecision :=
  let bad := request.paths.filter fun path => (normalizeClaimPath path).isNone
  if bad ≠ [] then .badPath bad
  else
    -- Spellings of one path meet here, not in a collision with themselves.
    let paths := firstBy id [] (request.paths.filterMap normalizeClaimPath)
    let conflicts := conflictsOf existing request paths
    if conflicts ≠ [] then .conflict conflicts else .ok paths

inductive RowStanding where
  | here | doubt | asleep | gone
  deriving DecidableEq, Repr

inductive LivenessVerdict where
  | running | gone | unmeasurable
  deriving DecidableEq, Repr

def claimVerdictOf : RowStanding → LivenessVerdict
  | .here => .running
  | .doubt => .unmeasurable
  | .asleep => .gone
  | .gone => .gone

inductive LapseCause where
  | sessionGone | hardCap
  deriving DecidableEq, Repr

def LapseCause.text : LapseCause → Text
  | .sessionGone => Text.lit "session-gone"
  | .hardCap => Text.lit "hard-cap"

inductive ClaimExpiryDecision where
  | renew (expiresAt : Int)
  | lapse (endedBy : LapseCause)
  | hold
  deriving DecidableEq, Repr

def claimExpiry (expiresAt hardExpiresAt now : Int) (verdict : LivenessVerdict) :
    ClaimExpiryDecision :=
  if hardExpiresAt ≤ now then .lapse .hardCap
  else match verdict with
    | .running =>
        let next := min (now + claimLeaseMs) hardExpiresAt
        if expiresAt < next then .renew next else .hold
    | .gone => if expiresAt ≤ now then .lapse .sessionGone else .hold
    | .unmeasurable => .hold

end Ccrc.Coord
