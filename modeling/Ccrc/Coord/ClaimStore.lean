import Ccrc.Coord.Claims
import Ccrc.Library.Run

/-! The claims of the store: a row for each claim and, on a table of their own,
its paths with a bit that mirrors whether the claim is live. -/

set_option autoImplicit false

namespace Ccrc.Coord

open Library

inductive ClaimState where
  | live | released | lapsed | broken
  deriving DecidableEq, Repr

/-- A row of `claims`. -/
structure Claim where
  id : Nat
  project : Text
  heldBy : Text
  heldByUuid : Text
  intent : Text
  runId : Option Nat
  state : ClaimState
  createdAt : Int
  renewedAt : Int
  expiresAt : Int
  hardExpiresAt : Int
  endedAt : Option Int
  endedBy : Option Text
  deriving DecidableEq, Repr

/-- A row of `claim_paths`. -/
structure ClaimPath where
  claimId : Nat
  project : Text
  path : Text
  live : Bool
  deriving DecidableEq, Repr

structure ClaimStore where
  claims : List Claim
  paths : List ClaimPath
  deriving DecidableEq, Repr

def ClaimStore.empty : ClaimStore := { claims := [], paths := [] }

def Claim.isLive (claim : Claim) : Bool := claim.state == .live

def claimPaths (store : ClaimStore) (claimId : Nat) : List Text :=
  (store.paths.filter (·.claimId == claimId)).map (·.path)

/-- A claim with its paths. -/
structure ClaimSummary where
  claim : Claim
  paths : List Text
  deriving DecidableEq, Repr

def claimRow (store : ClaimStore) (id : Nat) : Option ClaimSummary :=
  (store.claims.find? (·.id == id)).map fun claim => { claim, paths := claimPaths store id }

def Claim.endIf (ends : Claim → Bool) (state : ClaimState) (endedAt : Int) (endedBy : Text)
    (claim : Claim) : Claim :=
  if claim.isLive && ends claim then
    { claim with state, endedAt := some endedAt, endedBy := some endedBy }
  else claim

/-- One transition out of `live`, with the mirror bit of the claims it ends. -/
def endClaims (ends : Claim → Bool) (state : ClaimState) (endedAt : Int) (endedBy : Text)
    (store : ClaimStore) : ClaimStore where
  claims := store.claims.map (·.endIf ends state endedAt endedBy)
  paths := store.paths.map fun row =>
    if store.claims.any fun claim => claim.id == row.claimId && claim.isLive && ends claim then
      { row with live := false }
    else row

/-- The hard cap first, so a claim past both bounds records the harder word. -/
def expireLapsedInner (store : ClaimStore) (now : Int) : ClaimStore :=
  endClaims (fun claim => claim.expiresAt ≤ now) .lapsed now (Text.lit "expired")
    (endClaims (fun claim => claim.hardExpiresAt ≤ now) .lapsed now (Text.lit "hard-cap") store)

structure ClaimInput where
  project : Text
  paths : List Text
  sessionId : Text
  uuid : Text
  runId : Option Nat
  intent : Text
  now : Int
  holderDeliverable : Option (Text → Text)

inductive ClaimAttemptResult where
  | ok (claims : List ClaimSummary)
  | badPath (paths : List Text)
  | conflict (conflicts : List ClaimConflict)
  deriving DecidableEq, Repr

/-- The live rows of the project as the decision reads them: paths by the mirror
bit, each holder measured by the caller where it measured. -/
def liveClaims (store : ClaimStore) (input : ClaimInput) : List ClaimRow :=
  (store.claims.filter fun claim => claim.project == input.project && claim.isLive).map
    fun claim =>
      { id := claim.id, project := input.project
        paths := (store.paths.filter fun row =>
          row.project == input.project && row.live && row.claimId == claim.id).map (·.path)
        heldBy := claim.heldBy, heldByUuid := claim.heldByUuid, intent := claim.intent
        runId := claim.runId, expiresAt := claim.expiresAt
        holderDeliverable :=
          (input.holderDeliverable.getD fun _ => Text.lit "unknown") claim.heldBy }

/-- The session's own live claim that holds a path exactly. -/
def ownClaim (live : List ClaimRow) (sessionId path : Text) : Option ClaimRow :=
  live.find? fun claim => claim.heldBy == sessionId && claim.paths.contains path

def renewOwn (store : ClaimStore) (input : ClaimInput) (id : Nat) : ClaimStore :=
  { store with
    claims := store.claims.map fun claim =>
      if claim.id = id ∧ claim.isLive then
        { claim with heldByUuid := input.uuid, runId := input.runId, intent := input.intent,
                     renewedAt := input.now,
                     expiresAt := min (input.now + claimLeaseMs) claim.hardExpiresAt }
      else claim }

def renewOwns (input : ClaimInput) :
    ClaimStore → List Nat → Option (ClaimStore × List ClaimSummary)
  | store, [] => some (store, [])
  | store, id :: rest => do
      let renewed := renewOwn store input id
      let row ← claimRow renewed id
      let (final, rows) ← renewOwns input renewed rest
      pure (final, row :: rows)

def nextClaimId (store : ClaimStore) : Nat := (store.claims.map (·.id)).foldl max 0 + 1

def newClaim (input : ClaimInput) (id : Nat) : Claim where
  id := id
  project := input.project
  heldBy := input.sessionId
  heldByUuid := input.uuid
  intent := input.intent
  runId := input.runId
  state := .live
  createdAt := input.now
  renewedAt := input.now
  expiresAt := input.now + claimLeaseMs
  hardExpiresAt := input.now + claimHardCapMs
  endedAt := none
  endedBy := none

def insertClaim (store : ClaimStore) (input : ClaimInput) : ClaimStore × Nat :=
  let id := nextClaimId store
  ({ store with claims := store.claims ++ [newClaim input id] }, id)

/-- `claim_one_owner`: a live path of a project is inserted once, or the insert
throws. -/
def insertPath (store : ClaimStore) (claimId : Nat) (project path : Text) :
    Option ClaimStore :=
  if store.paths.any fun row => row.live && row.project == project && row.path == path then none
  else some { store with paths := store.paths ++ [{ claimId, project, path, live := true }] }

def insertPaths (claimId : Nat) (project : Text) : ClaimStore → List Text → Option ClaimStore
  | store, [] => some store
  | store, path :: rest => do
      let inserted ← insertPath store claimId project path
      insertPaths claimId project inserted rest

/-- The writes of a granted attempt. -/
def grantClaim (store : ClaimStore) (input : ClaimInput) (live : List ClaimRow)
    (paths : List Text) : Option (ClaimStore × ClaimAttemptResult) := do
  let renewIds := firstBy id []
    (paths.filterMap fun path => (ownClaim live input.sessionId path).map (·.id))
  let fresh := paths.filter fun path => (ownClaim live input.sessionId path).isNone
  let (renewed, rows) ← renewOwns input store renewIds
  if fresh = [] then pure (renewed, .ok rows)
  else
    let (inserted, claimId) := insertClaim renewed input
    let held ← insertPaths claimId input.project inserted fresh
    let row ← claimRow held claimId
    pure (held, .ok (rows ++ [row]))

/-- `none` is a throw, which leaves the store as it was. -/
def claimAttempt (store : ClaimStore) (input : ClaimInput) :
    Option (ClaimStore × ClaimAttemptResult) :=
  let expired := expireLapsedInner store input.now
  let live := liveClaims expired input
  match decideClaim live
      { project := input.project, paths := input.paths, sessionId := input.sessionId } with
  | .badPath paths => some (expired, .badPath paths)
  | .conflict conflicts => some (expired, .conflict conflicts)
  | .ok paths => grantClaim expired input live paths

inductive ClaimEndResult where
  | ok (state : ClaimState)
  | unknownClaim
  | notLive (state : ClaimState)
  deriving DecidableEq, Repr

def endClaim (store : ClaimStore) (id : Nat) (state : ClaimState) (endedBy : Text) (now : Int) :
    ClaimStore × ClaimEndResult :=
  match store.claims.find? (·.id == id) with
  | none => (store, .unknownClaim)
  | some claim =>
      if claim.isLive then (endClaims (·.id == id) state now endedBy store, .ok state)
      else (store, .notLive claim.state)

def claimRelease (store : ClaimStore) (id : Nat) (endedBy : Text) (now : Int) :
    ClaimStore × ClaimEndResult :=
  endClaim store id .released endedBy now

def claimBreak (store : ClaimStore) (id : Nat) (endedBy : Text) (now : Int) :
    ClaimStore × ClaimEndResult :=
  endClaim store id .broken endedBy now

def renewClaimRow (store : ClaimStore) (id : Nat) (expiresAt atTime : Int) : ClaimStore :=
  { store with
    claims := store.claims.map fun claim =>
      if claim.id = id ∧ claim.isLive then
        { claim with renewedAt := atTime, expiresAt := min expiresAt claim.hardExpiresAt }
      else claim }

def lapseClaimRow (store : ClaimStore) (id : Nat) (endedBy : Text) (atTime : Int) : ClaimStore :=
  endClaims (·.id == id) .lapsed atTime endedBy store

def releaseClaimsForRun (store : ClaimStore) (runId : Nat) (atTime : Int) : ClaimStore :=
  endClaims (·.runId == some runId) .released atTime (Text.lit "run-closed") store

inductive ClaimCall where
  | claimAttempt (input : ClaimInput)
  | renewClaimRow (id : Nat) (expiresAt atTime : Int)
  | lapseClaimRow (id : Nat) (endedBy : Text) (atTime : Int)
  | claimRelease (id : Nat) (endedBy : Text) (now : Int)
  | claimBreak (id : Nat) (endedBy : Text) (now : Int)
  | releaseClaimsForRun (runId : Nat) (atTime : Int)

def claimStep (store : ClaimStore) (call : ClaimCall) : ClaimStore :=
  match call with
  | .claimAttempt input => ((claimAttempt store input).map (·.1)).getD store
  | .renewClaimRow id expiresAt atTime => renewClaimRow store id expiresAt atTime
  | .lapseClaimRow id endedBy atTime => lapseClaimRow store id endedBy atTime
  | .claimRelease id endedBy now => (claimRelease store id endedBy now).1
  | .claimBreak id endedBy now => (claimBreak store id endedBy now).1
  | .releaseClaimsForRun runId atTime => releaseClaimsForRun store runId atTime

end Ccrc.Coord
