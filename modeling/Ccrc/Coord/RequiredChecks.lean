import Ccrc.Library.Lists
import Ccrc.Shared.Landing

/-! The verdict of a line's required set: one word, a fingerprint of the check runs
that have reported, and the failing names. -/

set_option autoImplicit false

namespace Ccrc.Shared

open Library

/-- The words of a verdict, the one that wins first. -/
def requiredChecksPrecedence : List RequiredChecksWord :=
  [.unmeasured, .red, .unverifiable, .pending, .notReported, .green]

end Ccrc.Shared

namespace Ccrc.Coord

open Library Shared

/-- One required context. `checkId` is the check run's own id, and none for a commit status. -/
structure PrLandingRequired where
  name : Text
  state : Text
  checkId : Option Int
  runId : Option Int
  deriving DecidableEq, Repr

/-- One session's line of `ccd pr-landing`, as far as the verdict reads it. -/
structure PrLandingLine where
  bound : Bool
  required : List PrLandingRequired
  requiredCut : Bool
  rulesNamed : List Text
  protectionNamed : List Text
  pinnedNames : List Text
  unmeasured : List Text
  deriving DecidableEq, Repr

/-- `toLowerCase` of one unit, as far as a word of ASCII letters can tell: of the other
characters only the Kelvin sign has a lower case in ASCII. -/
def lowerUnit (character : UInt16) : UInt16 :=
  if 0x41 ≤ character ∧ character ≤ 0x5A then character + 0x20
  else if character = 0x212A then 0x6B
  else character

def toLowerCase (text : Text) : Text := text.map lowerUnit

def runRunning : List Text :=
  [[], Text.lit "pending", Text.lit "queued", Text.lit "in_progress", Text.lit "waiting",
    Text.lit "requested"]

def runPassing : List Text := [Text.lit "success", Text.lit "neutral", Text.lit "skipped"]

/-- One required context's word: a check run by its conclusion, a commit status by its state. -/
def contextWord (r : PrLandingRequired) : RequiredChecksWord :=
  let st := toLowerCase r.state
  if r.checkId.isSome then
    if st ∈ runRunning then .pending
    else if st ∈ runPassing then .green else .red
  else if st = Text.lit "success" then .green
  else if st = Text.lit "failure" ∨ st = Text.lit "error" then .red
  else if st = Text.lit "pending" ∨ st = Text.lit "expected" ∨ st = [] then .pending
  else .unmeasured

def wordRank (word : RequiredChecksWord) : Nat := requiredChecksPrecedence.idxOf word

def stronger (a b : RequiredChecksWord) : RequiredChecksWord :=
  if wordRank a ≤ wordRank b then a else b

/-- The order of strings: by their units. -/
def unitsBefore : Text → Text → Bool
  | [], _ => true
  | _ :: _, [] => false
  | a :: before, b :: after => decide (a < b) || (a == b && unitsBefore before after)

structure FailingCheck where
  name : Text
  runId : Option Int
  deriving DecidableEq, Repr

structure RequiredVerdict where
  word : RequiredChecksWord
  fp : Text
  failing : List FailingCheck
  deriving DecidableEq, Repr

/-- The sorted `name=checkId` pairs of the check runs. -/
def checkPairs (line : PrLandingLine) : List Text :=
  (line.required.filterMap fun r => r.checkId.map fun checkId =>
    r.name ++ Text.unit '=' :: Text.ofInt checkId).mergeSort unitsBefore

def fingerprintOf (line : PrLandingLine) (digest : Text → Text) : Text :=
  (digest (Text.join (Text.lit "\n") (checkPairs line))).take 12

/-- The red contexts, each name and run once, in the order of the names. -/
def failingChecks (line : PrLandingLine) : List FailingCheck :=
  let red := (line.required.filter fun r => contextWord r == .red).map fun r =>
    (⟨r.name, r.runId⟩ : FailingCheck)
  (firstBy id [] red).mergeSort fun a b => unitsBefore a.name b.name

/-- The contexts marked required, the rules' names and the branch view's names. -/
def requiredNames (line : PrLandingLine) : List Text :=
  firstBy id [] (line.required.map (·.name) ++ line.rulesNamed ++ line.protectionNamed)

/-- The word of one required name. -/
def nameWord (line : PrLandingLine) (name : Text) : RequiredChecksWord :=
  let own := line.required.filter fun r => decide (r.name = name)
  let start : RequiredChecksWord := if own = [] then .notReported else .green
  let shown := own.foldl (fun w r => stronger w (contextWord r)) start
  -- A commit status carries no App id, so it shows nothing of a name pinned to an App.
  if own ≠ [] ∧ name ∈ line.pinnedNames ∧ own.all (·.checkId.isNone) = true then
    stronger shown .unverifiable
  else shown

def requiredChecksVerdict (line : PrLandingLine) (digest : Text → Text) : RequiredVerdict :=
  let fp := fingerprintOf line digest
  let failing := failingChecks line
  if !line.bound || decide (line.unmeasured ≠ []) || line.requiredCut then
    ⟨.unmeasured, fp, failing⟩
  else
    ⟨(requiredNames line).foldl (fun word name => stronger word (nameWord line name)) .green, fp,
      failing⟩

end Ccrc.Coord
