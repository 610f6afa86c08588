import Ccrc.Library.Text

/-! The states of a node's update, which of them halt the fleet, and release tags:
`vX.Y.Z`, compared by their digits. -/

set_option autoImplicit false

namespace Ccrc.Shared

open Library

inductive UpdateState where
  | idle | pending | applying | reverted | failed | unknown
  deriving DecidableEq, Repr

def UpdateState.text : UpdateState → Text
  | .idle => Text.lit "idle"
  | .pending => Text.lit "pending"
  | .applying => Text.lit "applying"
  | .reverted => Text.lit "reverted"
  | .failed => Text.lit "failed"
  | .unknown => Text.lit "unknown"

def updateStates : List UpdateState := [.idle, .pending, .applying, .reverted, .failed, .unknown]

/-- The member a stored word names, where it names one. -/
def isUpdateState (word : Text) : Option UpdateState := updateStates.find? (·.text == word)

inductive SettledUpdateState where
  | idle | reverted | failed
  deriving DecidableEq, Repr

def SettledUpdateState.state : SettledUpdateState → UpdateState
  | .idle => .idle
  | .reverted => .reverted
  | .failed => .failed

def settledUpdateStates : List SettledUpdateState := [.idle, .reverted, .failed]

/-- A word of `SETTLED_UPDATE_STATES`. -/
def isSettledWord (word : Text) : Bool := settledUpdateStates.any (·.state.text == word)

def busyUpdateStates : List UpdateState := [.pending, .applying, .unknown]

def provenanceDetailPrefix : Text := Text.lit "provenance:"

/-- Settled and not idle, but for a failure that is a verdict on the release. -/
def isHaltingUpdate (state : Text) (detail : Option Text) : Bool :=
  if !isSettledWord state || state == UpdateState.idle.text then false
  else if state == UpdateState.failed.text &&
      detail.any (·.startsWith provenanceDetailPrefix) then false
  else true

inductive RequestKind where
  | update | rollback
  deriving DecidableEq, Repr

def RequestKind.text : RequestKind → Text
  | .update => Text.lit "update"
  | .rollback => Text.lit "rollback"

def isRequestKind (word : Text) : Option RequestKind :=
  [RequestKind.update, .rollback].find? (·.text == word)

/-! ## Release tags -/

def isDigits (text : Text) : Bool := text != [] && text.all Text.isDigit

/-- The three components of a tag. -/
def releaseComponents (tag : Text) : Option (Text × Text × Text) :=
  match tag with
  | [] => none
  | lead :: rest =>
      if lead = Text.unit 'v' then
        match rest.splitOn (Text.unit '.') with
        | [major, minor, patch] =>
            if isDigits major && isDigits minor && isDigits patch then some (major, minor, patch)
            else none
        | _ => none
      else none

/-- `/^v[0-9]+\.[0-9]+\.[0-9]+$/`. -/
def isReleaseTag (tag : Text) : Bool := (releaseComponents tag).isSome

/-- A component without its leading zeros; `000` is `0`. -/
def stripZeros : Text → Text
  | zero :: next :: rest =>
      if zero = Text.unit '0' then stripZeros (next :: rest) else zero :: next :: rest
  | text => text

/-- Strings of digits by length and then by their digits. -/
def compareDigits (first second : Text) : Ordering :=
  if first.length ≠ second.length then compare first.length second.length
  else if first = second then .eq
  else if Text.binaryBefore second first then .gt
  else .lt

/-- None is a `RangeError`: one of the two is no release tag. -/
def compareReleaseTags (first second : Text) : Option Ordering := do
  let (major, minor, patch) ← releaseComponents first
  let (otherMajor, otherMinor, otherPatch) ← releaseComponents second
  return (compareDigits (stripZeros major) (stripZeros otherMajor)).then
    ((compareDigits (stripZeros minor) (stripZeros otherMinor)).then
      (compareDigits (stripZeros patch) (stripZeros otherPatch)))

def isNewerTag (first second : Text) : Option Bool :=
  (compareReleaseTags first second).map (· == .gt)

example : isNewerTag (Text.lit "v0.0.10") (Text.lit "v0.0.9") = some true := by decide +kernel

example : compareReleaseTags (Text.lit "v0.0.010") (Text.lit "v0.0.10") = some .eq := by
  decide +kernel

end Ccrc.Shared
