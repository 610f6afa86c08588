import Ccrc.Library.Greedy
import Ccrc.Shared.LandingLine

/-! The order of a landing line and the entry that may land next, from a project's
entries and its two flags. -/

set_option autoImplicit false

namespace Ccrc.Coord

open Library Shared

inductive LandingPauseBy where
  | operator | mainRed
  deriving DecidableEq, Repr

/-- The flag that each word names. -/
def landingPauseBy (flags : LandingLineFlags) : LandingPauseBy → Bool
  | .operator => flags.operatorPaused
  | .mainRed => flags.mainRedHold

def landingPauseBys : List LandingPauseBy := [.operator, .mainRed]

/-- The answer: not paused with the entry that may land next, or paused by a flag.
`held` names the unresolved subjects. -/
inductive LandingOrder where
  | running (order : List LandingEntry) (head : Option LandingEntry) (held : Option (List Int))
  | paused (by_ : List LandingPauseBy) (order : List LandingEntry) (held : Option (List Int))
  deriving DecidableEq, Repr

def LandingOrder.order : LandingOrder → List LandingEntry
  | .running order _ _ => order
  | .paused _ order _ => order

def LandingOrder.head : LandingOrder → Option LandingEntry
  | .running _ head _ => head
  | .paused _ _ _ => none

/-- First-green: `fixesMain` entries first, then the earlier pin, then the lower PR. -/
def byKey (a b : LandingEntry) : Int :=
  let fixes := (b.fixesMain.toNat : Int) - a.fixesMain.toNat
  if fixes ≠ 0 then fixes
  else if a.pinnedAt - b.pinnedAt ≠ 0 then a.pinnedAt - b.pinnedAt
  else a.pr - b.pr

def LandingEntry.isPinned (entry : LandingEntry) : Bool := entry.state == .pinned

/-- The pinned entries in key order. -/
def pinnedLine (entries : List LandingEntry) : List LandingEntry :=
  (entries.filter LandingEntry.isPinned).mergeSort fun a b => decide (byKey a b ≤ 0)

/-- The ids that hold an entry back. -/
def outstandingIds (entries : List LandingEntry) : List Int :=
  (entries.filter fun entry =>
    entry.state == .pinned || entry.state == .ejected || entry.state == .unknown).map (·.id)

/-- Every target of the entry is not outstanding or was taken. -/
def landingReady (outstanding : List Int) (taken : List LandingEntry) (entry : LandingEntry) :
    Bool :=
  entry.afterIds.all fun target => decide (target ∉ outstanding) || decide (target ∈ taken.map (·.id))

/-- What the loop takes, in its order; an entry that was taken is no longer in the rest. -/
def takenLine (entries : List LandingEntry) : List LandingEntry :=
  let line := pinnedLine entries
  greedy line (landingReady (outstandingIds entries)) line.length []

def landingOrder (entries : List LandingEntry) (flags : LandingLineFlags)
    (recovery : Option LandingRecovery) : LandingOrder :=
  let taken := takenLine entries
  let head := taken.head?
  -- What waits on an ejected or unknown target, or on a cycle, goes last in key order.
  let order := taken ++ (pinnedLine entries).filter fun entry => decide (entry ∉ taken)
  let by_ := landingPauseBys.filter (landingPauseBy flags)
  let held := recovery.bind (·.hold)
  if by_ ≠ [] then .paused by_ order held
  else if held.isSome then .running order none held
  else .running order head none

end Ccrc.Coord
