import Ccrc.Update.ReleaseWindow

/-! The window of releases that the phone lists: at most three rows in a group, the others
counted. -/

set_option autoImplicit false

namespace Ccrc.Pwa

open Library Shared Update

inductive NodeOs where
  | linux | darwin | unknown
  deriving DecidableEq, Repr

inductive StampRead where
  | ok | absent | unreadable | malformed
  deriving DecidableEq, Repr

/-- A node on the wire, as far as the window reads it; `version` is its build's. -/
structure NodeWire where
  label : Text
  os : NodeOs
  version : Option Text
  stampRead : StampRead
  measuredAt : Option Int
  reachable : Bool
  channel : Option UpdateChannel
  desiredTag : Option Text
  highestVersion : Option Text
  previousVersion : Option Text
  deriving DecidableEq, Repr

/-- The running tag, where it is one to compare. -/
def nodeVersion (n : NodeWire) : Option Text := tagOf n.version

def isManagedNode (n : NodeWire) : Bool := n.os != .darwin

/-- The reading vouches for its version. -/
def statedOf (n : NodeWire) : Bool := n.measuredAt.isSome && n.stampRead == .ok && n.reachable

/-- The tag that a node should move up to. -/
def pendingTag (n : NodeWire) : Option Text :=
  if !statedOf n || n.channel.isNone || n.os == .darwin then none
  else
    match tagOf n.desiredTag with
    | none => none
    | some want =>
        match nodeVersion n with
        | none => some want
        | some have' => if newerTag want have' then some want else none

/-- The newest pending tag of the nodes. -/
def newestPending (nodes : List NodeWire) : Option Text :=
  nodes.foldl (fun best n =>
    match pendingTag n, best with
    | none, best => best
    | some tag, none => some tag
    | some tag, some best => if newerTag tag best then some tag else some best) none

def releaseWindowMax : Nat := 3

structure WindowRow where
  release : ReleaseWire
  ranBefore : Bool
  floored : List Text
  installBlocked : Bool
  deriving DecidableEq, Repr

inductive WindowState where
  | measured | unmeasured | unmanaged
  deriving DecidableEq, Repr

inductive WindowRule where
  | stable | dev
  deriving DecidableEq, Repr

structure RunningRow where
  tag : Text
  release : Option ReleaseWire
  deriving DecidableEq, Repr

structure MixedSpan where
  lo : Text
  hi : Text
  deriving DecidableEq, Repr

structure ReleaseWindow where
  state : WindowState
  newer : List WindowRow
  newerHidden : Int
  running : Option RunningRow
  mixed : Option MixedSpan
  rollback : List WindowRow
  olderHidden : Int
  rule : WindowRule
  pending : Option Text
  unreported : List Text
  notMeasured : List Text
  empty : Bool
  deriving DecidableEq, Repr

/-- Stable sees Stable only; an unread channel narrows nothing. -/
def onChannel (r : ReleaseWire) (channel : Option UpdateChannel) : Bool :=
  if channel = some .stable then isStable r else true

def row (release : ReleaseWire) : WindowRow := ⟨release, false, [], false⟩

/-- The rows that the server's window left out. -/
def leftOutByServer (releasesTotal : Option Int) (sent : Int) : Int :=
  match releasesTotal with
  | none => 0
  | some total => if sent ≤ total then total - sent else 0

section

variable (releases : List ReleaseWire) (nodes : List NodeWire) (channel : Option UpdateChannel)

def managedNodes : List NodeWire := nodes.filter isManagedNode

def unreportedNodes : List NodeWire :=
  (managedNodes nodes).filter fun n => decide (nodeVersion n = none)

def notMeasuredNodes : List NodeWire :=
  (managedNodes nodes).filter fun n => (nodeVersion n).isSome && n.measuredAt.isNone

/-- The fleet is measured: every managed node's version, and the channel. -/
def isMeasured : Bool :=
  decide (managedNodes nodes ≠ []) && decide (unreportedNodes nodes = []) &&
    decide (notMeasuredNodes nodes = []) && channel.isSome

/-- The versions of the managed nodes, the oldest first. -/
def managedVersions : List Text :=
  ((managedNodes nodes).filterMap nodeVersion).insertionSort fun a b => ¬newerTag a b

/-- A row that the one group of an unmeasured or unmanaged fleet may show. -/
def isEligible (r : ReleaseWire) : Bool :=
  onChannel r channel && (decide (managedNodes nodes = []) || !r.yanked)

/-- The window of an unmeasured or unmanaged fleet. -/
def unmeasuredWindow (leftOut : Int) (base : ReleaseWindow) : ReleaseWindow :=
  let tagged := (sortReleases releases).filter fun r => isReleaseTag r.tag
  let shown := (tagged.filter (isEligible nodes channel)).take releaseWindowMax
  let older : Int :=
    match shown.getLast? with
    | none => tagged.length
    | some last =>
        (tagged.filter fun r => newerTag last.tag r.tag && decide (r ∉ shown)).length
  { base with
    state := if managedNodes nodes = [] then .unmanaged else .unmeasured
    newer := shown.map row
    olderHidden := older + leftOut }

/-- The managed nodes whose floor is at or above the tag. -/
def flooredNodes (tag : Text) : List NodeWire :=
  (managedNodes nodes).filter fun n =>
    match tagOf n.highestVersion with
    | none => false
    | some highest => !newerTag tag highest

/-- The previous version of the managed nodes, where they have one and the same. -/
def sharedPrevious : Option Text :=
  match firstBy id [] ((managedNodes nodes).map (·.previousVersion)) with
  | [shared] => tagOf shared
  | _ => none

/-- The rows to roll back to, the fleet's shared previous version among them. -/
def rollbackRows (older : List ReleaseWire) : List WindowRow :=
  let picked := (older.filter fun r => onChannel r channel).take releaseWindowMax
  let prevRow := (sharedPrevious nodes).bind fun shared =>
    older.find? fun r => decide (r.tag = shared)
  let picked :=
    match prevRow with
    | none => picked
    | some prev =>
        if prev ∈ picked then picked
        else if releaseWindowMax ≤ picked.length then
          newestFirst (picked.set (releaseWindowMax - 1) prev)
        else newestFirst (picked ++ [prev])
  picked.map fun r => ⟨r, decide (some r = prevRow), [], false⟩

def measuredWindow (leftOut : Int) (base : ReleaseWindow) (lo hi : Text) : ReleaseWindow :=
  let tagged := (sortReleases releases).filter fun r => isReleaseTag r.tag
  let candidates := tagged.filter fun r =>
    newerTag r.tag hi && onChannel r channel && !r.yanked
  let waiting := candidates.find? fun r => decide (some r.tag = base.pending)
  let ordered :=
    match waiting with
    | none => candidates
    | some waiting => waiting :: candidates.filter fun r => decide (r ≠ waiting)
  let newer := (ordered.take releaseWindowMax).map fun r =>
    let floored := flooredNodes nodes r.tag
    (⟨r, false, floored.map (·.label),
      decide (floored.length = (managedNodes nodes).length)⟩ : WindowRow)
  let mixed := if lo = hi then none else some ⟨lo, hi⟩
  let running :=
    match mixed with
    | none => some ⟨hi, tagged.find? fun r => decide (r.tag = hi)⟩
    | some _ => none
  let older := tagged.filter fun r => newerTag lo r.tag
  let rollback := rollbackRows nodes channel older
  { base with
    state := .measured
    newer := newer
    newerHidden := (candidates.length : Int) - newer.length
    running := running
    mixed := mixed
    rollback := rollback
    olderHidden := (older.length : Int) - rollback.length + leftOut }

def releaseWindow (releasesTotal : Option Int) : ReleaseWindow :=
  let leftOut := leftOutByServer releasesTotal releases.length
  let base : ReleaseWindow :=
    { state := .measured, newer := [], newerHidden := 0, running := none, mixed := none,
      rollback := [], olderHidden := 0,
      rule := if channel = some .stable then .stable else .dev,
      pending := newestPending nodes,
      unreported := (unreportedNodes nodes).map (·.label),
      notMeasured := (notMeasuredNodes nodes).map (·.label),
      empty := decide (releases = []) }
  if !isMeasured nodes channel then unmeasuredWindow releases nodes channel leftOut base
  else
    match (managedVersions nodes).head?, (managedVersions nodes).getLast? with
    | some lo, some hi => measuredWindow releases nodes channel leftOut base lo hi
    | _, _ => base

end

end Ccrc.Pwa
