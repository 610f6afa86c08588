import Ccrc.Library.Lists
import Ccrc.Update.Resolve

/-! The server's release window: the rows of the catalogue that are sent, by six rules. -/

set_option autoImplicit false

namespace Ccrc.Update

open Library Shared

/-- `isNewerTag` of two tags that are known to be release tags. -/
def newerTag (first second : Text) : Bool := (isNewerTag first second).getD false

structure ReleaseRefusalWire where
  refusedBy : Text
  atTime : Int
  deriving DecidableEq, Repr

/-- A row of the release catalogue, as far as the windows read it. -/
structure ReleaseWire where
  tag : Text
  channel : Option UpdateChannel
  yanked : Bool
  refused : List ReleaseRefusalWire
  deriving DecidableEq, Repr

/-- Newest first; rows of one version keep their order. -/
def newestFirst (releases : List ReleaseWire) : List ReleaseWire :=
  releases.insertionSort fun a b => ¬newerTag b.tag a.tag

/-- Release-tag rows newest first, the other rows after them in their own order. -/
def sortReleases (releases : List ReleaseWire) : List ReleaseWire :=
  newestFirst (releases.filter fun r => isReleaseTag r.tag) ++
    releases.filter fun r => !isReleaseTag r.tag

/-- The newest releases always on the wire. -/
def releaseWindowRecent : Nat := 30

/-- The older releases kept per installed tag. -/
def releaseWindowStableBack : Nat := 3

structure ReleaseWindowContext where
  installed : List Text
  previous : List Text
  intentTags : List Text
  recent : Nat
  stableBack : Nat
  deriving DecidableEq, Repr

def isStable (r : ReleaseWire) : Bool := r.channel == some .stable

def olderOf (lo : Option Text) (t : Text) : Option Text :=
  match lo with
  | none => some t
  | some lo => if newerTag lo t then some t else some lo

def oldestTag (installed : List Text) : Option Text := installed.foldl olderOf none

/-- The rows newer than the oldest installed tag. -/
def newerRows (tagged : List ReleaseWire) (oldest : Option Text) : List ReleaseWire :=
  match oldest with
  | none => []
  | some oldest => tagged.filter fun r => newerTag r.tag oldest

/-- The rows kept behind an installed tag: the newest older ones of any channel and the newest
older Stable ones, `any` and `stable` of them kept so far. -/
def keepBehind (stableBack : Nat) (t : Text) : Nat → Nat → List ReleaseWire → List ReleaseWire
  | _, _, [] => []
  | any, stable, r :: rest =>
      if !newerTag t r.tag then keepBehind stableBack t any stable rest
      else
        let takesAny := decide (any < stableBack)
        let takesStable := isStable r && decide (stable < stableBack)
        let any := if takesAny then any + 1 else any
        let stable := if takesStable then stable + 1 else stable
        let kept := if takesAny || takesStable then [r] else []
        if stableBack ≤ any ∧ stableBack ≤ stable then kept
        else kept ++ keepBehind stableBack t any stable rest

/-- The newest Stable rows that are not withdrawn, `waiting` of them kept so far. -/
def keepStable (stableBack : Nat) : Nat → List ReleaseWire → List ReleaseWire
  | _, [] => []
  | waiting, r :: rest =>
      if stableBack ≤ waiting then []
      else if isStable r && !r.yanked then r :: keepStable stableBack (waiting + 1) rest
      else keepStable stableBack waiting rest

def releaseWindow (releases : List ReleaseWire) (ctx : ReleaseWindowContext) :
    List ReleaseWire :=
  let tagged := newestFirst (releases.filter fun r => isReleaseTag r.tag)
  let sorted := tagged ++ releases.filter fun r => !isReleaseTag r.tag
  let installed := ctx.installed.filter isReleaseTag
  let recent := sorted.take ctx.recent
  let newer := newerRows tagged (oldestTag installed)
  let named := ctx.previous ++ ctx.intentTags ++ installed
  let byName := releases.filter fun r => decide (r.tag ∈ named)
  let behind := (firstBy id [] installed).flatMap fun t => keepBehind ctx.stableBack t 0 0 tagged
  let stable := keepStable ctx.stableBack 0 tagged
  let refused := releases.filter fun r => r.refused != []
  let keep := recent ++ newer ++ byName ++ behind ++ stable ++ refused
  sorted.filter fun r => decide (r ∈ keep)

end Ccrc.Update
