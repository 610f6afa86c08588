import Ccrc.Shared.Updates

/-! The resolver: the release that a node should move to, from its intent, its floor
and the catalogue. None of a function is a `RangeError` of the comparison. -/

set_option autoImplicit false

namespace Ccrc.Update

open Library Shared
open Library.Text (lit)

inductive UpdateChannel where
  | stable | dev
  deriving DecidableEq, Repr

def UpdateChannel.text : UpdateChannel → Text
  | .stable => lit "stable"
  | .dev => lit "dev"

inductive AutoMode where
  | off | stable | channel
  deriving DecidableEq, Repr

inductive TagFileRead where
  | measured | absent | unmeasured
  deriving DecidableEq, Repr

structure EligibilityRow where
  tag : Text
  channel : Option UpdateChannel
  bundleListed : Bool
  yanked : Bool
  deriving DecidableEq, Repr

structure IntentView where
  channel : Option UpdateChannel
  pinnedTag : Option Text
  auto : AutoMode

structure ResolveInput where
  currentVersion : Option Text
  highestVersion : Option Text
  floorRead : TagFileRead
  nodeIntent : Option IntentView
  fleetIntent : Option IntentView
  releases : List EligibilityRow
  refusedByThisNode : List Text

structure Resolution where
  channel : Option UpdateChannel
  desiredTag : Option Text
  resolveDetail : Option Text
  desiredStable : Option Text
  desiredDev : Option Text
  auto : AutoMode
  deriving DecidableEq

inductive PinnedIneligibleWhy where
  | notInCatalogue | noBundleListed | yanked | refusedByThisNode | notOnStable
  | unknownReleaseChannel
  deriving DecidableEq, Repr

def PinnedIneligibleWhy.text : PinnedIneligibleWhy → Text
  | .notInCatalogue => lit "it is not in the release catalogue"
  | .noBundleListed => lit "it lists no provenance bundle, so no node could verify it"
  | .yanked => lit "it was yanked from the catalogue"
  | .refusedByThisNode =>
      lit "it failed provenance verification on this node; ack the node to clear the refusal"
  | .notOnStable => lit "it is a prerelease and this node follows stable"
  | .unknownReleaseChannel => lit "its release channel is one this build does not know"

namespace ResolveDetail

def pinnedAtOrBelowFloor (pin floor : Text) : Text :=
  lit "pinned " ++ pin ++ lit " is at or below this node's floor " ++ floor ++
    lit " — pin a newer tag, or use rollback"

def notNewerThanFloor (newest floor : Text) : Text :=
  lit "newest eligible " ++ newest ++ lit " is not newer than this node's floor " ++ floor ++
    lit " — a yank or demotion cannot move a node down; a newer release will"

def atNewest (current : Text) (channel : UpdateChannel) : Text :=
  lit "runs " ++ current ++ lit ", the newest eligible release on " ++ channel.text ++
    lit " in the catalogue as last read"

def rolledBack (current floor : Text) : Text :=
  lit "this node was rolled back to " ++ current ++ lit " and its floor is " ++ floor ++
    lit " — auto stays off this tag until a release above " ++ floor ++
    lit " exists (decision 8)"

def noFloor : Text := lit "no floor and no measured version — nothing to compare against"

def floorUnmeasured : Text :=
  lit "this node's floor has not been measured — nothing resolves until it is"

def pinnedIneligible (pin : Text) (why : PinnedIneligibleWhy) : Text :=
  lit "pinned " ++ pin ++ lit " is not eligible on this node — " ++ why.text

def noEligible (channel : UpdateChannel) : Text :=
  lit "no eligible release on " ++ channel.text ++
    lit " — nothing is listed with a bundle, un-yanked and unrefused by this node"

def unknownChannel : Text :=
  lit "this node's intent names a channel this build does not know — nothing resolves until it is set again"

def noIntent : Text :=
  lit "no intent row for this node and none for the fleet ('*') — nothing resolves"

end ResolveDetail

/-- A stored version, where it is one that can be ordered. -/
def tagOf (version : Option Text) : Option Text := version.filter isReleaseTag

/-- The higher one of the floor file's tag and the running one. -/
def floorOf (highestVersion currentVersion : Option Text) : Option (Option Text) :=
  match tagOf highestVersion, tagOf currentVersion with
  | none, current => some current
  | some highest, none => some (some highest)
  | some highest, some current =>
      (isNewerTag current highest).map fun newer => some (if newer then current else highest)

/-- None: the release is eligible on the channel. -/
def ineligibleWhy (row : Option EligibilityRow) (channel : UpdateChannel) (refused : List Text) :
    Option PinnedIneligibleWhy :=
  match row with
  | none => some .notInCatalogue
  | some row =>
      if !isReleaseTag row.tag then some .notInCatalogue
      else if row.yanked then some .yanked
      else if !row.bundleListed then some .noBundleListed
      else if row.tag ∈ refused then some .refusedByThisNode
      else if row.channel.isNone then some .unknownReleaseChannel
      else if channel = .stable ∧ row.channel ≠ some .stable then some .notOnStable
      else none

/-- Newest first; only release tags are left to compare. -/
def eligibleTags (releases : List EligibilityRow) (channel : UpdateChannel)
    (refused : List Text) : List Text :=
  ((releases.filter fun r => (ineligibleWhy (some r) channel refused).isNone).map
    (·.tag)).mergeSort fun a b => compareReleaseTags b a != some .gt

structure ChannelAnswer where
  desiredTag : Option Text
  resolveDetail : Option Text
  deriving DecidableEq

/-- The answer of an unpinned node with eligible releases. -/
def resolveNewest (channel : UpdateChannel) (newest floor : Text)
    (currentVersion : Option Text) : Option ChannelAnswer := do
  if ← isNewerTag newest floor then return ⟨some newest, none⟩
  match tagOf currentVersion with
  | none => return ⟨none, some (ResolveDetail.notNewerThanFloor newest floor)⟩
  | some current =>
      if current = newest ∧ floor = current then
        return ⟨none, some (ResolveDetail.atNewest current channel)⟩
      else if ← isNewerTag floor current then
        return ⟨none, some (ResolveDetail.rolledBack current floor)⟩
      else return ⟨none, some (ResolveDetail.notNewerThanFloor newest floor)⟩

def resolveOnChannel (channel : UpdateChannel) (pin : Option Text) (input : ResolveInput) :
    Option ChannelAnswer :=
  if input.highestVersion = none ∧ input.floorRead = .unmeasured then
    some ⟨none, some ResolveDetail.floorUnmeasured⟩
  else do
    match ← floorOf input.highestVersion input.currentVersion with
    | none => return ⟨none, some ResolveDetail.noFloor⟩
    | some floor =>
        match pin with
        | some pin =>
            let row := input.releases.find? fun r => r.tag == pin
            match ineligibleWhy row channel input.refusedByThisNode with
            | some why => return ⟨none, some (ResolveDetail.pinnedIneligible pin why)⟩
            | none =>
                if ← isNewerTag pin floor then return ⟨some pin, none⟩
                else return ⟨none, some (ResolveDetail.pinnedAtOrBelowFloor pin floor)⟩
        | none =>
            match eligibleTags input.releases channel input.refusedByThisNode with
            | [] => return ⟨none, some (ResolveDetail.noEligible channel)⟩
            | newest :: _ => resolveNewest channel newest floor input.currentVersion

def nothing (resolveDetail : Text) (auto : AutoMode) : Resolution :=
  ⟨none, none, some resolveDetail, none, none, auto⟩

def resolveNodeIntent (input : ResolveInput) : Option Resolution :=
  match input.nodeIntent.or input.fleetIntent with
  | none => some (nothing ResolveDetail.noIntent .off)
  | some row =>
      match row.channel with
      | none => some (nothing ResolveDetail.unknownChannel row.auto)
      | some channel => do
          let mine ← resolveOnChannel channel row.pinnedTag input
          let stable ← resolveOnChannel .stable row.pinnedTag input
          let dev ← resolveOnChannel .dev row.pinnedTag input
          return ⟨some channel, mine.desiredTag, mine.resolveDetail, stable.desiredTag,
            dev.desiredTag, row.auto⟩

end Ccrc.Update
