import Ccrc.Library.Lists
import Ccrc.Library.Text

/-! A lane's class registry and its catalogue, and the rules by which a class moves
on to a newer model of its family. -/

set_option autoImplicit false

namespace Ccrc.Shared

open Library
open Library.Text (unit)

inductive ModelClass where
  | haiku | sonnet | opus | fable
  deriving DecidableEq, Repr

def classes : List ModelClass := [.haiku, .sonnet, .opus, .fable]

/-- The ids a lane may discover: its catalogue's, or a list as written. -/
inductive Discovery where
  | catalogue
  | list (ids : List Text)

structure Registry where
  classes : ModelClass → Option Text
  discovery : Discovery

structure CatalogueModel where
  id : Text
  hidden : Bool

structure Catalogue where
  stale : Bool
  models : List CatalogueModel

def resolveDiscovery (reg : Registry) (catalogue : Option Catalogue) : List Text :=
  match reg.discovery with
  | .list ids => ids
  | .catalogue =>
      match catalogue with
      | none => []
      | some catalogue => (catalogue.models.filter fun m => !m.hidden).map (·.id)

/-! ## Model ids -/

structure ParsedModelId where
  vendor : Text
  version : List Nat
  family : Text

def isLower (character : UInt16) : Bool := unit 'a' ≤ character && character ≤ unit 'z'

/-- `^[a-z][a-z0-9]*$`. -/
def isWord : Text → Bool
  | [] => false
  | first :: rest => isLower first && rest.all fun c => isLower c || Text.isDigit c

/-- `0|[1-9][0-9]{0,5}`. -/
def isVersionPart : Text → Bool
  | [] => false
  | first :: rest =>
      if first = unit '0' then rest.isEmpty
      else Text.isDigit first && rest.all Text.isDigit && decide (rest.length ≤ 5)

def isVersion (text : Text) : Bool :=
  let parts := text.splitOn (unit '.')
  parts.all isVersionPart && decide (parts.length ≤ 4)

def digitsValue (text : Text) : Nat :=
  text.foldl (fun value digit => 10 * value + (digit.toNat - (unit '0').toNat)) 0

/-- `<vendor>-<version>-<family>`; none for an id of any other shape. -/
def parseModelId (id : Text) : Option ParsedModelId :=
  match id.splitOn (unit '-') with
  | [vendor, version, family] =>
      if !isWord vendor || !isVersion version || !isWord family then none
      else some ⟨vendor, (version.splitOn (unit '.')).map digitsValue, family⟩
  | _ => none

def familyOf (id : Option Text) : Option Text := (id.bind parseModelId).map (·.family)

/-- The parts at one index, a missing part read as 0. -/
def comparePart (a b : List Nat) (i : Nat) : Option Int :=
  let x := a.getD i 0
  let y := b.getD i 0
  if x ≠ y then some (if x > y then 1 else -1) else none

def compareVersions (a b : List Nat) : Int :=
  ((List.range (max a.length b.length)).findSome? (comparePart a b)).getD 0

/-! ## Choosing a candidate -/

/-- Inside the discovery scope and listed visible, each id once. -/
def eligibleIds (registry : Registry) (catalogue : Option Catalogue) : List Text :=
  match catalogue with
  | none => []
  | some found =>
      let visible := (found.models.filter fun m => !m.hidden).map (·.id)
      (firstBy id [] (resolveDiscovery registry catalogue)).filter (· ∈ visible)

inductive AdvanceReason where
  | newer | retired | empty
  deriving DecidableEq, Repr

inductive BlockedCause where
  | pinGrammar | sharedFamily
  deriving DecidableEq, Repr

structure Choice where
  candidate : Option Text
  reason : Option AdvanceReason
  blocked : Option BlockedCause
  deriving DecidableEq

def Choice.none : Choice := ⟨.none, .none, .none⟩

/-- An eligible id of the family that is followed. -/
structure InFamily where
  id : Text
  version : List Nat

def inFamily (registry : Registry) (catalogue : Option Catalogue) (fam : Option Text) :
    List InFamily :=
  (eligibleIds registry catalogue).filterMap fun id =>
    match parseModelId id with
    | some p => if some p.family = fam then some ⟨id, p.version⟩ else none
    | none => none

def otherPins (registry : Registry) (cls : ModelClass) : List Text :=
  (classes.filter (· ≠ cls)).filterMap registry.classes

def topVersion (members : List InFamily) : Option (List Nat) :=
  members.foldl (fun v m =>
    match v with
    | none => some m.version
    | some top => if compareVersions m.version top > 0 then some m.version else some top) none

/-- Another class holds an id at the family's newest version. -/
def sharesFamily (members : List InFamily) (pin : Option Text) (others : List Text) : Bool :=
  match topVersion members with
  | none => false
  | some top =>
      members.any fun m =>
        decide (compareVersions m.version top = 0) && decide (some m.id ≠ pin) &&
          decide (m.id ∈ others)

def untied (members : List InFamily) : List InFamily :=
  members.filter fun m =>
    (members.filter fun o => decide (compareVersions o.version m.version = 0)).length == 1

def newestFirst (members : List InFamily) : List InFamily :=
  members.mergeSort fun x y => decide (compareVersions y.version x.version ≤ 0)

/-- The first of those a class may take. -/
def firstOf (reason : AdvanceReason) : List InFamily → Choice
  | [] => Choice.none
  | first :: _ => { Choice.none with candidate := some first.id, reason := some reason }

def chooseCandidate (registry : Registry) (catalogue : Option Catalogue) (cls : ModelClass)
    (family : Option Text) : Choice :=
  let pin := registry.classes cls
  if pin.isSome ∧ (pin.bind parseModelId).isNone then
    { Choice.none with blocked := some .pinGrammar }
  else
    let fam := if pin.isSome then familyOf pin else family
    let members := inFamily registry catalogue fam
    let others := otherPins registry cls
    if sharesFamily members pin others then { Choice.none with blocked := some .sharedFamily }
    else
      let free := (newestFirst (untied members)).filter fun m =>
        decide (some m.id ≠ pin) && decide (m.id ∉ others)
      match pin with
      | none => firstOf .empty free
      | some pin =>
          match catalogue with
          | none => Choice.none
          | some found =>
              if found.models.any fun m => decide (m.id = pin) then
                let pinVersion := ((parseModelId pin).map (·.version)).getD []
                firstOf .newer (free.filter fun m =>
                  decide (compareVersions m.version pinVersion > 0))
              else if found.stale then Choice.none
              else firstOf .retired free

/-! ## Moves -/

/-- A class's pin set to its candidate, when there is one. -/
def advanceClass (catalogue : Option Catalogue) (families : ModelClass → Option Text)
    (registry : Registry) (cls : ModelClass) : Registry :=
  match (chooseCandidate registry catalogue cls (families cls)).candidate with
  | none => registry
  | some id => { registry with classes := Function.update registry.classes cls (some id) }

end Ccrc.Shared
