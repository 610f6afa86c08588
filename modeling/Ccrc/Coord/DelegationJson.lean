import Ccrc.Library.Json
import Ccrc.Library.Utf8

/-! Canonical JSON over the closed domain of the delegation records: the members of an
object in the order of their names' units, no optional blanks, and a refusal of what
UTF-8 or a safe integer cannot carry. -/

set_option autoImplicit false

namespace Ccrc.Coord

open Library
open Library.Text (lit unit)

/-- The message of a `DelegationJsonError`. -/
abbrev DelegationJsonError : Type := Text

/-- Not after, by UTF-16 code units. -/
def byCodeUnits (a b : Text) : Prop := ¬b < a

instance : DecidableRel byCodeUnits := fun a b => inferInstanceAs (Decidable (¬b < a))

def wellFormed (text place : Text) : Except DelegationJsonError Text :=
  if Utf8.isWellFormed text then .ok text else .error (place ++ lit " holds a lone surrogate")

mutual

/-- The members of every object in the order they are written. -/
def sortedMembers : Json Int → Json Int
  | .null => .null
  | .bool value => .bool value
  | .number value => .number value
  | .string text => .string text
  | .array items => .array (sortedItems items)
  | .object fields =>
      .object ((sortedFields fields).insertionSort fun a b => byCodeUnits a.1 b.1)

def sortedItems : List (Json Int) → List (Json Int)
  | [] => []
  | item :: rest => sortedMembers item :: sortedItems rest

def sortedFields : List (Text × Json Int) → List (Text × Json Int)
  | [] => []
  | (key, value) :: rest => (key, sortedMembers value) :: sortedFields rest

end

mutual

/-- The encoding of a value whose members are in order; the place is for the refusal. -/
def canon (place : Text) : Json Int → Except DelegationJsonError Text
  | .null => .ok (lit "null")
  | .bool true => .ok (lit "true")
  | .bool false => .ok (lit "false")
  | .string text => (wellFormed text place).map Json.writeString
  | .number value =>
      if value.natAbs ≤ Number.maxSafeInteger.toNat then .ok (Text.ofInt value)
      else .error (place ++ lit " is an integer outside the JavaScript safe range")
  | .array items => do
      let written ← canonItems place 0 items
      return lit "[" ++ Text.join (lit ",") written ++ lit "]"
  | .object fields => do
      let written ← canonFields place fields
      return lit "\x7b" ++ Text.join (lit ",") written ++ lit "\x7d"

def canonItems (place : Text) (index : Nat) :
    List (Json Int) → Except DelegationJsonError (List Text)
  | [] => .ok []
  | item :: rest => do
      let first ← canon (place ++ lit "[" ++ Text.ofNat index ++ lit "]") item
      return first :: (← canonItems place (index + 1) rest)

def canonFields (place : Text) :
    List (Text × Json Int) → Except DelegationJsonError (List Text)
  | [] => .ok []
  | (key, value) :: rest => do
      let name ← wellFormed key (place ++ lit " key")
      let member ← canon (place ++ lit "." ++ key) value
      return (Json.writeString name ++ lit ":" ++ member) :: (← canonFields place rest)

end

def canonicalDelegationJson (value : Json Int) : Except DelegationJsonError Text :=
  canon (lit "$") (sortedMembers value)

example : canonicalDelegationJson (.object [(lit "b", .number 2), (lit "a", .array [.null])]) =
    .ok (lit "\x7b\"a\":[null],\"b\":2\x7d") := by
  decide +kernel

end Ccrc.Coord
