import Mathlib

/-! Strings as ECMAScript has them: finite sequences of 16-bit code units. No
unit is excluded, so unpaired surrogates are ordinary text here. -/

set_option autoImplicit false

namespace Ccrc.Library

abbrev Text : Type := List UInt16

instance : LawfulBEq Text := inferInstance

namespace Text

/-- The code unit of a character of the basic plane. -/
def unit (character : Char) : UInt16 := UInt16.ofNat character.toNat

/-- A literal of characters of the basic plane. -/
def lit (literal : String) : Text := literal.toList.map unit

def startsWith (text lead : Text) : Bool := lead.isPrefixOf text

def endsWith (text trail : Text) : Bool := trail.isSuffixOf text

/-- `text.includes(part)` -/
def includes (part : Text) : Text → Bool
  | [] => part.isEmpty
  | first :: rest => startsWith (first :: rest) part || includes part rest

/-- `.` of a pattern, anything but a line terminator. -/
def isDot (character : UInt16) : Bool :=
  character != 0x0A && character != 0x0D && character != 0x2028 && character != 0x2029

/-- A natural number in decimal digits. -/
def ofNat (number : Nat) : Text := (Nat.toDigits 10 number).map unit

def ofInt : Int → Text
  | .ofNat number => ofNat number
  | .negSucc number => unit '-' :: ofNat (number + 1)

/-- `items.join(separator)`. -/
def join (separator : Text) : List Text → Text
  | [] => []
  | [item] => item
  | item :: rest => item ++ separator ++ join separator rest

/-- The text before and after the first occurrence of a unit. -/
def cut (separator : UInt16) : Text → Option (Text × Text)
  | [] => none
  | head :: rest =>
      if head = separator then some ([], rest)
      else (cut separator rest).map fun (before, after) => (head :: before, after)

def isDigit (character : UInt16) : Bool := unit '0' ≤ character && character ≤ unit '9'

/-- `[0-9a-f]`, the digits a hash is written with. -/
def isLowerHex (character : UInt16) : Bool :=
  isDigit character || (unit 'a' ≤ character && character ≤ unit 'f')

/-- `/^[0-9a-f]{count}$/`. -/
def isHexOf (count : Nat) (text : Text) : Bool :=
  text.length == count && text.all isLowerHex

/-- Where a unit stands among the code points that texts are ordered by: a surrogate
comes after the rest of the basic plane. -/
def codePointRank (character : UInt16) : Nat :=
  if character < 0xD800 then character.toNat
  else if character < 0xE000 then character.toNat + 0x2000
  else character.toNat - 0x800

/-- The order of the bytes of two texts in UTF-8. -/
def binaryBefore : Text → Text → Bool
  | _, [] => false
  | [], _ :: _ => true
  | first :: before, second :: after =>
      decide (codePointRank first < codePointRank second) ||
        (first == second && binaryBefore before after)

/-- White space and line terminators, as `trim` knows them. -/
def isWhiteSpace (character : UInt16) : Bool :=
  (9 ≤ character && character ≤ 13) || character == 0x20 || character == 0xA0 ||
    character == 0x1680 || (0x2000 ≤ character && character ≤ 0x200A) || character == 0x2028 ||
    character == 0x2029 || character == 0x202F || character == 0x205F || character == 0x3000 ||
    character == 0xFEFF

def trimStart (text : Text) : Text := text.dropWhile isWhiteSpace

def trim (text : Text) : Text := (trimStart (trimStart text).reverse).reverse

/-- Nonempty and its own trimming. -/
def isNonblank (text : Text) : Bool := text != [] && text == text.trim

end Text

end Ccrc.Library
