import Ccrc.Library.Utf8

/-! Strings as Python holds them: lists of code points, unpaired surrogates among
them. -/

set_option autoImplicit false

namespace Ccrc.Library

abbrev CodePoint : Type := Fin 0x110000

abbrev Str : Type := List CodePoint

instance codePointNeZero : NeZero 0x110000 := ⟨by decide⟩

instance : LawfulBEq Str := inferInstance

namespace Str

def point (character : Char) : CodePoint := Fin.ofNat 0x110000 character.toNat

/-- The code points of a literal. -/
def lit (literal : String) : Str := literal.toList.map point

def ofNat (number : Nat) : Str := (Nat.toDigits 10 number).map point

def ofInt : Int → Str
  | .ofNat number => ofNat number
  | .negSucc number => point '-' :: ofNat (number + 1)

def startsWith (text lead : Str) : Bool := lead.isPrefixOf text

/-- `separator.join(texts)`. -/
def join (separator : Str) : List Str → Str
  | [] => []
  | [text] => text
  | text :: rest => text ++ separator ++ join separator rest

def isSurrogate (c : CodePoint) : Bool := 0xD800 ≤ c.val && c.val ≤ 0xDFFF

def isDigit (c : CodePoint) : Bool := 48 ≤ c.val && c.val ≤ 57

/-- What `str.strip` removes and `str.isspace` counts. -/
def isSpace (c : CodePoint) : Bool :=
  (9 ≤ c.val && c.val ≤ 13) || (28 ≤ c.val && c.val ≤ 32) || c.val == 0x85 || c.val == 0xA0 ||
    c.val == 0x1680 || (0x2000 ≤ c.val && c.val ≤ 0x200A) || c.val == 0x2028 ||
    c.val == 0x2029 || c.val == 0x202F || c.val == 0x205F || c.val == 0x3000

/-- The UTF-8 bytes of a code point that is no surrogate. -/
def encodePoint (c : CodePoint) : Bytes :=
  if c.val < 0x80 then [UInt8.ofNat c.val]
  else if c.val < 0x800 then [UInt8.ofNat (0xC0 + c.val / 64), Utf8.tail c.val]
  else if c.val < 0x10000 then
    [UInt8.ofNat (0xE0 + c.val / 0x1000), Utf8.tail (c.val / 64), Utf8.tail c.val]
  else
    [UInt8.ofNat (0xF0 + c.val / 0x40000), Utf8.tail (c.val / 0x1000), Utf8.tail (c.val / 64),
      Utf8.tail c.val]

/-- `text.encode("utf-8")`; none is a `UnicodeEncodeError`. -/
def encode? (text : Str) : Option Bytes :=
  if text.any isSurrogate then none else some (text.flatMap encodePoint)

/-- The bytes of a text known to hold ASCII alone. -/
def ascii (literal : String) : Bytes := literal.toList.map fun c => UInt8.ofNat c.toNat

theorem encode?_append {first second : Str} {before after : Bytes}
    (left : encode? first = some before) (right : encode? second = some after) :
    encode? (first ++ second) = some (before ++ after) := by
  simp only [encode?, Option.ite_none_left_eq_some] at left right
  simp only [encode?, List.any_append, Bool.or_eq_true, not_or, List.flatMap_append,
    Option.ite_none_left_eq_some, Option.some.injEq]
  exact ⟨⟨left.1, right.1⟩, by rw [Option.some.inj left.2, Option.some.inj right.2]⟩

end Str

end Ccrc.Library
