import Ccrc.Library.Text
import Ccrc.Library.Number

/-! JSON over code units: a value, the compact text it is written as, and the
reader. Numbers are a parameter of the values: a writer has integers, the reader
answers doubles. -/

set_option autoImplicit false

namespace Ccrc.Library

inductive Json (ν : Type) where
  | null
  | bool (value : Bool)
  | number (value : ν)
  | string (text : Text)
  | array (items : List (Json ν))
  | object (fields : List (Text × Json ν))
  deriving Repr

namespace Json

open Text (lit unit)

variable {ν μ : Type}

def isHighSurrogate (c : UInt16) : Bool := 0xD800 ≤ c && c ≤ 0xDBFF

def isLowSurrogate (c : UInt16) : Bool := 0xDC00 ≤ c && c ≤ 0xDFFF

def isSurrogate (c : UInt16) : Bool := 0xD800 ≤ c && c ≤ 0xDFFF

def hexDigit (value : Nat) : UInt16 :=
  if value < 10 then UInt16.ofNat (48 + value) else UInt16.ofNat (87 + value)

def hexEscape (c : UInt16) : Text :=
  [unit '\\', unit 'u', hexDigit (c.toNat / 4096), hexDigit (c.toNat / 256 % 16),
    hexDigit (c.toNat / 16 % 16), hexDigit (c.toNat % 16)]

/-- The text of one unit inside a string. -/
def escapeUnit (c : UInt16) : Text :=
  if c = unit '"' then lit "\\\""
  else if c = unit '\\' then lit "\\\\"
  else if c = 8 then lit "\\b"
  else if c = 9 then lit "\\t"
  else if c = 10 then lit "\\n"
  else if c = 12 then lit "\\f"
  else if c = 13 then lit "\\r"
  else if c < 0x20 then hexEscape c
  else if isSurrogate c then hexEscape c
  else [c]

/-- A surrogate is written as it is only beside its other half. -/
def escapeUnits : Option UInt16 → Text → Text
  | _, [] => []
  | before, c :: rest =>
      let paired := (isHighSurrogate c && rest.head?.any isLowSurrogate) ||
        (isLowSurrogate c && before.any isHighSurrogate)
      (if paired then [c] else escapeUnit c) ++ escapeUnits (some c) rest

def writeString (text : Text) : Text := unit '"' :: (escapeUnits none text ++ [unit '"'])

mutual

/-- `JSON.stringify(value)`, with the text of a number given. -/
def write (digits : ν → Text) : Json ν → Text
  | .null => lit "null"
  | .bool true => lit "true"
  | .bool false => lit "false"
  | .number value => digits value
  | .string text => writeString text
  | .array [] => lit "[]"
  | .array (item :: rest) =>
      unit '[' :: (write digits item ++ writeItems digits rest ++ [unit ']'])
  | .object [] => lit "{}"
  | .object ((key, value) :: rest) =>
      unit '{' :: (writeString key ++ unit ':' :: (write digits value ++
        writeFields digits rest ++ [unit '}']))

def writeItems (digits : ν → Text) : List (Json ν) → Text
  | [] => []
  | item :: rest => unit ',' :: (write digits item ++ writeItems digits rest)

def writeFields (digits : ν → Text) : List (Text × Json ν) → Text
  | [] => []
  | (key, value) :: rest =>
      unit ',' :: (writeString key ++ unit ':' :: (write digits value ++ writeFields digits rest))

end

mutual

def map (change : ν → μ) : Json ν → Json μ
  | .null => .null
  | .bool value => .bool value
  | .number value => .number (change value)
  | .string text => .string text
  | .array items => .array (mapItems change items)
  | .object fields => .object (mapFields change fields)

def mapItems (change : ν → μ) : List (Json ν) → List (Json μ)
  | [] => []
  | item :: rest => map change item :: mapItems change rest

def mapFields (change : ν → μ) : List (Text × Json ν) → List (Text × Json μ)
  | [] => []
  | (key, value) :: rest => (key, map change value) :: mapFields change rest

end

def isSpace (c : UInt16) : Bool := c == 32 || c == 9 || c == 10 || c == 13

def skipSpace : Text → Text
  | [] => []
  | c :: rest => if isSpace c then skipSpace rest else c :: rest

def hexValue? (c : UInt16) : Option Nat :=
  if unit '0' ≤ c ∧ c ≤ unit '9' then some (c.toNat - 48)
  else if unit 'a' ≤ c ∧ c ≤ unit 'f' then some (c.toNat - 87)
  else if unit 'A' ≤ c ∧ c ≤ unit 'F' then some (c.toNat - 55)
  else none

/-- The unit of four hexadecimal digits. -/
def hexUnit? (a b c d : UInt16) : Option UInt16 := do
  let a ← hexValue? a
  let b ← hexValue? b
  let c ← hexValue? c
  let d ← hexValue? d
  return UInt16.ofNat (a * 4096 + b * 256 + c * 16 + d)

/-- The unit that a one-letter escape stands for. -/
def unescape? (c : UInt16) : Option UInt16 :=
  if c = unit '"' ∨ c = unit '\\' ∨ c = unit '/' then some c
  else if c = unit 'b' then some 8
  else if c = unit 'f' then some 12
  else if c = unit 'n' then some 10
  else if c = unit 'r' then some 13
  else if c = unit 't' then some 9
  else none

/-- One unit of a string in front of what is read of the rest. -/
def prepend (c : UInt16) (read : Option (Text × Text)) : Option (Text × Text) :=
  read.map fun (text, rest) => (c :: text, rest)

/-- A string after its opening quote, and the text after its closing one. -/
def parseString : Text → Option (Text × Text)
  | [] => none
  | c :: rest =>
      if c = unit '"' then some ([], rest)
      else if c = unit '\\' then
        match rest with
        | [] => none
        | e :: rest =>
            if e = unit 'u' then
              match rest with
              | a :: b :: c :: d :: rest =>
                  match hexUnit? a b c d with
                  | some c => prepend c (parseString rest)
                  | none => none
              | _ => none
            else
              match unescape? e with
              | some c => prepend c (parseString rest)
              | none => none
      else if c < 0x20 then none
      else prepend c (parseString rest)

/-- The digits that a text starts with. -/
def spanDigits : Text → Text × Text
  | [] => ([], [])
  | c :: rest =>
      if Text.isDigit c then
        let (digits, after) := spanDigits rest
        (c :: digits, after)
      else ([], c :: rest)

def digitsValue (digits : Text) : Nat :=
  digits.foldl (fun value digit => value * 10 + (digit.toNat - 48)) 0

/-- `0`, or digits that start with another one. -/
def parseWhole : Text → Option (Text × Text)
  | [] => none
  | c :: rest =>
      if c = unit '0' then some ([c], rest)
      else if Text.isDigit c then some (spanDigits (c :: rest))
      else none

def parseFraction : Text → Option (Text × Text)
  | [] => some ([], [])
  | c :: rest =>
      if c = unit '.' then
        let (digits, after) := spanDigits rest
        if digits = [] then none else some (digits, after)
      else some ([], c :: rest)

def parseSign : Text → Bool × Text
  | [] => (false, [])
  | c :: rest =>
      if c = unit '-' then (true, rest)
      else if c = unit '+' then (false, rest)
      else (false, c :: rest)

def parseExponent : Text → Option (Int × Text)
  | [] => some (0, [])
  | c :: rest =>
      if c = unit 'e' ∨ c = unit 'E' then
        let (negative, rest) := parseSign rest
        let (digits, after) := spanDigits rest
        if digits = [] then none
        else
          let value : Nat := digitsValue digits
          some (if negative then -(value : Int) else value, after)
      else some (0, c :: rest)

def parseMagnitude (negative : Bool) (text : Text) : Option (Number × Text) := do
  let (whole, text) ← parseWhole text
  let (fraction, text) ← parseFraction text
  let (exponent, text) ← parseExponent text
  return (Number.ofDecimal negative (digitsValue (whole ++ fraction))
    (exponent - fraction.length), text)

def parseNumber : Text → Option (Number × Text)
  | [] => none
  | c :: rest =>
      if c = unit '-' then parseMagnitude true rest else parseMagnitude false (c :: rest)

/-- The last value of a key stands where its first one stood. -/
def setField (fields : List (Text × Json ν)) (field : Text × Json ν) : List (Text × Json ν) :=
  if fields.any (·.1 == field.1) then
    fields.map fun before => if before.1 == field.1 then field else before
  else fields ++ [field]

def word (spelled : Text) (value : Json Number) (text : Text) : Option (Json Number × Text) :=
  if text.startsWith spelled then some (value, text.drop spelled.length) else none

mutual

/-- One value after white space. Every call spends fuel, and every two calls
consume a unit at least. -/
def parseValue : Nat → Text → Option (Json Number × Text)
  | 0, _ => none
  | fuel + 1, text =>
      match skipSpace text with
      | [] => none
      | c :: rest =>
          if c = unit '"' then (parseString rest).map fun (text, rest) => (.string text, rest)
          else if c = unit '[' then
            match skipSpace rest with
            | [] => none
            | d :: after =>
                if d = unit ']' then some (.array [], after)
                else (parseItems fuel rest).map fun (items, rest) => (.array items, rest)
          else if c = unit '{' then
            match skipSpace rest with
            | [] => none
            | d :: after =>
                if d = unit '}' then some (.object [], after)
                else (parseFields fuel rest).map fun (fields, rest) =>
                  (.object (fields.foldl setField []), rest)
          else if c = unit 'n' then word (lit "null") .null (c :: rest)
          else if c = unit 't' then word (lit "true") (.bool true) (c :: rest)
          else if c = unit 'f' then word (lit "false") (.bool false) (c :: rest)
          else (parseNumber (c :: rest)).map fun (value, rest) => (.number value, rest)

/-- The items of an array, to its closing bracket. -/
def parseItems : Nat → Text → Option (List (Json Number) × Text)
  | 0, _ => none
  | fuel + 1, text =>
      match parseValue fuel text with
      | none => none
      | some (item, rest) =>
          match skipSpace rest with
          | [] => none
          | d :: after =>
              if d = unit ']' then some ([item], after)
              else if d = unit ',' then
                (parseItems fuel after).map fun (items, rest) => (item :: items, rest)
              else none

/-- The fields of an object, to its closing brace. -/
def parseFields : Nat → Text → Option (List (Text × Json Number) × Text)
  | 0, _ => none
  | fuel + 1, text =>
      match skipSpace text with
      | [] => none
      | c :: rest =>
          if c ≠ unit '"' then none
          else
            match parseString rest with
            | none => none
            | some (key, rest) =>
                match skipSpace rest with
                | [] => none
                | d :: after =>
                    if d ≠ unit ':' then none
                    else
                      match parseValue fuel after with
                      | none => none
                      | some (value, rest) =>
                          match skipSpace rest with
                          | [] => none
                          | d :: after =>
                              if d = unit '}' then some ([(key, value)], after)
                              else if d = unit ',' then
                                (parseFields fuel after).map fun (fields, rest) =>
                                  ((key, value) :: fields, rest)
                              else none

end

/-- `JSON.parse(text)`; none is a `SyntaxError`. -/
def parse (text : Text) : Option (Json Number) :=
  match parseValue (2 * text.length + 2) text with
  | none => none
  | some (value, rest) => if skipSpace rest = [] then some value else none

/-- An object's own field. -/
def field? (key : Text) : Json ν → Option (Json ν)
  | .object fields => (fields.find? (·.1 == key)).map (·.2)
  | .null | .bool _ | .number _ | .string _ | .array _ => none

end Json

end Ccrc.Library
