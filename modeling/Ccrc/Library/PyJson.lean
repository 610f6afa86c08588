import Ccrc.Library.PyFloat
import Ccrc.Library.Map

/-! JSON as Python's `json` module has it: values whose integers have no bound, the
compact writer, and the reader with the interpreter's two limits. -/

set_option autoImplicit false

namespace Ccrc.Library

inductive PyJson where
  | none
  | bool (value : Bool)
  | int (value : Int)
  | float (value : PyFloat)
  | str (text : Str)
  | list (items : List PyJson)
  | dict (fields : List (Str × PyJson))
  deriving Repr

abbrev PyDict : Type := Map Str PyJson

/-- What the interpreter lets `json.loads` read: containers within containers, and
the digits of one integer. -/
structure PyLimits where
  depth : Nat
  digits : Nat

namespace PyJson

open Str (lit point)

/-- The value as a `dict`, where it is one. -/
def dict? : PyJson → Option PyDict
  | .dict fields => some fields
  | .none | .bool _ | .int _ | .float _ | .str _ | .list _ => .none

/-- The value as a `str`, where it is one. -/
def str? : PyJson → Option Str
  | .str text => some text
  | .none | .bool _ | .int _ | .float _ | .list _ | .dict _ => .none

/-- The value as a `list`, where it is one. -/
def list? : PyJson → Option (List PyJson)
  | .list items => some items
  | .none | .bool _ | .int _ | .float _ | .str _ | .dict _ => .none

/-- The value as an `int` that is no `bool`, where it is one. -/
def int? : PyJson → Option Int
  | .int value => some value
  | .none | .bool _ | .float _ | .str _ | .list _ | .dict _ => .none

/-! ## The writer -/

def hexDigit (value : Nat) : CodePoint :=
  Fin.ofNat 0x110000 (if value < 10 then 48 + value else 87 + value)

def hexEscape (unit : Nat) : Str :=
  lit "\\u" ++ [hexDigit (unit / 4096 % 16), hexDigit (unit / 256 % 16),
    hexDigit (unit / 16 % 16), hexDigit (unit % 16)]

/-- `\uXXXX`, as two of them above U+FFFF. -/
def escapeAscii (c : CodePoint) : Str :=
  if c.val < 0x10000 then hexEscape c.val
  else hexEscape (0xD800 + (c.val - 0x10000) / 0x400) ++ hexEscape (0xDC00 + c.val % 0x400)

def escapePoint (ensureAscii : Bool) (c : CodePoint) : Str :=
  if c = point '"' then lit "\\\""
  else if c = point '\\' then lit "\\\\"
  else if c.val = 10 then lit "\\n"
  else if c.val = 13 then lit "\\r"
  else if c.val = 9 then lit "\\t"
  else if c.val = 12 then lit "\\f"
  else if c.val = 8 then lit "\\b"
  else if c.val < 0x20 then hexEscape c.val
  else if ensureAscii && 0x7F ≤ c.val then escapeAscii c
  else [c]

def dumpsString (ensureAscii : Bool) (text : Str) : Str :=
  point '"' :: (text.flatMap (escapePoint ensureAscii) ++ [point '"'])

mutual

/-- `json.dumps(value, separators=(",", ":"), ensure_ascii=…)`. -/
def dumps (ensureAscii : Bool) : PyJson → Str
  | .none => lit "null"
  | .bool true => lit "true"
  | .bool false => lit "false"
  | .int value => Str.ofInt value
  | .float value => value.repr
  | .str text => dumpsString ensureAscii text
  | .list [] => lit "[]"
  | .list (item :: rest) =>
      point '[' :: (dumps ensureAscii item ++ dumpsItems ensureAscii rest ++ [point ']'])
  | .dict [] => lit "{}"
  | .dict ((key, value) :: rest) =>
      point '{' :: (dumpsString ensureAscii key ++ point ':' :: (dumps ensureAscii value ++
        dumpsFields ensureAscii rest ++ [point '}']))

def dumpsItems (ensureAscii : Bool) : List PyJson → Str
  | [] => []
  | item :: rest => point ',' :: (dumps ensureAscii item ++ dumpsItems ensureAscii rest)

def dumpsFields (ensureAscii : Bool) : List (Str × PyJson) → Str
  | [] => []
  | (key, value) :: rest =>
      point ',' :: (dumpsString ensureAscii key ++ point ':' :: (dumps ensureAscii value ++
        dumpsFields ensureAscii rest))

end

/-! ## The reader -/

def isBlank (c : CodePoint) : Bool := c.val == 32 || c.val == 9 || c.val == 10 || c.val == 13

def skipBlank : Str → Str
  | [] => []
  | c :: rest => if isBlank c then skipBlank rest else c :: rest

def hexValue? (c : CodePoint) : Option Nat :=
  if Str.isDigit c then some (c.val - 48)
  else if 97 ≤ c.val ∧ c.val ≤ 102 then some (c.val - 87)
  else if 65 ≤ c.val ∧ c.val ≤ 70 then some (c.val - 55)
  else .none

def hexUnit? (a b c d : CodePoint) : Option Nat := do
  let a ← hexValue? a
  let b ← hexValue? b
  let c ← hexValue? c
  let d ← hexValue? d
  return a * 4096 + b * 256 + c * 16 + d

/-- The code point that a one-letter escape stands for. -/
def unescape? (c : CodePoint) : Option CodePoint :=
  if c = point '"' ∨ c = point '\\' ∨ c = point '/' then some c
  else if c = point 'b' then some (Fin.ofNat 0x110000 8)
  else if c = point 'f' then some (Fin.ofNat 0x110000 12)
  else if c = point 'n' then some (Fin.ofNat 0x110000 10)
  else if c = point 'r' then some (Fin.ofNat 0x110000 13)
  else if c = point 't' then some (Fin.ofNat 0x110000 9)
  else .none

def prepend (c : CodePoint) (read : Option (Str × Str)) : Option (Str × Str) :=
  read.map fun (text, rest) => (c :: text, rest)

/-- The second half of a pair, where a `\uXXXX` that is one follows. -/
def lowEscape? : Str → Option Nat
  | s :: u :: a :: b :: c :: d :: _ =>
      if s = point '\\' ∧ u = point 'u' then
        (hexUnit? a b c d).filter fun unit => 0xDC00 ≤ unit && unit ≤ 0xDFFF
      else .none
  | _ => .none

/-- A string after its opening quote, and the text after its closing one. -/
def scanString : Str → Option (Str × Str)
  | [] => .none
  | c :: rest =>
      if c = point '"' then some ([], rest)
      else if c = point '\\' then
        match rest with
        | [] => .none
        | e :: rest =>
            if e = point 'u' then
              match rest with
              | a :: b :: c :: d :: rest =>
                  match hexUnit? a b c d with
                  | .none => .none
                  | some unit =>
                      -- A first half takes the escape of a second half with it.
                      if 0xD800 ≤ unit ∧ unit ≤ 0xDBFF then
                        match lowEscape? rest, rest with
                        | some low, _ :: _ :: _ :: _ :: _ :: _ :: rest =>
                            prepend (Fin.ofNat 0x110000
                              (0x10000 + (unit - 0xD800) * 0x400 + (low - 0xDC00)))
                              (scanString rest)
                        | _, rest => prepend (Fin.ofNat 0x110000 unit) (scanString rest)
                      else prepend (Fin.ofNat 0x110000 unit) (scanString rest)
              | _ => .none
            else
              match unescape? e with
              | some c => prepend c (scanString rest)
              | .none => .none
      else if c.val < 0x20 then .none
      else prepend c (scanString rest)

def spanDigits : Str → Str × Str
  | [] => ([], [])
  | c :: rest =>
      if Str.isDigit c then
        let (digits, after) := spanDigits rest
        (c :: digits, after)
      else ([], c :: rest)

def digitsValue (digits : Str) : Nat :=
  digits.foldl (fun value digit => value * 10 + (digit.val - 48)) 0

/-- `0`, or digits that start with another one. -/
def scanWhole : Str → Option (Str × Str)
  | [] => .none
  | c :: rest =>
      if c = point '0' then some ([c], rest)
      else if Str.isDigit c then some (spanDigits (c :: rest))
      else .none

/-- The digits of a fraction, where a point and a digit follow. -/
def scanFraction : Str → Option Str × Str
  | [] => (.none, [])
  | c :: rest =>
      if c = point '.' then
        let (digits, after) := spanDigits rest
        if digits = [] then (.none, c :: rest) else (some digits, after)
      else (.none, c :: rest)

def scanSign : Str → Bool × Str
  | [] => (false, [])
  | c :: rest =>
      if c = point '-' then (true, rest)
      else if c = point '+' then (false, rest)
      else (false, c :: rest)

def scanExponent : Str → Option Int × Str
  | [] => (.none, [])
  | c :: rest =>
      if c = point 'e' ∨ c = point 'E' then
        let (negative, unsigned) := scanSign rest
        let (digits, after) := spanDigits unsigned
        if digits = [] then (.none, c :: rest)
        else
          let value : Nat := digitsValue digits
          (some (if negative then -(value : Int) else value), after)
      else (.none, c :: rest)

/-- A numeral is an integer when it has neither a fraction nor an exponent. -/
def scanNumber (limits : PyLimits) (negative : Bool) (text : Str) : Option (PyJson × Str) :=
  match scanWhole text with
  | .none => .none
  | some (whole, rest) =>
      match scanFraction rest with
      | (fraction, rest) =>
          match scanExponent rest with
          | (exponent, rest) =>
              if fraction.isNone ∧ exponent.isNone then
                if limits.digits < whole.length then .none
                else
                  let value : Int := digitsValue whole
                  some (.int (if negative then -value else value), rest)
              else
                let decimals := fraction.getD []
                some (.float (.number (Number.ofDecimal negative (digitsValue (whole ++ decimals))
                  (exponent.getD 0 - decimals.length))), rest)

/-- The last value of a key stands where its first one stood. -/
def setField (fields : List (Str × PyJson)) (field : Str × PyJson) : List (Str × PyJson) :=
  if fields.any (·.1 == field.1) then
    fields.map fun before => if before.1 == field.1 then field else before
  else fields ++ [field]

def word (spelled : Str) (value : PyJson) (text : Str) : Option (PyJson × Str) :=
  if text.startsWith spelled then some (value, text.drop spelled.length) else .none

/-- The three names that are no JSON, where the caller has no hook that refuses them. -/
def constant (constants : Bool) (value : PyFloat) (text : Str) : Option (PyJson × Str) :=
  if constants then word value.repr (.float value) text else .none

def infinity (negative : Bool) : PyFloat := .number (.infinite negative)

mutual

/-- One value at the start of the text. Every call spends fuel, and every two calls
consume a code point at least. -/
def scanValue (limits : PyLimits) (constants : Bool) :
    Nat → Nat → Str → Option (PyJson × Str)
  | 0, _, _ => .none
  | _ + 1, _, [] => .none
  | fuel + 1, depth, c :: rest =>
      if c = point '"' then (scanString rest).map fun (text, rest) => (.str text, rest)
      else if c = point '{' then
        match depth with
        | 0 => .none
        | depth + 1 =>
            match skipBlank rest with
            | [] => .none
            | d :: after =>
                if d = point '}' then some (.dict [], after)
                else (scanFields limits constants fuel depth (d :: after)).map fun (fields, rest) =>
                  (.dict (fields.foldl setField []), rest)
      else if c = point '[' then
        match depth with
        | 0 => .none
        | depth + 1 =>
            match skipBlank rest with
            | [] => .none
            | d :: after =>
                if d = point ']' then some (.list [], after)
                else (scanItems limits constants fuel depth (d :: after)).map fun (items, rest) =>
                  (.list items, rest)
      else if c = point 'n' then word (lit "null") .none (c :: rest)
      else if c = point 't' then word (lit "true") (.bool true) (c :: rest)
      else if c = point 'f' then word (lit "false") (.bool false) (c :: rest)
      else if c = point 'N' then constant constants .nan (c :: rest)
      else if c = point 'I' then constant constants (infinity false) (c :: rest)
      else if c = point '-' then
        if rest.head? = some (point 'I') then constant constants (infinity true) (c :: rest)
        else scanNumber limits true rest
      else scanNumber limits false (c :: rest)

def scanItems (limits : PyLimits) (constants : Bool) :
    Nat → Nat → Str → Option (List PyJson × Str)
  | 0, _, _ => .none
  | fuel + 1, depth, text =>
      match scanValue limits constants fuel depth text with
      | .none => .none
      | some (item, rest) =>
          match skipBlank rest with
          | [] => .none
          | d :: after =>
              if d = point ']' then some ([item], after)
              else if d = point ',' then
                (scanItems limits constants fuel depth (skipBlank after)).map
                  fun (items, rest) => (item :: items, rest)
              else .none

def scanFields (limits : PyLimits) (constants : Bool) :
    Nat → Nat → Str → Option (List (Str × PyJson) × Str)
  | 0, _, _ => .none
  | _ + 1, _, [] => .none
  | fuel + 1, depth, c :: rest =>
      if c ≠ point '"' then .none
      else
        match scanString rest with
        | .none => .none
        | some (key, rest) =>
            match skipBlank rest with
            | [] => .none
            | d :: after =>
                if d ≠ point ':' then .none
                else
                  match scanValue limits constants fuel depth (skipBlank after) with
                  | .none => .none
                  | some (value, rest) =>
                      match skipBlank rest with
                      | [] => .none
                      | d :: after =>
                          if d = point '}' then some ([(key, value)], after)
                          else if d = point ',' then
                            (scanFields limits constants fuel depth (skipBlank after)).map
                              fun (fields, rest) => ((key, value) :: fields, rest)
                          else .none

end

/-- `json.loads(text)`; none is a `ValueError` or a `RecursionError`. -/
def loads (limits : PyLimits) (constants : Bool) (text : Str) : Option PyJson :=
  match scanValue limits constants (2 * text.length + 2) limits.depth (skipBlank text) with
  | .none => .none
  | some (value, rest) => if skipBlank rest = [] then some value else .none

end PyJson

end Ccrc.Library
