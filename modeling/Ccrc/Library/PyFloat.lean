import Ccrc.Library.Number
import Ccrc.Library.CodePoints

/-! Python's floats and the text `repr` gives one: the fewest significant digits
that are read back as the same double, the nearest such numeral first. -/

set_option autoImplicit false

namespace Ccrc.Library

inductive PyFloat where
  | number (value : Number)
  | nan
  deriving DecidableEq, Repr

namespace PyFloat

open Str (lit point)

/-- Where the decimal point stands in front of the first significant digit of a
positive ratio: `0.d₁d₂… · 10^point`. -/
def decimalPoint (numerator denominator : Nat) : Int :=
  if denominator ≤ numerator then ((Nat.toDigits 10 (numerator / denominator)).length : Int)
  else
    -(((List.range 400).find? fun zeros =>
      denominator ≤ numerator * 10 ^ (zeros + 1)).getD 0 : Nat)

/-- The numerals of `count` digits beside a ratio, the nearer one first. -/
def neighbours (numerator denominator count : Nat) (point : Int) : List Nat :=
  let scale := (count : Int) - point
  let top := numerator * 10 ^ scale.toNat
  let bottom := denominator * 10 ^ (-scale).toNat
  let below := top / bottom
  let nearest := Number.roundHalfEven top bottom
  [nearest, if nearest = below then below + 1 else below]

/-- The shortest digits of `significand · 2^exponent` and the place of their point. -/
def shortest (significand : Nat) (exponent : Int) : Nat × Int :=
  let numerator := significand * 2 ^ exponent.toNat
  let denominator := 2 ^ (-exponent).toNat
  let place := decimalPoint numerator denominator
  let reads (digits : Nat) (count : Nat) : Bool :=
    Number.ofDecimal false digits (place - count) = Number.ofRatio false numerator denominator
  let found := (List.range 17).findSome? fun before =>
    ((neighbours numerator denominator (before + 1) place).find? (reads · (before + 1))).map
      fun digits => (digits, place - (before + 1 : Nat))
  found.getD (numerator * 5 ^ (-exponent).toNat, min exponent 0)

def trimZeros : Nat → Nat × Int → Nat × Int
  | 0, numeral => numeral
  | fuel + 1, (digits, scale) =>
      if digits ≠ 0 ∧ digits % 10 = 0 then trimZeros fuel (digits / 10, scale + 1)
      else (digits, scale)

/-- A positive double's digits, in positional notation near one and in scientific
notation elsewhere. -/
def magnitude (significand : Nat) (exponent : Int) : Str :=
  let (digits, scale) := trimZeros 400 (shortest significand exponent)
  let text := Str.ofNat digits
  let place : Int := text.length + scale
  if -4 < place ∧ place ≤ 16 then
    if place ≤ 0 then lit "0." ++ List.replicate (-place).toNat (point '0') ++ text
    else if text.length ≤ place.toNat then
      text ++ List.replicate (place.toNat - text.length) (point '0') ++ lit ".0"
    else text.take place.toNat ++ lit "." ++ text.drop place.toNat
  else
    let tail := if text.length = 1 then [] else point '.' :: text.drop 1
    let power := place - 1
    let written := Str.ofNat power.natAbs
    text.take 1 ++ tail ++ lit (if power < 0 then "e-" else "e+") ++
      (if written.length = 1 then lit "0" else []) ++ written

/-- `float.__repr__`, with the names that `json.dumps` gives the other values. -/
def repr : PyFloat → Str
  | .nan => lit "NaN"
  | .number (.infinite false) => lit "Infinity"
  | .number (.infinite true) => lit "-Infinity"
  | .number (.finite negative significand exponent) =>
      (if negative then lit "-" else []) ++
        if significand = 0 then lit "0.0" else magnitude significand exponent

example : repr (.number (Number.ofDecimal false 1 (-1))) = lit "0.1" := by decide +kernel

end PyFloat

end Ccrc.Library
