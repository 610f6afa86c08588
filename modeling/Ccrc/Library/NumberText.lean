import Ccrc.Library.PyFloat
import Ccrc.Library.Text

/-! The text that JavaScript gives a finite double: the digits of its shortest numeral,
with the point among them near one and an exponent elsewhere. -/

set_option autoImplicit false

namespace Ccrc.Library.Number

open Text (lit unit)

/-- `Number::toString` of a positive double. -/
def magnitudeText (significand : Nat) (exponent : Int) : Text :=
  let (digits, scale) := PyFloat.trimZeros 400 (PyFloat.shortest significand exponent)
  let text := Text.ofNat digits
  let place : Int := text.length + scale
  if text.length ≤ place ∧ place ≤ 21 then
    text ++ List.replicate (place.toNat - text.length) (unit '0')
  else if 0 < place ∧ place ≤ 21 then text.take place.toNat ++ lit "." ++ text.drop place.toNat
  else if -6 < place ∧ place ≤ 0 then
    lit "0." ++ List.replicate (-place).toNat (unit '0') ++ text
  else
    let tail := if text.length = 1 then [] else unit '.' :: text.drop 1
    let power := place - 1
    text.take 1 ++ tail ++ lit (if power < 0 then "e-" else "e+") ++ Text.ofNat power.natAbs

/-- Of both zeros the text is `0`. -/
def finiteText (negative : Bool) (significand : Nat) (exponent : Int) : Text :=
  if significand = 0 then lit "0"
  else (if negative then lit "-" else []) ++ magnitudeText significand exponent

example : finiteText true 1 (-2) = lit "-0.25" := by decide +kernel

end Ccrc.Library.Number
