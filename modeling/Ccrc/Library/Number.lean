import Mathlib

/-! Reading a decimal numeral as a double. A finite double is a significand and a
power of two; only its integer value, where it has one, is read from it here. -/

set_option autoImplicit false

namespace Ccrc.Library

inductive Number where
  | finite (negative : Bool) (significand : Nat) (exponent : Int)
  | infinite (negative : Bool)
  deriving DecidableEq, Repr

namespace Number

/-- The quotient rounded to the nearest natural number, ties to even. -/
def roundHalfEven (numerator denominator : Nat) : Nat :=
  let quotient := numerator / denominator
  let twice := 2 * (numerator % denominator)
  if twice < denominator then quotient
  else if denominator < twice then quotient + 1
  else quotient + quotient % 2

theorem le_roundHalfEven (numerator denominator : Nat) :
    numerator / denominator ≤ roundHalfEven numerator denominator := by
  unfold roundHalfEven
  dsimp only
  split
  next => exact Nat.le_refl _
  next => split <;> omega

/-- The exponent of the largest power of two that a positive ratio reaches. -/
def binaryExponent (numerator denominator : Nat) : Int :=
  let guess : Int := (numerator.log2 : Int) - (denominator.log2 : Int)
  if denominator * 2 ^ guess.toNat ≤ numerator * 2 ^ (-guess).toNat then guess else guess - 1

/-- The double nearest to a ratio: 53 bits of significand, fewer below the
normal range, and infinity from the overflow bound on. -/
def ofRatio (negative : Bool) (numerator denominator : Nat) : Number :=
  if numerator = 0 then .finite negative 0 0
  else
    let exponent := max (binaryExponent numerator denominator - 52) (-1074)
    let significand :=
      roundHalfEven (numerator * 2 ^ (-exponent).toNat) (denominator * 2 ^ exponent.toNat)
    if 971 < exponent ∨ (exponent = 971 ∧ significand = 2 ^ 53) then .infinite negative
    else .finite negative significand exponent

/-- The double of the numeral `mantissa` times ten to the `exponent`. -/
def ofDecimal (negative : Bool) (mantissa : Nat) (exponent : Int) : Number :=
  ofRatio negative (mantissa * 10 ^ exponent.toNat) (10 ^ (-exponent).toNat)

def ofInt (value : Int) : Number := ofDecimal (value < 0) value.natAbs 0

/-- The integer that a double is, where it is one. -/
def toInt? : Number → Option Int
  | .infinite _ => none
  | .finite negative significand exponent =>
      let scale := 2 ^ (-exponent).toNat
      if significand % scale = 0 then
        let magnitude : Nat := significand / scale * 2 ^ exponent.toNat
        some (if negative then -(magnitude : Int) else magnitude)
      else none

def maxSafeInteger : Int := 9007199254740991

/-- The value of a number that `Number.isSafeInteger` admits. -/
def safeInt? (number : Number) : Option Int :=
  number.toInt?.filter fun value => -maxSafeInteger ≤ value && value ≤ maxSafeInteger

private theorem roundHalfEven_one (numerator : Nat) : roundHalfEven numerator 1 = numerator := by
  simp [roundHalfEven, Nat.mod_one]

private theorem binaryExponent_one {numerator : Nat} (positive : numerator ≠ 0) :
    binaryExponent numerator 1 = numerator.log2 := by
  have reached : 2 ^ numerator.log2 ≤ numerator := Nat.log2_self_le positive
  have one : Nat.log2 1 = 0 := by decide
  have noScale : (-(numerator.log2 : Int)).toNat = 0 := by omega
  simp [binaryExponent, one, noScale, reached]

/-- Naturals below the bound of the significand are read exactly. -/
theorem ofDecimal_toInt? (negative : Bool) {mantissa : Nat} (small : mantissa < 2 ^ 53) :
    (ofDecimal negative mantissa 0).toInt? =
      some (if negative then -(mantissa : Int) else mantissa) := by
  by_cases zero : mantissa = 0
  · simp [ofDecimal, ofRatio, zero, toInt?]
  · have bits : mantissa.log2 < 53 := (Nat.log2_lt zero).mpr small
    have exponent : max (binaryExponent mantissa 1 - 52) (-1074) = (mantissa.log2 : Int) - 52 := by
      rw [binaryExponent_one zero]
      omega
    have whole : ((mantissa.log2 : Int) - 52).toNat = 0 := by omega
    have bounded : ¬(971 < (mantissa.log2 : Int) - 52 ∨
        ((mantissa.log2 : Int) - 52 = 971 ∧
          roundHalfEven (mantissa * 2 ^ (-((mantissa.log2 : Int) - 52)).toNat)
            (1 * 2 ^ ((mantissa.log2 : Int) - 52).toNat) = 2 ^ 53)) := by omega
    have scaled : 0 < 2 ^ (-((mantissa.log2 : Int) - 52)).toNat := Nat.two_pow_pos _
    simp only [ofDecimal, ofRatio, Int.toNat_zero, Int.neg_zero, Nat.pow_zero, Nat.mul_one, zero,
      if_false, exponent, bounded]
    simp only [toInt?, whole, Nat.pow_zero, Nat.mul_one, roundHalfEven_one,
      Nat.mul_mod_left, if_true, Nat.mul_div_cancel _ scaled]

theorem ofInt_toInt? {value : Int} (small : value.natAbs < 2 ^ 53) :
    (ofInt value).toInt? = some value := by
  rw [ofInt, ofDecimal_toInt? _ small]
  by_cases negative : value < 0
  · simp only [negative, decide_true, if_true, Option.some.injEq]
    omega
  · simp only [negative, decide_false, Bool.false_eq_true, if_false, Option.some.injEq]
    omega

theorem ofInt_safeInt? {value : Int}
    (safe : -maxSafeInteger ≤ value ∧ value ≤ maxSafeInteger) :
    (ofInt value).safeInt? = some value := by
  unfold maxSafeInteger at safe
  have small : value.natAbs < 2 ^ 53 := by omega
  simp [safeInt?, ofInt_toInt? small, maxSafeInteger, safe]

/-- Two to the power 53 and its successor are one double, so a numeral is not
always the integer it spells. -/
example : (ofDecimal false 9007199254740993 0).toInt? = some 9007199254740992 := by decide

example : (ofDecimal false 15 (-1)).toInt? = none := by decide

end Number

end Ccrc.Library
