import Ccrc.Library.Number

/-! The numbers that a double can be, and the whole ones among them. -/

set_option autoImplicit false

namespace Ccrc.Library

namespace Number

/-- The significands and exponents of a double. -/
def isDouble : Number → Bool
  | .infinite _ => true
  | .finite _ significand exponent =>
      decide (significand ≤ 2 ^ 53) && decide (-1074 ≤ exponent) && decide (exponent ≤ 971) &&
        !(decide (exponent = 971) && decide (significand = 2 ^ 53))

/-- A whole number below the overflow bound, rounded to 53 bits. -/
theorem ofDecimal_whole (negative : Bool) {mantissa : Nat} (large : 2 ^ 53 ≤ mantissa) :
    ofDecimal negative mantissa 0 =
      if 971 < (mantissa.log2 : Int) - 52 ∨ ((mantissa.log2 : Int) - 52 = 971 ∧
          roundHalfEven mantissa (2 ^ (mantissa.log2 - 52)) = 2 ^ 53) then .infinite negative
      else .finite negative (roundHalfEven mantissa (2 ^ (mantissa.log2 - 52)))
        ((mantissa.log2 : Int) - 52) := by
  have positive : mantissa ≠ 0 := by omega
  have bits : 53 ≤ mantissa.log2 := (Nat.le_log2 positive).mpr large
  have reached : 2 ^ mantissa.log2 ≤ mantissa := Nat.log2_self_le positive
  have one : Nat.log2 1 = 0 := by decide
  have noScale : (-(mantissa.log2 : Int)).toNat = 0 := by omega
  have guess : binaryExponent mantissa 1 = mantissa.log2 := by
    simp [binaryExponent, one, noScale, reached]
  have exponent : max (binaryExponent mantissa 1 - 52) (-1074) = (mantissa.log2 : Int) - 52 := by
    rw [guess]
    omega
  have whole : ((mantissa.log2 : Int) - 52).toNat = mantissa.log2 - 52 := by omega
  have none' : (-((mantissa.log2 : Int) - 52)).toNat = 0 := by omega
  simp only [ofDecimal, ofRatio, Int.toNat_zero, Int.neg_zero, Nat.pow_zero, Nat.mul_one,
    Nat.one_mul, positive, if_false, exponent, whole, none']

theorem roundHalfEven_bounds (numerator denominator : Nat) :
    numerator / denominator ≤ roundHalfEven numerator denominator ∧
      roundHalfEven numerator denominator ≤ numerator / denominator + 1 := by
  unfold roundHalfEven
  dsimp only
  split
  next => omega
  next => split <;> omega

/-- The quotient of a number by all but its first 53 bits. -/
theorem quotient_bits {mantissa : Nat} (large : 2 ^ 53 ≤ mantissa) :
    2 ^ 52 ≤ mantissa / 2 ^ (mantissa.log2 - 52) ∧
      mantissa / 2 ^ (mantissa.log2 - 52) < 2 ^ 53 := by
  have positive : mantissa ≠ 0 := by omega
  have bits : 53 ≤ mantissa.log2 := (Nat.le_log2 positive).mpr large
  have lower : 2 ^ mantissa.log2 = 2 ^ 52 * 2 ^ (mantissa.log2 - 52) := by
    rw [← Nat.pow_add]
    congr 1
    omega
  have upper : 2 ^ (mantissa.log2 + 1) = 2 ^ 53 * 2 ^ (mantissa.log2 - 52) := by
    rw [← Nat.pow_add]
    congr 1
    omega
  have reached : 2 ^ mantissa.log2 ≤ mantissa := Nat.log2_self_le positive
  have below : mantissa < 2 ^ (mantissa.log2 + 1) := Nat.lt_log2_self
  constructor
  · exact (Nat.le_div_iff_mul_le (Nat.two_pow_pos _)).mpr (lower ▸ reached)
  · exact (Nat.div_lt_iff_lt_mul (Nat.two_pow_pos _)).mpr (upper ▸ below)

/-- A whole number below the bound of the significand is exact. -/
theorem ofDecimal_exact (negative : Bool) {mantissa : Nat} (positive : mantissa ≠ 0)
    (small : mantissa < 2 ^ 53) :
    ofDecimal negative mantissa 0 =
      .finite negative (mantissa * 2 ^ (52 - mantissa.log2)) ((mantissa.log2 : Int) - 52) := by
  have bits : mantissa.log2 < 53 := (Nat.log2_lt positive).mpr small
  have reached : 2 ^ mantissa.log2 ≤ mantissa := Nat.log2_self_le positive
  have one : Nat.log2 1 = 0 := by decide
  have noScale : (-(mantissa.log2 : Int)).toNat = 0 := by omega
  have guess : binaryExponent mantissa 1 = mantissa.log2 := by
    simp [binaryExponent, one, noScale, reached]
  have exponent : max (binaryExponent mantissa 1 - 52) (-1074) = (mantissa.log2 : Int) - 52 := by
    rw [guess]
    omega
  have whole : ((mantissa.log2 : Int) - 52).toNat = 0 := by omega
  have scale : (-((mantissa.log2 : Int) - 52)).toNat = 52 - mantissa.log2 := by omega
  have exact' : roundHalfEven (mantissa * 2 ^ (52 - mantissa.log2)) 1 =
      mantissa * 2 ^ (52 - mantissa.log2) := by
    simp [roundHalfEven, Nat.mod_one]
  have bounded : ¬(971 < (mantissa.log2 : Int) - 52 ∨ ((mantissa.log2 : Int) - 52 = 971 ∧
      mantissa * 2 ^ (52 - mantissa.log2) = 2 ^ 53)) := by omega
  simp only [ofDecimal, ofRatio, Int.toNat_zero, Int.neg_zero, Nat.pow_zero, Nat.mul_one,
    positive, if_false, exponent, whole, scale, exact', bounded]

theorem ofDecimal_isDouble (negative : Bool) (mantissa : Nat) :
    (ofDecimal negative mantissa 0).isDouble = true := by
  by_cases zero : mantissa = 0
  · simp [zero, ofDecimal, ofRatio, isDouble]
  by_cases small : mantissa < 2 ^ 53
  · have bits : mantissa.log2 < 53 := (Nat.log2_lt zero).mpr small
    have below : mantissa * 2 ^ (52 - mantissa.log2) ≤ 2 ^ 53 := by
      have lt : mantissa < 2 ^ (mantissa.log2 + 1) := Nat.lt_log2_self
      have scaled := Nat.mul_le_mul_right (2 ^ (52 - mantissa.log2)) (Nat.le_of_lt lt)
      rwa [← Nat.pow_add, show mantissa.log2 + 1 + (52 - mantissa.log2) = 53 by omega] at scaled
    rw [ofDecimal_exact negative zero small]
    simp only [isDouble, Bool.and_eq_true, decide_eq_true_eq, Bool.not_eq_true', Bool.and_eq_false_iff,
      decide_eq_false_iff_not]
    omega
  · have large := Nat.le_of_not_lt small
    have bits : 53 ≤ mantissa.log2 := (Nat.le_log2 zero).mpr large
    have rounded := roundHalfEven_bounds mantissa (2 ^ (mantissa.log2 - 52))
    have quotient := quotient_bits large
    rw [ofDecimal_whole negative large]
    split
    next => rfl
    next bounded =>
        simp only [isDouble, Bool.and_eq_true, decide_eq_true_eq, Bool.not_eq_true',
          Bool.and_eq_false_iff, decide_eq_false_iff_not]
        omega

end Number

structure Double where
  number : Number
  fits : number.isDouble = true

namespace Double

def ofInt (value : Int) : Double := ⟨Number.ofInt value, Number.ofDecimal_isDouble _ _⟩

/-- `Number.isInteger`, with the integer. -/
def toInt? (double : Double) : Option Int := double.number.toInt?

/-- What is read of a double once it was written: zero without its sign, and nothing of an
infinity, which is written as null. -/
def reread (double : Double) : Option Double :=
  match double.number with
  | .infinite _ => none
  | .finite _ significand _ => if significand = 0 then some (ofInt 0) else some double

/-- A whole positive double is written and read back as it is. -/
theorem reread_whole {double : Double} {value : Int} (whole : double.toInt? = some value)
    (positive : 1 ≤ value) : double.reread = some double := by
  unfold toInt? at whole
  unfold reread
  split
  next number =>
      rw [number] at whole
      cases whole
  next negative significand exponent number =>
      rw [if_neg]
      rintro rfl
      rw [number] at whole
      simp only [Number.toInt?, Nat.zero_mod, if_true, Nat.zero_div, Nat.zero_mul] at whole
      cases negative <;> simp at whole <;> omega

end Double

end Ccrc.Library
