import Ccrc.Library.JsonProperties

/-! The integers that a canonical numeral and a safe number can name. -/

set_option autoImplicit false

namespace Ccrc.Library

open Json

namespace Number

/-- From the bound of the significand on, no numeral is read as a safe integer. -/
private theorem ofDecimal_large {mantissa : Nat} (large : 2 ^ 53 ≤ mantissa) :
    (ofDecimal false mantissa 0).safeInt? = none := by
  have positive : mantissa ≠ 0 := by omega
  have bits : 53 ≤ mantissa.log2 := (Nat.le_log2 positive).mpr large
  have reached : 2 ^ mantissa.log2 ≤ mantissa := Nat.log2_self_le positive
  have guess : binaryExponent mantissa 1 = mantissa.log2 := by
    have one : Nat.log2 1 = 0 := by decide
    have noScale : (-(mantissa.log2 : Int)).toNat = 0 := by omega
    simp [binaryExponent, one, noScale, reached]
  have exponent : max (binaryExponent mantissa 1 - 52) (-1074) = (mantissa.log2 : Int) - 52 := by
    rw [guess]
    omega
  have whole : ((mantissa.log2 : Int) - 52).toNat = mantissa.log2 - 52 := by omega
  have none' : (-((mantissa.log2 : Int) - 52)).toNat = 0 := by omega
  simp only [ofDecimal, ofRatio, Int.toNat_zero, Int.neg_zero, Nat.pow_zero, Nat.mul_one,
    Nat.one_mul, positive, if_false, exponent, whole, none']
  split
  next => rfl
  next =>
      have quotient := le_roundHalfEven mantissa (2 ^ (mantissa.log2 - 52))
      have split : 2 ^ mantissa.log2 = 2 ^ 52 * 2 ^ (mantissa.log2 - 52) := by
        rw [← Nat.pow_add]
        congr 1
        omega
      have least : 2 ^ 52 ≤ mantissa / 2 ^ (mantissa.log2 - 52) :=
        (Nat.le_div_iff_mul_le (Nat.two_pow_pos _)).mpr (by omega)
      have twice : 2 ^ 1 ≤ 2 ^ (mantissa.log2 - 52) :=
        Nat.pow_le_pow_right (by decide) (by omega)
      have product : 2 ^ 52 * 2 ^ 1 ≤
          roundHalfEven mantissa (2 ^ (mantissa.log2 - 52)) * 2 ^ (mantissa.log2 - 52) :=
        Nat.mul_le_mul (Nat.le_trans least quotient) twice
      simp only [safeInt?, toInt?, whole, none', Nat.pow_zero, Nat.mod_one, if_true, Nat.div_one,
        Bool.false_eq_true, if_false, Option.filter_some]
      rw [if_neg]
      rw [Bool.and_eq_true, decide_eq_true_eq, decide_eq_true_eq, maxSafeInteger]
      omega

/-- A numeral is read as a safe integer exactly where it spells one. -/
theorem ofDecimal_safeInt? (mantissa : Nat) (value : Int) :
    (ofDecimal false mantissa 0).safeInt? = some value ↔
      value = mantissa ∧ value ≤ maxSafeInteger := by
  by_cases small : mantissa < 2 ^ 53
  · have read := ofDecimal_toInt? false small
    simp only [safeInt?, read, Bool.false_eq_true, if_false, Option.filter_some]
    have safe : (-maxSafeInteger ≤ (mantissa : Int) && (mantissa : Int) ≤ maxSafeInteger) = true := by
      rw [Bool.and_eq_true, decide_eq_true_eq, decide_eq_true_eq, maxSafeInteger]
      omega
    rw [if_pos safe, Option.some.injEq]
    unfold maxSafeInteger
    omega
  · rw [ofDecimal_large (Nat.le_of_not_lt small)]
    unfold maxSafeInteger
    constructor
    · intro bad
      cases bad
    · rintro ⟨rfl, bound⟩
      omega

end Number

end Ccrc.Library
