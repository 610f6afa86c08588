import Ccrc.Library.Number

/-! The double nearest to a ratio depends on the ratio alone, and a double in canonical
form is the nearest one to itself. -/

set_option autoImplicit false

namespace Ccrc.Library.Number

/-- Two to a signed power, over the power's two halves. -/
theorem zpow_halves (base : ℕ) (positive : 0 < base) (exponent : Int) :
    ((base : ℚ) ^ exponent) * (base : ℚ) ^ (-exponent).toNat = (base : ℚ) ^ exponent.toNat := by
  have nonzero : (base : ℚ) ≠ 0 := by exact_mod_cast positive.ne'
  rw [← zpow_natCast (base : ℚ) (-exponent).toNat, ← zpow_natCast (base : ℚ) exponent.toNat,
    ← zpow_add₀ nonzero]
  congr 1
  omega

section Exponent

variable {numerator denominator : Nat}

theorem reaches_iff (positive : 0 < denominator) (exponent : Int) :
    denominator * 2 ^ exponent.toNat ≤ numerator * 2 ^ (-exponent).toNat ↔
      (2 : ℚ) ^ exponent ≤ numerator / denominator := by
  have below : (0 : ℚ) < denominator := by exact_mod_cast positive
  have scale : (0 : ℚ) < 2 ^ (-exponent).toNat := by positivity
  have halves : (2 : ℚ) ^ exponent * 2 ^ (-exponent).toNat = 2 ^ exponent.toNat :=
    zpow_halves 2 (by decide) exponent
  rw [le_div_iff₀ below, ← mul_le_mul_iff_left₀ scale, mul_right_comm, halves]
  constructor
  · intro reached
    have cast : (denominator : ℚ) * 2 ^ exponent.toNat ≤ numerator * 2 ^ (-exponent).toNat := by
      exact_mod_cast reached
    rwa [mul_comm (_ ^ _ : ℚ)]
  · intro reached
    rw [mul_comm (_ ^ _ : ℚ)] at reached
    exact_mod_cast reached

theorem le_log_iff {ratio : ℚ} (positive : 0 < ratio) (exponent : Int) :
    exponent ≤ Int.log 2 ratio ↔ (2 : ℚ) ^ exponent ≤ ratio := by
  rw [← Int.zpow_le_iff_le_log (by decide) positive, Nat.cast_ofNat]

/-- The exponent that `binaryExponent` guesses and corrects is the binary logarithm. -/
theorem binaryExponent_eq (some_ : 0 < numerator) (positive : 0 < denominator) :
    binaryExponent numerator denominator = Int.log 2 ((numerator : ℚ) / denominator) := by
  have ratio : (0 : ℚ) < numerator / denominator := by positivity
  have upper : (numerator : ℚ) / denominator <
      2 ^ ((numerator.log2 : Int) - denominator.log2 + 1) := by
    have numeratorBelow : numerator < 2 ^ (numerator.log2 + 1) := Nat.lt_log2_self
    have denominatorAbove : 2 ^ denominator.log2 ≤ denominator :=
      Nat.log2_self_le (Nat.pos_iff_ne_zero.mp positive)
    have first : (numerator : ℚ) < 2 ^ (numerator.log2 + 1) := by exact_mod_cast numeratorBelow
    have second : (2 : ℚ) ^ denominator.log2 ≤ denominator := by exact_mod_cast denominatorAbove
    rw [div_lt_iff₀ (by exact_mod_cast positive)]
    refine first.trans_le ?_
    have split : (2 : ℚ) ^ (numerator.log2 + 1) =
        2 ^ ((numerator.log2 : Int) - denominator.log2 + 1) * 2 ^ denominator.log2 := by
      rw [← zpow_natCast, ← zpow_natCast, ← zpow_add₀ (by norm_num)]
      congr 1
      push_cast
      ring
    rw [split]
    exact mul_le_mul_of_nonneg_left second (zpow_nonneg (by norm_num) _)
  have lower : (2 : ℚ) ^ ((numerator.log2 : Int) - denominator.log2 - 1) ≤
      (numerator : ℚ) / denominator := by
    have numeratorAbove : 2 ^ numerator.log2 ≤ numerator :=
      Nat.log2_self_le (Nat.pos_iff_ne_zero.mp some_)
    have denominatorBelow : denominator < 2 ^ (denominator.log2 + 1) := Nat.lt_log2_self
    have first : (2 : ℚ) ^ numerator.log2 ≤ numerator := by exact_mod_cast numeratorAbove
    have second : (denominator : ℚ) ≤ 2 ^ (denominator.log2 + 1) := by
      exact_mod_cast denominatorBelow.le
    rw [le_div_iff₀ (by exact_mod_cast positive)]
    refine le_trans ?_ first
    have split : (2 : ℚ) ^ numerator.log2 =
        2 ^ ((numerator.log2 : Int) - denominator.log2 - 1) * 2 ^ (denominator.log2 + 1) := by
      rw [← zpow_natCast, ← zpow_natCast, ← zpow_add₀ (by norm_num)]
      congr 1
      push_cast
      ring
    rw [split]
    exact mul_le_mul_of_nonneg_left second (zpow_nonneg (by norm_num) _)
  have lowerLog := (le_log_iff ratio _).mpr lower
  have upperLog := mt (le_log_iff ratio _).mp (not_le.mpr upper)
  unfold binaryExponent
  dsimp only
  split
  next reached =>
      have atLeast := (le_log_iff ratio _).mpr ((reaches_iff positive _).mp reached)
      omega
  next missed =>
      have below := mt (fun atLeast => (reaches_iff positive _).mpr ((le_log_iff ratio _).mp atLeast))
        missed
      omega

end Exponent

theorem roundHalfEven_scale (numerator denominator : Nat) {scale : Nat} (positive : 0 < scale) :
    roundHalfEven (numerator * scale) (denominator * scale) =
      roundHalfEven numerator denominator := by
  unfold roundHalfEven
  rw [Nat.mul_div_mul_right _ _ positive, Nat.mul_mod_mul_right, ← Nat.mul_assoc]
  simp only [Nat.mul_lt_mul_right positive]

theorem roundHalfEven_whole (value : Nat) {scale : Nat} (positive : 0 < scale) :
    roundHalfEven (value * scale) scale = value := by
  have whole := roundHalfEven_scale value 1 positive
  rw [Nat.one_mul] at whole
  rw [whole]
  simp [roundHalfEven, Nat.mod_one]

theorem ofRatio_scale (negative : Bool) (numerator : Nat) {denominator scale : Nat}
    (below : 0 < denominator) (positive : 0 < scale) :
    ofRatio negative (numerator * scale) (denominator * scale) =
      ofRatio negative numerator denominator := by
  by_cases zero : numerator = 0
  · simp [ofRatio, zero]
  · have some_ := Nat.pos_of_ne_zero zero
    have exponent : binaryExponent (numerator * scale) (denominator * scale) =
        binaryExponent numerator denominator := by
      rw [binaryExponent_eq (Nat.mul_pos some_ positive) (Nat.mul_pos below positive),
        binaryExponent_eq some_ below]
      congr 1
      push_cast
      have nonzero : (scale : ℚ) ≠ 0 := by exact_mod_cast positive.ne'
      rw [mul_div_mul_right _ _ nonzero]
    unfold ofRatio
    rw [if_neg (by simp [zero, positive.ne']), if_neg zero, exponent]
    simp only [Nat.mul_right_comm _ scale, roundHalfEven_scale _ _ positive]

/-- Equal ratios are read as one double. -/
theorem ofRatio_congr (negative : Bool) {numerator denominator other under : Nat}
    (below : 0 < denominator) (underneath : 0 < under)
    (same : numerator * under = other * denominator) :
    ofRatio negative numerator denominator = ofRatio negative other under := by
  rw [← ofRatio_scale negative numerator below underneath, same, Nat.mul_comm denominator,
    ofRatio_scale negative other underneath below]

theorem ofDecimal_shift (negative : Bool) (mantissa count : Nat) (exponent : Int) :
    ofDecimal negative (mantissa * 10 ^ count) exponent =
      ofDecimal negative mantissa (exponent + count) := by
  refine ofRatio_congr negative (by positivity) (by positivity) ?_
  rw [Nat.mul_assoc, Nat.mul_assoc, Nat.mul_assoc, ← Nat.pow_add, ← Nat.pow_add, ← Nat.pow_add]
  congr 2
  omega

/-- The sign is not rounded. -/
theorem ofRatio_sign (negative : Bool) (numerator denominator : Nat) :
    ofRatio negative numerator denominator =
      match ofRatio false numerator denominator with
      | .finite _ significand exponent => .finite negative significand exponent
      | .infinite _ => .infinite negative := by
  unfold ofRatio
  split
  next => rfl
  next =>
    dsimp only
    split <;> rfl

/-- The one form of a double among equal significands and exponents. -/
def isCanonical : Number → Bool
  | .infinite _ => true
  | .finite _ significand exponent =>
      if significand = 0 then exponent = 0
      else if significand < 2 ^ 52 then exponent = -1074
      else significand < 2 ^ 53 && -1074 ≤ exponent && exponent ≤ 971

/-- A double is the nearest one to itself. -/
theorem ofRatio_canonical (negative : Bool) {significand : Nat} {exponent : Int}
    (nonzero : significand ≠ 0)
    (canonical : isCanonical (.finite negative significand exponent) = true) :
    ofRatio negative (significand * 2 ^ exponent.toNat) (2 ^ (-exponent).toNat) =
      .finite negative significand exponent := by
  have some_ := Nat.pos_of_ne_zero nonzero
  have ratio : ((significand * 2 ^ exponent.toNat : Nat) : ℚ) / (2 ^ (-exponent).toNat : Nat) =
      significand * 2 ^ exponent := by
    have halves : (2 : ℚ) ^ exponent * 2 ^ (-exponent).toNat = 2 ^ exponent.toNat :=
      zpow_halves 2 (by decide) exponent
    push_cast
    rw [← halves, ← mul_assoc, mul_div_assoc, div_self (by positivity), mul_one]
  have log : binaryExponent (significand * 2 ^ exponent.toNat) (2 ^ (-exponent).toNat) =
      exponent + significand.log2 := by
    have positive : (0 : ℚ) < significand * 2 ^ exponent :=
      mul_pos (by exact_mod_cast some_) (zpow_pos (by norm_num) _)
    have logOf (power : Int) : power ≤ Int.log 2 ((significand : ℚ) * 2 ^ exponent) ↔
        (2 : ℚ) ^ (power - exponent) ≤ significand := by
      rw [le_log_iff positive, zpow_sub₀ (by norm_num), div_le_iff₀ (zpow_pos (by norm_num) _)]
    rw [binaryExponent_eq (Nat.mul_pos some_ (Nat.two_pow_pos _)) (Nat.two_pow_pos _), ratio]
    have atLeast := (logOf (exponent + significand.log2)).mpr (by
      rw [add_sub_cancel_left, zpow_natCast]
      exact_mod_cast Nat.log2_self_le nonzero)
    have below := mt (logOf (exponent + significand.log2 + 1)).mp (by
      rw [not_le, show exponent + significand.log2 + 1 - exponent =
        ((significand.log2 + 1 : Nat) : Int) by push_cast; ring, zpow_natCast]
      exact_mod_cast @Nat.lt_log2_self significand)
    omega
  have rounded (power : Int) (same : power = exponent) :
      roundHalfEven (significand * 2 ^ exponent.toNat * 2 ^ (-power).toNat)
        (2 ^ (-exponent).toNat * 2 ^ power.toNat) = significand := by
    subst same
    rw [Nat.mul_assoc, Nat.mul_comm (2 ^ _)]
    exact roundHalfEven_whole significand (Nat.mul_pos (Nat.two_pow_pos _) (Nat.two_pow_pos _))
  simp only [isCanonical, if_neg nonzero] at canonical
  unfold ofRatio
  rw [if_neg (Nat.mul_pos some_ (Nat.two_pow_pos _)).ne', log]
  dsimp only
  by_cases small : significand < 2 ^ 52
  · rw [if_pos small, decide_eq_true_eq] at canonical
    have bits : significand.log2 < 52 := (Nat.log2_lt nonzero).mpr small
    have power : max (exponent + significand.log2 - 52) (-1074) = exponent := by omega
    rw [rounded _ power, power, if_neg (by omega)]
  · rw [if_neg small, Bool.and_eq_true, Bool.and_eq_true, decide_eq_true_eq, decide_eq_true_eq,
      decide_eq_true_eq] at canonical
    have upper : significand.log2 < 53 := (Nat.log2_lt nonzero).mpr canonical.1.1
    have lower : 52 ≤ significand.log2 := (Nat.le_log2 nonzero).mpr (Nat.le_of_not_lt small)
    have power : max (exponent + significand.log2 - 52) (-1074) = exponent := by omega
    rw [rounded _ power, power, if_neg (by omega)]

/-- An integer that a double's significand cannot hold is not rounded to one that it can. -/
theorem ofInt_unsafe {value : Int} (large : 2 ^ 53 ≤ value.natAbs) :
    (∃ negative, ofInt value = .infinite negative) ∨
      ∃ read, (ofInt value).toInt? = some read ∧ 2 ^ 53 ≤ read.natAbs := by
  have some_ : 0 < value.natAbs := by omega
  have log : binaryExponent value.natAbs 1 = Nat.log2 value.natAbs := by
    rw [binaryExponent_eq some_ Nat.one_pos, Nat.cast_one, div_one, Int.log_natCast,
      Nat.log2_eq_log_two]
  have bits : 53 ≤ Nat.log2 value.natAbs := (Nat.le_log2 some_.ne').mpr large
  have exponent : max (binaryExponent value.natAbs 1 - 52) (-1074) =
      ((Nat.log2 value.natAbs - 52 : Nat) : Int) := by
    rw [log]
    omega
  generalize power : Nat.log2 value.natAbs - 52 = places at exponent
  have reach : 2 ^ 52 * 2 ^ places ≤ value.natAbs := by
    rw [← Nat.pow_add, show 52 + places = Nat.log2 value.natAbs by omega]
    exact Nat.log2_self_le some_.ne'
  have quotient := le_roundHalfEven value.natAbs (2 ^ places)
  have enough : 2 ^ 52 ≤ value.natAbs / 2 ^ places :=
    (Nat.le_div_iff_mul_le (Nat.two_pow_pos _)).mpr reach
  have twice : 2 ^ 1 ≤ 2 ^ places := Nat.pow_le_pow_right (by decide) (by omega)
  have product : 2 ^ 52 * 2 ^ 1 ≤ roundHalfEven value.natAbs (2 ^ places) * 2 ^ places :=
    Nat.mul_le_mul (enough.trans quotient) twice
  simp only [ofInt, ofDecimal, ofRatio, Int.toNat_zero, Int.neg_zero, Nat.pow_zero, Nat.mul_one,
    some_.ne', if_false, exponent, Int.toNat_natCast, Int.toNat_neg_natCast, Nat.one_mul]
  split
  next => exact .inl ⟨_, rfl⟩
  next =>
      simp only [toInt?, Int.toNat_neg_natCast, Nat.pow_zero, Nat.mod_one, if_true, Nat.div_one,
        Int.toNat_natCast]
      refine .inr ⟨_, rfl, ?_⟩
      split <;> omega

end Ccrc.Library.Number
