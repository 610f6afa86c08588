import Ccrc.Library.PyNumerals
import Ccrc.Library.Rounding

/-! A float in canonical form is read back from its `repr`: the digits that were found
name it, cutting trailing zeros changes nothing, and each notation spells the digits. -/

set_option autoImplicit false

namespace Ccrc.Library.PyFloat

open Str (point lit)
open PyJson (Numeral digitsValue)

/-! ## The digits -/

variable {significand : Nat} {exponent : Int}

/-- Whatever digits are taken, they name the double. -/
theorem shortest_reads (significand : Nat) (exponent : Int) :
    Number.ofDecimal false (shortest significand exponent).1 (shortest significand exponent).2 =
      Number.ofRatio false (significand * 2 ^ exponent.toNat) (2 ^ (-exponent).toNat) := by
  unfold shortest
  dsimp only
  generalize found : List.findSome? _ _ = result
  cases result with
  | some numeral =>
      obtain ⟨before, -, held⟩ := List.exists_of_findSome?_eq_some found
      obtain ⟨digits, isFirst, rfl⟩ := Option.map_eq_some_iff.mp held
      have reads := List.find?_some isFirst
      exact of_decide_eq_true reads
  | none =>
      -- Without a short numeral the expansion is exact.
      refine Number.ofRatio_congr false (Nat.pow_pos (by decide)) (Nat.two_pow_pos _) ?_
      have whole : (min exponent 0).toNat = 0 := by omega
      have places : (-min exponent 0).toNat = (-exponent).toNat := by omega
      rw [Option.getD_none, whole, places, Nat.pow_zero, Nat.mul_one, Nat.mul_assoc, Nat.mul_assoc,
        Nat.mul_assoc, ← Nat.mul_pow]

theorem trimZeros_reads (negative : Bool) (fuel : Nat) (numeral : Nat × Int) :
    Number.ofDecimal negative (trimZeros fuel numeral).1 (trimZeros fuel numeral).2 =
      Number.ofDecimal negative numeral.1 numeral.2 := by
  induction fuel generalizing numeral with
  | zero => rfl
  | succ fuel ih =>
      obtain ⟨digits, scale⟩ := numeral
      rw [trimZeros]
      split
      next trims =>
          have cut := Number.ofDecimal_shift negative (digits / 10) 1 scale
          rw [Nat.pow_one, Nat.div_mul_cancel (Nat.dvd_of_mod_eq_zero trims.2)] at cut
          exact (ih _).trans cut.symm
      next => rfl

/-- The digits without trailing zeros name the double too, and are not none. -/
theorem digits_read (nonzero : significand ≠ 0)
    (canonical : Number.isCanonical (.finite false significand exponent) = true)
    (negative : Bool) :
    let numeral := trimZeros 400 (shortest significand exponent)
    0 < numeral.1 ∧ Number.ofDecimal negative numeral.1 numeral.2 =
      .finite negative significand exponent := by
  intro numeral
  have read : Number.ofDecimal false numeral.1 numeral.2 = .finite false significand exponent :=
    (trimZeros_reads false 400 _).trans ((shortest_reads significand exponent).trans
      (Number.ofRatio_canonical false nonzero canonical))
  constructor
  · by_contra none
    have zero : numeral.1 = 0 := by omega
    rw [zero, Number.ofDecimal, Nat.zero_mul, Number.ofRatio, if_pos rfl] at read
    cases read
    exact nonzero rfl
  · rw [Number.ofDecimal] at read ⊢
    rw [Number.ofRatio_sign, read]

/-! ## The notations -/

/-- A numeral with a point or an exponent that spells a double whatever its sign. -/
structure Spells (significand : Nat) (exponent : Int) (numeral : Numeral) : Prop where
  valid : numeral.Valid
  float : numeral.fraction.isSome ∨ numeral.exponent.isSome
  reads : ∀ negative, Number.ofDecimal negative
    (digitsValue (numeral.whole ++ numeral.fraction.getD []))
    (numeral.power - (numeral.fraction.getD []).length) = .finite negative significand exponent

section Notations

variable {digits : Nat} {scale : Int} {text : Str}

/-- Digits of a positive number, with what they are worth. -/
structure Digits (text : Str) (digits : Nat) : Prop where
  head : ∃ c rest, text = c :: rest ∧ c ≠ point '0'
  all : ∀ c ∈ text, Str.isDigit c = true
  value : digitsValue text = digits

theorem ofNat_digits (positive : 0 < digits) : Digits (Str.ofNat digits) digits := by
  obtain ⟨c, rest, spelled, notZero, -⟩ := Str.ofNat_head positive
  exact ⟨⟨c, rest, spelled, notZero⟩, Str.ofNat_isDigit digits, PyJson.digitsValue_ofNat digits⟩

theorem zeros_isDigit (count : Nat) :
    ∀ d ∈ List.replicate count (point '0'), Str.isDigit d = true := by
  intro d member
  rw [List.eq_of_mem_replicate member]
  decide

theorem zero_isDigit : ∀ d ∈ [point '0'], Str.isDigit d = true := zeros_isDigit 1

/-- `0.00ddd` -/
theorem below_one (spelled : Digits text digits)
    (read : ∀ negative, Number.ofDecimal negative digits scale =
      .finite negative significand exponent) (small : (text.length : Int) + scale ≤ 0) :
    Spells significand exponent
      ⟨[point '0'], some (List.replicate (-((text.length : Int) + scale)).toNat (point '0') ++ text),
        none⟩ := by
  obtain ⟨⟨c, rest, shape, -⟩, all, value⟩ := spelled
  refine ⟨⟨.inl rfl, zero_isDigit, ?_, ?_⟩, .inl rfl, fun negative => ?_⟩
  · rintro decimals ⟨⟩
    refine ⟨by simp [shape], fun d member => ?_⟩
    exact (List.mem_append.mp member).elim (zeros_isDigit _ d) (all d)
  · rintro negative digits ⟨⟩
  · have worth : digitsValue ([point '0'] ++ (some (List.replicate
        (-((text.length : Int) + scale)).toNat (point '0') ++ text)).getD []) = digits := by
      have zero : digitsValue [point '0'] = 0 := PyJson.digitsValue_zeros 1
      rw [Option.getD_some, PyJson.digitsValue_append, PyJson.digitsValue_append,
        PyJson.digitsValue_zeros, value, zero]
      simp
    rw [worth, ← read negative]
    congr 1
    simp only [Numeral.power, Option.getD_some, List.length_append, List.length_replicate]
    omega

/-- `ddd00.0` -/
theorem above_digits (spelled : Digits text digits)
    (read : ∀ negative, Number.ofDecimal negative digits scale =
      .finite negative significand exponent) (whole : 0 ≤ scale) :
    Spells significand exponent
      ⟨text ++ List.replicate scale.toNat (point '0'), some [point '0'], none⟩ := by
  obtain ⟨⟨c, rest, shape, notZero⟩, all, value⟩ := spelled
  refine ⟨⟨.inr ⟨c, rest ++ _, by rw [shape, List.cons_append], notZero⟩, ?_, ?_, ?_⟩, .inl rfl,
    fun negative => ?_⟩
  · intro d member
    exact (List.mem_append.mp member).elim (all d) (zeros_isDigit _ d)
  · rintro decimals ⟨⟩
    exact ⟨by simp, zero_isDigit⟩
  · rintro negative digits ⟨⟩
  · have worth : digitsValue (text ++ List.replicate scale.toNat (point '0') ++
        (some [point '0']).getD []) = digits * 10 ^ (scale.toNat + 1) := by
      have zero : digitsValue [point '0'] = 0 := PyJson.digitsValue_zeros 1
      rw [Option.getD_some, PyJson.digitsValue_append, PyJson.digitsValue_append,
        PyJson.digitsValue_zeros, value, zero, List.length_replicate, List.length_singleton,
        Nat.add_zero, Nat.add_zero, Nat.mul_assoc, ← Nat.pow_add]
    rw [worth, Number.ofDecimal_shift, ← read negative]
    congr 1
    simp only [Numeral.power, Option.getD_some, List.length_singleton]
    omega

/-- `dd.ddd` -/
theorem inside_digits (spelled : Digits text digits)
    (read : ∀ negative, Number.ofDecimal negative digits scale =
      .finite negative significand exponent) {place : Nat} (some_ : 0 < place)
    (inside : place < text.length) (isPlace : (place : Int) = text.length + scale) :
    Spells significand exponent ⟨text.take place, some (text.drop place), none⟩ := by
  obtain ⟨⟨c, rest, shape, notZero⟩, all, value⟩ := spelled
  have head : text.take place = c :: rest.take (place - 1) := by
    obtain ⟨before, rfl⟩ := Nat.exists_eq_succ_of_ne_zero some_.ne'
    rw [shape]
    rfl
  refine ⟨⟨.inr ⟨c, _, head, notZero⟩, fun d member => all d (List.mem_of_mem_take member), ?_,
    ?_⟩, .inl rfl, fun negative => ?_⟩
  · rintro decimals ⟨⟩
    refine ⟨?_, fun d member => all d (List.mem_of_mem_drop member)⟩
    rw [ne_eq, List.drop_eq_nil_iff]
    omega
  · rintro negative digits ⟨⟩
  · simp only [Option.getD_some, List.take_append_drop, value, Numeral.power]
    rw [← read negative]
    congr 1
    rw [List.length_drop]
    omega

/-- `d.ddde+dd` -/
theorem scientific (spelled : Digits text digits)
    (read : ∀ negative, Number.ofDecimal negative digits scale =
      .finite negative significand exponent) {power : Int}
    (isPower : power = (text.length : Int) + scale - 1) :
    Spells significand exponent
      ⟨text.take 1, if text.length = 1 then none else some (text.drop 1),
        some (power < 0, (if (Str.ofNat power.natAbs).length = 1 then lit "0" else []) ++
          Str.ofNat power.natAbs)⟩ := by
  obtain ⟨⟨c, rest, shape, notZero⟩, all, value⟩ := spelled
  have lead : ∀ d ∈ (if (Str.ofNat power.natAbs).length = 1 then lit "0" else []),
      Str.isDigit d = true := by
    split
    · exact zero_isDigit
    · intro d member
      cases member
  refine ⟨⟨.inr ⟨c, _, by rw [shape]; rfl, notZero⟩,
    fun d member => all d (List.mem_of_mem_take member), ?_, ?_⟩, .inr rfl, fun negative => ?_⟩
  · intro decimals held
    dsimp only at held
    split at held
    · cases held
    · next several =>
        cases held
        refine ⟨?_, fun d member => all d (List.mem_of_mem_drop member)⟩
        rw [ne_eq, List.drop_eq_nil_iff]
        have some_ : text.length ≠ 0 := by simp [shape]
        omega
  · rintro negative digits ⟨⟩
    refine ⟨by simp [Str.ofNat_ne_nil], fun d member => ?_⟩
    exact (List.mem_append.mp member).elim (lead d) (Str.ofNat_isDigit _ d)
  · have joined : text.take 1 ++ (if text.length = 1 then none else some (text.drop 1)).getD [] =
        text := by
      split
      · next one => rw [Option.getD_none, List.append_nil, List.take_of_length_le (by omega)]
      · rw [Option.getD_some, List.take_append_drop]
    have places : (((if text.length = 1 then none else some (text.drop 1)).getD []).length : Int) =
        text.length - 1 := by
      have some_ : text.length ≠ 0 := by simp [shape]
      split
      · next one => simp [one]
      · rw [Option.getD_some, List.length_drop]
        omega
    have written : digitsValue ((if (Str.ofNat power.natAbs).length = 1 then lit "0" else []) ++
        Str.ofNat power.natAbs) = power.natAbs := by
      rw [PyJson.digitsValue_append, PyJson.digitsValue_ofNat]
      split <;> simp [digitsValue, lit, point]
    simp only [joined, value, places, Numeral.power, written]
    rw [← read negative]
    congr 1
    by_cases below : power < 0
    · simp only [below, decide_true, if_true]
      omega
    · simp only [below, decide_false, Bool.false_eq_true, if_false]
      omega

end Notations

/-- The text of a positive double is a numeral that spells it. -/
theorem magnitude_spells (nonzero : significand ≠ 0)
    (canonical : Number.isCanonical (.finite false significand exponent) = true) :
    ∃ numeral, Spells significand exponent numeral ∧
      magnitude significand exponent = numeral.text := by
  have found := digits_read nonzero canonical
  unfold magnitude
  generalize trimZeros 400 (shortest significand exponent) = numeral at found
  obtain ⟨digits, scale⟩ := numeral
  dsimp only at found ⊢
  have read (negative : Bool) := (found negative).2
  have spelled := ofNat_digits (found false).1
  generalize Str.ofNat digits = text at *
  split
  next near =>
    split
    next small =>
      refine ⟨_, below_one spelled read small, ?_⟩
      simp only [Numeral.text, Numeral.fractionText, Numeral.exponentText, List.append_nil]
      rfl
    next large =>
      split
      next reaches =>
        refine ⟨_, above_digits spelled read (by omega), ?_⟩
        simp only [Numeral.text, Numeral.fractionText, Numeral.exponentText, List.append_nil]
        rw [show ((text.length : Int) + scale).toNat - text.length = scale.toNat by omega]
        rfl
      next inside =>
        refine ⟨_, inside_digits spelled read
          (show 0 < ((text.length : Int) + scale).toNat by omega) (by omega) (by omega), ?_⟩
        simp only [Numeral.text, Numeral.fractionText, Numeral.exponentText, List.append_nil]
        rw [List.append_assoc]
        rfl
  next far =>
    refine ⟨_, scientific spelled read rfl, ?_⟩
    simp only [Numeral.text, Numeral.exponentText, decide_eq_true_eq, List.append_assoc]
    by_cases one : text.length = 1
    · simp [one, Numeral.fractionText]
    · simp [one, Numeral.fractionText]

end Ccrc.Library.PyFloat
