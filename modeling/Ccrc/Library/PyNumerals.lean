import Ccrc.Library.PyJson

/-! Numerals of Python's JSON: their digits, the three parts that one is written in, and
what the reader makes of it in front of any text that ends a numeral. -/

set_option autoImplicit false

namespace Ccrc.Library

open Str (point lit)

/-! ## Digits -/

namespace Str

theorem point_of_isDigit {c : Char} (digit : c.isDigit = true) :
    (point c).val = c.toNat ∧ isDigit (point c) = true := by
  have bounds := Char.isDigit_iff_toNat.mp digit
  have lower : '0'.toNat = 48 := rfl
  have upper : '9'.toNat = 57 := rfl
  have value : (point c).val = c.toNat := by
    rw [point, Fin.val_ofNat]
    omega
  refine ⟨value, ?_⟩
  rw [isDigit, value, Bool.and_eq_true, decide_eq_true_eq, decide_eq_true_eq]
  omega

theorem ofNat_isDigit (number : Nat) : ∀ c ∈ ofNat number, isDigit c = true := by
  intro c member
  obtain ⟨digit, isDigit, rfl⟩ := List.mem_map.mp member
  exact (point_of_isDigit (Nat.isDigit_of_mem_toDigits (by decide) (by decide) isDigit)).2

theorem ofNat_ne_nil (number : Nat) : ofNat number ≠ [] := by
  simp [ofNat]

/-- A positive numeral starts with another digit than zero. -/
theorem ofNat_head {number : Nat} (positive : 0 < number) :
    ∃ c rest, ofNat number = c :: rest ∧ c ≠ point '0' ∧ isDigit c = true := by
  induction number using Nat.strongRecOn with
  | ind number ih =>
      by_cases small : number < 10
      · have nonzero : ∀ digit, digit < 10 → 0 < digit →
            point digit.digitChar ≠ point '0' := by decide
        have spelled : ofNat number = [point number.digitChar] := by
          rw [ofNat, Nat.toDigits_of_lt_base small]
          rfl
        have digit := ofNat_isDigit number (point number.digitChar) (by simp [spelled])
        exact ⟨_, _, spelled, nonzero number small positive, digit⟩
      · obtain ⟨c, rest, spelled, notZero, digit⟩ :=
          ih (number / 10) (by omega) (by omega)
        refine ⟨c, rest ++ [point (number % 10).digitChar], ?_, notZero, digit⟩
        rw [ofNat] at spelled ⊢
        rw [Nat.toDigits_eq_if (by decide), if_neg small, List.map_append, spelled]
        rfl

end Str

namespace PyJson

open Str

private theorem foldl_digits {digits : List Char} (all : ∀ c ∈ digits, c.isDigit = true)
    (start : Nat) :
    (digits.map point).foldl (fun value digit => value * 10 + (digit.val - 48)) start =
      Nat.ofDigitChars 10 digits start := by
  induction digits generalizing start with
  | nil => simp
  | cons c digits ih =>
      have value := (point_of_isDigit (all c List.mem_cons_self)).1
      rw [List.map_cons, List.foldl_cons, ih fun d member => all d (List.mem_cons_of_mem c member),
        Nat.ofDigitChars_cons, value, Nat.mul_comm]
      rfl

theorem digitsValue_ofNat (number : Nat) : digitsValue (Str.ofNat number) = number := by
  rw [digitsValue, Str.ofNat, foldl_digits (fun c member =>
    Nat.isDigit_of_mem_toDigits (by decide) (by decide) member), Nat.ofDigitChars_ten_toDigits]

theorem digitsValue_append (first second : Str) :
    digitsValue (first ++ second) = digitsValue first * 10 ^ second.length + digitsValue second := by
  have shifted (digits : Str) (start : Nat) :
      digits.foldl (fun value digit => value * 10 + (digit.val - 48)) start =
        start * 10 ^ digits.length + digitsValue digits := by
    induction digits generalizing start with
    | nil => simp [digitsValue]
    | cons c digits ih =>
        have one : digitsValue (c :: digits) =
            (0 * 10 + (c.val - 48)) * 10 ^ digits.length + digitsValue digits := ih _
        rw [List.foldl_cons, ih, one, List.length_cons]
        ring
  rw [digitsValue, List.foldl_append, shifted]
  rfl

theorem digitsValue_zeros (count : Nat) : digitsValue (List.replicate count (point '0')) = 0 := by
  induction count with
  | zero => rfl
  | succ count ih =>
      rw [List.replicate_succ', digitsValue_append, ih]
      rfl

/-! ## The parts of a numeral -/

/-- A text that no numeral goes on into. -/
def Ends (rest : Str) : Prop :=
  ∀ c, rest.head? = some c →
    Str.isDigit c = false ∧ c ≠ point '.' ∧ c ≠ point 'e' ∧ c ≠ point 'E'

theorem ends_nil : Ends [] := by
  intro c isHead
  cases isHead

theorem ends_cons {c : CodePoint} {rest : Str}
    (ends : Str.isDigit c = false ∧ c ≠ point '.' ∧ c ≠ point 'e' ∧ c ≠ point 'E') :
    Ends (c :: rest) := by
  intro d isHead
  cases isHead
  exact ends

theorem spanDigits_append {digits rest : Str} (all : ∀ c ∈ digits, Str.isDigit c = true)
    (ends : ∀ c, rest.head? = some c → Str.isDigit c = false) :
    spanDigits (digits ++ rest) = (digits, rest) := by
  induction digits with
  | nil =>
      cases rest with
      | nil => rfl
      | cons c rest => simp [spanDigits, ends c rfl]
  | cons c digits ih =>
      have inner := ih fun d member => all d (List.mem_cons_of_mem c member)
      simp [spanDigits, all c List.mem_cons_self, inner]

/-- A numeral as it is written: whole digits, a fraction and a signed exponent. -/
structure Numeral where
  whole : Str
  fraction : Option Str
  exponent : Option (Bool × Str)

namespace Numeral

def fractionText : Option Str → Str
  | .none => []
  | some decimals => point '.' :: decimals

def exponentText : Option (Bool × Str) → Str
  | .none => []
  | some (negative, digits) => lit (if negative then "e-" else "e+") ++ digits

def text (numeral : Numeral) : Str :=
  numeral.whole ++ fractionText numeral.fraction ++ exponentText numeral.exponent

def power (numeral : Numeral) : Int :=
  match numeral.exponent with
  | .none => 0
  | some (negative, digits) =>
      if negative then -(digitsValue digits : Int) else digitsValue digits

/-- What the grammar allows. -/
structure Valid (numeral : Numeral) : Prop where
  whole : numeral.whole = [point '0'] ∨
    ∃ c rest, numeral.whole = c :: rest ∧ c ≠ point '0'
  digits : ∀ c ∈ numeral.whole, Str.isDigit c = true
  fraction : ∀ decimals, numeral.fraction = some decimals →
    decimals ≠ [] ∧ ∀ c ∈ decimals, Str.isDigit c = true
  exponent : ∀ negative digits, numeral.exponent = some (negative, digits) →
    digits ≠ [] ∧ ∀ c ∈ digits, Str.isDigit c = true

variable {numeral : Numeral} {rest : Str}

theorem exponent_ends (ends : Ends rest) :
    ∀ c, (exponentText numeral.exponent ++ rest).head? = some c →
      Str.isDigit c = false ∧ c ≠ point '.' := by
  intro c isHead
  cases held : numeral.exponent with
  | none =>
      rw [held] at isHead
      exact ⟨(ends c isHead).1, (ends c isHead).2.1⟩
  | some parts =>
      obtain ⟨negative, digits⟩ := parts
      have letter : c = point 'e' := by
        rw [held] at isHead
        cases negative <;> exact (Option.some.inj isHead).symm
      rw [letter]
      decide

theorem fraction_ends (ends : Ends rest) :
    ∀ c, (fractionText numeral.fraction ++ (exponentText numeral.exponent ++ rest)).head? = some c →
      Str.isDigit c = false := by
  intro c isHead
  cases held : numeral.fraction with
  | none =>
      rw [held] at isHead
      exact (exponent_ends ends c isHead).1
  | some decimals =>
      rw [held] at isHead
      have dot : c = point '.' := (Option.some.inj isHead).symm
      rw [dot]
      decide

theorem scanWhole_text (valid : numeral.Valid) {after : Str}
    (ends : ∀ c, after.head? = some c → Str.isDigit c = false) :
    scanWhole (numeral.whole ++ after) = some (numeral.whole, after) := by
  rcases valid.whole with zero | ⟨c, digits, spelled, notZero⟩
  · rw [zero]
    rfl
  · have span := spanDigits_append valid.digits ends
    have digit := valid.digits c (by simp [spelled])
    rw [spelled, List.cons_append] at span ⊢
    rw [scanWhole, if_neg notZero, if_pos digit, span]

theorem scanFraction_text (valid : numeral.Valid) (ends : Ends rest) :
    scanFraction (fractionText numeral.fraction ++ (exponentText numeral.exponent ++ rest)) =
      (numeral.fraction, exponentText numeral.exponent ++ rest) := by
  cases held : numeral.fraction with
  | none =>
      cases after : exponentText numeral.exponent ++ rest with
      | nil => rfl
      | cons c after =>
          have notDot := (@exponent_ends numeral rest ends c (by rw [after]; rfl)).2
          simp [fractionText, scanFraction, notDot]
  | some decimals =>
      obtain ⟨filled, digits⟩ := valid.fraction decimals held
      have span := spanDigits_append digits fun c isHead =>
        (@exponent_ends numeral rest ends c isHead).1
      simp [fractionText, scanFraction, span, filled]

theorem scanExponent_text (valid : numeral.Valid) (ends : Ends rest) :
    scanExponent (exponentText numeral.exponent ++ rest) =
      (numeral.exponent.map fun _ => numeral.power, rest) := by
  cases held : numeral.exponent with
  | none =>
      cases rest with
      | nil => rfl
      | cons c rest =>
          obtain ⟨-, -, notLower, notUpper⟩ := ends c rfl
          simp [exponentText, scanExponent, notLower, notUpper]
  | some parts =>
      obtain ⟨negative, digits⟩ := parts
      obtain ⟨filled, all⟩ := valid.exponent negative digits held
      have span := spanDigits_append all fun c isHead => (ends c isHead).1
      cases negative with
      | false =>
          have sign : scanSign (point '+' :: (digits ++ rest)) = (false, digits ++ rest) := rfl
          have shape : exponentText (some (false, digits)) ++ rest =
              point 'e' :: point '+' :: (digits ++ rest) := rfl
          simp [shape, scanExponent, sign, span, filled, power, held]
      | true =>
          have sign : scanSign (point '-' :: (digits ++ rest)) = (true, digits ++ rest) := rfl
          have shape : exponentText (some (true, digits)) ++ rest =
              point 'e' :: point '-' :: (digits ++ rest) := rfl
          simp [shape, scanExponent, sign, span, filled, power, held]

end Numeral

section Scan

variable {limits : PyLimits} {numeral : Numeral} {rest : Str}

/-- A numeral with a fraction or an exponent is read as the double it spells. -/
theorem scanNumber_float (valid : numeral.Valid)
    (float : numeral.fraction.isSome ∨ numeral.exponent.isSome) (negative : Bool)
    (ends : Ends rest) :
    scanNumber limits negative (numeral.text ++ rest) =
      some (.float (.number (Number.ofDecimal negative
        (digitsValue (numeral.whole ++ numeral.fraction.getD []))
        (numeral.power - (numeral.fraction.getD []).length))), rest) := by
  have whole := Numeral.scanWhole_text valid (@Numeral.fraction_ends numeral rest ends)
  have fraction := Numeral.scanFraction_text valid ends
  have exponent := Numeral.scanExponent_text valid ends
  have power : (numeral.exponent.map fun _ => numeral.power).getD 0 = numeral.power := by
    cases held : numeral.exponent with
    | none => simp [Numeral.power, held]
    | some parts => rfl
  rw [Numeral.text, List.append_assoc, List.append_assoc, scanNumber, whole]
  simp only [fraction, exponent, power]
  rw [if_neg]
  rw [Option.isNone_map]
  rintro ⟨noFraction, noExponent⟩
  rcases float with some_ | some_
  · simp [Option.isNone_iff_eq_none.mp noFraction] at some_
  · simp [Option.isNone_iff_eq_none.mp noExponent] at some_

/-- Digits alone are read as an integer, where the interpreter takes so many. -/
theorem scanNumber_ofNat (negative : Bool) {number : Nat}
    (fits : (Str.ofNat number).length ≤ limits.digits) (ends : Ends rest) :
    scanNumber limits negative (Str.ofNat number ++ rest) =
      some (.int (if negative then -(number : Int) else number), rest) := by
  have valid : Numeral.Valid ⟨Str.ofNat number, .none, .none⟩ := by
    refine ⟨?_, ofNat_isDigit number, ?_, ?_⟩
    · rcases Nat.eq_zero_or_pos number with rfl | positive
      · exact .inl rfl
      · obtain ⟨c, digits, spelled, notZero, -⟩ := Str.ofNat_head positive
        exact .inr ⟨c, digits, spelled, notZero⟩
    · intro decimals none
      cases none
    · intro negative digits none
      cases none
  have whole := Numeral.scanWhole_text valid (@Numeral.fraction_ends ⟨Str.ofNat number, .none, .none⟩
    rest ends)
  have fraction := Numeral.scanFraction_text valid ends
  have exponent := Numeral.scanExponent_text valid ends
  simp only [Numeral.fractionText, Numeral.exponentText, List.nil_append, Option.map_none]
    at whole fraction exponent
  simp [scanNumber, whole, fraction, exponent, Nat.not_lt.mpr fits, digitsValue_ofNat]

end Scan

end PyJson

end Ccrc.Library
