import Ccrc.Library.JsonProperties
import Ccrc.Library.Utf8Lossy

/-! A JSON text that was written is well-formed UTF-16, so bytes keep it whole. -/

set_option autoImplicit false

namespace Ccrc.Library

open Text (lit unit)

namespace Utf8

open Json (isHighSurrogate isLowSurrogate isSurrogate)

theorem high_of_not_surrogate {c : UInt16} (alone : isSurrogate c = false) :
    isHighSurrogate c = false :=
  Bool.eq_false_iff.mpr fun high => by
    have bounds := surrogate_bounds.1.mp high
    exact Bool.eq_false_iff.mp alone (surrogate_bounds.2.2.mpr ⟨bounds.1, by omega⟩)

theorem isWellFormed_cons {c : UInt16} (alone : isSurrogate c = false) {text : Text}
    (wellFormed : isWellFormed text = true) : isWellFormed (c :: text) = true := by
  cases text with
  | nil => simp [isWellFormed, alone]
  | cons d rest => simp [isWellFormed, high_of_not_surrogate alone, alone, wellFormed]

theorem isWellFormed_append {first second : Text} (firstFormed : isWellFormed first = true)
    (secondFormed : isWellFormed second = true) : isWellFormed (first ++ second) = true := by
  induction first using isWellFormed.induct with
  | case1 => exact secondFormed
  | case2 c => exact isWellFormed_cons (by simpa [isWellFormed] using firstFormed) secondFormed
  | case3 c d rest paired ih =>
      rw [isWellFormed, if_pos paired] at firstFormed
      rw [List.cons_append, List.cons_append, isWellFormed, if_pos paired]
      exact ih firstFormed
  | case4 c d rest unpaired ih =>
      rw [isWellFormed, if_neg unpaired, Bool.and_eq_true, Bool.not_eq_true'] at firstFormed
      exact isWellFormed_cons firstFormed.1 (ih firstFormed.2)

theorem encode_cons {c : UInt16} (alone : isSurrogate c = false) (text : Text) :
    encode (c :: text) = encodeAlone c ++ encode text := by
  cases text with
  | nil => simp [encode]
  | cons d rest => simp [encode, high_of_not_surrogate alone]

theorem encode_append {first : Text} (wellFormed : isWellFormed first = true) (second : Text) :
    encode (first ++ second) = encode first ++ encode second := by
  induction first using isWellFormed.induct with
  | case1 => rfl
  | case2 c =>
      have alone : isSurrogate c = false := by simpa [isWellFormed] using wellFormed
      rw [List.singleton_append, encode_cons alone, encode]
  | case3 c d rest paired ih =>
      rw [isWellFormed, if_pos paired] at wellFormed
      rw [List.cons_append, List.cons_append, encode, encode, if_pos paired, if_pos paired,
        ih wellFormed, List.append_assoc]
  | case4 c d rest unpaired ih =>
      rw [isWellFormed, if_neg unpaired, Bool.and_eq_true, Bool.not_eq_true'] at wellFormed
      rw [List.cons_append, encode_cons wellFormed.1, encode_cons wellFormed.1, ih wellFormed.2,
        List.append_assoc]

theorem isWellFormed_alone {text : Text} (alone : ∀ c ∈ text, isSurrogate c = false) :
    isWellFormed text = true := by
  induction text with
  | nil => rfl
  | cons c rest ih =>
      rw [List.forall_mem_cons] at alone
      exact isWellFormed_cons alone.1 (ih alone.2)

end Utf8

namespace Json

open Utf8 (isWellFormed isWellFormed_append isWellFormed_alone isWellFormed_cons)

private theorem small_alone {c : UInt16} (small : c.toNat < 0x80) : isSurrogate c = false :=
  Bool.eq_false_iff.mpr (mt Utf8.surrogate_bounds.2.2.mp (by omega))

private theorem hexEscape_alone (c : UInt16) : ∀ d ∈ hexEscape c, isSurrogate d = false := by
  have digit : ∀ value, value < 16 → (hexDigit value).toNat < 0x80 := by decide
  have bound := c.toNat_lt
  intro d member
  simp only [hexEscape, List.mem_cons, List.not_mem_nil, or_false] at member
  rcases member with rfl | rfl | rfl | rfl | rfl | rfl
  · decide
  · decide
  · exact small_alone (digit _ (by omega))
  · exact small_alone (digit _ (by omega))
  · exact small_alone (digit _ (by omega))
  · exact small_alone (digit _ (by omega))

private theorem alone_of_all {text : Text} (all : text.all (fun d => !isSurrogate d) = true) :
    ∀ d ∈ text, isSurrogate d = false := by
  intro d member
  simpa using List.all_eq_true.mp all d member

private theorem escapeUnit_alone (c : UInt16) : ∀ d ∈ escapeUnit c, isSurrogate d = false := by
  unfold escapeUnit
  split
  next => exact alone_of_all (by decide)
  next =>
      split
      next => exact alone_of_all (by decide)
      next =>
          split
          next => exact alone_of_all (by decide)
          next =>
              split
              next => exact alone_of_all (by decide)
              next =>
                  split
                  next => exact alone_of_all (by decide)
                  next =>
                      split
                      next => exact alone_of_all (by decide)
                      next =>
                          split
                          next => exact alone_of_all (by decide)
                          next =>
                              split
                              next => exact hexEscape_alone c
                              next =>
                                  split
                                  next => exact hexEscape_alone c
                                  next alone => simpa using alone

/-- A surrogate that is written as it is has its other half beside it. -/
private theorem escapeUnits_wellFormed {before : Option UInt16} {text : Text}
    (apart : ¬(before.any isHighSurrogate = true ∧ text.head?.any isLowSurrogate = true)) :
    isWellFormed (escapeUnits before text) = true := by
  have notBoth : ∀ c, isHighSurrogate c = true → isLowSurrogate c = true → False := by
    intro c high low
    have upper := Utf8.surrogate_bounds.1.mp high
    have lower := Utf8.surrogate_bounds.2.1.mp low
    omega
  induction text using Utf8.isWellFormed.induct generalizing before with
  | case1 => rfl
  | case2 c =>
      have unpaired : ((isHighSurrogate c && ([] : Text).head?.any isLowSurrogate) ||
          (isLowSurrogate c && before.any isHighSurrogate)) = false := by
        simp only [List.head?_cons, Option.any_some] at apart
        simp only [List.head?_nil, Option.any_none, Bool.and_false, Bool.false_or]
        refine Bool.eq_false_iff.mpr fun both => ?_
        rw [Bool.and_eq_true] at both
        exact apart both.symm
      rw [escapeUnits, unpaired, if_neg Bool.false_ne_true, escapeUnits, List.append_nil]
      exact isWellFormed_alone (escapeUnit_alone c)
  | case3 c d rest paired ih =>
      rw [Bool.and_eq_true] at paired
      have later : isWellFormed (escapeUnits (some d) rest) = true :=
        ih fun both => notBoth d (by simpa using both.1) paired.2
      simp [escapeUnits, paired.1, paired.2, isWellFormed, later]
  | case4 c d rest unpaired ih =>
      have alone : ((isHighSurrogate c && (d :: rest).head?.any isLowSurrogate) ||
          (isLowSurrogate c && before.any isHighSurrogate)) = false := by
        simp only [List.head?_cons, Option.any_some] at apart ⊢
        simp only [Bool.or_eq_false_iff]
        refine ⟨Bool.eq_false_iff.mpr unpaired, Bool.eq_false_iff.mpr fun both => ?_⟩
        rw [Bool.and_eq_true] at both
        exact apart both.symm
      rw [escapeUnits, alone, if_neg Bool.false_ne_true]
      refine isWellFormed_append (isWellFormed_alone (escapeUnit_alone c)) (ih fun both => ?_)
      exact unpaired (by simpa using both)

private theorem writeString_wellFormed (text : Text) : isWellFormed (writeString text) = true := by
  have inside : isWellFormed (escapeUnits none text) = true :=
    escapeUnits_wellFormed fun both => by simp at both
  exact isWellFormed_cons (by decide) (isWellFormed_append inside (by decide))

private theorem ofInt_wellFormed (value : Int) : isWellFormed (Text.ofInt value) = true := by
  have digits : ∀ number, isWellFormed (Text.ofNat number) = true := by
    refine fun number => isWellFormed_alone fun d member => small_alone ?_
    have isDigit := ofNat_isDigit number d member
    simp only [Text.isDigit, Bool.and_eq_true, decide_eq_true_eq, UInt16.le_iff_toNat_le] at isDigit
    have nine : (unit '9').toNat = 57 := rfl
    omega
  cases value with
  | ofNat number => exact digits number
  | negSucc number => exact isWellFormed_cons (by decide) (digits _)

mutual

/-- A written value is well-formed UTF-16. -/
theorem write_wellFormed (value : Json Int) : isWellFormed (write Text.ofInt value) = true := by
  cases value with
  | null => decide
  | bool value => cases value <;> decide
  | number value => exact ofInt_wellFormed value
  | string text => exact writeString_wellFormed text
  | array items =>
      cases items with
      | nil => decide
      | cons item items =>
          have inside := isWellFormed_append (write_wellFormed item) (writeItems_wellFormed items)
          exact isWellFormed_cons (by decide) (isWellFormed_append inside (by decide))
  | object fields =>
      cases fields with
      | nil => decide
      | cons field fields =>
          obtain ⟨key, value⟩ := field
          have inside := isWellFormed_append
            (isWellFormed_append (write_wellFormed value) (writeFields_wellFormed fields))
            (show isWellFormed [unit '}'] = true by decide)
          exact isWellFormed_cons (by decide) (isWellFormed_append (writeString_wellFormed key)
            (isWellFormed_cons (by decide) inside))

theorem writeItems_wellFormed (items : List (Json Int)) :
    isWellFormed (writeItems Text.ofInt items) = true := by
  cases items with
  | nil => rfl
  | cons item items =>
      exact isWellFormed_cons (by decide)
        (isWellFormed_append (write_wellFormed item) (writeItems_wellFormed items))

theorem writeFields_wellFormed (fields : List (Text × Json Int)) :
    isWellFormed (writeFields Text.ofInt fields) = true := by
  cases fields with
  | nil => rfl
  | cons field fields =>
      obtain ⟨key, value⟩ := field
      have inside := isWellFormed_append (write_wellFormed value) (writeFields_wellFormed fields)
      exact isWellFormed_cons (by decide) (isWellFormed_append (writeString_wellFormed key)
        (isWellFormed_cons (by decide) inside))

end

end Json

end Ccrc.Library
