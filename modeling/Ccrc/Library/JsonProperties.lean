import Ccrc.Library.Json

/-! Reading back what was written: strings unit by unit, integers digit by digit,
and values by structural recursion, in front of any text that ends a value. -/

set_option autoImplicit false

namespace Ccrc.Library.Json

open Text (lit unit)

variable {ν : Type}

private theorem hexValue?_hexDigit : ∀ value, value < 16 →
    hexValue? (hexDigit value) = some value := by
  decide

private theorem hexUnit?_digits (c : UInt16) :
    hexUnit? (hexDigit (c.toNat / 4096)) (hexDigit (c.toNat / 256 % 16))
      (hexDigit (c.toNat / 16 % 16)) (hexDigit (c.toNat % 16)) = some c := by
  have bound := c.toNat_lt
  have value : c.toNat / 4096 * 4096 + c.toNat / 256 % 16 * 256 + c.toNat / 16 % 16 * 16 +
      c.toNat % 16 = c.toNat := by omega
  simp only [hexUnit?, hexValue?_hexDigit (c.toNat / 4096) (by omega),
    hexValue?_hexDigit (c.toNat / 256 % 16) (Nat.mod_lt _ (by decide)),
    hexValue?_hexDigit (c.toNat / 16 % 16) (Nat.mod_lt _ (by decide)),
    hexValue?_hexDigit (c.toNat % 16) (Nat.mod_lt _ (by decide)),
    Option.bind_eq_bind, Option.bind_some, pure, value, UInt16.ofNat_toNat]

private theorem parseString_hexEscape (c : UInt16) (rest : Text) :
    parseString (hexEscape c ++ rest) = prepend c (parseString rest) := by
  simp only [hexEscape, List.cons_append, List.nil_append]
  rw [parseString.eq_def]
  simp only [if_neg (show unit '\\' ≠ unit '"' by decide), if_true, hexUnit?_digits]

/-- A unit that needs no escape is read as it is. -/
private theorem parseString_plain {c : UInt16} (notQuote : c ≠ unit '"')
    (notBackslash : c ≠ unit '\\') (notControl : ¬c < 0x20) (rest : Text) :
    parseString (c :: rest) = prepend c (parseString rest) := by
  rw [parseString.eq_def]
  simp only [if_neg notQuote, if_neg notBackslash, if_neg notControl]

private theorem parseString_escape {e c : UInt16} (notHex : e ≠ unit 'u')
    (stands : unescape? e = some c) (rest : Text) :
    parseString (unit '\\' :: e :: rest) = prepend c (parseString rest) := by
  rw [parseString.eq_def]
  simp only [if_neg (show unit '\\' ≠ unit '"' by decide), if_true, if_neg notHex, stands]

theorem parseString_escapeUnit (c : UInt16) (rest : Text) :
    parseString (escapeUnit c ++ rest) = prepend c (parseString rest) := by
  unfold escapeUnit
  split
  next quote =>
    subst quote
    exact parseString_escape (by decide) (by decide) rest
  next notQuote =>
    split
    next backslash =>
      subst backslash
      exact parseString_escape (by decide) (by decide) rest
    next notBackslash =>
      split
      next isIt => exact isIt ▸ parseString_escape (by decide) (by decide) rest
      split
      next isIt => exact isIt ▸ parseString_escape (by decide) (by decide) rest
      split
      next isIt => exact isIt ▸ parseString_escape (by decide) (by decide) rest
      split
      next isIt => exact isIt ▸ parseString_escape (by decide) (by decide) rest
      split
      next isIt => exact isIt ▸ parseString_escape (by decide) (by decide) rest
      split
      next => exact parseString_hexEscape c rest
      next notControl =>
        split
        next => exact parseString_hexEscape c rest
        next => exact parseString_plain notQuote notBackslash notControl rest

private theorem surrogate_plain {c : UInt16} (surrogate : isSurrogate c = true) :
    c ≠ unit '"' ∧ c ≠ unit '\\' ∧ ¬c < 0x20 := by
  simp only [isSurrogate, Bool.and_eq_true, decide_eq_true_eq] at surrogate
  refine ⟨?_, ?_, ?_⟩
  · rintro rfl
    exact absurd surrogate.1 (by decide)
  · rintro rfl
    exact absurd surrogate.1 (by decide)
  · intro control
    have lower : (0xD800 : UInt16).toNat ≤ c.toNat := UInt16.le_iff_toNat_le.mp surrogate.1
    have upper : c.toNat < (0x20 : UInt16).toNat := UInt16.lt_iff_toNat_lt.mp control
    exact absurd (Nat.lt_of_le_of_lt lower upper) (by decide)

private theorem isSurrogate_of_half {c : UInt16}
    (half : isHighSurrogate c = true ∨ isLowSurrogate c = true) : isSurrogate c = true := by
  simp only [isHighSurrogate, isLowSurrogate, isSurrogate, Bool.and_eq_true,
    decide_eq_true_eq] at half ⊢
  simp only [UInt16.le_iff_toNat_le] at half ⊢
  have numerals : (0xD800 : UInt16).toNat = 0xD800 ∧ (0xDBFF : UInt16).toNat = 0xDBFF ∧
      (0xDC00 : UInt16).toNat = 0xDC00 ∧ (0xDFFF : UInt16).toNat = 0xDFFF := by decide
  omega

theorem parseString_escapeUnits (before : Option UInt16) (text rest : Text) :
    parseString (escapeUnits before text ++ unit '"' :: rest) = some (text, rest) := by
  induction text generalizing before with
  | nil =>
      rw [escapeUnits, List.nil_append, parseString.eq_def]
      simp only [if_true]
  | cons c text ih =>
      simp only [escapeUnits, List.append_assoc]
      split
      next paired =>
        have surrogate : isSurrogate c = true := by
          refine isSurrogate_of_half ?_
          simp only [Bool.or_eq_true, Bool.and_eq_true] at paired
          exact paired.imp (·.1) (·.1)
        obtain ⟨notQuote, notBackslash, notControl⟩ := surrogate_plain surrogate
        rw [List.singleton_append, parseString_plain notQuote notBackslash notControl, ih]
        rfl
      next =>
        rw [parseString_escapeUnit, ih]
        rfl

/-- A text that no numeral goes on into. -/
def Ends (rest : Text) : Prop :=
  ∀ c, rest.head? = some c → Text.isDigit c = false ∧ c ≠ unit '.' ∧ c ≠ unit 'e' ∧ c ≠ unit 'E'

theorem ends_nil : Ends [] := by
  intro c isHead
  cases isHead

theorem ends_cons {c : UInt16} {rest : Text}
    (ends : Text.isDigit c = false ∧ c ≠ unit '.' ∧ c ≠ unit 'e' ∧ c ≠ unit 'E') :
    Ends (c :: rest) := by
  intro d isHead
  cases isHead
  exact ends

theorem spanDigits_append {digits rest : Text} (all : ∀ c ∈ digits, Text.isDigit c = true)
    (ends : Ends rest) : spanDigits (digits ++ rest) = (digits, rest) := by
  induction digits with
  | nil =>
      cases rest with
      | nil => rfl
      | cons c rest => simp [spanDigits, (ends c rfl).1]
  | cons c digits ih =>
      have inner := ih fun d member => all d (List.mem_cons_of_mem c member)
      simp [spanDigits, all c List.mem_cons_self, inner]

private theorem toNat_unit_of_isDigit {c : Char} (digit : c.isDigit = true) :
    (unit c).toNat = c.toNat ∧ Text.isDigit (unit c) = true := by
  have bounds := Char.isDigit_iff_toNat.mp digit
  have lower : '0'.toNat = 48 := rfl
  have upper : '9'.toNat = 57 := rfl
  have value : (unit c).toNat = c.toNat := by
    rw [unit, UInt16.toNat_ofNat']
    omega
  refine ⟨value, ?_⟩
  have zero : (unit '0').toNat = 48 := by decide
  have nine : (unit '9').toNat = 57 := by decide
  simp only [Text.isDigit, Bool.and_eq_true, decide_eq_true_eq, UInt16.le_iff_toNat_le, value,
    zero, nine]
  omega

theorem ofNat_isDigit (number : Nat) : ∀ c ∈ Text.ofNat number, Text.isDigit c = true := by
  intro c member
  obtain ⟨digit, isDigit, rfl⟩ := List.mem_map.mp member
  exact (toNat_unit_of_isDigit
    (Nat.isDigit_of_mem_toDigits (by decide) (by decide) isDigit)).2

private theorem digitsValue_map {digits : List Char} (all : ∀ c ∈ digits, c.isDigit = true)
    (start : Nat) :
    (digits.map unit).foldl (fun value digit => value * 10 + (digit.toNat - 48)) start =
      Nat.ofDigitChars 10 digits start := by
  induction digits generalizing start with
  | nil => simp
  | cons c digits ih =>
      have value := (toNat_unit_of_isDigit (all c List.mem_cons_self)).1
      rw [List.map_cons, List.foldl_cons, ih fun d member => all d (List.mem_cons_of_mem c member),
        Nat.ofDigitChars_cons, value, Nat.mul_comm]
      rfl

theorem digitsValue_ofNat (number : Nat) : digitsValue (Text.ofNat number) = number := by
  rw [digitsValue, Text.ofNat, digitsValue_map (fun c member =>
    Nat.isDigit_of_mem_toDigits (by decide) (by decide) member), Nat.ofDigitChars_ten_toDigits]

/-- A positive numeral starts with another digit than zero. -/
theorem ofNat_head (number : Nat) (positive : 0 < number) :
    ∃ c rest, Text.ofNat number = c :: rest ∧ c ≠ unit '0' ∧ Text.isDigit c = true := by
  induction number using Nat.strongRecOn with
  | ind number ih =>
      by_cases small : number < 10
      · have nonzero : ∀ digit, digit < 10 → 0 < digit →
            unit digit.digitChar ≠ unit '0' := by decide
        have spelled : Text.ofNat number = [unit number.digitChar] := by
          rw [Text.ofNat, Nat.toDigits_of_lt_base small]
          rfl
        have digit := ofNat_isDigit number (unit number.digitChar) (by simp [spelled])
        exact ⟨_, _, spelled, nonzero number small positive, digit⟩
      · obtain ⟨c, rest, spelled, notZero, digit⟩ :=
          ih (number / 10) (by omega) (by omega)
        refine ⟨c, rest ++ [unit (number % 10).digitChar], ?_, notZero, digit⟩
        rw [Text.ofNat] at spelled ⊢
        rw [Nat.toDigits_eq_if (by decide), if_neg small, List.map_append, spelled]
        rfl

private theorem parseWhole_ofNat (number : Nat) {rest : Text} (ends : Ends rest) :
    parseWhole (Text.ofNat number ++ rest) = some (Text.ofNat number, rest) := by
  by_cases zero : number = 0
  · subst zero
    rfl
  · obtain ⟨c, digits, spelled, notZero, digit⟩ := ofNat_head number (Nat.pos_of_ne_zero zero)
    have span := spanDigits_append (ofNat_isDigit number) ends
    rw [spelled, List.cons_append] at span ⊢
    rw [parseWhole, if_neg notZero, if_pos digit, span]

theorem parseMagnitude_ofNat (negative : Bool) (number : Nat) {rest : Text} (ends : Ends rest) :
    parseMagnitude negative (Text.ofNat number ++ rest) =
      some (Number.ofDecimal negative number 0, rest) := by
  have noFraction : parseFraction rest = some ([], rest) := by
    cases rest with
    | nil => rfl
    | cons c rest => rw [parseFraction, if_neg (ends c rfl).2.1]
  have noExponent : parseExponent rest = some (0, rest) := by
    cases rest with
    | nil => rfl
    | cons c rest =>
        obtain ⟨-, -, notLower, notUpper⟩ := ends c rfl
        rw [parseExponent, if_neg (not_or.mpr ⟨notLower, notUpper⟩)]
  simp [parseMagnitude, parseWhole_ofNat number ends, noFraction, noExponent, digitsValue_ofNat]

private theorem ofNat_ne_nil (number : Nat) : Text.ofNat number ≠ [] := by
  simp [Text.ofNat]

/-- The first unit of a numeral starts no other kind of value. -/
private theorem numeral_head {c : UInt16} (numeral : Text.isDigit c = true ∨ c = unit '-') :
    isSpace c = false ∧ c ≠ unit '"' ∧ c ≠ unit '[' ∧ c ≠ unit '{' ∧ c ≠ unit 'n' ∧
      c ≠ unit 't' ∧ c ≠ unit 'f' ∧ c ≠ unit ']' := by
  rcases numeral with digit | rfl
  · have bounds : 48 ≤ c.toNat ∧ c.toNat ≤ 57 := by
      have zero : (unit '0').toNat = 48 := by decide
      have nine : (unit '9').toNat = 57 := by decide
      simpa [Text.isDigit, UInt16.le_iff_toNat_le, zero, nine] using digit
    have apart (d : UInt16) (outside : d.toNat < 48 ∨ 57 < d.toNat) : c ≠ d := by
      rintro rfl
      omega
    refine ⟨?_, apart _ (by decide), apart _ (by decide), apart _ (by decide), apart _ (by decide),
      apart _ (by decide), apart _ (by decide), apart _ (by decide)⟩
    simp [isSpace, apart 32 (by decide), apart 9 (by decide), apart 10 (by decide),
      apart 13 (by decide)]
  · decide

theorem ofInt_head (value : Int) :
    ∃ c rest, Text.ofInt value = c :: rest ∧ (Text.isDigit c = true ∨ c = unit '-') := by
  cases value with
  | ofNat number =>
      cases spelled : Text.ofNat number with
      | nil => exact absurd spelled (ofNat_ne_nil number)
      | cons c rest =>
          exact ⟨c, rest, spelled, .inl (ofNat_isDigit number c (by simp [spelled]))⟩
  | negSucc number => exact ⟨unit '-', _, rfl, .inr rfl⟩

theorem parseNumber_ofInt (value : Int) {rest : Text} (ends : Ends rest) :
    parseNumber (Text.ofInt value ++ rest) = some (Number.ofInt value, rest) := by
  cases value with
  | ofNat number =>
      obtain ⟨c, digits, spelled, numeral⟩ := ofInt_head (.ofNat number)
      have notMinus : c ≠ unit '-' := by
        rintro rfl
        have digit := ofNat_isDigit number (unit '-') (by
          have : Text.ofNat number = unit '-' :: digits := spelled
          simp [this])
        exact absurd digit (by decide)
      have magnitude := parseMagnitude_ofNat false number ends
      have asNat : Text.ofNat number = c :: digits := spelled
      rw [asNat] at magnitude
      rw [spelled, List.cons_append] at *
      rw [parseNumber, if_neg notMinus, magnitude]
      rfl
  | negSucc number =>
      have magnitude := parseMagnitude_ofNat true (number + 1) ends
      rw [Text.ofInt, List.cons_append, parseNumber, if_pos rfl, magnitude]
      simp [Number.ofInt, Int.negSucc_lt_zero]

mutual

/-- No object of the value names a key twice. -/
def Distinct : Json ν → Prop
  | .null | .bool _ | .number _ | .string _ => True
  | .array items => DistinctItems items
  | .object fields => (fields.map (·.1)).Nodup ∧ DistinctFields fields

def DistinctItems : List (Json ν) → Prop
  | [] => True
  | item :: rest => item.Distinct ∧ DistinctItems rest

def DistinctFields : List (Text × Json ν) → Prop
  | [] => True
  | (_, value) :: rest => value.Distinct ∧ DistinctFields rest

end

theorem foldl_setField {before fields : List (Text × Json ν)}
    (nodup : ((before ++ fields).map (·.1)).Nodup) :
    fields.foldl setField before = before ++ fields := by
  induction fields generalizing before with
  | nil => simp
  | cons field fields ih =>
      have fresh : before.any (·.1 == field.1) = false := by
        rw [List.any_eq_false]
        intro other member same
        rw [List.map_append, List.nodup_append] at nodup
        exact nodup.2.2 other.1 (List.mem_map_of_mem member) field.1 (by simp) (by simpa using same)
      rw [List.foldl_cons, setField, if_neg (by simp [fresh]), ih (by simpa using nodup)]
      simp

theorem mapFields_keys {μ : Type} (change : ν → μ) (fields : List (Text × Json ν)) :
    (mapFields change fields).map (·.1) = fields.map (·.1) := by
  induction fields with
  | nil => rfl
  | cons field fields ih => simp [mapFields, ih]

/-- The first unit of a value is no white space and closes no array. -/
theorem write_head (value : Json Int) :
    ∃ c rest, write Text.ofInt value = c :: rest ∧ isSpace c = false ∧ c ≠ unit ']' := by
  cases value with
  | null => exact ⟨_, _, rfl, by decide, by decide⟩
  | bool value => cases value <;> exact ⟨_, _, rfl, by decide, by decide⟩
  | number value =>
      obtain ⟨c, rest, spelled, numeral⟩ := ofInt_head value
      have head := numeral_head numeral
      exact ⟨c, rest, by rw [write, spelled], head.1, head.2.2.2.2.2.2.2⟩
  | string text => exact ⟨unit '"', _, by rw [write, writeString], by decide, by decide⟩
  | array items =>
      cases items with
      | nil => exact ⟨_, _, rfl, by decide, by decide⟩
      | cons item items => exact ⟨unit '[', _, by rw [write], by decide, by decide⟩
  | object fields =>
      cases fields with
      | nil => exact ⟨_, _, rfl, by decide, by decide⟩
      | cons field fields => exact ⟨unit '{', _, by rw [write], by decide, by decide⟩

private theorem skipSpace_cons {c : UInt16} (notSpace : isSpace c = false) (rest : Text) :
    skipSpace (c :: rest) = c :: rest := by
  simp [skipSpace, notSpace]

/-- What follows a value inside an array or an object ends it. -/
private theorem ends_separator {c : UInt16}
    (separator : c = unit ',' ∨ c = unit ']' ∨ c = unit '}') (rest : Text) : Ends (c :: rest) := by
  apply ends_cons
  rcases separator with rfl | rfl | rfl <;> decide

private theorem ends_items (items : List (Json Int)) (rest : Text) :
    Ends (writeItems Text.ofInt items ++ unit ']' :: rest) := by
  cases items with
  | nil => exact ends_separator (.inr (.inl rfl)) rest
  | cons item items =>
      rw [writeItems, List.cons_append]
      exact ends_separator (.inl rfl) _

private theorem ends_fields (fields : List (Text × Json Int)) (rest : Text) :
    Ends (writeFields Text.ofInt fields ++ unit '}' :: rest) := by
  cases fields with
  | nil => exact ends_separator (.inr (.inr rfl)) rest
  | cons field fields =>
      rw [writeFields, List.cons_append]
      exact ends_separator (.inl rfl) _

mutual

/-- Fuel of twice the length of its text reads a value back. -/
theorem parseValue_write (value : Json Int) (distinct : value.Distinct) (fuel : Nat)
    (enough : 2 * (write Text.ofInt value).length ≤ fuel) {rest : Text} (ends : Ends rest) :
    parseValue fuel (write Text.ofInt value ++ rest) =
      some (value.map Number.ofInt, rest) := by
  obtain ⟨c, after, spelled, notSpace, notClose⟩ := write_head value
  cases fuel with
  | zero => simp [spelled] at enough
  | succ fuel =>
      cases value with
      | null => rfl
      | bool value => cases value <;> rfl
      | number value =>
          obtain ⟨c, digits, spelled, numeral⟩ := ofInt_head value
          have head := numeral_head numeral
          have number := parseNumber_ofInt value ends
          rw [spelled, List.cons_append] at number
          rw [write, spelled, List.cons_append, parseValue, skipSpace_cons head.1]
          simp only [head.2.1, head.2.2.1, head.2.2.2.1, head.2.2.2.2.1, head.2.2.2.2.2.1,
            head.2.2.2.2.2.2.1, if_false, number]
          rfl
      | string text =>
          rw [write, writeString, List.cons_append, List.append_assoc, parseValue,
            skipSpace_cons (by decide)]
          simp only [if_true, List.singleton_append, parseString_escapeUnits]
          rfl
      | array items =>
          cases items with
          | nil => rfl
          | cons item items =>
              obtain ⟨c, after, spelled, notSpace, notClose⟩ := write_head item
              have items := parseItems_write item items distinct fuel rest (by
                rw [write] at enough
                simp only [List.length_cons, List.length_append, List.length_nil] at enough
                omega)
              rw [spelled, List.cons_append] at items
              rw [write, List.cons_append, parseValue, skipSpace_cons (by decide)]
              simp only [List.append_assoc, List.cons_append, List.nil_append, spelled,
                skipSpace_cons notSpace, if_neg notClose, items]
              rfl
      | object fields =>
          cases fields with
          | nil => rfl
          | cons field fields =>
              obtain ⟨key, value⟩ := field
              have fieldsRead := parseFields_write key value fields distinct.2 fuel rest (by
                rw [write] at enough
                simp only [List.length_cons, List.length_append, List.length_nil] at enough
                omega)
              have kept : (mapFields Number.ofInt ((key, value) :: fields)).foldl setField [] =
                  mapFields Number.ofInt ((key, value) :: fields) := by
                rw [foldl_setField, List.nil_append]
                rw [List.nil_append, mapFields_keys]
                exact distinct.1
              rw [writeString, List.cons_append] at fieldsRead
              rw [write, List.cons_append, parseValue, skipSpace_cons (by decide)]
              simp only [List.append_assoc, List.cons_append, List.nil_append, writeString,
                skipSpace_cons (show isSpace (unit '"') = false by decide)] at fieldsRead ⊢
              simp only [fieldsRead, Option.map_some, kept]
              rfl
termination_by fuel

theorem parseItems_write (item : Json Int) (items : List (Json Int))
    (distinct : DistinctItems (item :: items)) (fuel : Nat) (rest : Text)
    (enough : 2 * ((write Text.ofInt item).length +
      (writeItems Text.ofInt items).length) + 1 ≤ fuel) :
    parseItems fuel (write Text.ofInt item ++ (writeItems Text.ofInt items ++ unit ']' :: rest)) =
      some (mapItems Number.ofInt (item :: items), rest) := by
  cases fuel with
  | zero => omega
  | succ fuel =>
      have head := parseValue_write item distinct.1 fuel (by omega) (ends_items items rest)
      rw [parseItems, head]
      cases items with
      | nil => rfl
      | cons next items =>
          have tail := parseItems_write next items distinct.2 fuel rest (by
            rw [writeItems] at enough
            simp only [List.length_cons, List.length_append] at enough
            omega)
          simp only [writeItems, List.cons_append, List.append_assoc,
            skipSpace_cons (show isSpace (unit ',') = false by decide),
            if_neg (show unit ',' ≠ unit ']' by decide), if_true, tail]
          rfl
termination_by fuel

theorem parseFields_write (key : Text) (value : Json Int) (fields : List (Text × Json Int))
    (distinct : DistinctFields ((key, value) :: fields)) (fuel : Nat) (rest : Text)
    (enough : 2 * ((writeString key).length + (write Text.ofInt value).length +
      (writeFields Text.ofInt fields).length) + 1 ≤ fuel) :
    parseFields fuel (writeString key ++ unit ':' :: (write Text.ofInt value ++
      (writeFields Text.ofInt fields ++ unit '}' :: rest))) =
      some (mapFields Number.ofInt ((key, value) :: fields), rest) := by
  cases fuel with
  | zero => omega
  | succ fuel =>
      have head := parseValue_write value distinct.1 fuel (by omega) (ends_fields fields rest)
      rw [writeString, List.cons_append, List.append_assoc, List.singleton_append, parseFields,
        skipSpace_cons (by decide)]
      simp only [ne_eq, not_true, if_false, parseString_escapeUnits,
        skipSpace_cons (show isSpace (unit ':') = false by decide), head]
      cases fields with
      | nil => rfl
      | cons field fields =>
          obtain ⟨nextKey, next⟩ := field
          have tail := parseFields_write nextKey next fields distinct.2 fuel rest (by
            rw [writeFields] at enough
            simp only [List.length_cons, List.length_append] at enough
            omega)
          simp only [writeFields, List.cons_append, List.append_assoc,
            skipSpace_cons (show isSpace (unit ',') = false by decide),
            if_neg (show unit ',' ≠ unit '}' by decide), if_true, tail]
          rfl
termination_by fuel

end

/-- Reading back what was written. -/
theorem parse_write (value : Json Int) (distinct : value.Distinct) :
    parse (write Text.ofInt value) = some (value.map Number.ofInt) := by
  have read := parseValue_write value distinct (2 * (write Text.ofInt value).length + 2)
    (by omega) ends_nil
  rw [List.append_nil] at read
  simp only [parse, read, skipSpace, if_true]

/-! ## One line -/

private theorem hexDigit_plain : ∀ value, value < 16 → ¬hexDigit value < 0x20 := by
  decide

private theorem hexEscape_plain (c : UInt16) : ∀ d ∈ hexEscape c, ¬d < 0x20 := by
  have bound := c.toNat_lt
  intro d member
  simp only [hexEscape, List.mem_cons, List.not_mem_nil, or_false] at member
  rcases member with rfl | rfl | rfl | rfl | rfl | rfl
  · decide
  · decide
  · exact hexDigit_plain _ (by omega)
  · exact hexDigit_plain _ (by omega)
  · exact hexDigit_plain _ (by omega)
  · exact hexDigit_plain _ (by omega)

private theorem plain_of_all {text : Text}
    (all : text.all (fun d => !decide (d < 0x20)) = true) : ∀ d ∈ text, ¬d < 0x20 := by
  intro d member
  simpa using List.all_eq_true.mp all d member

private theorem escapeUnit_plain (c : UInt16) : ∀ d ∈ escapeUnit c, ¬d < 0x20 := by
  unfold escapeUnit
  split
  next => exact plain_of_all (by decide)
  next =>
      repeat' split
      all_goals first | exact hexEscape_plain c | skip
      next => exact plain_of_all (by decide)
      next => exact plain_of_all (by decide)
      next => exact plain_of_all (by decide)
      next => exact plain_of_all (by decide)
      next => exact plain_of_all (by decide)
      next => exact plain_of_all (by decide)
      next visible _ =>
          intro d member
          rw [List.mem_singleton.mp member]
          exact visible

private theorem escapeUnits_plain (before : Option UInt16) (text : Text) :
    ∀ d ∈ escapeUnits before text, ¬d < 0x20 := by
  induction text generalizing before with
  | nil =>
      intro d member
      cases member
  | cons c text ih =>
      intro d member
      cases List.mem_append.mp member with
      | inr later => exact ih (some c) d later
      | inl here =>
          split at here
          next paired =>
              rw [List.mem_singleton.mp here]
              refine (surrogate_plain (isSurrogate_of_half ?_)).2.2
              simp only [Bool.or_eq_true, Bool.and_eq_true] at paired
              exact paired.imp (·.1) (·.1)
          next => exact escapeUnit_plain c d here

private theorem writeString_plain (text : Text) : ∀ d ∈ writeString text, ¬d < 0x20 := by
  intro d member
  simp only [writeString, List.mem_cons, List.mem_append, List.not_mem_nil, or_false] at member
  rcases member with rfl | inside | rfl
  · decide
  · exact escapeUnits_plain none text d inside
  · decide

private theorem ofInt_plain (value : Int) : ∀ d ∈ Text.ofInt value, ¬d < 0x20 := by
  have digit : ∀ number d, d ∈ Text.ofNat number → ¬d < 0x20 := by
    intro number d member small
    have isDigit := ofNat_isDigit number d member
    simp only [Text.isDigit, Bool.and_eq_true, decide_eq_true_eq, UInt16.le_iff_toNat_le]
      at isDigit
    rw [UInt16.lt_iff_toNat_lt] at small
    have zero : (unit '0').toNat = 48 := rfl
    have space : (0x20 : UInt16).toNat = 32 := rfl
    omega
  intro d member
  cases value with
  | ofNat number => exact digit number d member
  | negSucc number =>
      cases List.mem_cons.mp member with
      | inl sign =>
          rw [sign]
          decide
      | inr rest => exact digit _ d rest

mutual

/-- A written value holds no control unit, so it is one line. -/
theorem write_plain (value : Json Int) : ∀ d ∈ write Text.ofInt value, ¬d < 0x20 := by
  cases value with
  | null => exact plain_of_all (by decide)
  | bool value => cases value <;> exact plain_of_all (by decide)
  | number value => exact ofInt_plain value
  | string text => exact writeString_plain text
  | array items =>
      cases items with
      | nil => exact plain_of_all (by decide)
      | cons item items =>
          intro d member
          simp only [write, List.mem_cons, List.mem_append, List.not_mem_nil, or_false] at member
          rcases member with rfl | (first | rest) | rfl
          · decide
          · exact write_plain item d first
          · exact writeItems_plain items d rest
          · decide
  | object fields =>
      cases fields with
      | nil => exact plain_of_all (by decide)
      | cons field fields =>
          obtain ⟨key, value⟩ := field
          intro d member
          simp only [write, List.mem_cons, List.mem_append, List.not_mem_nil, or_false] at member
          rcases member with rfl | first | rfl | (second | rest) | rfl
          · decide
          · exact writeString_plain key d first
          · decide
          · exact write_plain value d second
          · exact writeFields_plain fields d rest
          · decide

theorem writeItems_plain (items : List (Json Int)) :
    ∀ d ∈ writeItems Text.ofInt items, ¬d < 0x20 := by
  cases items with
  | nil =>
      intro d member
      cases member
  | cons item items =>
      intro d member
      simp only [writeItems, List.mem_cons, List.mem_append] at member
      rcases member with rfl | first | rest
      · decide
      · exact write_plain item d first
      · exact writeItems_plain items d rest

theorem writeFields_plain (fields : List (Text × Json Int)) :
    ∀ d ∈ writeFields Text.ofInt fields, ¬d < 0x20 := by
  cases fields with
  | nil =>
      intro d member
      cases member
  | cons field fields =>
      obtain ⟨key, value⟩ := field
      intro d member
      simp only [writeFields, List.mem_cons, List.mem_append] at member
      rcases member with rfl | first | rfl | second | rest
      · decide
      · exact writeString_plain key d first
      · decide
      · exact write_plain value d second
      · exact writeFields_plain fields d rest

end

end Ccrc.Library.Json
