import Ccrc.Library.PyFloatProperties

/-! Reading back with `json.loads` what `json.dumps` wrote: strings code point by code
point, numbers by their numerals, and values by structural recursion. -/

set_option autoImplicit false

namespace Ccrc.Library.PyJson

open Str (point lit)

/-! ## Strings -/

private theorem scanString_plain {c : CodePoint} (notQuote : c ≠ point '"')
    (notBackslash : c ≠ point '\\') (notControl : ¬c.val < 0x20) (rest : Str) :
    scanString (c :: rest) = prepend c (scanString rest) := by
  rw [scanString.eq_def]
  simp only [if_neg notQuote, if_neg notBackslash, if_neg notControl]

private theorem scanString_escape {e c : CodePoint} (notHex : e ≠ point 'u')
    (stands : unescape? e = some c) (rest : Str) :
    scanString (point '\\' :: e :: rest) = prepend c (scanString rest) := by
  rw [scanString.eq_def]
  simp only [if_neg (show point '\\' ≠ point '"' by decide), if_true, if_neg notHex, stands]

private theorem hexUnit?_small : ∀ value, value < 0x20 →
    hexUnit? (hexDigit (value / 4096 % 16)) (hexDigit (value / 256 % 16))
      (hexDigit (value / 16 % 16)) (hexDigit (value % 16)) = some value := by
  decide

private theorem scanString_hexEscape {c : CodePoint} (control : c.val < 0x20) (rest : Str) :
    scanString (hexEscape c.val ++ rest) = prepend c (scanString rest) := by
  have shape : hexEscape c.val ++ rest = point '\\' :: point 'u' ::
      hexDigit (c.val / 4096 % 16) :: hexDigit (c.val / 256 % 16) :: hexDigit (c.val / 16 % 16) ::
        hexDigit (c.val % 16) :: rest := rfl
  have low : ¬(0xD800 ≤ c.val ∧ c.val ≤ 0xDBFF) := by omega
  have whole : Fin.ofNat 0x110000 c.val = c := Fin.ofNat_val_eq_self c
  rw [shape, scanString.eq_def]
  simp only [if_neg (show point '\\' ≠ point '"' by decide), if_true, hexUnit?_small _ control,
    if_neg low, whole]

theorem scanString_escapePoint (c : CodePoint) (rest : Str) :
    scanString (escapePoint false c ++ rest) = prepend c (scanString rest) := by
  have named {value : Nat} (small : value < 0x110000) (same : c.val = value) :
      c = Fin.ofNat 0x110000 value := by
    apply Fin.ext
    rw [same, Fin.val_ofNat, Nat.mod_eq_of_lt small]
  unfold escapePoint
  split
  next quote =>
    subst quote
    exact scanString_escape (by decide) (by decide) rest
  next notQuote =>
  split
  next backslash =>
    subst backslash
    exact scanString_escape (by decide) (by decide) rest
  next notBackslash =>
  split
  next newline =>
    rw [named (by decide) newline]
    exact scanString_escape (by decide) (by decide) rest
  next =>
  split
  next return_ =>
    rw [named (by decide) return_]
    exact scanString_escape (by decide) (by decide) rest
  next =>
  split
  next tab =>
    rw [named (by decide) tab]
    exact scanString_escape (by decide) (by decide) rest
  next =>
  split
  next feed =>
    rw [named (by decide) feed]
    exact scanString_escape (by decide) (by decide) rest
  next =>
  split
  next back =>
    rw [named (by decide) back]
    exact scanString_escape (by decide) (by decide) rest
  next =>
  split
  next control => exact scanString_hexEscape control rest
  next notControl =>
    rw [Bool.false_and, if_neg Bool.false_ne_true]
    exact scanString_plain notQuote notBackslash notControl rest

theorem scanString_escaped (text rest : Str) :
    scanString (text.flatMap (escapePoint false) ++ point '"' :: rest) = some (text, rest) := by
  induction text with
  | nil =>
      rw [List.flatMap_nil, List.nil_append, scanString.eq_def]
      simp only [if_true]
  | cons c text ih =>
      rw [List.flatMap_cons, List.append_assoc, scanString_escapePoint, ih]
      rfl

/-! ## Numbers -/

section Numbers

variable {limits : PyLimits} {rest : Str}

/-- What a digit is not. -/
theorem digit_apart {c d : CodePoint} (digit : Str.isDigit c = true)
    (outside : d.val < 48 ∨ 57 < d.val) : c ≠ d := by
  rintro rfl
  rw [Str.isDigit, Bool.and_eq_true, decide_eq_true_eq, decide_eq_true_eq] at digit
  omega

theorem scanValue_digit {c : CodePoint} (digit : Str.isDigit c = true) (constants : Bool)
    (fuel depth : Nat) (rest : Str) :
    scanValue limits constants (fuel + 1) depth (c :: rest) =
      scanNumber limits false (c :: rest) := by
  rw [scanValue.eq_def]
  dsimp only
  rw [if_neg (digit_apart digit (by decide)), if_neg (digit_apart digit (by decide)),
    if_neg (digit_apart digit (by decide)), if_neg (digit_apart digit (by decide)),
    if_neg (digit_apart digit (by decide)), if_neg (digit_apart digit (by decide)),
    if_neg (digit_apart digit (by decide)), if_neg (digit_apart digit (by decide)),
    if_neg (digit_apart digit (by decide))]

theorem scanValue_minus {c : CodePoint} (digit : Str.isDigit c = true) (constants : Bool)
    (fuel depth : Nat) (rest : Str) :
    scanValue limits constants (fuel + 1) depth (point '-' :: c :: rest) =
      scanNumber limits true (c :: rest) := by
  have notInfinity : ¬(c :: rest).head? = some (point 'I') := fun same =>
    digit_apart digit (by decide) (Option.some.inj same)
  rw [scanValue.eq_def]
  dsimp only
  rw [if_neg (by decide), if_neg (by decide), if_neg (by decide), if_neg (by decide),
    if_neg (by decide), if_neg (by decide), if_neg (by decide), if_neg (by decide), if_pos rfl,
    if_neg notInfinity]

theorem scanValue_ofInt {value : Int}
    (fits : (Str.ofNat value.natAbs).length ≤ limits.digits) (constants : Bool)
    (fuel depth : Nat) (ends : Ends rest) :
    scanValue limits constants (fuel + 1) depth (Str.ofInt value ++ rest) =
      some (.int value, rest) := by
  have digits (number : Nat) : ∃ c after, Str.ofNat number = c :: after ∧ Str.isDigit c = true := by
    cases spelled : Str.ofNat number with
    | nil => exact absurd spelled (Str.ofNat_ne_nil number)
    | cons c after =>
        exact ⟨c, after, rfl, Str.ofNat_isDigit number c (by simp [spelled])⟩
  cases value with
  | ofNat number =>
      obtain ⟨c, after, spelled, digit⟩ := digits number
      have read := scanNumber_ofNat false fits ends
      rw [show (Int.ofNat number).natAbs = number from rfl, spelled, List.cons_append] at read
      rw [show Str.ofInt (.ofNat number) = Str.ofNat number from rfl, spelled, List.cons_append,
        scanValue_digit digit, read]
      rfl
  | negSucc number =>
      obtain ⟨c, after, spelled, digit⟩ := digits (number + 1)
      have read := scanNumber_ofNat true fits ends
      rw [show (Int.negSucc number).natAbs = number + 1 from rfl, spelled, List.cons_append]
        at read
      rw [show Str.ofInt (.negSucc number) = point '-' :: Str.ofNat (number + 1) from rfl, spelled,
        List.cons_append, List.cons_append, scanValue_minus digit, read]
      rfl

theorem spells_head {significand : Nat} {exponent : Int} {numeral : Numeral}
    (spells : PyFloat.Spells significand exponent numeral) :
    ∃ c after, numeral.text = c :: after ∧ Str.isDigit c = true := by
  obtain ⟨c, after, whole⟩ : ∃ c after, numeral.whole = c :: after := by
    rcases spells.valid.whole with zero | ⟨c, after, whole, -⟩
    · exact ⟨_, _, zero⟩
    · exact ⟨c, after, whole⟩
  refine ⟨c, _, by rw [Numeral.text, whole, List.cons_append, List.cons_append],
    spells.valid.digits c (by simp [whole])⟩

/-- The zeros, which `repr` gives a point. -/
theorem zero_spells : PyFloat.Spells 0 0 ⟨[point '0'], some [point '0'], .none⟩ := by
  refine ⟨⟨.inl rfl, PyFloat.zero_isDigit, ?_, ?_⟩, .inl rfl, fun negative => by cases negative <;> rfl⟩
  · rintro decimals ⟨⟩
    exact ⟨by simp, PyFloat.zero_isDigit⟩
  · rintro negative digits ⟨⟩

/-- The text of a finite float is a numeral behind its sign. -/
theorem repr_spells {negative : Bool} {significand : Nat} {exponent : Int}
    (canonical : Number.isCanonical (.finite negative significand exponent) = true) :
    ∃ numeral, PyFloat.Spells significand exponent numeral ∧
      PyFloat.repr (.number (.finite negative significand exponent)) =
        (if negative then lit "-" else []) ++ numeral.text := by
  by_cases zero : significand = 0
  · have isZero : exponent = 0 := by simpa [Number.isCanonical, zero] using canonical
    subst zero isZero
    exact ⟨_, zero_spells, rfl⟩
  · obtain ⟨numeral, spells, written⟩ := PyFloat.magnitude_spells zero canonical
    exact ⟨numeral, spells, by rw [PyFloat.repr, if_neg zero, written]⟩

/-- A finite float is read back, with the sign that stands before its digits. -/
theorem scanValue_finite {negative : Bool} {significand : Nat} {exponent : Int}
    (canonical : Number.isCanonical (.finite negative significand exponent) = true)
    (constants : Bool) (fuel depth : Nat) (ends : Ends rest) :
    scanValue limits constants (fuel + 1) depth
        (PyFloat.repr (.number (.finite negative significand exponent)) ++ rest) =
      some (.float (.number (.finite negative significand exponent)), rest) := by
  obtain ⟨numeral, spells, written⟩ := repr_spells canonical
  obtain ⟨c, after, shape, digit⟩ := spells_head spells
  have read := @scanNumber_float limits numeral rest spells.valid spells.float negative ends
  rw [spells.reads negative] at read
  rw [written, shape]
  rw [shape, List.cons_append] at read
  cases negative with
  | false => rw [if_neg Bool.false_ne_true, List.nil_append, List.cons_append,
      scanValue_digit digit, read]
  | true => rw [if_pos rfl, show lit "-" ++ c :: after = point '-' :: c :: after from rfl,
      List.cons_append, List.cons_append, scanValue_minus digit, read]

def isCanonicalFloat : PyFloat → Bool
  | .nan => true
  | .number value => value.isCanonical

theorem startsWith_append (lead rest : Str) : Str.startsWith (lead ++ rest) lead = true := by
  rw [Str.startsWith, List.isPrefixOf_iff_prefix]
  exact List.prefix_append _ _

theorem word_append (spelled : Str) (value : PyJson) (rest : Str) :
    word spelled value (spelled ++ rest) = some (value, rest) := by
  rw [word, if_pos (startsWith_append spelled rest), List.drop_left]

theorem scanValue_float {value : PyFloat} (canonical : isCanonicalFloat value = true)
    (fuel depth : Nat) (ends : Ends rest) :
    scanValue limits true (fuel + 1) depth (value.repr ++ rest) = some (.float value, rest) := by
  cases value with
  | nan => exact word_append (PyFloat.repr .nan) (.float .nan) rest
  | number value =>
      cases value with
      | finite negative significand exponent =>
          exact scanValue_finite canonical true fuel depth ends
      | infinite negative =>
          cases negative with
          | false => exact word_append (infinity false).repr (.float (infinity false)) rest
          | true => exact word_append (infinity true).repr (.float (infinity true)) rest

end Numbers

/-! ## Values -/

mutual

/-- Containers within containers. -/
def nesting : PyJson → Nat
  | .none | .bool _ | .int _ | .float _ | .str _ => 0
  | .list items => nestingItems items + 1
  | .dict fields => nestingFields fields + 1

def nestingItems : List PyJson → Nat
  | [] => 0
  | item :: rest => max item.nesting (nestingItems rest)

def nestingFields : List (Str × PyJson) → Nat
  | [] => 0
  | (_, value) :: rest => max value.nesting (nestingFields rest)

end

mutual

/-- What Python holds and the interpreter takes back: keys once, floats in the one form of
a double, and no integer longer than the limit. -/
def Readable (limits : PyLimits) : PyJson → Prop
  | .none | .bool _ | .str _ => True
  | .int value => (Str.ofNat value.natAbs).length ≤ limits.digits
  | .float value => isCanonicalFloat value = true
  | .list items => ReadableItems limits items
  | .dict fields => (fields.map (·.1)).Nodup ∧ ReadableFields limits fields

def ReadableItems (limits : PyLimits) : List PyJson → Prop
  | [] => True
  | item :: rest => item.Readable limits ∧ ReadableItems limits rest

def ReadableFields (limits : PyLimits) : List (Str × PyJson) → Prop
  | [] => True
  | (_, value) :: rest => value.Readable limits ∧ ReadableFields limits rest

end

theorem foldl_setField {before fields : List (Str × PyJson)}
    (nodup : ((before ++ fields).map (·.1)).Nodup) :
    fields.foldl setField before = before ++ fields := by
  induction fields generalizing before with
  | nil => simp
  | cons field fields ih =>
      have fresh : before.any (·.1 == field.1) = false := by
        rw [List.any_eq_false]
        intro other member same
        rw [List.map_append, List.nodup_append] at nodup
        exact nodup.2.2 other.1 (List.mem_map_of_mem member) field.1 (by simp) (by simpa using same)
      rw [List.foldl_cons, setField, if_neg (by simp [fresh]), ih (by simpa using nodup)]
      simp

theorem skipBlank_cons {c : CodePoint} (notBlank : isBlank c = false) (rest : Str) :
    skipBlank (c :: rest) = c :: rest := by
  simp [skipBlank, notBlank]

theorem digit_notBlank {c : CodePoint} (digit : Str.isDigit c = true) : isBlank c = false := by
  have apart (value : Nat) (outside : value < 48 ∨ 57 < value) : c.val ≠ value := by
    rintro rfl
    rw [Str.isDigit, Bool.and_eq_true, decide_eq_true_eq, decide_eq_true_eq] at digit
    omega
  simp [isBlank, apart 32 (by decide), apart 9 (by decide), apart 10 (by decide),
    apart 13 (by decide)]

/-- The first code point of a value is no blank and closes no list. -/
theorem dumps_head {limits : PyLimits} {value : PyJson} (readable : value.Readable limits) :
    ∃ c rest, dumps false value = c :: rest ∧ isBlank c = false ∧ c ≠ point ']' := by
  have numeral {c : CodePoint} (digit : Str.isDigit c = true) :
      isBlank c = false ∧ c ≠ point ']' :=
    ⟨digit_notBlank digit, digit_apart digit (by decide)⟩
  cases value with
  | none => exact ⟨_, _, rfl, by decide, by decide⟩
  | bool value => cases value <;> exact ⟨_, _, rfl, by decide, by decide⟩
  | int value =>
      cases value with
      | ofNat number =>
          cases spelled : Str.ofNat number with
          | nil => exact absurd spelled (Str.ofNat_ne_nil number)
          | cons c rest =>
              exact ⟨c, rest, spelled, numeral (Str.ofNat_isDigit number c (by simp [spelled]))⟩
      | negSucc number => exact ⟨point '-', _, rfl, by decide, by decide⟩
  | float value =>
      cases value with
      | nan => exact ⟨_, _, rfl, by decide, by decide⟩
      | number value =>
          cases value with
          | infinite negative => cases negative <;> exact ⟨_, _, rfl, by decide, by decide⟩
          | finite negative significand exponent =>
              obtain ⟨numeral', spells, written⟩ := @repr_spells negative _ _ readable
              obtain ⟨c, after, shape, digit⟩ := spells_head spells
              cases negative with
              | false =>
                  refine ⟨c, after, ?_, numeral digit⟩
                  rw [dumps, written, shape]
                  rfl
              | true =>
                  refine ⟨point '-', c :: after, ?_, by decide, by decide⟩
                  rw [dumps, written, shape]
                  rfl
  | str text => exact ⟨point '"', _, by rw [dumps, dumpsString], by decide, by decide⟩
  | list items =>
      cases items with
      | nil => exact ⟨_, _, rfl, by decide, by decide⟩
      | cons item items => exact ⟨point '[', _, by rw [dumps], by decide, by decide⟩
  | dict fields =>
      cases fields with
      | nil => exact ⟨_, _, rfl, by decide, by decide⟩
      | cons field fields => exact ⟨point '{', _, by rw [dumps], by decide, by decide⟩

/-- What follows a value inside a container ends it. -/
theorem ends_separator {c : CodePoint}
    (separator : c = point ',' ∨ c = point ']' ∨ c = point '}') (rest : Str) :
    Ends (c :: rest) := by
  apply ends_cons
  rcases separator with rfl | rfl | rfl <;> decide

theorem ends_items (items : List PyJson) (rest : Str) :
    Ends (dumpsItems false items ++ point ']' :: rest) := by
  cases items with
  | nil => exact ends_separator (.inr (.inl rfl)) rest
  | cons item items =>
      rw [dumpsItems, List.cons_append]
      exact ends_separator (.inl rfl) _

theorem ends_fields (fields : List (Str × PyJson)) (rest : Str) :
    Ends (dumpsFields false fields ++ point '}' :: rest) := by
  cases fields with
  | nil => exact ends_separator (.inr (.inr rfl)) rest
  | cons field fields =>
      obtain ⟨key, value⟩ := field
      rw [dumpsFields, List.cons_append]
      exact ends_separator (.inl rfl) _

section Values

variable {limits : PyLimits}

mutual

/-- Fuel of twice the length of its text reads a value back. -/
theorem scanValue_dumps (value : PyJson) (readable : value.Readable limits) (fuel depth : Nat)
    (enough : 2 * (dumps false value).length ≤ fuel) (nests : value.nesting ≤ depth)
    {rest : Str} (ends : Ends rest) :
    scanValue limits true fuel depth (dumps false value ++ rest) = some (value, rest) := by
  obtain ⟨c, after, spelled, -, -⟩ := dumps_head readable
  cases fuel with
  | zero => simp [spelled] at enough
  | succ fuel =>
      cases value with
      | none => rfl
      | bool value => cases value <;> rfl
      | int value => exact scanValue_ofInt readable true fuel depth ends
      | float value => exact scanValue_float readable fuel depth ends
      | str text =>
          rw [dumps, dumpsString, List.cons_append, List.append_assoc, List.singleton_append,
            scanValue.eq_def]
          simp only [if_true, scanString_escaped, Option.map_some]
      | list items =>
          obtain ⟨depth, rfl⟩ : ∃ below, depth = below + 1 := by
            rw [nesting] at nests
            exact Nat.exists_eq_succ_of_ne_zero (by omega)
          cases items with
          | nil => rfl
          | cons item items =>
              obtain ⟨d, tail, head, notBlank, notClose⟩ := dumps_head readable.1
              have read := scanItems_dumps item items readable fuel depth rest (by
                rw [dumps] at enough
                simp only [List.length_cons, List.length_append, List.length_nil] at enough
                omega) (by
                rw [nesting] at nests
                omega)
              rw [head, List.cons_append] at read
              rw [dumps, head, scanValue.eq_def]
              simp only [List.cons_append, List.append_assoc, List.nil_append,
                if_neg (show point '[' ≠ point '"' by decide),
                if_neg (show point '[' ≠ point '{' by decide), if_true, skipBlank_cons notBlank,
                if_neg notClose, read, Option.map_some]
      | dict fields =>
          obtain ⟨depth, rfl⟩ : ∃ below, depth = below + 1 := by
            rw [nesting] at nests
            exact Nat.exists_eq_succ_of_ne_zero (by omega)
          cases fields with
          | nil => rfl
          | cons field fields =>
              obtain ⟨key, value⟩ := field
              have read := scanFields_dumps key value fields readable.2 fuel depth rest (by
                rw [dumps] at enough
                simp only [List.length_cons, List.length_append, List.length_nil] at enough
                omega) (by
                rw [nesting] at nests
                omega)
              have kept : ((key, value) :: fields).foldl setField [] = (key, value) :: fields := by
                rw [foldl_setField, List.nil_append]
                exact readable.1
              rw [dumpsString, List.cons_append] at read
              rw [dumps, dumpsString, scanValue.eq_def]
              simp only [List.cons_append, List.append_assoc, List.nil_append,
                if_neg (show point '{' ≠ point '"' by decide), if_true,
                skipBlank_cons (show isBlank (point '"') = false by decide),
                if_neg (show point '"' ≠ point '}' by decide)] at read ⊢
              simp only [read, Option.map_some, kept]
termination_by fuel

theorem scanItems_dumps (item : PyJson) (items : List PyJson)
    (readable : ReadableItems limits (item :: items)) (fuel depth : Nat) (rest : Str)
    (enough : 2 * ((dumps false item).length + (dumpsItems false items).length) + 1 ≤ fuel)
    (nests : nestingItems (item :: items) ≤ depth) :
    scanItems limits true fuel depth
        (dumps false item ++ (dumpsItems false items ++ point ']' :: rest)) =
      some (item :: items, rest) := by
  cases fuel with
  | zero => omega
  | succ fuel =>
      rw [nestingItems] at nests
      have head := scanValue_dumps item readable.1 fuel depth (by omega) (by omega)
        (ends_items items rest)
      rw [scanItems, head]
      cases items with
      | nil => rfl
      | cons next items =>
          obtain ⟨d, after, spelled, notBlank, -⟩ := dumps_head readable.2.1
          have tail := scanItems_dumps next items readable.2 fuel depth rest (by
            rw [dumpsItems] at enough
            simp only [List.length_cons, List.length_append] at enough
            omega) (by omega)
          rw [spelled, List.cons_append] at tail
          simp only [dumpsItems, List.cons_append, List.append_assoc, spelled,
            skipBlank_cons (show isBlank (point ',') = false by decide),
            if_neg (show point ',' ≠ point ']' by decide), if_true, skipBlank_cons notBlank, tail,
            Option.map_some]
termination_by fuel

theorem scanFields_dumps (key : Str) (value : PyJson) (fields : List (Str × PyJson))
    (readable : ReadableFields limits ((key, value) :: fields)) (fuel depth : Nat) (rest : Str)
    (enough : 2 * ((dumpsString false key).length + (dumps false value).length +
      (dumpsFields false fields).length) + 1 ≤ fuel)
    (nests : nestingFields ((key, value) :: fields) ≤ depth) :
    scanFields limits true fuel depth (dumpsString false key ++ point ':' ::
        (dumps false value ++ (dumpsFields false fields ++ point '}' :: rest))) =
      some ((key, value) :: fields, rest) := by
  cases fuel with
  | zero => omega
  | succ fuel =>
      rw [nestingFields] at nests
      obtain ⟨d, after, spelled, notBlank, -⟩ := dumps_head readable.1
      have head := scanValue_dumps value readable.1 fuel depth (by omega) (by omega)
        (ends_fields fields rest)
      rw [spelled, List.cons_append] at head
      rw [dumpsString, List.cons_append, List.append_assoc, List.singleton_append, spelled,
        scanFields]
      simp only [ne_eq, not_true, if_false, scanString_escaped, List.cons_append,
        skipBlank_cons (show isBlank (point ':') = false by decide), skipBlank_cons notBlank, head]
      cases fields with
      | nil => rfl
      | cons field fields =>
          obtain ⟨nextKey, next⟩ := field
          have tail := scanFields_dumps nextKey next fields readable.2 fuel depth rest (by
            rw [dumpsFields] at enough
            simp only [List.length_cons, List.length_append] at enough
            omega) (by omega)
          rw [dumpsString, List.cons_append] at tail
          simp only [dumpsFields, dumpsString, List.cons_append, List.append_assoc,
            skipBlank_cons (show isBlank (point ',') = false by decide),
            skipBlank_cons (show isBlank (point '"') = false by decide),
            if_neg (show point ',' ≠ point '}' by decide), if_true] at tail ⊢
          simp only [tail, Option.map_some]
termination_by fuel

end

end Values

/-! ## What is written -/

mutual

/-- No string of the value, keys among them, holds a surrogate. -/
def Encodable : PyJson → Prop
  | .none | .bool _ | .int _ | .float _ => True
  | .str text => text.any Str.isSurrogate = false
  | .list items => EncodableItems items
  | .dict fields => EncodableFields fields

def EncodableItems : List PyJson → Prop
  | [] => True
  | item :: rest => item.Encodable ∧ EncodableItems rest

def EncodableFields : List (Str × PyJson) → Prop
  | [] => True
  | (key, value) :: rest =>
      key.any Str.isSurrogate = false ∧ value.Encodable ∧ EncodableFields rest

end

/-- A code point that a line of UTF-8 can hold. -/
def isPrintable (c : CodePoint) : Bool := 0x20 ≤ c.val && !Str.isSurrogate c

def Printable (text : Str) : Prop := ∀ c ∈ text, isPrintable c = true

theorem printable_of_all {text : Str} (all : text.all isPrintable = true) : Printable text :=
  List.all_eq_true.mp all

theorem printable_append {first second : Str} :
    Printable (first ++ second) ↔ Printable first ∧ Printable second := by
  simp only [Printable, List.mem_append, or_imp, forall_and]

theorem printable_cons {c : CodePoint} {text : Str} :
    Printable (c :: text) ↔ isPrintable c = true ∧ Printable text :=
  List.forall_mem_cons

theorem printable_nil : Printable [] := by
  intro c member
  cases member

theorem printable_digits {digits : Str} (all : ∀ c ∈ digits, Str.isDigit c = true) :
    Printable digits := by
  intro c member
  have digit := all c member
  rw [Str.isDigit, Bool.and_eq_true, decide_eq_true_eq, decide_eq_true_eq] at digit
  simp only [isPrintable, Str.isSurrogate, Bool.and_eq_true, decide_eq_true_eq, Bool.not_eq_true',
    Bool.and_eq_false_iff, decide_eq_false_iff_not]
  omega

theorem printable_ofInt (value : Int) : Printable (Str.ofInt value) := by
  cases value with
  | ofNat number => exact printable_digits (Str.ofNat_isDigit number)
  | negSucc number =>
      exact printable_cons.mpr ⟨by decide, printable_digits (Str.ofNat_isDigit _)⟩

theorem Numeral.printable {numeral : Numeral} (valid : numeral.Valid) : Printable numeral.text := by
  refine printable_append.mpr ⟨printable_append.mpr ⟨printable_digits valid.digits, ?_⟩, ?_⟩
  · cases held : numeral.fraction with
    | none => exact printable_nil
    | some decimals =>
        exact printable_cons.mpr ⟨by decide, printable_digits (valid.fraction _ held).2⟩
  · cases held : numeral.exponent with
    | none => exact printable_nil
    | some parts =>
        obtain ⟨negative, digits⟩ := parts
        refine printable_append.mpr ⟨?_, printable_digits (valid.exponent _ _ held).2⟩
        cases negative <;> exact printable_of_all (by decide)

theorem printable_float {value : PyFloat} (canonical : isCanonicalFloat value = true) :
    Printable value.repr := by
  cases value with
  | nan => exact printable_of_all (by decide)
  | number value =>
      cases value with
      | infinite negative => cases negative <;> exact printable_of_all (by decide)
      | finite negative significand exponent =>
          obtain ⟨numeral, spells, written⟩ := @repr_spells negative _ _ canonical
          rw [written]
          refine printable_append.mpr ⟨?_, Numeral.printable spells.valid⟩
          cases negative <;> exact printable_of_all (by decide)

theorem printable_escapePoint {c : CodePoint} (plain : Str.isSurrogate c = false) :
    Printable (escapePoint false c) := by
  have hex : ∀ value, value < 0x20 → (hexEscape value).all isPrintable = true := by
    decide
  unfold escapePoint
  split
  next => exact printable_of_all (by decide)
  next =>
  split
  next => exact printable_of_all (by decide)
  next =>
  split
  next => exact printable_of_all (by decide)
  next =>
  split
  next => exact printable_of_all (by decide)
  next =>
  split
  next => exact printable_of_all (by decide)
  next =>
  split
  next => exact printable_of_all (by decide)
  next =>
  split
  next => exact printable_of_all (by decide)
  next =>
  split
  next control => exact printable_of_all (hex _ control)
  next notControl =>
    rw [Bool.false_and, if_neg Bool.false_ne_true]
    refine printable_cons.mpr ⟨?_, printable_nil⟩
    rw [isPrintable, plain, Bool.not_false, Bool.and_true, decide_eq_true_eq]
    omega

theorem printable_dumpsString {text : Str} (plain : text.any Str.isSurrogate = false) :
    Printable (dumpsString false text) := by
  refine printable_cons.mpr ⟨by decide, printable_append.mpr ⟨?_, ?_⟩⟩
  · intro c member
    obtain ⟨d, isUnit, isEscaped⟩ := List.mem_flatMap.mp member
    have alone : Str.isSurrogate d = false := by
      simpa using List.any_eq_false.mp plain d isUnit
    exact printable_escapePoint alone c isEscaped
  · exact printable_of_all (by decide)

section Printed

variable {limits : PyLimits}

mutual

theorem printable_dumps (value : PyJson) (readable : value.Readable limits)
    (encodable : value.Encodable) : Printable (dumps false value) := by
  cases value with
  | none => exact printable_of_all (by decide)
  | bool value => cases value <;> exact printable_of_all (by decide)
  | int value => exact printable_ofInt value
  | float value => exact printable_float readable
  | str text => exact printable_dumpsString encodable
  | list items =>
      cases items with
      | nil => exact printable_of_all (by decide)
      | cons item items =>
          rw [dumps]
          exact printable_cons.mpr ⟨by decide, printable_append.mpr ⟨printable_append.mpr
            ⟨printable_dumps item readable.1 encodable.1,
              printable_items items readable.2 encodable.2⟩, printable_of_all (by decide)⟩⟩
  | dict fields =>
      cases fields with
      | nil => exact printable_of_all (by decide)
      | cons field fields =>
          obtain ⟨key, value⟩ := field
          obtain ⟨-, valueReadable, restReadable⟩ := readable
          obtain ⟨keyPlain, valueEncodable, restEncodable⟩ := encodable
          rw [dumps]
          refine printable_cons.mpr ⟨by decide, printable_append.mpr
            ⟨printable_dumpsString keyPlain, printable_cons.mpr ⟨by decide, ?_⟩⟩⟩
          exact printable_append.mpr ⟨printable_append.mpr
            ⟨printable_dumps value valueReadable valueEncodable,
              printable_fields fields restReadable restEncodable⟩, printable_of_all (by decide)⟩

theorem printable_items (items : List PyJson) (readable : ReadableItems limits items)
    (encodable : EncodableItems items) : Printable (dumpsItems false items) := by
  cases items with
  | nil => exact printable_nil
  | cons item items =>
      rw [dumpsItems]
      exact printable_cons.mpr ⟨by decide, printable_append.mpr
        ⟨printable_dumps item readable.1 encodable.1,
          printable_items items readable.2 encodable.2⟩⟩

theorem printable_fields (fields : List (Str × PyJson)) (readable : ReadableFields limits fields)
    (encodable : EncodableFields fields) : Printable (dumpsFields false fields) := by
  cases fields with
  | nil => exact printable_nil
  | cons field fields =>
      obtain ⟨key, value⟩ := field
      rw [dumpsFields]
      refine printable_cons.mpr ⟨by decide, printable_append.mpr
        ⟨printable_dumpsString encodable.1, printable_cons.mpr ⟨by decide, ?_⟩⟩⟩
      exact printable_append.mpr ⟨printable_dumps value readable.1 encodable.2.1,
        printable_fields fields readable.2 encodable.2.2⟩

end

end Printed

end Ccrc.Library.PyJson
