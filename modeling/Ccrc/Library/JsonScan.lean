import Ccrc.Library.Json

/-! A scanner of JSON texts: it follows strings and brackets and builds nothing. What the
reader takes the scanner ends. -/

set_option autoImplicit false

namespace Ccrc.Library

namespace Json

open Text (lit unit)

/-- Where a scan stands: before the value, in a top-level word or number, after the
value, and in how many open brackets outside or inside a string. -/
inductive Scan where
  | start | scalar | done
  | outside (depth : Nat)
  | inside (depth : Nat)
  | escaped (depth : Nat)
  deriving DecidableEq, Repr

/-- After a value within `depth` open brackets. -/
def Scan.after : Nat → Scan
  | 0 => .done
  | depth + 1 => .outside depth

def isOpen (c : UInt16) : Bool := c == unit '{' || c == unit '['

def isClose (c : UInt16) : Bool := c == unit '}' || c == unit ']'

/-- Part of a word or a number, as far as a scan can tell. -/
def isPlain (c : UInt16) : Bool :=
  !isSpace c && !isOpen c && !isClose c && c != unit '"' && c != unit '\\'

def scanUnit : Scan → UInt16 → Option Scan
  | .start, c =>
      if isSpace c then some .start
      else if c = unit '"' then some (.inside 0)
      else if isOpen c then some (.outside 0)
      else if isPlain c then some .scalar
      else none
  | .scalar, c =>
      if isSpace c then some .done else if isPlain c then some .scalar else none
  | .done, c => if isSpace c then some .done else none
  | .outside depth, c =>
      if c = unit '"' then some (.inside (depth + 1))
      else if isOpen c then some (.outside (depth + 1))
      else if isClose c then some (Scan.after depth)
      else if c = unit '\\' then none
      else some (.outside depth)
  | .inside depth, c =>
      if c = unit '"' then some (Scan.after depth)
      else if c = unit '\\' then some (.escaped depth)
      else some (.inside depth)
  | .escaped depth, c =>
      if c = unit 'u' ∨ (unescape? c).isSome then some (.inside depth) else none

def scan (state : Scan) (text : Text) : Option Scan := text.foldlM scanUnit state

@[simp] theorem scan_nil (state : Scan) : scan state [] = some state := rfl

theorem scan_cons (state : Scan) (c : UInt16) (text : Text) :
    scan state (c :: text) = (scanUnit state c).bind fun next => scan next text :=
  List.foldlM_cons

theorem scan_append (state : Scan) (before after : Text) :
    scan state (before ++ after) = (scan state before).bind fun next => scan next after :=
  List.foldlM_append

/-- A step and then the rest. -/
theorem scan_step {state next : Scan} {c : UInt16} (step : scanUnit state c = some next)
    (text : Text) : scan state (c :: text) = scan next text := by
  rw [scan_cons, step, Option.bind_some]

theorem scan_join {state next : Scan} {before : Text} (scanned : scan state before = some next)
    (after : Text) : scan state (before ++ after) = scan next after := by
  rw [scan_append, scanned, Option.bind_some]

/-! ## White space and plain units -/

def AllSpace (text : Text) : Prop := ∀ c ∈ text, isSpace c = true

def AllPlain (text : Text) : Prop := ∀ c ∈ text, isPlain c = true

instance (text : Text) : Decidable (AllPlain text) :=
  decidable_of_iff (text.all isPlain = true) List.all_eq_true

theorem skipSpace_split (text : Text) :
    ∃ lead, text = lead ++ skipSpace text ∧ AllSpace lead := by
  induction text with
  | nil => exact ⟨[], rfl, List.forall_mem_nil _⟩
  | cons c rest ih =>
      obtain ⟨lead, split, space⟩ := ih
      rw [skipSpace]
      split
      next isSpaceUnit =>
          refine ⟨c :: lead, congrArg (c :: ·) split, ?_⟩
          exact List.forall_mem_cons.mpr ⟨isSpaceUnit, space⟩
      next => exact ⟨[], rfl, List.forall_mem_nil _⟩

theorem skipSpace_space {lead : Text} (space : AllSpace lead) (text : Text) :
    skipSpace (lead ++ text) = skipSpace text := by
  induction lead with
  | nil => rfl
  | cons c rest ih =>
      obtain ⟨first, later⟩ := List.forall_mem_cons.mp space
      rw [List.cons_append, skipSpace, if_pos first, ih later]

theorem skipSpace_nil {text : Text} : skipSpace text = [] ↔ AllSpace text := by
  constructor
  · intro none
    obtain ⟨lead, split, space⟩ := skipSpace_split text
    rw [none, List.append_nil] at split
    exact split ▸ space
  · intro space
    rw [← List.append_nil text, skipSpace_space space]
    rfl

theorem skipSpace_head {text rest : Text} {c : UInt16} (skipped : skipSpace text = c :: rest) :
    isSpace c = false := by
  induction text with
  | nil => cases skipped
  | cons d later ih =>
      rw [skipSpace] at skipped
      split at skipped
      next => exact ih skipped
      next notSpace =>
          cases skipped
          simpa using notSpace

theorem isSpace_cases {c : UInt16} (space : isSpace c = true) :
    c ≠ unit '"' ∧ isOpen c = false ∧ isClose c = false ∧ c ≠ unit '\\' ∧ isPlain c = false := by
  simp only [isSpace, Bool.or_eq_true, beq_iff_eq] at space
  rcases space with ((rfl | rfl) | rfl) | rfl <;> decide

theorem scan_space {state : Scan}
    (stays : state = .start ∨ state = .done ∨ ∃ depth, state = .outside depth) {text : Text}
    (space : AllSpace text) : scan state text = some state := by
  induction text with
  | nil => rfl
  | cons c rest ih =>
      obtain ⟨first, later⟩ := List.forall_mem_cons.mp space
      obtain ⟨notQuote, notOpen, notClose, notBackslash, -⟩ := isSpace_cases first
      have step : scanUnit state c = some state := by
        rcases stays with rfl | rfl | ⟨depth, rfl⟩
        · simp [scanUnit, first]
        · simp [scanUnit, first]
        · simp [scanUnit, notQuote, notOpen, notClose, notBackslash]
      rw [scan_step step, ih later]

theorem scan_plain {text : Text} (plain : AllPlain text) (depth : Nat) :
    scan (.outside depth) text = some (.outside depth) ∧
      scan .scalar text = some .scalar := by
  induction text with
  | nil => exact ⟨rfl, rfl⟩
  | cons c rest ih =>
      obtain ⟨first, later⟩ := List.forall_mem_cons.mp plain
      have parts := first
      simp only [isPlain, Bool.and_eq_true, Bool.not_eq_true', bne_iff_ne] at parts
      obtain ⟨⟨⟨⟨notSpace, notOpen⟩, notClose⟩, notQuote⟩, notBackslash⟩ := parts
      have outer : scanUnit (.outside depth) c = some (.outside depth) := by
        simp [scanUnit, notQuote, notOpen, notClose, notBackslash]
      have top : scanUnit .scalar c = some .scalar := by
        simp [scanUnit, notSpace, first]
      rw [scan_step outer, scan_step top]
      exact ih later

/-- A word or a number of at least one unit. -/
theorem scan_scalar {c : UInt16} {rest : Text} (plain : AllPlain (c :: rest)) :
    scan .start (c :: rest) = some .scalar := by
  obtain ⟨first, later⟩ := List.forall_mem_cons.mp plain
  have parts := first
  simp only [isPlain, Bool.and_eq_true, Bool.not_eq_true', bne_iff_ne] at parts
  obtain ⟨⟨⟨⟨notSpace, notOpen⟩, notClose⟩, notQuote⟩, notBackslash⟩ := parts
  have step : scanUnit .start c = some .scalar := by
    simp [scanUnit, notSpace, notQuote, notOpen, first]
  rw [scan_step step]
  exact (scan_plain later 0).2

/-! ## What the reader takes -/

theorem hexValue_inside {c : UInt16} (digit : (hexValue? c).isSome = true) (depth : Nat) :
    scanUnit (.inside depth) c = some (.inside depth) := by
  have notQuote : c ≠ unit '"' := by
    rintro rfl
    exact absurd digit (by decide)
  have notBackslash : c ≠ unit '\\' := by
    rintro rfl
    exact absurd digit (by decide)
  simp [scanUnit, notQuote, notBackslash]

theorem hexUnit_digits {a b c d u : UInt16} (read : hexUnit? a b c d = some u) :
    (hexValue? a).isSome = true ∧ (hexValue? b).isSome = true ∧ (hexValue? c).isSome = true ∧
      (hexValue? d).isSome = true := by
  unfold hexUnit? at read
  cases first : hexValue? a with
  | none => simp [first] at read
  | some _ =>
      cases second : hexValue? b with
      | none => simp [first, second] at read
      | some _ =>
          cases third : hexValue? c with
          | none => simp [first, second, third] at read
          | some _ =>
              cases fourth : hexValue? d with
              | none => simp [first, second, third, fourth] at read
              | some _ => exact ⟨rfl, rfl, rfl, rfl⟩

/-- A read with what was read last in front. -/
theorem prepend_eq_some {c : UInt16} {read : Option (Text × Text)} {string rest : Text}
    (prepended : prepend c read = some (string, rest)) :
    ∃ inner, read = some (inner, rest) := by
  obtain ⟨⟨inner, after⟩, isInner, same⟩ := Option.map_eq_some_iff.mp prepended
  cases same
  exact ⟨inner, isInner⟩

/-- A string after its opening quote is scanned to its closing one. -/
theorem parseString_scan {text string rest : Text} (read : parseString text = some (string, rest))
    (depth : Nat) : ∃ taken, text = taken ++ rest ∧ taken ≠ [] ∧
      scan (.inside depth) taken = some (Scan.after depth) := by
  have opened : scanUnit (.inside depth) (unit '\\') = some (.escaped depth) := by
    simp [scanUnit, show unit '\\' ≠ unit '"' by decide]
  induction text using parseString.induct generalizing string with
  | case1 => cases read
  | case2 after =>
      rw [parseString.eq_def] at read
      simp only [if_true, Option.some.injEq, Prod.mk.injEq] at read
      obtain ⟨-, rfl⟩ := read
      exact ⟨[unit '"'], rfl, List.cons_ne_nil _ _, by simp [scan_cons, scanUnit]⟩
  | case4 a b c d after u hex notQuote ih =>
      rw [parseString.eq_def] at read
      simp only [notQuote, if_true, if_false, hex] at read
      obtain ⟨inner, isInner⟩ := prepend_eq_some read
      obtain ⟨taken, split, -, scanned⟩ := ih isInner
      obtain ⟨first, second, third, fourth⟩ := hexUnit_digits hex
      refine ⟨unit '\\' :: unit 'u' :: a :: b :: c :: d :: taken, by simp [split], List.cons_ne_nil _ _, ?_⟩
      have escape : scanUnit (.escaped depth) (unit 'u') = some (.inside depth) := by
        simp [scanUnit]
      rw [scan_step opened, scan_step escape, scan_step (hexValue_inside first depth),
        scan_step (hexValue_inside second depth), scan_step (hexValue_inside third depth),
        scan_step (hexValue_inside fourth depth), scanned]
  | case7 e after notHex c stands notQuote ih =>
      rw [parseString.eq_def] at read
      simp only [notQuote, if_true, if_false, notHex, stands] at read
      obtain ⟨inner, isInner⟩ := prepend_eq_some read
      obtain ⟨taken, split, -, scanned⟩ := ih isInner
      have escape : scanUnit (.escaped depth) e = some (.inside depth) := by
        simp [scanUnit, stands]
      refine ⟨unit '\\' :: e :: taken, by simp [split], List.cons_ne_nil _ _, ?_⟩
      rw [scan_step opened, scan_step escape, scanned]
  | case10 c after notQuote notBackslash notControl ih =>
      rw [parseString.eq_def] at read
      simp only [notQuote, notBackslash, notControl, if_false] at read
      obtain ⟨inner, isInner⟩ := prepend_eq_some read
      obtain ⟨taken, split, -, scanned⟩ := ih isInner
      have stays : scanUnit (.inside depth) c = some (.inside depth) := by
        simp [scanUnit, notQuote, notBackslash]
      refine ⟨c :: taken, by simp [split], List.cons_ne_nil _ _, ?_⟩
      rw [scan_step stays, scanned]
  | case3 notQuote =>
      rw [parseString.eq_def] at read
      simp [notQuote] at read
  | case5 a b c d after hex notQuote =>
      rw [parseString.eq_def] at read
      simp [notQuote, hex] at read
  | case6 after short notQuote =>
      rw [parseString.eq_def] at read
      simp only [notQuote, if_true, if_false] at read
      cases read
  | case8 e after notHex stands notQuote =>
      rw [parseString.eq_def] at read
      simp [notQuote, notHex, stands] at read
  | case9 c after notQuote notBackslash control =>
      rw [parseString.eq_def] at read
      simp [notQuote, notBackslash, control] at read

theorem isDigit_plain {c : UInt16} (digit : Text.isDigit c = true) : isPlain c = true := by
  simp only [Text.isDigit, Bool.and_eq_true, decide_eq_true_eq, UInt16.le_iff_toNat_le] at digit
  have lower : (unit '0').toNat = 48 := rfl
  have upper : (unit '9').toNat = 57 := rfl
  rw [lower, upper] at digit
  have apart : ∀ d : UInt16, (d.toNat < 48 ∨ 57 < d.toNat) → c ≠ d := by
    rintro d outside rfl
    omega
  have notSpace : isSpace c = false := by
    simp [isSpace, apart 32 (by decide), apart 9 (by decide), apart 10 (by decide),
      apart 13 (by decide)]
  simp [isPlain, notSpace, isOpen, isClose, apart (unit '{') (by decide),
    apart (unit '[') (by decide), apart (unit '}') (by decide), apart (unit ']') (by decide),
    apart (unit '"') (by decide), apart (unit '\\') (by decide)]

theorem spanDigits_split (text : Text) :
    text = (spanDigits text).1 ++ (spanDigits text).2 ∧ AllPlain (spanDigits text).1 := by
  induction text with
  | nil => exact ⟨rfl, List.forall_mem_nil _⟩
  | cons c rest ih =>
      rw [spanDigits]
      split
      next digit =>
          refine ⟨congrArg (c :: ·) ih.1, ?_⟩
          exact List.forall_mem_cons.mpr ⟨isDigit_plain digit, ih.2⟩
      next => exact ⟨rfl, List.forall_mem_nil _⟩

theorem parseWhole_plain {text digits rest : Text} (read : parseWhole text = some (digits, rest)) :
    ∃ taken, text = taken ++ rest ∧ AllPlain taken ∧ taken ≠ [] := by
  cases text with
  | nil => cases read
  | cons c after =>
      rw [parseWhole] at read
      split at read
      next zero =>
          cases read
          subst zero
          exact ⟨[unit '0'], rfl, by decide, List.cons_ne_nil _ _⟩
      next =>
          split at read
          next digit =>
              have split := spanDigits_split (c :: after)
              rw [Option.some.inj read] at split
              refine ⟨digits, split.1, split.2, ?_⟩
              rintro rfl
              simp [spanDigits, digit] at read
          next => cases read

theorem parseFraction_plain {text digits rest : Text}
    (read : parseFraction text = some (digits, rest)) :
    ∃ taken, text = taken ++ rest ∧ AllPlain taken := by
  cases text with
  | nil =>
      cases read
      exact ⟨[], rfl, List.forall_mem_nil _⟩
  | cons c after =>
      rw [parseFraction] at read
      split at read
      next dot =>
          have split := spanDigits_split after
          dsimp only at read
          split at read
          next => cases read
          next =>
              cases read
              subst dot
              exact ⟨unit '.' :: (spanDigits after).1, congrArg (_ :: ·) split.1,
                List.forall_mem_cons.mpr ⟨by decide, split.2⟩⟩
      next =>
          cases read
          exact ⟨[], rfl, List.forall_mem_nil _⟩

theorem parseSign_plain (text : Text) :
    ∃ taken, text = taken ++ (parseSign text).2 ∧ AllPlain taken := by
  cases text with
  | nil => exact ⟨[], rfl, List.forall_mem_nil _⟩
  | cons c after =>
      rw [parseSign]
      split
      next minus =>
          subst minus
          exact ⟨[unit '-'], rfl, by decide⟩
      next =>
          split
          next plus =>
              subst plus
              exact ⟨[unit '+'], rfl, by decide⟩
          next => exact ⟨[], rfl, List.forall_mem_nil _⟩

theorem parseExponent_plain {text rest : Text} {exponent : Int}
    (read : parseExponent text = some (exponent, rest)) :
    ∃ taken, text = taken ++ rest ∧ AllPlain taken := by
  cases text with
  | nil =>
      cases read
      exact ⟨[], rfl, List.forall_mem_nil _⟩
  | cons c after =>
      rw [parseExponent] at read
      split at read
      next letter =>
          obtain ⟨sign, split, signPlain⟩ := parseSign_plain after
          obtain ⟨digits, digitsPlain⟩ := spanDigits_split (parseSign after).2
          dsimp only at read
          split at read
          next => cases read
          next =>
              cases read
              refine ⟨c :: (sign ++ (spanDigits (parseSign after).2).1), ?_, ?_⟩
              · rw [List.cons_append, List.append_assoc, ← digits, ← split]
              · refine List.forall_mem_cons.mpr ⟨?_, List.forall_mem_append.mpr
                  ⟨signPlain, digitsPlain⟩⟩
                rcases letter with rfl | rfl <;> decide
      next =>
          cases read
          exact ⟨[], rfl, List.forall_mem_nil _⟩

theorem parseMagnitude_plain {negative : Bool} {text rest : Text} {number : Number}
    (read : parseMagnitude negative text = some (number, rest)) :
    ∃ taken, text = taken ++ rest ∧ AllPlain taken ∧ taken ≠ [] := by
  simp only [parseMagnitude, Option.pure_def, Option.bind_eq_bind, Option.bind_eq_some_iff,
    Option.some.injEq, Prod.mk.injEq] at read
  obtain ⟨⟨whole, afterWhole⟩, isWhole, ⟨fraction, afterFraction⟩, isFraction,
    ⟨exponent, afterExponent⟩, isExponent, -, rfl⟩ := read
  obtain ⟨first, split, firstPlain, some⟩ := parseWhole_plain isWhole
  obtain ⟨second, split', secondPlain⟩ := parseFraction_plain isFraction
  obtain ⟨third, split'', thirdPlain⟩ := parseExponent_plain isExponent
  refine ⟨first ++ (second ++ third), ?_, ?_, by simp [some]⟩
  · dsimp only at split' split''
    rw [split, split', split'', List.append_assoc, List.append_assoc]
  · exact List.forall_mem_append.mpr
      ⟨firstPlain, List.forall_mem_append.mpr ⟨secondPlain, thirdPlain⟩⟩

theorem parseNumber_plain {text rest : Text} {number : Number}
    (read : parseNumber text = some (number, rest)) :
    ∃ taken, text = taken ++ rest ∧ AllPlain taken ∧ taken ≠ [] := by
  cases text with
  | nil => cases read
  | cons c after =>
      rw [parseNumber] at read
      split at read
      next minus =>
          obtain ⟨taken, split, plain, -⟩ := parseMagnitude_plain read
          subst minus
          exact ⟨unit '-' :: taken, congrArg (_ :: ·) split,
            List.forall_mem_cons.mpr ⟨by decide, plain⟩, List.cons_ne_nil _ _⟩
      next => exact parseMagnitude_plain read

/-- What a value's text does to a scan, within brackets and as the whole text. -/
structure Spanned (taken : Text) (value : Json Number) : Prop where
  inner : ∀ depth, scan (.outside depth) taken = some (.outside depth)
  top : scan .start taken = some .done ∨
    (scan .start taken = some .scalar ∧ ∀ fields, value ≠ .object fields)

theorem spanned_string {text string rest : Text} (read : parseString text = some (string, rest)) :
    ∃ taken, unit '"' :: text = taken ++ rest ∧ Spanned taken (.string string) := by
  obtain ⟨taken, split, -⟩ := parseString_scan read 0
  have scanned : ∀ depth, scan (.inside depth) taken = some (Scan.after depth) := by
    intro depth
    obtain ⟨taken', split', -, scanned⟩ := parseString_scan read depth
    rwa [List.append_cancel_right (split.symm.trans split')]
  refine ⟨unit '"' :: taken, congrArg (_ :: ·) split, fun depth => ?_, .inl ?_⟩
  · exact (scan_step (by simp [scanUnit]) taken).trans (scanned (depth + 1))
  · exact (scan_step (by simp [scanUnit, show isSpace (unit '"') = false by decide]) taken).trans
      (scanned 0)

theorem spanned_plain {taken : Text} {value : Json Number} (plain : AllPlain taken)
    (some : taken ≠ []) (notObject : ∀ fields, value ≠ .object fields) : Spanned taken value := by
  refine ⟨fun depth => (scan_plain plain depth).1, .inr ⟨?_, notObject⟩⟩
  cases taken with
  | nil => exact absurd rfl some
  | cons c rest => exact scan_scalar plain

theorem spanned_word {spelled text rest : Text} {value read : Json Number}
    (isWord : word spelled value text = some (read, rest)) (plain : AllPlain spelled)
    (some : spelled ≠ []) (notObject : ∀ fields, value ≠ .object fields) :
    ∃ taken, text = taken ++ rest ∧ Spanned taken read := by
  unfold word at isWord
  split at isWord
  next starts =>
      cases isWord
      obtain ⟨after, rfl⟩ := List.isPrefixOf_iff_prefix.mp starts
      exact ⟨spelled, by rw [List.drop_left], spanned_plain plain some notObject⟩
  next => cases isWord

/-- Between two texts lies the rest of an array or an object, to its closing bracket. -/
def Closing (text rest : Text) : Prop :=
  ∃ taken, text = taken ++ rest ∧
    ∀ depth, scan (.outside depth) taken = some (Scan.after depth)

theorem Closing.close {c : UInt16} (closes : isClose c = true) {text rest : Text}
    (skipped : skipSpace text = c :: rest) : Closing text rest := by
  obtain ⟨lead, split, space⟩ := skipSpace_split text
  have other : c ≠ unit '"' ∧ isOpen c = false := by
    simp only [isClose, Bool.or_eq_true, beq_iff_eq] at closes
    rcases closes with rfl | rfl <;> decide
  refine ⟨lead ++ [c], by simpa [skipped] using split, fun depth => ?_⟩
  rw [scan_join (scan_space (.inr (.inr ⟨depth, rfl⟩)) space)]
  simp [scan_cons, scanUnit, other.1, other.2, closes]

/-- A comma or a colon after white space. -/
theorem Closing.separator {c : UInt16} (separates : c = unit ',' ∨ c = unit ':')
    {text after rest : Text} (skipped : skipSpace text = c :: after)
    (closing : Closing after rest) : Closing text rest := by
  obtain ⟨lead, split, space⟩ := skipSpace_split text
  obtain ⟨taken, rfl, scanned⟩ := closing
  refine ⟨lead ++ c :: taken, by simpa [skipped] using split, fun depth => ?_⟩
  have step : scanUnit (.outside depth) c = some (.outside depth) := by
    rcases separates with rfl | rfl <;> rfl
  rw [scan_join (scan_space (.inr (.inr ⟨depth, rfl⟩)) space), scan_step step, scanned]

/-- A value, or a key, after white space. -/
theorem Closing.value {lead taken after rest : Text} {value : Json Number} (space : AllSpace lead)
    (spanned : Spanned taken value) (closing : Closing after rest) :
    Closing (lead ++ (taken ++ after)) rest := by
  obtain ⟨taken', rfl, scanned⟩ := closing
  refine ⟨lead ++ (taken ++ taken'), by simp, fun depth => ?_⟩
  rw [scan_join (scan_space (.inr (.inr ⟨depth, rfl⟩)) space), scan_join (spanned.inner depth),
    scanned]

/-- An array or an object from its opening bracket. -/
theorem Closing.brackets {c : UInt16} (opens : isOpen c = true) {text rest : Text}
    (closing : Closing text rest) (value : Json Number) :
    ∃ taken, c :: text = taken ++ rest ∧ Spanned taken value := by
  obtain ⟨taken, rfl, scanned⟩ := closing
  have notSpace : isSpace c = false ∧ c ≠ unit '"' := by
    simp only [isOpen, Bool.or_eq_true, beq_iff_eq] at opens
    rcases opens with rfl | rfl <;> decide
  refine ⟨c :: taken, rfl, fun depth => ?_, .inl ?_⟩
  · exact (scan_step (by simp [scanUnit, notSpace.2, opens]) taken).trans (scanned (depth + 1))
  · exact (scan_step (by simp [scanUnit, notSpace.1, notSpace.2, opens]) taken).trans (scanned 0)

/-- What the three readers take, by induction on the fuel that they share. -/
theorem parse_scan (fuel : Nat) :
    (∀ {text value rest}, parseValue fuel text = some (value, rest) →
      ∃ lead taken, text = lead ++ (taken ++ rest) ∧ AllSpace lead ∧ Spanned taken value) ∧
    (∀ {text items rest}, parseItems fuel text = some (items, rest) → Closing text rest) ∧
    ∀ {text fields rest}, parseFields fuel text = some (fields, rest) → Closing text rest := by
  induction fuel with
  | zero => exact ⟨nofun, nofun, nofun⟩
  | succ fuel ih =>
      obtain ⟨valueScan, itemsScan, fieldsScan⟩ := ih
      refine ⟨?_, ?_, ?_⟩
      · intro text value rest read
        rw [parseValue] at read
        obtain ⟨lead, split, space⟩ := skipSpace_split text
        suffices spanned : ∃ taken, skipSpace text = taken ++ rest ∧ Spanned taken value by
          obtain ⟨taken, isTaken, spanned⟩ := spanned
          exact ⟨lead, taken, isTaken ▸ split, space, spanned⟩
        cases skipped : skipSpace text with
        | nil =>
            rw [skipped] at read
            cases read
        | cons c after =>
            rw [skipped] at read
            dsimp only at read
            split at read
            next quote =>
                obtain ⟨⟨string, after'⟩, isString, same⟩ := Option.map_eq_some_iff.mp read
                cases same
                subst quote
                exact spanned_string isString
            next =>
                split at read
                next bracket =>
                    have opens : isOpen c = true := by simp [isOpen, bracket]
                    split at read
                    next => cases read
                    next d after' skipped' =>
                        split at read
                        next closes =>
                            cases read
                            exact (Closing.close (by simp [isClose, closes]) skipped').brackets
                              opens _
                        next =>
                            obtain ⟨⟨items, after''⟩, isItems, same⟩ :=
                              Option.map_eq_some_iff.mp read
                            cases same
                            exact (itemsScan isItems).brackets opens _
                next =>
                    split at read
                    next brace =>
                        have opens : isOpen c = true := by simp [isOpen, brace]
                        split at read
                        next => cases read
                        next d after' skipped' =>
                            split at read
                            next closes =>
                                cases read
                                exact (Closing.close (by simp [isClose, closes]) skipped').brackets
                                  opens _
                            next =>
                                obtain ⟨⟨fields, after''⟩, isFields, same⟩ :=
                                  Option.map_eq_some_iff.mp read
                                cases same
                                exact (fieldsScan isFields).brackets opens _
                    next =>
                        split at read
                        next => exact spanned_word read (by decide) (by decide) (by simp)
                        next =>
                            split at read
                            next => exact spanned_word read (by decide) (by decide) (by simp)
                            next =>
                                split at read
                                next => exact spanned_word read (by decide) (by decide) (by simp)
                                next =>
                                    obtain ⟨⟨number, after'⟩, isNumber, same⟩ :=
                                      Option.map_eq_some_iff.mp read
                                    cases same
                                    obtain ⟨taken, split, plain, some⟩ := parseNumber_plain isNumber
                                    exact ⟨taken, split, spanned_plain plain some (by simp)⟩
      · intro text items rest read
        rw [parseItems] at read
        split at read
        next => cases read
        next item after first =>
            obtain ⟨lead, taken, rfl, space, spanned⟩ := valueScan first
            split at read
            next => cases read
            next d after' skipped =>
                split at read
                next closes =>
                    cases read
                    exact .value space spanned (.close (by simp [isClose, closes]) skipped)
                next =>
                    split at read
                    next comma =>
                        obtain ⟨⟨items', after''⟩, isItems, same⟩ := Option.map_eq_some_iff.mp read
                        cases same
                        exact .value space spanned
                          (.separator (.inl comma) skipped (itemsScan isItems))
                    next => cases read
      · intro text fields rest read
        rw [parseFields] at read
        obtain ⟨lead, split, space⟩ := skipSpace_split text
        split at read
        next => cases read
        next c after skipped =>
            split at read
            next => cases read
            next quote =>
                rw [skipped, not_not.mp quote] at split
                split at read
                next => cases read
                next key after' isKey =>
                    obtain ⟨taken, isTaken, spannedKey⟩ := spanned_string isKey
                    rw [isTaken] at split
                    rw [split]
                    split at read
                    next => cases read
                    next d after'' skipped' =>
                        split at read
                        next => cases read
                        next colon =>
                            refine .value space spannedKey
                              (.separator (.inr (not_not.mp colon)) skipped' ?_)
                            split at read
                            next => cases read
                            next value after₃ isValue =>
                                obtain ⟨lead', taken', rfl, space', spanned⟩ := valueScan isValue
                                split at read
                                next => cases read
                                next e after₄ skipped'' =>
                                    split at read
                                    next closes =>
                                        cases read
                                        exact .value space' spanned
                                          (.close (by simp [isClose, closes]) skipped'')
                                    next =>
                                        split at read
                                        next comma =>
                                            obtain ⟨⟨fields', after₅⟩, isFields, same⟩ :=
                                              Option.map_eq_some_iff.mp read
                                            cases same
                                            exact .value space' spanned
                                              (.separator (.inl comma) skipped''
                                                (fieldsScan isFields))
                                        next => cases read

end Json

end Ccrc.Library
