import Ccrc.Coord.LandingDetail
import Ccrc.Library.Numerals
import Ccrc.Library.TextProperties
import Ccrc.Shared.ReleaseTags

/-! Each reader of the landing details accepts what its writers write and nothing else,
and gives back the arguments. -/

set_option autoImplicit false

namespace Ccrc.Coord.LandingDetail

open Library Shared
open Json (ofNat_head ofNat_isDigit digitsValue_ofNat)

/-! ## Numbers -/

theorem isPositiveNumeral_canonical {text : Text} (numeral : isPositiveNumeral text = true) :
    Canonical text ∧ 0 < Json.digitsValue text := by
  cases text with
  | nil => cases numeral
  | cons first rest =>
      rw [isPositiveNumeral, Bool.and_eq_true, bne_iff_ne, List.all_eq_true] at numeral
      obtain ⟨notZero, all⟩ := numeral
      have bounds := digit_bounds (all first List.mem_cons_self)
      have lead : first.toNat ≠ 48 := fun same => notZero (UInt16.toNat_inj.mp same)
      have once : 1 * 1 ≤ (first.toNat - 48) * 10 ^ rest.length :=
        Nat.mul_le_mul (by omega) (Nat.one_le_pow _ _ (by decide))
      refine ⟨⟨all, .inr ⟨first, rest, rfl, notZero⟩⟩, ?_⟩
      rw [digitsValue_cons]
      omega

theorem ofNat_isPositiveNumeral {number : Nat} (positive : 0 < number) :
    isPositiveNumeral (Text.ofNat number) = true := by
  obtain ⟨first, rest, spelled, notZero, -⟩ := ofNat_head number positive
  have all := ofNat_isDigit number
  rw [spelled] at all ⊢
  rw [isPositiveNumeral, Bool.and_eq_true, bne_iff_ne, List.all_eq_true]
  exact ⟨notZero, all⟩

theorem ofInt_of_nonneg {number : Int} (nonNegative : 0 ≤ number) :
    Text.ofInt number = Text.ofNat number.toNat := by
  obtain ⟨magnitude, rfl⟩ := Int.eq_ofNat_of_zero_le nonNegative
  rfl

theorem positiveInt_iff {text : Text} {number : Int} :
    positiveInt text = some number ↔ isPositiveSafe number = true ∧ text = Text.ofInt number := by
  unfold positiveInt isPositiveSafe
  rw [Bool.and_eq_true, decide_eq_true_eq, decide_eq_true_eq]
  constructor
  · intro read
    split at read
    next numeral =>
        obtain ⟨canonical, positive⟩ := isPositiveNumeral_canonical numeral
        obtain ⟨rfl, safe⟩ := (Number.ofDecimal_safeInt? _ _).mp read
        refine ⟨⟨safe, by omega⟩, ?_⟩
        have written := (isPositiveNumeral_canonical (ofNat_isPositiveNumeral positive)).1
        exact canonical.eq_of_value written (digitsValue_ofNat _).symm
    next => cases read
  · rintro ⟨⟨safe, positive⟩, rfl⟩
    rw [ofInt_of_nonneg (by omega), if_pos (ofNat_isPositiveNumeral (by omega)),
      digitsValue_ofNat, Number.ofDecimal_safeInt?]
    omega

theorem nonNegativeInt_iff {text : Text} {number : Int} :
    nonNegativeInt text = some number ↔
      isNonNegativeSafe number = true ∧ text = Text.ofInt number := by
  by_cases zero : text = Text.lit "0"
  · subst zero
    have read : nonNegativeInt (Text.lit "0") = some 0 := by decide +kernel
    rw [read, Option.some.injEq]
    constructor
    · rintro rfl
      exact ⟨by decide, by decide⟩
    · rintro ⟨safe, spelled⟩
      rw [isNonNegativeSafe, Bool.and_eq_true, decide_eq_true_eq, decide_eq_true_eq] at safe
      rw [ofInt_of_nonneg safe.2] at spelled
      have value := congrArg Json.digitsValue spelled
      rw [digitsValue_ofNat, show Json.digitsValue (Text.lit "0") = 0 by decide] at value
      omega
  · have read : nonNegativeInt text = positiveInt text := by
      unfold nonNegativeInt positiveInt isNonNegativeNumeral
      rw [beq_eq_false_iff_ne.mpr zero, Bool.false_or]
    rw [read, positiveInt_iff, isPositiveSafe, isNonNegativeSafe]
    simp only [Bool.and_eq_true, decide_eq_true_eq]
    constructor
    · rintro ⟨⟨safe, positive⟩, spelled⟩
      exact ⟨⟨safe, by omega⟩, spelled⟩
    · rintro ⟨⟨safe, nonNegative⟩, rfl⟩
      refine ⟨⟨safe, ?_⟩, rfl⟩
      have other : number ≠ 0 := by
        rintro rfl
        exact zero (by decide)
      omega

/-! ## Parts -/

theorem not_mem_of_all {text : Text} {holds : UInt16 → Bool} {c : UInt16}
    (all : text.all holds = true) (fails : holds c = false) : c ∉ text := by
  intro member
  rw [List.all_eq_true.mp all c member] at fails
  cases fails

theorem hexOf_plain {count : Nat} {text : Text} (hex : text.isHexOf count = true) :
    Text.unit ':' ∉ text ∧ Text.unit '@' ∉ text := by
  rw [Text.isHexOf, Bool.and_eq_true] at hex
  exact ⟨not_mem_of_all hex.2 (by decide), not_mem_of_all hex.2 (by decide)⟩

theorem ofInt_plain {number : Int} (nonNegative : 0 ≤ number) :
    Text.unit ':' ∉ Text.ofInt number := by
  rw [ofInt_of_nonneg nonNegative]
  exact not_mem_of_all (List.all_eq_true.mpr (ofNat_isDigit _)) (by decide)

theorem isStuckReading_plain {reading : Text} (valid : isStuckReading reading = true) :
    Text.unit ':' ∉ reading := by
  unfold isStuckReading at valid
  split at valid
  next same =>
      rw [same]
      decide
  next =>
      split at valid
      next => cases valid
      next word fp found =>
          rw [Bool.and_eq_true, decide_eq_true_eq] at valid
          obtain ⟨-, rfl⟩ := Text.cut_iff.mp found
          have words : ∀ word ∈ stuckReadingWords, Text.unit ':' ∉ word := by decide
          intro member
          rcases List.mem_append.mp member with inside | inside
          · exact words word valid.1 inside
          · rcases List.mem_cons.mp inside with bad | inside
            · exact absurd bad (by decide)
            · exact (hexOf_plain valid.2).1 inside

/-- A text that starts with a lead, and what is left of it. -/
theorem startsWith_iff {text lead : Text} :
    text.startsWith lead = true ↔ text = lead ++ text.drop lead.length := by
  rw [Text.startsWith, List.isPrefixOf_iff_prefix]
  constructor
  · rintro ⟨rest, rfl⟩
    rw [List.drop_left]
  · intro whole
    rw [whole]
    exact List.prefix_append _ _

/-! ## The transition row -/

theorem modeText_find {word : Text} {mode : ChecksMode} :
    checksModes.find? (modeText · == word) = some mode ↔ modeText mode = word := by
  constructor
  · intro found
    have same := List.find?_some found
    exact beq_iff_eq.mp same
  · rintro rfl
    cases mode <;> decide

theorem modeText_plain (mode : ChecksMode) : Text.unit ':' ∉ modeText mode := by
  cases mode <;> decide

def prText : Option Int → Text
  | none => Text.lit "none"
  | some pr => Text.ofInt pr

/-- The PR that an episode of the mode may carry. -/
def PrFor (mode : ChecksMode) : Option Int → Prop
  | none => mode = .off
  | some pr => isPositiveSafe pr = true

theorem isPositiveSafe_nonneg {n : Int} (safe : isPositiveSafe n = true) : 0 ≤ n := by
  rw [isPositiveSafe, Bool.and_eq_true, decide_eq_true_eq, decide_eq_true_eq] at safe
  omega

theorem isNonNegativeSafe_nonneg {n : Int} (safe : isNonNegativeSafe n = true) : 0 ≤ n := by
  rw [isNonNegativeSafe, Bool.and_eq_true, decide_eq_true_eq, decide_eq_true_eq] at safe
  omega

theorem prText_plain {mode : ChecksMode} {pr : Option Int} (valid : PrFor mode pr) :
    Text.unit ':' ∉ prText pr := by
  cases pr with
  | none => decide
  | some pr => exact ofInt_plain (isPositiveSafe_nonneg valid)

theorem mergingAtDetail_ok {head : Text} {pr : Option Int} {mode : ChecksMode} {detail : Text} :
    mergingAtDetail head pr mode = .ok detail ↔
      isHead40 head = true ∧ PrFor mode pr ∧ detail =
        mergingAtPrefix ++ (head ++ Text.unit ':' :: (prText pr ++ Text.unit ':' :: modeText mode)) := by
  unfold mergingAtDetail
  cases hex : isHead40 head with
  | false => simp
  | true =>
      cases pr with
      | none =>
          have spelled : Text.lit ":none:" =
              Text.unit ':' :: (Text.lit "none" ++ [Text.unit ':']) := by decide
          by_cases off : mode = .off
          · simp [off, spelled, PrFor, prText, eq_comm]
          · simp [off, PrFor]
      | some pr =>
          cases safe : isPositiveSafe pr with
          | false => simp [safe, PrFor]
          | true => simp [safe, PrFor, prText, eq_comm]

theorem splitOn_three {a b c rest : Text} :
    rest.splitOn (Text.unit ':') = [a, b, c] ↔
      (Text.unit ':' ∉ a ∧ Text.unit ':' ∉ b ∧ Text.unit ':' ∉ c) ∧
        rest = a ++ Text.unit ':' :: (b ++ Text.unit ':' :: c) := by
  constructor
  · intro parts
    have plain := fun part => @not_mem_of_mem_splitOn _ _ (Text.unit ':') rest part
    have joined : [Text.unit ':'].intercalate (rest.splitOn (Text.unit ':')) = rest :=
      List.intercalate_splitOn _
    rw [parts] at plain joined
    refine ⟨⟨plain a (by simp), plain b (by simp), plain c (by simp)⟩, ?_⟩
    rw [← joined, ← Text.join_eq_intercalate]
    simp [Text.join, Text.lit]
  · rintro ⟨⟨first, second, third⟩, rfl⟩
    rw [List.splitOn_append_cons_self_of_not_mem first,
      List.splitOn_append_cons_self_of_not_mem second, List.splitOn_eq_singleton third]

theorem readMergingAtDetail_iff {head : Text} {pr : Option Int} {mode : ChecksMode}
    {detail : Text} :
    readMergingAtDetail detail = some ⟨head, pr, mode⟩ ↔
      mergingAtDetail head pr mode = .ok detail := by
  rw [mergingAtDetail_ok]
  unfold readMergingAtDetail
  constructor
  · intro read
    split at read
    next leads =>
        have whole := startsWith_iff.mp leads
        generalize detail.drop mergingAtPrefix.length = rest at read whole
        split at read
        next first second word parts =>
            obtain ⟨-, rfl⟩ := splitOn_three.mp parts
            cases hex : isHead40 first with
            | false => simp [hex] at read
            | true =>
                rw [hex, Bool.not_true, if_neg Bool.false_ne_true] at read
                split at read
                next => cases read
                next known found =>
                    obtain rfl := modeText_find.mp found
                    split at read
                    next spelled =>
                        split at read
                        next off =>
                            cases read
                            exact ⟨hex, off, by rw [whole, spelled, prText]⟩
                        next => cases read
                    next =>
                        obtain ⟨pr', number, same⟩ := Option.map_eq_some_iff.mp read
                        cases same
                        obtain ⟨safe, spelled⟩ := positiveInt_iff.mp number
                        exact ⟨hex, safe, by rw [whole, spelled, prText]⟩
        next => cases read
    next => cases read
  · rintro ⟨hex, valid, rfl⟩
    have parts := splitOn_three.mpr
      ⟨⟨(hexOf_plain hex).1, prText_plain valid, modeText_plain mode⟩, rfl⟩
    rw [if_pos (startsWith_iff.mpr (by rw [List.drop_left])), List.drop_left, parts]
    dsimp only
    rw [hex, Bool.not_true, if_neg Bool.false_ne_true, modeText_find.mpr rfl]
    dsimp only
    cases pr with
    | none =>
        have off : mode = .off := valid
        rw [prText, if_pos rfl, if_pos off]
    | some pr =>
        have safe : isPositiveSafe pr = true := valid
        have spelled : Text.ofInt pr ≠ Text.lit "none" := by
          intro same
          rw [ofInt_of_nonneg (isPositiveSafe_nonneg safe)] at same
          have digits := ofNat_isDigit pr.toNat
          rw [same] at digits
          exact absurd (digits (Text.unit 'n') (by decide)) (by decide)
        rw [prText, if_neg spelled, positiveInt_iff.mpr ⟨safe, rfl⟩]
        rfl

/-! ## The rows of an episode -/

/-- The arguments of the two writers of an episode's rows. -/
inductive ChecksArguments where
  | row (e gen : Int) (what : ChecksRowWhat) (suffix : Option Text) (shadow : Bool)
  | ended (e : Int) (word : ChecksEndWord) (shadow : Bool)
  deriving DecidableEq, Repr

def ChecksArguments.write : ChecksArguments → Except Text Text
  | .row e gen what suffix shadow => checksRowDetail e gen what suffix shadow
  | .ended e word shadow => checksEndDetail e word shadow

/-- What a reader is to say of a row: the suffix is a fingerprint or a reading by its word. -/
def ChecksArguments.read : ChecksArguments → ChecksRowRead
  | .row e gen .open _ shadow => ⟨shadow, e, some gen, .row .open, none, none⟩
  | .row e gen .stuck suffix shadow => ⟨shadow, e, some gen, .row .stuck, none, suffix⟩
  | .row e gen what suffix shadow => ⟨shadow, e, some gen, .row what, suffix, none⟩
  | .ended e word shadow => ⟨shadow, e, none, .ended word, none, none⟩

/-- What stands after the generation. -/
def rowTail : ChecksRowWhat → Option Text → Text
  | .open, _ => Text.lit "open"
  | what, none => whatText what
  | .stuck, some reading => whatText .stuck ++ Text.unit ':' :: reading
  | what, some fp => whatText what ++ Text.unit '@' :: fp

/-- The suffix that a row of the word carries. -/
def SuffixFor : ChecksRowWhat → Option Text → Prop
  | .open, none => True
  | .open, some _ => False
  | _, none => False
  | .stuck, some reading => isStuckReading reading = true
  | _, some fp => isFp12 fp = true

theorem checksRowDetail_ok {e gen : Int} {what : ChecksRowWhat} {suffix : Option Text}
    {shadow : Bool} {detail : Text} :
    checksRowDetail e gen what suffix shadow = .ok detail ↔
      isPositiveSafe e = true ∧ isNonNegativeSafe gen = true ∧ SuffixFor what suffix ∧
        detail = checksRowLead shadow ++ (Text.ofInt e ++ Text.unit ':' ::
          (Text.ofInt gen ++ Text.unit ':' :: rowTail what suffix)) := by
  unfold checksRowDetail
  cases positive : isPositiveSafe e with
  | false => simp
  | true =>
      cases nonNegative : isNonNegativeSafe gen with
      | false => simp
      | true =>
          cases suffix with
          | none => cases what <;> simp [SuffixFor, rowTail, whatText, @eq_comm _ detail]
          | some suffix =>
              cases what with
              | «open» => simp [SuffixFor]
              | stuck =>
                  cases valid : isStuckReading suffix <;>
                    simp [SuffixFor, rowTail, valid, @eq_comm _ detail]
              | green =>
                  cases valid : isFp12 suffix <;>
                    simp [SuffixFor, rowTail, valid, @eq_comm _ detail]
              | red =>
                  cases valid : isFp12 suffix <;>
                    simp [SuffixFor, rowTail, valid, @eq_comm _ detail]

theorem checksEndDetail_ok {e : Int} {word : ChecksEndWord} {shadow : Bool} {detail : Text} :
    checksEndDetail e word shadow = .ok detail ↔
      isPositiveSafe e = true ∧
        detail = checksRowLead shadow ++ (Text.ofInt e ++ Text.unit ':' :: word.text) := by
  unfold checksEndDetail
  cases positive : isPositiveSafe e <;> simp [eq_comm]

theorem readEndWord_iff {text : Text} {word : ChecksEndWord} :
    readEndWord text = some word ↔ text = word.text := by
  constructor
  · intro read
    unfold readEndWord at read
    split at read
    next same =>
        cases read
        exact same
    next =>
        split at read
        next same =>
            cases read
            exact same
        next => cases read
  · rintro rfl
    cases word <;> decide

theorem readEdgeWord_iff {text : Text} {what : ChecksRowWhat} :
    readEdgeWord text = some what ↔ (what = .green ∨ what = .red) ∧ text = whatText what := by
  constructor
  · intro read
    unfold readEdgeWord at read
    split at read
    next same =>
        cases read
        exact ⟨.inl rfl, same⟩
    next =>
        split at read
        next same =>
            cases read
            exact ⟨.inr rfl, same⟩
        next => cases read
  · rintro ⟨rfl | rfl, rfl⟩ <;> decide

/-- Only a single part is joined to a text without colons. -/
theorem join_single {part : Text} {parts : List Text}
    (plain : Text.unit ':' ∉ Text.join (Text.lit ":") (part :: parts)) : parts = [] := by
  cases parts with
  | nil => rfl
  | cons second parts =>
      refine absurd ?_ plain
      rw [Text.join]
      · exact List.mem_append_left _ (List.mem_append_right _ (by decide))
      · intro bad
        cases bad

theorem readGenerationRow_edge {shadow : Bool} {e gen : Int} {part : Text} {parts : List Text}
    {what : ChecksRowWhat} {fp : Text} (edge : what = .green ∨ what = .red)
    (valid : isFp12 fp = true)
    (whole : Text.join (Text.lit ":") (part :: parts) = whatText what ++ Text.unit '@' :: fp) :
    readGenerationRow shadow e gen part parts =
      some ⟨shadow, e, some gen, .row what, some fp, none⟩ := by
  have words : Text.unit ':' ∉ whatText what ∧ Text.unit '@' ∉ whatText what := by
    rcases edge with rfl | rfl <;> decide
  have single : parts = [] := by
    refine @join_single part _ fun member => ?_
    rw [whole] at member
    rcases List.mem_append.mp member with inside | inside
    · exact words.1 inside
    · rcases List.mem_cons.mp inside with bad | inside
      · exact absurd bad (by decide)
      · exact (hexOf_plain valid).1 inside
  subst single
  have notOpen : whatText what ++ Text.unit '@' :: fp ≠ Text.lit "open" := by
    intro same
    have member : Text.unit '@' ∈ Text.lit "open" :=
      same ▸ List.mem_append_right _ List.mem_cons_self
    exact absurd member (by decide)
  unfold readGenerationRow
  dsimp only
  rw [whole, if_neg notOpen, Text.cut_iff.mpr ⟨words.2, rfl⟩]
  dsimp only
  rw [readEdgeWord_iff.mpr ⟨edge, rfl⟩]
  dsimp only
  rw [if_pos valid]

theorem readGenerationRow_stuck {shadow : Bool} {e gen : Int} {part reading : Text}
    {parts : List Text} (plain : Text.unit ':' ∉ part) (valid : isStuckReading reading = true)
    (whole : Text.join (Text.lit ":") (part :: parts) =
      whatText .stuck ++ Text.unit ':' :: reading) :
    readGenerationRow shadow e gen part parts =
      some ⟨shadow, e, some gen, .row .stuck, none, some reading⟩ := by
  have member : Text.unit ':' ∈ whatText .stuck ++ Text.unit ':' :: reading :=
    List.mem_append_right _ List.mem_cons_self
  have notOpen : whatText .stuck ++ Text.unit ':' :: reading ≠ Text.lit "open" := by
    intro same
    rw [same] at member
    exact absurd member (by decide)
  cases parts with
  | nil =>
      have alone : part = whatText .stuck ++ Text.unit ':' :: reading := whole
      exact absurd (alone ▸ member) plain
  | cons second parts =>
      have halves := Text.cut_iff.mpr (⟨by decide, whole⟩ :
        Text.unit ':' ∉ whatText .stuck ∧ _ = whatText .stuck ++ Text.unit ':' :: reading)
      have halves' := Text.cut_iff.mpr (⟨plain, by simp [Text.join, Text.lit]⟩ :
        Text.unit ':' ∉ part ∧ Text.join (Text.lit ":") (part :: second :: parts) =
          part ++ Text.unit ':' :: Text.join (Text.lit ":") (second :: parts))
      rw [halves] at halves'
      obtain ⟨word, rest⟩ := Prod.mk.inj (Option.some.inj halves')
      unfold readGenerationRow
      dsimp only
      rw [whole, if_neg notOpen, ← word, ← rest, if_neg (by decide), if_pos valid]

/-- The tail of a row, cut at its colons, is read as the row that has the tail. -/
theorem readGenerationRow_iff {shadow : Bool} {e gen : Int} {part : Text} {parts : List Text}
    (plain : ∀ text ∈ part :: parts, Text.unit ':' ∉ text) {read : ChecksRowRead} :
    readGenerationRow shadow e gen part parts = some read ↔
      ∃ what suffix, SuffixFor what suffix ∧
        Text.join (Text.lit ":") (part :: parts) = rowTail what suffix ∧
        (ChecksArguments.row e gen what suffix shadow).read = read := by
  unfold readGenerationRow
  dsimp only
  constructor
  · intro found
    split at found
    next same =>
        cases found
        exact ⟨.open, none, trivial, same, rfl⟩
    next =>
        cases parts with
        | nil =>
            dsimp only at found
            split at found
            next => cases found
            next word fp halves =>
                obtain ⟨-, whole⟩ := Text.cut_iff.mp halves
                split at found
                next => cases found
                next what known =>
                    obtain ⟨edge, rfl⟩ := readEdgeWord_iff.mp known
                    split at found
                    next valid =>
                        cases found
                        rcases edge with rfl | rfl
                        · exact ⟨.green, some fp, valid, whole, rfl⟩
                        · exact ⟨.red, some fp, valid, whole, rfl⟩
                    next => cases found
        | cons second parts =>
            dsimp only at found
            split at found
            next => cases found
            next isStuck =>
                split at found
                next valid =>
                    cases found
                    refine ⟨.stuck, some _, valid, ?_, rfl⟩
                    rw [Text.join, not_not.mp isStuck]
                    · rfl
                    · intro bad
                      cases bad
                next => cases found
  · rintro ⟨what, suffix, valid, whole, rfl⟩
    cases what with
    | «open» =>
        cases suffix with
        | none =>
            have tail : Text.join (Text.lit ":") (part :: parts) = Text.lit "open" := whole
            rw [if_pos tail]
            rfl
        | some _ => cases valid
    | stuck =>
        cases suffix with
        | none => cases valid
        | some reading =>
            exact readGenerationRow_stuck (plain part List.mem_cons_self) valid whole
    | green =>
        cases suffix with
        | none => cases valid
        | some fp => exact readGenerationRow_edge (.inl rfl) valid whole
    | red =>
        cases suffix with
        | none => cases valid
        | some fp => exact readGenerationRow_edge (.inr rfl) valid whole

theorem splitOn_cons {first rest : Text} (plain : Text.unit ':' ∉ first) :
    (first ++ Text.unit ':' :: rest).splitOn (Text.unit ':') =
      first :: rest.splitOn (Text.unit ':') :=
  List.splitOn_append_cons_self_of_not_mem plain rest

theorem splitOn_join {rest first : Text} {parts : List Text}
    (cuts : rest.splitOn (Text.unit ':') = first :: parts) :
    rest = Text.join (Text.lit ":") (first :: parts) ∧
      ∀ part ∈ first :: parts, Text.unit ':' ∉ part := by
  refine ⟨?_, fun part among => not_mem_of_mem_splitOn (cuts ▸ among)⟩
  rw [Text.join_eq_intercalate, ← cuts]
  exact (List.intercalate_splitOn (Text.unit ':')).symm

theorem endWord_plain (word : ChecksEndWord) : Text.unit ':' ∉ word.text := by
  cases word <;> decide

theorem join_cons_cons (first second : Text) (parts : List Text) :
    Text.join (Text.lit ":") (first :: second :: parts) =
      first ++ Text.unit ':' :: Text.join (Text.lit ":") (second :: parts) := by
  simp [Text.join, Text.lit]

/-- What stands after the lead of a row. -/
def ChecksArguments.body : ChecksArguments → Text
  | .row e gen what suffix _ =>
      Text.ofInt e ++ Text.unit ':' :: (Text.ofInt gen ++ Text.unit ':' :: rowTail what suffix)
  | .ended e word _ => Text.ofInt e ++ Text.unit ':' :: word.text

def ChecksArguments.Valid : ChecksArguments → Prop
  | .row e gen what suffix _ =>
      isPositiveSafe e = true ∧ isNonNegativeSafe gen = true ∧ SuffixFor what suffix
  | .ended e _ _ => isPositiveSafe e = true

def ChecksArguments.shadow : ChecksArguments → Bool
  | .row _ _ _ _ shadow => shadow
  | .ended _ _ shadow => shadow

theorem ChecksArguments.write_ok {arguments : ChecksArguments} {detail : Text} :
    arguments.write = .ok detail ↔
      arguments.Valid ∧ detail = checksRowLead arguments.shadow ++ arguments.body := by
  cases arguments with
  | row e gen what suffix shadow =>
      simp only [write, Valid, body, ChecksArguments.shadow, checksRowDetail_ok, and_assoc]
  | ended e word shadow =>
      simp only [write, Valid, body, ChecksArguments.shadow, checksEndDetail_ok]

theorem readChecksRest_iff {shadow : Bool} {rest : Text} {read : ChecksRowRead} :
    readChecksRest shadow rest = some read ↔
      ∃ arguments : ChecksArguments, arguments.Valid ∧ arguments.shadow = shadow ∧
        arguments.body = rest ∧ arguments.read = read := by
  unfold readChecksRest
  constructor
  · intro found
    split at found
    next => cases found
    next eText parts cuts =>
        obtain ⟨whole, plain⟩ := splitOn_join cuts
        split at found
        next => cases found
        next e number =>
            obtain ⟨positive, rfl⟩ := positiveInt_iff.mp number
            split at found
            next => cases found
            next wordText =>
                obtain ⟨word, known, rfl⟩ := Option.map_eq_some_iff.mp found
                obtain rfl := readEndWord_iff.mp known
                exact ⟨.ended e word shadow, positive, rfl,
                  (whole.trans (join_cons_cons _ _ _)).symm, rfl⟩
            next genText part parts =>
                split at found
                next => cases found
                next gen number' =>
                    obtain ⟨nonNegative, rfl⟩ := nonNegativeInt_iff.mp number'
                    have plain' : ∀ text ∈ part :: parts, Text.unit ':' ∉ text := fun text among =>
                      plain text (List.mem_cons_of_mem _ (List.mem_cons_of_mem _ among))
                    obtain ⟨what, suffix, valid, tail, isRead⟩ :=
                      (readGenerationRow_iff plain').mp found
                    refine ⟨.row e gen what suffix shadow, ⟨positive, nonNegative, valid⟩, rfl, ?_,
                      isRead⟩
                    rw [whole, join_cons_cons, join_cons_cons, tail]
                    rfl
  · rintro ⟨arguments, valid, rfl, rfl, rfl⟩
    cases arguments with
    | row e gen what suffix shadow =>
        obtain ⟨positive, nonNegative, suffixed⟩ := valid
        have first := ofInt_plain (isPositiveSafe_nonneg positive)
        have second := ofInt_plain (isNonNegativeSafe_nonneg nonNegative)
        cases cuts : (rowTail what suffix).splitOn (Text.unit ':') with
        | nil => exact absurd cuts (List.splitOn_ne_nil _ _)
        | cons part parts =>
            obtain ⟨whole, plain⟩ := splitOn_join cuts
            rw [ChecksArguments.body, splitOn_cons first, splitOn_cons second, cuts]
            dsimp only
            rw [positiveInt_iff.mpr ⟨positive, rfl⟩]
            dsimp only
            rw [nonNegativeInt_iff.mpr ⟨nonNegative, rfl⟩]
            exact (readGenerationRow_iff plain).mpr ⟨what, suffix, suffixed, whole.symm, rfl⟩
    | ended e word shadow =>
        have first := ofInt_plain (isPositiveSafe_nonneg valid)
        rw [ChecksArguments.body, splitOn_cons first,
          List.splitOn_eq_singleton (endWord_plain word)]
        dsimp only
        rw [positiveInt_iff.mpr ⟨valid, rfl⟩]
        dsimp only
        rw [readEndWord_iff.mpr rfl]
        rfl

theorem readChecksRowDetail_lead (shadow : Bool) (rest : Text) :
    readChecksRowDetail (checksRowLead shadow ++ rest) = readChecksRest shadow rest := by
  unfold readChecksRowDetail
  cases shadow with
  | false =>
      have leads : (checksRowLead false ++ rest).startsWith checksRowPrefix = true :=
        startsWith_iff.mpr (by rw [checksRowLead, if_neg Bool.false_ne_true, List.drop_left])
      rw [if_pos leads, checksRowLead, if_neg Bool.false_ne_true, List.drop_left]
  | true =>
      have leads : (checksRowLead true ++ rest).startsWith checksShadowRowPrefix = true :=
        startsWith_iff.mpr (by rw [checksRowLead, if_pos rfl, List.drop_left])
      have other : ¬(checksRowLead true ++ rest).startsWith checksRowPrefix = true := by
        intro bad
        rw [Text.startsWith, List.isPrefixOf_iff_prefix] at bad
        have same := List.prefix_iff_eq_take.mp bad
        rw [List.take_append_of_le_length (by decide)] at same
        exact absurd same (by decide)
      rw [if_neg other, if_pos leads, checksRowLead, if_pos rfl, List.drop_left]

theorem readChecksRowDetail_iff {detail : Text} {read : ChecksRowRead} :
    readChecksRowDetail detail = some read ↔
      ∃ arguments : ChecksArguments, arguments.write = .ok detail ∧ arguments.read = read := by
  simp only [ChecksArguments.write_ok]
  constructor
  · intro found
    have leads : ∃ shadow rest, detail = checksRowLead shadow ++ rest := by
      unfold readChecksRowDetail at found
      split at found
      next leads => exact ⟨false, _, startsWith_iff.mp leads⟩
      next =>
          split at found
          next leads => exact ⟨true, _, startsWith_iff.mp leads⟩
          next => cases found
    obtain ⟨shadow, rest, rfl⟩ := leads
    rw [readChecksRowDetail_lead, readChecksRest_iff] at found
    obtain ⟨arguments, valid, rfl, rfl, isRead⟩ := found
    exact ⟨arguments, ⟨valid, rfl⟩, isRead⟩
  · rintro ⟨arguments, ⟨valid, rfl⟩, isRead⟩
    rw [readChecksRowDetail_lead, readChecksRest_iff]
    exact ⟨arguments, valid, rfl, rfl, isRead⟩

/-- The arguments that a row was written with. -/
def ChecksRowRead.arguments (read : ChecksRowRead) : ChecksArguments :=
  match read.what with
  | .row what => .row read.e (read.gen.getD 0) what (read.fp.or read.reading) read.shadow
  | .ended word => .ended read.e word read.shadow

theorem ChecksArguments.arguments_read {arguments : ChecksArguments} (valid : arguments.Valid) :
    arguments.read.arguments = arguments := by
  cases arguments with
  | row e gen what suffix shadow =>
      obtain ⟨-, -, suffixed⟩ := valid
      cases suffix with
      | none => cases what <;> rfl
      | some suffix =>
          cases what with
          | «open» => cases suffixed
          | green => rfl
          | red => rfl
          | stuck => rfl
  | ended e word shadow => rfl

theorem ChecksArguments.write_injective {one two : ChecksArguments} {detail : Text}
    (first : one.write = .ok detail) (second : two.write = .ok detail) : one = two := by
  have oneRead := readChecksRowDetail_iff.mpr ⟨one, first, rfl⟩
  have twoRead := readChecksRowDetail_iff.mpr ⟨two, second, rfl⟩
  rw [oneRead] at twoRead
  rw [← arguments_read (write_ok.mp first).1, Option.some.inj twoRead,
    arguments_read (write_ok.mp second).1]

/-- The detail that an advance keeps is what the reader says of the text the writer gives. -/
theorem mergingAtDetail_kept (head : Text) (pr : Option Int) (mode : ChecksMode) :
    Coord.mergingAtDetail head pr mode =
      (mergingAtDetail head pr mode).toOption.bind readMergingAtDetail := by
  cases written : mergingAtDetail head pr mode with
  | ok detail =>
      obtain ⟨hex, valid, -⟩ := mergingAtDetail_ok.mp written
      have hex : head.isHexOf 40 = true := hex
      rw [Except.toOption, Option.bind_some, readMergingAtDetail_iff.mpr written]
      unfold Coord.mergingAtDetail
      rw [if_neg (not_not.mpr hex)]
      cases pr with
      | none =>
          have off : mode = .off := valid
          exact if_pos off
      | some pr =>
          have safe : isPositiveSafe pr = true := valid
          rw [isPositiveSafe, Bool.and_eq_true, decide_eq_true_eq, decide_eq_true_eq] at safe
          have read : safeIntOf pr 1 = some pr := if_pos ⟨by omega, safe.1⟩
          simp [read]
  | error message =>
      unfold mergingAtDetail at written
      unfold Coord.mergingAtDetail
      cases hex : head.isHexOf 40 with
      | false => simp [Except.toOption]
      | true =>
          cases pr with
          | none =>
              by_cases off : mode = .off
              · simp [isHead40, hex, off] at written
              · simp [Except.toOption, off]
          | some pr =>
              cases safe : isPositiveSafe pr with
              | true => simp [isHead40, hex, safe] at written
              | false =>
                  have read : safeIntOf pr 1 = none := by
                    rw [isPositiveSafe, Bool.and_eq_false_iff, decide_eq_false_iff_not,
                      decide_eq_false_iff_not] at safe
                    exact if_neg (by omega)
                  simp [Except.toOption, read]

/-- The readers accept exactly what their writers write, with the writers' arguments, and no
text is written with two lists of arguments. -/
theorem landingDetails_exact :
    (∀ detail head pr mode, readMergingAtDetail detail = some ⟨head, pr, mode⟩ ↔
        mergingAtDetail head pr mode = .ok detail) ∧
      (∀ detail read, readChecksRowDetail detail = some read ↔
        ∃ arguments : ChecksArguments, arguments.write = .ok detail ∧ arguments.read = read) ∧
      (∀ detail head pr mode head' pr' mode', mergingAtDetail head pr mode = .ok detail ∧
          mergingAtDetail head' pr' mode' = .ok detail → (head, pr, mode) = (head', pr', mode')) ∧
      ∀ (detail : Text) (one two : ChecksArguments),
        one.write = .ok detail ∧ two.write = .ok detail → one = two := by
  refine ⟨fun detail head pr mode => readMergingAtDetail_iff,
    fun detail read => readChecksRowDetail_iff, ?_,
    fun detail one two both => ChecksArguments.write_injective both.1 both.2⟩
  rintro detail head pr mode head' pr' mode' ⟨first, second⟩
  have oneRead := readMergingAtDetail_iff.mpr first
  rw [readMergingAtDetail_iff.mpr second] at oneRead
  cases oneRead
  rfl

end Ccrc.Coord.LandingDetail
