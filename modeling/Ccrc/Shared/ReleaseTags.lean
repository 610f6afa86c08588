import Ccrc.Library.Json
import Ccrc.Shared.Updates

/-! Release tags are compared as the numbers of their components, however long they
are: the comparison by length and then by digits is the numeric one. -/

set_option autoImplicit false

namespace Ccrc.Shared

open Library
open Library.Text (unit)

/-! ## Digits as numbers -/

theorem digit_bounds {c : UInt16} (digit : Text.isDigit c = true) :
    48 ≤ c.toNat ∧ c.toNat ≤ 57 := by
  simp only [Text.isDigit, Bool.and_eq_true, decide_eq_true_eq] at digit
  exact ⟨UInt16.le_iff_toNat_le.mp digit.1, UInt16.le_iff_toNat_le.mp digit.2⟩

theorem foldl_digits (start : Nat) (digits : Text) :
    digits.foldl (fun value digit => value * 10 + (digit.toNat - 48)) start =
      start * 10 ^ digits.length + Json.digitsValue digits := by
  unfold Json.digitsValue
  induction digits generalizing start with
  | nil => simp
  | cons c digits ih =>
      rw [List.foldl_cons, List.foldl_cons, ih, ih (0 * 10 + (c.toNat - 48)), List.length_cons,
        Nat.pow_succ]
      ring

theorem digitsValue_cons (c : UInt16) (digits : Text) :
    Json.digitsValue (c :: digits) = (c.toNat - 48) * 10 ^ digits.length + Json.digitsValue digits := by
  rw [Json.digitsValue, List.foldl_cons, foldl_digits]
  simp

theorem digitsValue_lt {digits : Text} (all : ∀ c ∈ digits, Text.isDigit c = true) :
    Json.digitsValue digits < 10 ^ digits.length := by
  induction digits with
  | nil => decide
  | cons c digits ih =>
      have less := ih fun d member => all d (List.mem_cons_of_mem c member)
      have bounds := digit_bounds (all c List.mem_cons_self)
      have lead : (c.toNat - 48) * 10 ^ digits.length ≤ 9 * 10 ^ digits.length :=
        Nat.mul_le_mul_right _ (by omega)
      rw [digitsValue_cons, List.length_cons, Nat.pow_succ]
      omega

/-- Of two numerals of one length the one whose digits come first is the smaller. -/
theorem binaryBefore_digits {first second : Text} (length : first.length = second.length)
    (firstAll : ∀ c ∈ first, Text.isDigit c = true)
    (secondAll : ∀ c ∈ second, Text.isDigit c = true) :
    (Text.binaryBefore first second = true ↔ Json.digitsValue first < Json.digitsValue second) ∧
      (Json.digitsValue first = Json.digitsValue second → first = second) := by
  induction first generalizing second with
  | nil =>
      cases second with
      | nil => simp [Text.binaryBefore]
      | cons _ _ => cases length
  | cons c first ih =>
      cases second with
      | nil => cases length
      | cons d second =>
          have length' : first.length = second.length := Nat.succ.inj length
          have firstAll' := fun e member => firstAll e (List.mem_cons_of_mem c member)
          have secondAll' := fun e member => secondAll e (List.mem_cons_of_mem d member)
          obtain ⟨before, same⟩ := ih length' firstAll' secondAll'
          have cBounds := digit_bounds (firstAll c List.mem_cons_self)
          have dBounds := digit_bounds (secondAll d List.mem_cons_self)
          have rank : ∀ e : UInt16, e.toNat ≤ 57 → Text.codePointRank e = e.toNat := by
            intro e small
            rw [Text.codePointRank, if_pos]
            exact UInt16.lt_iff_toNat_lt.mpr (Nat.lt_of_le_of_lt small (by decide))
          have less := digitsValue_lt firstAll'
          have less' := digitsValue_lt secondAll'
          rw [length'] at less
          rw [Text.binaryBefore, digitsValue_cons, digitsValue_cons, length', rank c cBounds.2,
            rank d dBounds.2, Bool.or_eq_true, decide_eq_true_eq, Bool.and_eq_true, beq_iff_eq,
            before]
          rcases Nat.lt_trichotomy c.toNat d.toNat with lower | equal | higher
          · have gap : (c.toNat - 48 + 1) * 10 ^ second.length ≤
                (d.toNat - 48) * 10 ^ second.length := Nat.mul_le_mul_right _ (by omega)
            rw [Nat.add_mul, Nat.one_mul] at gap
            exact ⟨⟨fun _ => by omega, fun _ => .inl lower⟩, fun equal => by omega⟩
          · have here : c = d := UInt16.toNat_inj.mp equal
            subst here
            refine ⟨by simp, fun equal' => ?_⟩
            rw [same (by omega)]
          · have gap : (d.toNat - 48 + 1) * 10 ^ second.length ≤
                (c.toNat - 48) * 10 ^ second.length := Nat.mul_le_mul_right _ (by omega)
            rw [Nat.add_mul, Nat.one_mul] at gap
            have apart : c ≠ d := fun here => by
              subst here
              omega
            exact ⟨⟨fun either => by rcases either with lower | both <;> [omega; exact absurd both.1 apart],
              fun less => by omega⟩, fun equal => by omega⟩

/-- Digits that start with another one than zero, unless there is only one. -/
structure Canonical (digits : Text) : Prop where
  all : ∀ c ∈ digits, Text.isDigit c = true
  lead : digits.length = 1 ∨ ∃ c rest, digits = c :: rest ∧ c ≠ unit '0'

theorem stripZeros_canonical {digits : Text} (valid : isDigits digits = true) :
    Canonical (stripZeros digits) ∧ Json.digitsValue (stripZeros digits) = Json.digitsValue digits := by
  rw [isDigits, Bool.and_eq_true, List.all_eq_true] at valid
  obtain ⟨some, all⟩ := valid
  fun_induction stripZeros digits with
  | case1 next rest ih =>
      obtain ⟨canonical, value⟩ := ih (by simp) fun c member => all c (List.mem_cons_of_mem _ member)
      refine ⟨canonical, ?_⟩
      rw [value, digitsValue_cons (unit '0')]
      simp [unit]
  | case2 zero next rest other => exact ⟨⟨all, .inr ⟨zero, next :: rest, rfl, other⟩⟩, rfl⟩
  | case3 text short =>
      refine ⟨⟨all, .inl ?_⟩, rfl⟩
      rcases text with _ | ⟨a, _ | ⟨b, rest⟩⟩
      · cases some
      · rfl
      · exact absurd rfl (short a b rest)

theorem Canonical.le_value {digits : Text} (canonical : Canonical digits) (long : 1 < digits.length) :
    10 ^ (digits.length - 1) ≤ Json.digitsValue digits := by
  obtain single | ⟨c, rest, rfl, notZero⟩ := canonical.lead
  · omega
  · have bounds := digit_bounds (canonical.all c List.mem_cons_self)
    have lead : c.toNat ≠ 48 := fun same => notZero (UInt16.toNat_inj.mp same)
    have once : 1 * 10 ^ rest.length ≤ (c.toNat - 48) * 10 ^ rest.length :=
      Nat.mul_le_mul_right _ (by omega)
    rw [digitsValue_cons, List.length_cons, Nat.add_sub_cancel]
    omega

theorem Canonical.lt_of_shorter {first second : Text} (firstCanonical : Canonical first)
    (secondCanonical : Canonical second) (shorter : first.length < second.length)
    (some : first ≠ []) : Json.digitsValue first < Json.digitsValue second := by
  have positive : 0 < first.length := List.length_pos_iff.mpr some
  have least := secondCanonical.le_value (by omega)
  have most := digitsValue_lt firstCanonical.all
  have power : 10 ^ first.length ≤ 10 ^ (second.length - 1) :=
    Nat.pow_le_pow_right (by decide) (by omega)
  omega

theorem Canonical.ne_nil {digits : Text} (canonical : Canonical digits) : digits ≠ [] := by
  obtain single | ⟨c, rest, rfl, -⟩ := canonical.lead
  · intro none
    rw [none] at single
    cases single
  · exact List.cons_ne_nil c rest

/-- A canonical numeral is the spelling of its value. -/
theorem Canonical.eq_of_value {first second : Text} (firstCanonical : Canonical first)
    (secondCanonical : Canonical second) (value : Json.digitsValue first = Json.digitsValue second) :
    first = second := by
  rcases Nat.lt_trichotomy first.length second.length with shorter | same | longer
  · have less := firstCanonical.lt_of_shorter secondCanonical shorter firstCanonical.ne_nil
    omega
  · exact (binaryBefore_digits same firstCanonical.all secondCanonical.all).2 value
  · have less := secondCanonical.lt_of_shorter firstCanonical longer secondCanonical.ne_nil
    omega

theorem compareDigits_value {first second : Text} (firstCanonical : Canonical first)
    (secondCanonical : Canonical second) :
    compareDigits first second = compare (Json.digitsValue first) (Json.digitsValue second) := by
  unfold compareDigits
  by_cases length : first.length = second.length
  · rw [if_neg (not_not.mpr length)]
    obtain ⟨before, same⟩ :=
      binaryBefore_digits length firstCanonical.all secondCanonical.all
    obtain ⟨after, -⟩ :=
      binaryBefore_digits length.symm secondCanonical.all firstCanonical.all
    by_cases equal : first = second
    · rw [if_pos equal, equal]
      exact (Nat.compare_eq_eq.mpr rfl).symm
    · rw [if_neg equal]
      have apart : Json.digitsValue first ≠ Json.digitsValue second := fun value => equal (same value)
      split
      next greater => exact (Nat.compare_eq_gt.mpr (after.mp greater)).symm
      next notGreater =>
          have less : Json.digitsValue first < Json.digitsValue second := by
            rw [after] at notGreater
            omega
          exact (Nat.compare_eq_lt.mpr less).symm
  · rw [if_pos length]
    rcases Nat.lt_or_gt_of_ne length with shorter | longer
    · rw [Nat.compare_eq_lt.mpr shorter, Nat.compare_eq_lt.mpr
        (firstCanonical.lt_of_shorter secondCanonical shorter firstCanonical.ne_nil)]
    · rw [Nat.compare_eq_gt.mpr longer, Nat.compare_eq_gt.mpr
        (secondCanonical.lt_of_shorter firstCanonical longer secondCanonical.ne_nil)]

/-! ## Tags -/

/-- The three numbers of a tag, the first of them the most significant. -/
def releaseVersion (tag : Text) : Option (Nat ×ₗ Nat ×ₗ Nat) :=
  (releaseComponents tag).map fun (major, minor, patch) =>
    toLex (Json.digitsValue major, toLex (Json.digitsValue minor, Json.digitsValue patch))

theorem releaseVersion_isSome (tag : Text) : (releaseVersion tag).isSome = isReleaseTag tag := by
  simp [releaseVersion, isReleaseTag]

theorem releaseComponents_digits {tag : Text} {major minor patch : Text}
    (read : releaseComponents tag = some (major, minor, patch)) :
    isDigits major = true ∧ isDigits minor = true ∧ isDigits patch = true := by
  unfold releaseComponents at read
  split at read
  next => cases read
  next =>
      split at read
      next =>
          split at read
          next =>
              split at read
              next digits =>
                  cases read
                  simpa [and_assoc] using digits
              next => cases read
          next => cases read
      next => cases read

theorem isNewerTag_eq {first second : Text} {newer older : Nat ×ₗ Nat ×ₗ Nat}
    (isFirst : releaseVersion first = some newer) (isSecond : releaseVersion second = some older) :
    isNewerTag first second = some (decide (older < newer)) := by
  obtain ⟨⟨major, minor, patch⟩, read, rfl⟩ := Option.map_eq_some_iff.mp isFirst
  obtain ⟨⟨major', minor', patch'⟩, read', rfl⟩ := Option.map_eq_some_iff.mp isSecond
  obtain ⟨majorDigits, minorDigits, patchDigits⟩ := releaseComponents_digits read
  obtain ⟨majorDigits', minorDigits', patchDigits'⟩ := releaseComponents_digits read'
  have component : ∀ {a b : Text}, isDigits a = true → isDigits b = true →
      compareDigits (stripZeros a) (stripZeros b) = compare (Json.digitsValue a) (Json.digitsValue b) := by
    intro a b aDigits bDigits
    obtain ⟨aCanonical, aValue⟩ := stripZeros_canonical aDigits
    obtain ⟨bCanonical, bValue⟩ := stripZeros_canonical bDigits
    rw [compareDigits_value aCanonical bCanonical, aValue, bValue]
  have compared : compareReleaseTags first second = some
      ((compare (Json.digitsValue major) (Json.digitsValue major')).then
        ((compare (Json.digitsValue minor) (Json.digitsValue minor')).then
          (compare (Json.digitsValue patch) (Json.digitsValue patch')))) := by
    simp only [compareReleaseTags, read, read', Option.bind_eq_bind, Option.bind_some,
      component majorDigits majorDigits', component minorDigits minorDigits',
      component patchDigits patchDigits']
    rfl
  rw [isNewerTag, compared, Option.map_some, Option.some.injEq, Bool.eq_iff_iff, beq_iff_eq,
    decide_eq_true_eq, Ordering.then_eq_gt, Ordering.then_eq_gt, Prod.Lex.toLex_lt_toLex,
    Prod.Lex.toLex_lt_toLex]
  simp only [Nat.compare_eq_gt, Nat.compare_eq_eq]
  constructor
  · rintro (less | ⟨same, less | ⟨same', less⟩⟩)
    · exact .inl less
    · exact .inr ⟨same.symm, .inl less⟩
    · exact .inr ⟨same.symm, .inr ⟨same'.symm, less⟩⟩
  · rintro (less | ⟨same, less | ⟨same', less⟩⟩)
    · exact .inl less
    · exact .inr ⟨same.symm, .inl less⟩
    · exact .inr ⟨same.symm, .inr ⟨same'.symm, less⟩⟩

/-- A comparison is answered, for two tags and for nothing else. -/
theorem isNewerTag_isSome (first second : Text) :
    (isNewerTag first second).isSome = (isReleaseTag first && isReleaseTag second) := by
  unfold isNewerTag compareReleaseTags isReleaseTag
  cases releaseComponents first <;> cases releaseComponents second <;> rfl

end Ccrc.Shared
