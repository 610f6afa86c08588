import Ccrc.Coord.RequiredChecks

/-! The verdict is the strongest word that a required name shows, green only where
every name is proven, and the order of its sources does not matter. -/

set_option autoImplicit false

namespace Ccrc.Coord

open Library Shared

/-! ## The strongest word -/

/-- The word is one of those given, and none of them is stronger. -/
def Strongest (among : RequiredChecksWord → Prop) (word : RequiredChecksWord) : Prop :=
  among word ∧ ∀ other, among other → wordRank word ≤ wordRank other

theorem wordRank_injective {a b : RequiredChecksWord} (same : wordRank a = wordRank b) : a = b := by
  revert same
  cases a <;> cases b <;> decide

theorem wordRank_green (word : RequiredChecksWord) : wordRank word ≤ wordRank .green := by
  cases word <;> decide

theorem Strongest.unique {among : RequiredChecksWord → Prop} {a b : RequiredChecksWord}
    (left : Strongest among a) (right : Strongest among b) : a = b :=
  wordRank_injective (Nat.le_antisymm (left.2 b right.1) (right.2 a left.1))

theorem strongest_green : Strongest (fun word => word = .green) .green :=
  ⟨rfl, fun other same => by rw [same]⟩

theorem strongest_stronger {among : RequiredChecksWord → Prop} {a : RequiredChecksWord}
    (strongest : Strongest among a) (b : RequiredChecksWord) :
    Strongest (fun word => among word ∨ word = b) (stronger a b) := by
  unfold stronger
  split
  next le =>
      refine ⟨.inl strongest.1, fun other member => ?_⟩
      rcases member with member | rfl
      · exact strongest.2 other member
      · exact le
  next lt =>
      refine ⟨.inr rfl, fun other member => ?_⟩
      rcases member with member | rfl
      · exact (Nat.le_of_not_le lt).trans (strongest.2 other member)
      · exact le_rfl

theorem strongest_foldl {α : Type} (wordOf : α → RequiredChecksWord) (items : List α)
    {among : RequiredChecksWord → Prop} {start : RequiredChecksWord}
    (strongest : Strongest among start) :
    Strongest (fun word => among word ∨ ∃ item ∈ items, wordOf item = word)
      (items.foldl (fun word item => stronger word (wordOf item)) start) := by
  induction items generalizing among start with
  | nil => simpa using strongest
  | cons item items ih =>
      have rest := ih (strongest_stronger strongest (wordOf item))
      have same : (fun word => (among word ∨ word = wordOf item) ∨
          ∃ other ∈ items, wordOf other = word) =
          fun word => among word ∨ ∃ other ∈ item :: items, wordOf other = word := by
        funext word
        simp [or_assoc, eq_comm]
      rwa [same] at rest

/-! ## One name -/

/-- The context is passing: a check run by its conclusion, a commit status by its state. -/
def Passing (r : PrLandingRequired) : Prop :=
  if r.checkId.isSome then toLowerCase r.state ∈ runPassing
  else toLowerCase r.state = Text.lit "success"

/-- The name has contexts, all of them commit statuses, though it is pinned to an App. -/
def Unverifiable (line : PrLandingLine) (name : Text) : Prop :=
  name ∈ line.pinnedNames ∧ (∃ r ∈ line.required, r.name = name) ∧
    ∀ r ∈ line.required, r.name = name → r.checkId = none

/-- A word that a required name shows. -/
def Shows (line : PrLandingLine) (name : Text) (word : RequiredChecksWord) : Prop :=
  (word = .notReported ∧ ∀ r ∈ line.required, r.name ≠ name) ∨
    (word = .unverifiable ∧ Unverifiable line name) ∨
    ∃ r ∈ line.required, r.name = name ∧ contextWord r = word

theorem contextWord_green (r : PrLandingRequired) : contextWord r = .green ↔ Passing r := by
  unfold contextWord Passing
  dsimp only
  split
  next =>
      split
      next running =>
          refine iff_of_false (fun green => by cases green) (fun passing => ?_)
          have apart : ∀ text ∈ runRunning, text ∉ runPassing := by decide
          exact apart _ running passing
      next =>
          split
          next passing => exact iff_of_true rfl passing
          next failing => exact iff_of_false (fun green => by cases green) failing
  next =>
      split
      next success => exact iff_of_true rfl success
      next other =>
          refine iff_of_false (fun green => ?_) other
          split at green
          next => cases green
          next => split at green <;> cases green

/-- Green wins over nothing, so a set of words and green with it have one strongest word. -/
theorem Strongest.drop_green {among target : RequiredChecksWord → Prop}
    {word : RequiredChecksWord} (strongest : Strongest among word)
    (covered : ∀ other, among other ↔ target other ∨ other = .green) {any : RequiredChecksWord}
    (some : target any) : Strongest target word := by
  refine ⟨?_, fun other member => strongest.2 other ((covered other).mpr (.inl member))⟩
  rcases (covered word).mp strongest.1 with member | rfl
  · exact member
  · have weakest := strongest.2 any ((covered any).mpr (.inl some))
    rwa [wordRank_injective (Nat.le_antisymm weakest (wordRank_green any))]

theorem nameWord_strongest (line : PrLandingLine) (name : Text) :
    Strongest (Shows line name) (nameWord line name) := by
  unfold nameWord
  dsimp only
  have mem_own : ∀ r, r ∈ line.required.filter (fun r => decide (r.name = name)) ↔
      r ∈ line.required ∧ r.name = name := fun r => by simp
  generalize line.required.filter (fun r => decide (r.name = name)) = own at mem_own
  by_cases none : own = []
  · have absent : ∀ r ∈ line.required, r.name ≠ name := by
      intro r member same
      have there := (mem_own r).mpr ⟨member, same⟩
      rw [none] at there
      cases there
    simp only [none, ne_eq, not_true_eq_false, false_and, if_false, if_true, List.foldl_nil]
    refine ⟨.inl ⟨rfl, absent⟩, fun other shows => ?_⟩
    rcases shows with ⟨rfl, -⟩ | ⟨-, -, ⟨r, member, same⟩, -⟩ | ⟨r, member, same, -⟩
    · exact le_rfl
    · exact absurd same (absent r member)
    · exact absurd same (absent r member)
  · obtain ⟨first, there⟩ := List.exists_mem_of_ne_nil own none
    have given := (mem_own first).mp there
    have shown := strongest_foldl contextWord own strongest_green
    rw [if_neg none]
    have contexts : ∀ word, (∃ r ∈ own, contextWord r = word) ↔
        ∃ r ∈ line.required, r.name = name ∧ contextWord r = word := by
      intro word
      simp only [mem_own, and_assoc]
    have present : ¬∀ r ∈ line.required, r.name ≠ name := fun absent =>
      absent first given.1 given.2
    split
    next pinned =>
        obtain ⟨-, isPinned, statuses⟩ := pinned
        have unverifiable : Unverifiable line name := by
          refine ⟨isPinned, ⟨first, given⟩, fun r member same => ?_⟩
          simpa using List.all_eq_true.mp statuses r ((mem_own r).mpr ⟨member, same⟩)
        refine (strongest_stronger shown .unverifiable).drop_green (fun other => ?_)
          (.inr (.inr ⟨first, given.1, given.2, rfl⟩))
        rw [contexts]
        unfold Shows
        constructor
        · rintro ((green | context) | same)
          · exact .inr green
          · exact .inl (.inr (.inr context))
          · exact .inl (.inr (.inl ⟨same, unverifiable⟩))
        · rintro ((⟨-, absent⟩ | ⟨same, -⟩ | context) | green)
          · exact absurd absent present
          · exact .inr same
          · exact .inl (.inr context)
          · exact .inl (.inl green)
    next loose =>
        refine shown.drop_green (fun other => ?_) (.inr (.inr ⟨first, given.1, given.2, rfl⟩))
        rw [contexts]
        unfold Shows
        constructor
        · rintro (green | context)
          · exact .inr green
          · exact .inl (.inr (.inr context))
        · rintro ((⟨-, absent⟩ | ⟨-, pinned, -, statuses⟩ | context) | green)
          · exact absurd absent present
          · refine absurd ⟨none, pinned, List.all_eq_true.mpr fun r member => ?_⟩ loose
            simp [statuses r ((mem_own r).mp member).1 ((mem_own r).mp member).2]
          · exact .inr context
          · exact .inl green

/-- Every context of the name is passing, it has one, and it is not unverifiable. -/
def Proven (line : PrLandingLine) (name : Text) : Prop :=
  (∃ r ∈ line.required, r.name = name) ∧
    (∀ r ∈ line.required, r.name = name → Passing r) ∧
    ¬(name ∈ line.pinnedNames ∧ ∀ r ∈ line.required, r.name = name → r.checkId = none)

theorem nameWord_green (line : PrLandingLine) (name : Text) :
    nameWord line name = .green ↔ Proven line name := by
  have strongest := nameWord_strongest line name
  have only : ∀ word, Shows line name word → nameWord line name = .green → word = .green := by
    intro word shows green
    have weakest := strongest.2 word shows
    rw [green] at weakest
    exact wordRank_injective (Nat.le_antisymm (wordRank_green word) weakest)
  constructor
  · intro green
    rcases green ▸ strongest.1 with ⟨bad, -⟩ | ⟨bad, -⟩ | ⟨r, member, same, -⟩
    · cases bad
    · cases bad
    · refine ⟨⟨r, member, same⟩, fun other there own => ?_, fun ⟨pinned, statuses⟩ => ?_⟩
      · exact (contextWord_green other).mp (only _ (.inr (.inr ⟨other, there, own, rfl⟩)) green)
      · have bad := only .unverifiable (.inr (.inl ⟨rfl, pinned, ⟨r, member, same⟩, statuses⟩)) green
        cases bad
  · rintro ⟨⟨r, member, same⟩, passing, verifiable⟩
    rcases strongest.1 with ⟨-, absent⟩ | ⟨-, pinned, -, statuses⟩ | ⟨other, there, own, word⟩
    · exact absurd same (absent r member)
    · exact absurd ⟨pinned, statuses⟩ verifiable
    · rw [← word]
      exact (contextWord_green other).mpr (passing other there own)

/-! ## The verdict -/

/-- The line is bound, every source answered and nothing was cut. -/
def Measured (line : PrLandingLine) : Prop :=
  line.bound = true ∧ line.unmeasured = [] ∧ line.requiredCut = false

/-- A name in the union of the three sources. -/
def Required (line : PrLandingLine) (name : Text) : Prop :=
  (∃ r ∈ line.required, r.name = name) ∨ name ∈ line.rulesNamed ∨ name ∈ line.protectionNamed

/-- A word that the line as a whole may be given. -/
def Applicable (line : PrLandingLine) (word : RequiredChecksWord) : Prop :=
  (¬Measured line ∧ word = .unmeasured) ∨
    (Measured line ∧ ∃ name, Required line name ∧ Shows line name word)

theorem mem_requiredNames (line : PrLandingLine) (name : Text) :
    name ∈ requiredNames line ↔ Required line name := by
  unfold requiredNames Required
  constructor
  · intro member
    have there := (firstBy_sublist [] _).subset member
    simpa [or_assoc] using there
  · intro named
    have there : name ∈ line.required.map (·.name) ++ line.rulesNamed ++ line.protectionNamed := by
      simpa [or_assoc] using named
    obtain ⟨first, member, same⟩ := firstBy_covers id there List.not_mem_nil
    have same : first = name := same
    rwa [← same]

theorem verdict_unmeasured {line : PrLandingLine} (unread : ¬Measured line)
    (digest : Text → Text) : (requiredChecksVerdict line digest).word = .unmeasured := by
  unfold requiredChecksVerdict
  dsimp only
  rw [if_pos]
  unfold Measured at unread
  cases bound : line.bound <;> cases cut : line.requiredCut <;> simp [bound, cut] at unread ⊢
  exact unread

theorem verdict_measured {line : PrLandingLine} (measured : Measured line)
    (digest : Text → Text) :
    Strongest (fun word => word = .green ∨ ∃ name, Required line name ∧ nameWord line name = word)
      (requiredChecksVerdict line digest).word := by
  obtain ⟨bound, answered, whole⟩ := measured
  have word : (requiredChecksVerdict line digest).word = (requiredNames line).foldl
      (fun word name => stronger word (nameWord line name)) .green := by
    simp [requiredChecksVerdict, bound, answered, whole]
  rw [word]
  have folded := strongest_foldl (nameWord line) (requiredNames line) strongest_green
  simpa only [mem_requiredNames] using folded

/-! ## The order of the sources -/

/-- The two lines list the same contexts and names, in any order. -/
structure SameSources (one two : PrLandingLine) : Prop where
  bound : two.bound = one.bound
  unmeasured : two.unmeasured = one.unmeasured
  cut : two.requiredCut = one.requiredCut
  required : two.required.Perm one.required
  rules : two.rulesNamed.Perm one.rulesNamed
  protection : two.protectionNamed.Perm one.protectionNamed
  pinned : two.pinnedNames.Perm one.pinnedNames

theorem unit_trichotomy (x y : UInt16) : x < y ∨ x = y ∨ y < x := by
  simp only [UInt16.lt_iff_toNat_lt, ← UInt16.toNat_inj]
  omega

theorem unitsBefore_total (a b : Text) : unitsBefore a b = true ∨ unitsBefore b a = true := by
  induction a generalizing b with
  | nil => exact .inl rfl
  | cons x a ih =>
      cases b with
      | nil => exact .inr rfl
      | cons y b =>
          simp only [unitsBefore, Bool.or_eq_true, decide_eq_true_eq, Bool.and_eq_true, beq_iff_eq]
          rcases unit_trichotomy x y with lt | same | gt
          · exact .inl (.inl lt)
          · exact (ih b).imp (fun le => .inr ⟨same, le⟩) (fun le => .inr ⟨same.symm, le⟩)
          · exact .inr (.inl gt)

theorem unitsBefore_trans {a b c : Text} (left : unitsBefore a b = true)
    (right : unitsBefore b c = true) : unitsBefore a c = true := by
  induction a generalizing b c with
  | nil => rfl
  | cons x a ih =>
      cases b with
      | nil => cases left
      | cons y b =>
          cases c with
          | nil => cases right
          | cons z c =>
              simp only [unitsBefore, Bool.or_eq_true, decide_eq_true_eq, Bool.and_eq_true,
                beq_iff_eq] at left right ⊢
              rcases left with lt | ⟨rfl, le⟩
              · rcases right with lt' | ⟨rfl, -⟩
                · exact .inl (UInt16.lt_trans lt lt')
                · exact .inl lt
              · rcases right with lt' | ⟨rfl, le'⟩
                · exact .inl lt'
                · exact .inr ⟨rfl, ih le le'⟩

theorem unitsBefore_antisymm {a b : Text} (left : unitsBefore a b = true)
    (right : unitsBefore b a = true) : a = b := by
  induction a generalizing b with
  | nil =>
      cases b with
      | nil => rfl
      | cons y b => cases right
  | cons x a ih =>
      cases b with
      | nil => cases left
      | cons y b =>
          simp only [unitsBefore, Bool.or_eq_true, decide_eq_true_eq, Bool.and_eq_true,
            beq_iff_eq] at left right
          rcases left with lt | ⟨rfl, le⟩
          · rcases right with gt | ⟨rfl, -⟩
            · exact absurd gt (UInt16.lt_asymm lt)
            · exact absurd lt (UInt16.lt_irrefl _)
          · rcases right with gt | ⟨-, le'⟩
            · exact absurd gt (UInt16.lt_irrefl _)
            · rw [ih le le']

theorem sorted_units (texts : List Text) :
    (texts.mergeSort unitsBefore).Pairwise fun a b => unitsBefore a b = true := by
  have total : ∀ a b, (unitsBefore a b || unitsBefore b a) = true := by
    intro a b
    rw [Bool.or_eq_true]
    exact unitsBefore_total a b
  exact @List.pairwise_mergeSort _ unitsBefore (fun _ _ _ => unitsBefore_trans) total texts

/-- Texts that are the same but for their order are sorted alike. -/
theorem sorted_perm {one two : List Text} (same : one.Perm two) :
    one.mergeSort unitsBefore = two.mergeSort unitsBefore :=
  List.Perm.eq_of_pairwise (fun _ _ _ _ => unitsBefore_antisymm) (sorted_units one)
    (sorted_units two)
    ((List.mergeSort_perm one _).trans (same.trans (List.mergeSort_perm two _).symm))

variable {one two : PrLandingLine}

theorem SameSources.symm (same : SameSources one two) : SameSources two one :=
  ⟨same.bound.symm, same.unmeasured.symm, same.cut.symm, same.required.symm, same.rules.symm,
    same.protection.symm, same.pinned.symm⟩

theorem SameSources.shows (same : SameSources one two) {name : Text} {word : RequiredChecksWord} :
    Shows two name word ↔ Shows one name word := by
  simp only [Shows, Unverifiable, same.required.mem_iff, same.pinned.mem_iff]

theorem SameSources.nameWord (same : SameSources one two) (name : Text) :
    nameWord two name = Coord.nameWord one name := by
  have strongest := nameWord_strongest two name
  have alike : Shows two name = Shows one name := funext fun word => propext same.shows
  exact (alike ▸ strongest).unique (nameWord_strongest one name)

theorem SameSources.measured (same : SameSources one two) : Measured two ↔ Measured one := by
  rw [Measured, same.bound, same.unmeasured, same.cut, Measured]

theorem SameSources.named (same : SameSources one two) (name : Text) :
    Required two name ↔ Required one name := by
  simp only [Required, same.required.mem_iff, same.rules.mem_iff, same.protection.mem_iff]

theorem SameSources.word (same : SameSources one two) (digest : Text → Text) :
    (requiredChecksVerdict two digest).word = (requiredChecksVerdict one digest).word := by
  by_cases measured : Measured one
  · have strongest := verdict_measured (same.measured.mpr measured) digest
    simp only [same.named, same.nameWord] at strongest
    exact strongest.unique (verdict_measured measured digest)
  · rw [verdict_unmeasured measured,
      verdict_unmeasured (fun measured' => measured (same.measured.mp measured'))]

theorem SameSources.fp (same : SameSources one two) (digest : Text → Text) :
    (requiredChecksVerdict two digest).fp = (requiredChecksVerdict one digest).fp := by
  have fp : ∀ line, (requiredChecksVerdict line digest).fp = fingerprintOf line digest := by
    intro line
    unfold requiredChecksVerdict
    dsimp only
    split <;> rfl
  rw [fp, fp, fingerprintOf, fingerprintOf, checkPairs, checkPairs,
    sorted_perm (same.required.filterMap _)]

/-- The word is green exactly for a proven set, otherwise the strongest applicable one, and
neither it nor the fingerprint depends on the order of the sources. -/
theorem requiredChecksVerdict_exact (line : PrLandingLine) (digest : Text → Text) :
    ((requiredChecksVerdict line digest).word = .green ↔
        Measured line ∧ ∀ name, Required line name → Proven line name) ∧
      ((requiredChecksVerdict line digest).word ≠ .green →
        Strongest (Applicable line) (requiredChecksVerdict line digest).word) ∧
      ∀ other, SameSources line other →
        (requiredChecksVerdict other digest).word = (requiredChecksVerdict line digest).word ∧
          (requiredChecksVerdict other digest).fp = (requiredChecksVerdict line digest).fp := by
  refine ⟨?_, fun unproven => ?_, fun other same => ⟨same.word digest, same.fp digest⟩⟩
  · by_cases measured : Measured line
    · have strongest := verdict_measured measured digest
      constructor
      · intro green
        refine ⟨measured, fun name named => (nameWord_green line name).mp ?_⟩
        have weakest := strongest.2 _ (.inr ⟨name, named, rfl⟩)
        rw [green] at weakest
        exact wordRank_injective (Nat.le_antisymm (wordRank_green _) weakest)
      · rintro ⟨-, proven⟩
        rcases strongest.1 with green | ⟨name, named, word⟩
        · exact green
        · rw [← word]
          exact (nameWord_green line name).mpr (proven name named)
    · rw [verdict_unmeasured measured]
      exact iff_of_false (fun bad => by cases bad) (fun bad => measured bad.1)
  · by_cases measured : Measured line
    · have strongest := verdict_measured measured digest
      obtain ⟨name, named, word⟩ := strongest.1.resolve_left unproven
      refine ⟨.inr ⟨measured, name, named, word ▸ (nameWord_strongest line name).1⟩,
        fun other applies => ?_⟩
      rcases applies with ⟨unread, -⟩ | ⟨-, name', named', shows⟩
      · exact absurd measured unread
      · exact (strongest.2 _ (.inr ⟨name', named', rfl⟩)).trans
          ((nameWord_strongest line name').2 other shows)
    · rw [verdict_unmeasured measured]
      refine ⟨.inl ⟨measured, rfl⟩, fun other applies => ?_⟩
      rcases applies with ⟨-, rfl⟩ | ⟨read, -⟩
      · exact le_rfl
      · exact absurd read measured

end Ccrc.Coord
