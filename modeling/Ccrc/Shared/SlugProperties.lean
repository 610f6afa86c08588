import Ccrc.Library.TextProperties
import Ccrc.Shared.Slug

/-! A slug is the words of its name between single dashes. Cut to fit, it is legal and
derives itself; it is refused wrongly exactly where its first word is one character and
the second does not fit. -/

set_option autoImplicit false

namespace Ccrc.Shared.Slug

open Library
open Library.Text (unit isDigit)

/-! ## Slugs and words -/

/-- `[a-z0-9]+` -/
def IsWord (word : Text) : Prop := word ≠ [] ∧ ∀ c ∈ word, isSlugUnit c = true

/-- `[a-z0-9]+(-[a-z0-9]+)*` -/
def IsSlug (text : Text) : Prop :=
  ∃ parts : List Text, parts ≠ [] ∧ (∀ word ∈ parts, IsWord word) ∧ text = Text.join [dash] parts

theorem isSlugUnit_dash : isSlugUnit dash = false := by decide

/-- The words of a text: runs of letters and digits, in lower case. -/
def nameWords (text : Text) : List Text := words isSlugUnit (toLowerCase text)

theorem slugifyWords_eq (text : Text) :
    slugifyWords text = Text.join [dash] (nameWords text) := by
  rw [slugifyWords, strip_collapse isSlugUnit_dash, Text.join_eq_intercalate, nameWords]

theorem join_cons_cons (first second : Text) (rest : List Text) :
    Text.join [dash] (first :: second :: rest) =
      first ++ dash :: Text.join [dash] (second :: rest) := by
  simp [Text.join]

theorem join_eq_nil {parts : List Text}
    (each : ∀ word ∈ parts, IsWord word) :
    Text.join [dash] parts = [] ↔ parts = [] := by
  match parts with
  | [] => simp [Text.join]
  | [word] => simpa [Text.join] using (each word List.mem_cons_self).1
  | first :: second :: rest => simp [Text.join]

theorem isWord_of_mem {text word : Text} (member : word ∈ nameWords text) : IsWord word :=
  mem_words member

theorem slugifyWords_eq_nil {text : Text} : slugifyWords text = [] ↔ nameWords text = [] := by
  rw [slugifyWords_eq, join_eq_nil fun _ => isWord_of_mem]

theorem isSlug_slugifyWords {text : Text} (some : slugifyWords text ≠ []) :
    IsSlug (slugifyWords text) :=
  ⟨nameWords text, fun none => some (slugifyWords_eq_nil.mpr none), fun _ => isWord_of_mem,
    slugifyWords_eq text⟩

theorem words_join {parts : List Text}
    (each : ∀ word ∈ parts, IsWord word) :
    words isSlugUnit (Text.join [dash] parts) = parts := by
  rw [Text.join_eq_intercalate, words_intercalate isSlugUnit_dash each]

theorem isSlugUnit_bounds {c : UInt16} (isUnit : isSlugUnit c = true) :
    (48 ≤ c.toNat ∧ c.toNat ≤ 57) ∨ (97 ≤ c.toNat ∧ c.toNat ≤ 122) := by
  simp only [isSlugUnit, isDigit, Bool.or_eq_true, Bool.and_eq_true, decide_eq_true_eq,
    UInt16.le_iff_toNat_le] at isUnit
  exact isUnit

theorem lowerUnit_slug {c : UInt16} (isUnit : isSlugUnit c = true ∨ c = dash) :
    lowerUnit c = [c] := by
  have bounds : c.toNat = 45 ∨ (48 ≤ c.toNat ∧ c.toNat ≤ 57) ∨ (97 ≤ c.toNat ∧ c.toNat ≤ 122) := by
    rcases isUnit with isUnit | rfl
    · exact .inr (isSlugUnit_bounds isUnit)
    · exact .inl rfl
  have notUpper : ¬(0x41 ≤ c ∧ c ≤ 0x5A) := by
    simp only [UInt16.le_iff_toNat_le]
    intro upper
    have low : 65 ≤ c.toNat := upper.1
    have high : c.toNat ≤ 90 := upper.2
    omega
  have other : ∀ d : UInt16, 122 < d.toNat → c ≠ d := by
    rintro d above rfl
    omega
  rw [lowerUnit, if_neg notUpper, if_neg (other _ (by decide)), if_neg (other _ (by decide))]

theorem toLowerCase_of_slug {text : Text} (all : ∀ c ∈ text, isSlugUnit c = true ∨ c = dash) :
    toLowerCase text = text := by
  induction text with
  | nil => rfl
  | cons c text ih =>
      rw [toLowerCase, List.flatMap_cons, lowerUnit_slug (all c List.mem_cons_self)]
      exact congrArg (c :: ·) (ih fun d member => all d (List.mem_cons_of_mem c member))

theorem mem_join {parts : List Text} {c : UInt16}
    (each : ∀ word ∈ parts, IsWord word)
    (member : c ∈ Text.join [dash] parts) : isSlugUnit c = true ∨ c = dash := by
  induction parts with
  | nil => cases member
  | cons word parts ih =>
      cases parts with
      | nil => exact .inl ((each word List.mem_cons_self).2 c member)
      | cons next parts =>
          rw [join_cons_cons, List.mem_append, List.mem_cons] at member
          rcases member with inWord | isDash | later
          · exact .inl ((each word List.mem_cons_self).2 c inWord)
          · exact .inr isDash
          · exact ih (fun word among => each word (List.mem_cons_of_mem _ among)) later

namespace IsSlug

variable {text : Text}

theorem units (legal : IsSlug text) {c : UInt16} (member : c ∈ text) :
    isSlugUnit c = true ∨ c = dash := by
  obtain ⟨parts, -, each, rfl⟩ := legal
  exact mem_join each member

theorem ne_nil (legal : IsSlug text) : text ≠ [] := by
  obtain ⟨parts, some, each, rfl⟩ := legal
  exact fun empty => some ((join_eq_nil each).mp empty)

/-- Slugifying a slug changes nothing. -/
theorem slugifyWords_eq (legal : IsSlug text) : slugifyWords text = text := by
  have lower := toLowerCase_of_slug fun _ => legal.units
  obtain ⟨parts, -, each, rfl⟩ := legal
  rw [Slug.slugifyWords_eq, nameWords, lower, words_join each]

/-- What stands before a dash of a slug is one too. -/
theorem before {front back : Text} (legal : IsSlug (front ++ dash :: back)) : IsSlug front := by
  obtain ⟨parts, some, each, whole⟩ := legal
  induction parts generalizing front with
  | nil => exact absurd rfl some
  | cons word parts ih =>
      obtain ⟨nonempty, all⟩ := each word List.mem_cons_self
      cases parts with
      | nil =>
          have inside : dash ∈ word := by
            rw [Text.join] at whole
            exact whole ▸ by simp
          exact absurd (all dash inside) (by decide)
      | cons next parts =>
          rw [join_cons_cons, List.append_eq_append_iff] at whole
          rcases whole with ⟨middle, ends, starts⟩ | ⟨middle, ends, starts⟩
          · cases middle with
            | nil =>
                rw [List.append_nil] at ends
                exact ⟨[word], List.cons_ne_nil _ _, by simpa using ⟨nonempty, all⟩, ends.symm⟩
            | cons first middle =>
                rw [List.cons_append, List.cons.injEq] at starts
                have inside : dash ∈ word := ends ▸ by simp [starts.1]
                exact absurd (all dash inside) (by decide)
          · cases middle with
            | nil =>
                rw [List.append_nil] at ends
                exact ⟨[word], List.cons_ne_nil _ _, by simpa using ⟨nonempty, all⟩, ends⟩
            | cons first middle =>
                rw [List.cons_append, List.cons.injEq] at starts
                obtain ⟨isDash, rest⟩ := starts
                obtain ⟨parts', some', each', whole'⟩ := ih (List.cons_ne_nil _ _)
                  (fun word among => each word (List.mem_cons_of_mem _ among)) rest.symm
                refine ⟨word :: parts', List.cons_ne_nil _ _, ?_, ?_⟩
                · intro other among
                  rcases List.mem_cons.mp among with rfl | later
                  · exact ⟨nonempty, all⟩
                  · exact each' other later
                · cases parts' with
                  | nil => exact absurd rfl some'
                  | cons second others => rw [join_cons_cons, ends, ← isDash, whole']

theorem of_units (some : text ≠ []) (all : ∀ c ∈ text, isSlugUnit c = true) : IsSlug text :=
  ⟨[text], List.cons_ne_nil _ _, by simpa using ⟨some, all⟩, rfl⟩

/-- No slug ends with a dash. -/
theorem last_ne (legal : IsSlug text) {last : UInt16} (isLast : text.getLast? = some last) :
    last ≠ dash := by
  obtain ⟨parts, some, each, rfl⟩ := legal
  induction parts with
  | nil => exact absurd rfl some
  | cons word parts ih =>
      obtain ⟨nonempty, all⟩ := each word List.mem_cons_self
      cases parts with
      | nil =>
          rintro rfl
          exact absurd (all dash (List.mem_of_getLast? isLast)) (by decide)
      | cons next parts =>
          have each' : ∀ word ∈ next :: parts, IsWord word := fun word among =>
            each word (List.mem_cons_of_mem _ among)
          have nonempty' : Text.join [dash] (next :: parts) ≠ [] := fun empty =>
            List.cons_ne_nil _ _ ((join_eq_nil each').mp empty)
          rw [join_cons_cons, List.append_cons, List.getLast?_append_of_ne_nil _ nonempty'] at isLast
          exact ih (List.cons_ne_nil _ _) each' isLast

theorem rdropWhile_eq (legal : IsSlug text) : text.rdropWhile (· == dash) = text := by
  rw [List.rdropWhile_eq_self_iff]
  intro some
  have other := legal.last_ne (List.getLast?_eq_some_getLast some)
  simpa using other

end IsSlug

/-! ## Cutting to fit -/

/-- A slug too long is cut at the last dash within the bound, or at the bound when there
is none. -/
theorem fitSlug_long {text : Text} {max : Nat} (legal : IsSlug text) (long : max < text.length)
    (positive : 0 < max) :
    IsSlug (fitSlug text max).slug ∧
      ((∃ n ≤ max, text[n]? = some dash ∧ fitSlug text max = ⟨text.take n, true⟩ ∧
          ∀ m ≤ max, text[m]? = some dash → m ≤ n) ∨
        ((∀ m ≤ max, text[m]? ≠ some dash) ∧ fitSlug text max = ⟨text.take max, true⟩)) := by
  have atDash : ∀ n, text[n]? = some dash → IsSlug (text.take n) := by
    intro n isDash
    obtain ⟨within, here⟩ := List.getElem?_eq_some_iff.mp isDash
    have split : text.take n ++ dash :: text.drop (n + 1) = text := by
      rw [← here, ← List.drop_eq_getElem_cons within, List.take_append_drop]
    exact IsSlug.before (split.symm ▸ legal)
  simp only [fitSlug, if_neg (Nat.not_le.mpr long)]
  by_cases cutsAt : text[max]? = some dash
  · have kept := atDash max cutsAt
    simp only [if_pos cutsAt, kept.rdropWhile_eq]
    exact ⟨kept, .inl ⟨max, Nat.le_refl _, cutsAt, rfl, fun m small _ => small⟩⟩
  · simp only [if_neg cutsAt]
    cases found : lastIndexOf dash (text.take max) with
    | none =>
        have absent := lastIndexOf_eq_none.mp found
        have kept : IsSlug (text.take max) := by
          refine IsSlug.of_units ?_ fun c member => ?_
          · intro empty
            have none := congrArg List.length empty
            rw [List.length_take, List.length_nil] at none
            omega
          · rcases legal.units (List.mem_of_mem_take member) with isUnit | isDash
            · exact isUnit
            · exact absurd (isDash ▸ member) absent
        simp only [kept.rdropWhile_eq]
        refine ⟨kept, .inr ⟨fun m small isDash => ?_, trivial⟩⟩
        rcases Nat.lt_or_eq_of_le small with below | rfl
        · exact absent (List.mem_of_getElem? (by rwa [List.getElem?_take_of_lt below]))
        · exact cutsAt isDash
    | some place =>
        obtain ⟨isDash, absent, within⟩ := lastIndexOf_some found
        have below : place < max := Nat.lt_of_lt_of_le within (List.length_take_le _ _)
        rw [List.getElem?_take_of_lt below] at isDash
        have kept := atDash place isDash
        simp only [List.take_take, Nat.min_eq_left (Nat.le_of_lt below), kept.rdropWhile_eq]
        refine ⟨kept, .inl ⟨place, Nat.le_of_lt below, isDash, rfl, fun m small isDash' => ?_⟩⟩
        by_contra later
        rcases Nat.lt_or_eq_of_le small with lower | rfl
        · refine absent (List.mem_of_getElem? (i := m - (place + 1)) ?_)
          rw [List.getElem?_drop, Nat.add_sub_cancel' (by omega), List.getElem?_take_of_lt lower]
          exact isDash'
        · exact cutsAt isDash'

theorem fitSlug_short {text : Text} {max : Nat} (short : text.length ≤ max) :
    fitSlug text max = ⟨text, false⟩ := by
  rw [fitSlug, if_pos short]

/-! ## The candidate -/

theorem toLowerCase_append (first second : Text) :
    toLowerCase (first ++ second) = toLowerCase first ++ toLowerCase second :=
  List.flatMap_append

theorem isWord_num {num : Text} (valid : isNum num = true) : IsWord num := by
  simp only [isNum, Bool.and_eq_true, decide_eq_true_eq, List.all_eq_true] at valid
  refine ⟨fun empty => ?_, fun c member => ?_⟩
  · rw [empty] at valid
    exact absurd valid.1.1 (by decide)
  · rw [isSlugUnit, valid.2 c member, Bool.true_or]

theorem lowerUnit_letter {c : UInt16} (isUnit : (isLetter c || isDigit c) = true) :
    ∀ d ∈ lowerUnit c, isSlugUnit d = true := by
  by_cases upper : 0x41 ≤ c ∧ c ≤ 0x5A
  · rw [lowerUnit, if_pos upper]
    intro d member
    rw [List.mem_singleton.mp member]
    have low : 65 ≤ c.toNat := UInt16.le_iff_toNat_le.mp upper.1
    have high : c.toNat ≤ 90 := UInt16.le_iff_toNat_le.mp upper.2
    have lowered : (c + 0x20).toNat = c.toNat + 32 := by
      rw [UInt16.toNat_add]
      exact Nat.mod_eq_of_lt (by simp; omega)
    simp only [isSlugUnit, Bool.or_eq_true, Bool.and_eq_true, decide_eq_true_eq,
      UInt16.le_iff_toNat_le, lowered]
    exact .inr ⟨by simp [unit]; omega, by simp [unit]; omega⟩
  · have isUnit' : isSlugUnit c = true := by
      simp only [isLetter, Bool.or_eq_true, Bool.and_eq_true, decide_eq_true_eq] at isUnit
      rw [isSlugUnit, Bool.or_eq_true, Bool.and_eq_true, decide_eq_true_eq, decide_eq_true_eq]
      rcases isUnit with (lower | isUpper) | digit
      · exact .inr lower
      · exact absurd isUpper upper
      · exact .inl digit
    intro d member
    rw [lowerUnit_slug (.inl isUnit'), List.mem_singleton] at member
    exact member ▸ isUnit'

theorem lowerUnit_ne_nil (c : UInt16) : lowerUnit c ≠ [] := by
  unfold lowerUnit
  split_ifs <;> exact List.cons_ne_nil _ _

theorem isWord_key {key : Text} (valid : isKey key = true) : IsWord (toLowerCase key) := by
  cases key with
  | nil => cases valid
  | cons first rest =>
      simp only [isKey, Bool.and_eq_true, decide_eq_true_eq, List.all_eq_true] at valid
      refine ⟨fun empty => ?_, fun c member => ?_⟩
      · rw [toLowerCase, List.flatMap_cons, List.append_eq_nil_iff] at empty
        exact lowerUnit_ne_nil first empty.1
      · obtain ⟨d, among, within⟩ := List.mem_flatMap.mp member
        refine lowerUnit_letter ?_ c within
        rcases List.mem_cons.mp among with rfl | later
        · rw [valid.1.1, Bool.true_or]
        · exact valid.2 d later

/-- A dash ends a word, as the key and the number of a reference end with one. -/
theorem nameWords_append {word rest : Text} (isWord : IsWord (toLowerCase word)) :
    nameWords (word ++ dash :: rest) = toLowerCase word :: nameWords rest := by
  rw [nameWords, toLowerCase_append, toLowerCase, toLowerCase, List.flatMap_cons,
    lowerUnit_slug (.inr rfl), List.singleton_append]
  exact words_append isWord.1 isWord.2 isSlugUnit_dash

theorem nameWords_of_isWord {word : Text} (isWord : IsWord word) : nameWords word = [word] := by
  rw [nameWords, toLowerCase_of_slug fun c member => .inl (isWord.2 c member),
    words_of_kept isWord.1 isWord.2]

/-- The words of a reference: its key, its number and those of its title. -/
def refWords (ticket : LinearRef) : List Text :=
  toLowerCase ticket.key :: ticket.num :: (ticket.titleSlug.elim [] nameWords)

structure LinearRef.Valid (ticket : LinearRef) : Prop where
  key : isKey ticket.key = true
  num : isNum ticket.num = true
  title : ∀ title, ticket.titleSlug = some title → slugifyWords title ≠ []

theorem candidateOf_some {ticket : LinearRef} (valid : ticket.Valid) (trimmed : Text) :
    candidateOf trimmed (some ticket) = Text.join [dash] (refWords ticket) := by
  rw [candidateOf, refWords]
  cases found : ticket.titleSlug with
  | none => simp [Text.join]
  | some title =>
      have some' : nameWords title ≠ [] := fun none =>
        valid.title title found (slugifyWords_eq_nil.mpr none)
      simp only [Option.elim_some, slugifyWords_eq]
      cases parts : nameWords title with
      | nil => exact absurd parts some'
      | cons first rest => rw [join_cons_cons, join_cons_cons, List.append_assoc, List.cons_append]

theorem refWords_each {ticket : LinearRef} (valid : ticket.Valid) :
    ∀ word ∈ refWords ticket, IsWord word := by
  intro word member
  rcases List.mem_cons.mp member with rfl | member
  · exact isWord_key valid.key
  · rcases List.mem_cons.mp member with rfl | member
    · exact isWord_num valid.num
    · cases found : ticket.titleSlug with
      | none => simp [found] at member
      | some title => exact @isWord_of_mem title word (by simpa [found] using member)

theorem usable_title {title : Option Text} {text : Text} (kept : usable title = some text) :
    title = some text ∧ slugifyWords text ≠ [] := by
  rw [usable, Option.filter_eq_some_iff] at kept
  exact ⟨kept.1, by simpa using kept.2⟩

theorem identifier_some {text key num : Text} (read : identifier text = some (key, num)) :
    text = key ++ dash :: num ∧ isKey key = true ∧ isNum num = true := by
  unfold identifier at read
  split at read
  · rename_i halves
    split at read
    · rename_i valid
      cases read
      rw [Bool.and_eq_true] at valid
      exact ⟨(Text.cut_iff.mp halves).2, valid⟩
    · cases read
  · cases read

theorem branchy_some {text key num : Text} {title : Option Text}
    (read : branchy text = some (key, num, title)) :
    isKey key = true ∧ isNum num = true ∧
      text = key ++ dash :: (num ++ title.elim [] (dash :: ·)) := by
  unfold branchy at read
  split at read
  · cases read
  · rename_i halves
    split at read
    · rename_i isKey
      rw [(Text.cut_iff.mp halves).2]
      split at read
      · split at read
        · rename_i isNum
          cases read
          exact ⟨isKey, isNum, by simp⟩
        · cases read
      · rename_i halves'
        split at read
        · rename_i valid
          cases read
          simp only [Bool.and_eq_true] at valid
          exact ⟨isKey, valid.1.1, by rw [(Text.cut_iff.mp halves').2]; rfl⟩
        · cases read
    · cases read

theorem nameWords_ref {key num : Text} (isKey : isKey key = true) (isNum : isNum num = true)
    (title : Option Text) :
    nameWords (key ++ dash :: (num ++ title.elim [] (dash :: ·))) =
      toLowerCase key :: num :: title.elim [] nameWords := by
  have num' := isWord_num isNum
  have lower : toLowerCase num = num := toLowerCase_of_slug fun c member => .inl (num'.2 c member)
  rw [nameWords_append (isWord_key isKey)]
  cases title with
  | none => rw [Option.elim_none, List.append_nil, nameWords_of_isWord num', Option.elim_none]
  | some title =>
      rw [Option.elim_some, nameWords_append (by rwa [lower]), lower, Option.elim_some]

theorem usable_words (title : Option Text) :
    (usable title).elim [] nameWords = title.elim [] nameWords := by
  cases title with
  | none => rfl
  | some title =>
      rw [usable, Option.filter_some]
      by_cases kept : slugifyWords title = []
      · simp [kept, slugifyWords_eq_nil.mp kept]
      · simp [kept]

section

variable (parseUrl : Text → Option Url)

theorem parseLinearRef_valid {input : Text} {ticket : LinearRef}
    (read : parseLinearRef parseUrl input = some ticket) : ticket.Valid := by
  simp only [parseLinearRef] at read
  split at read
  · cases read
  · split at read
    · split at read
      · cases read
      · split at read
        · cases read
        · split at read
          · cases read
          · split at read
            · cases read
            · rename_i found
              cases read
              obtain ⟨-, isKey, isNum⟩ := identifier_some found
              exact ⟨isKey, isNum, fun _ kept => (usable_title kept).2⟩
    · split at read
      · rename_i found
        cases read
        obtain ⟨-, isKey, isNum⟩ := identifier_some found
        exact ⟨isKey, isNum, fun _ none => by cases none⟩
      · split at read
        · rename_i found
          cases read
          obtain ⟨isKey, isNum, -⟩ := branchy_some found
          exact ⟨isKey, isNum, fun _ kept => (usable_title kept).2⟩
        · cases read

/-- The name a slug is made of, before it is cut. -/
def wholeCandidate (input : Text) : Text :=
  candidateOf input.trim (parseLinearRef parseUrl input.trim)

theorem not_mem_num {num : Text} (valid : isNum num = true) : unit '/' ∉ num := fun member =>
  absurd ((isWord_num valid).2 _ member) (by decide)

theorem not_mem_key {key : Text} (valid : isKey key = true) : unit '/' ∉ key := by
  cases key with
  | nil => simp
  | cons first rest =>
      simp only [isKey, Bool.and_eq_true, decide_eq_true_eq, List.all_eq_true] at valid
      intro member
      rcases List.mem_cons.mp member with rfl | later
      · exact absurd valid.1.1 (by decide)
      · exact absurd (valid.2 _ later) (by decide)

/-- What is not a URL gives the slug of its name, whether or not it names a ticket. -/
theorem wholeCandidate_plain {input : Text} (some' : input.trim ≠ [])
    (plain : isUrl input.trim = false) :
    wholeCandidate parseUrl input = slugifyWords (namePart input.trim) := by
  unfold wholeCandidate
  cases read : parseLinearRef parseUrl input.trim with
  | none => rfl
  | some ticket =>
      have valid := parseLinearRef_valid parseUrl read
      rw [candidateOf_some valid, slugifyWords_eq]
      simp only [parseLinearRef, Text.trim_trim, if_neg some', plain, Bool.false_eq_true,
        if_false] at read
      have named : nameWords (lastSegment input.trim) = refWords ticket →
          refWords ticket = nameWords (namePart input.trim) := by
        intro same
        have kept : slugifyWords (lastSegment input.trim) ≠ [] := fun empty => by
          rw [slugifyWords_eq_nil, same] at empty
          cases empty
        rw [namePart, if_neg kept, same]
      split at read
      · rename_i key num found
        cases read
        obtain ⟨whole, isKey, isNum⟩ := identifier_some found
        have segment : lastSegment input.trim = input.trim := by
          have absent : unit '/' ∉ input.trim := by
            rw [whole, List.mem_append, List.mem_cons]
            rintro (inKey | isDash | inNum)
            · exact not_mem_key isKey inKey
            · exact absurd isDash (by decide)
            · exact not_mem_num isNum inNum
          rw [lastSegment, lastIndexOf_eq_none.mpr absent]
        refine congrArg (Text.join [dash]) (named ?_)
        rw [segment, whole]
        simpa [refWords] using nameWords_ref isKey isNum none
      · split at read
        · rename_i key num title found
          cases read
          obtain ⟨isKey, isNum, whole⟩ := branchy_some found
          refine congrArg (Text.join [dash]) (named ?_)
          rw [whole, nameWords_ref isKey isNum, refWords, usable_words]
        · cases read

/-! ## Deriving a slug again -/

theorem isWhiteSpace_slug {c : UInt16} (isUnit : isSlugUnit c = true ∨ c = dash) :
    Text.isWhiteSpace c = false := by
  have bounds : c.toNat = 45 ∨ (48 ≤ c.toNat ∧ c.toNat ≤ 57) ∨ (97 ≤ c.toNat ∧ c.toNat ≤ 122) := by
    rcases isUnit with isUnit | rfl
    · exact .inr (isSlugUnit_bounds isUnit)
    · exact .inl rfl
  rw [← Bool.not_eq_true]
  simp only [Text.isWhiteSpace, Bool.or_eq_true, Bool.and_eq_true, decide_eq_true_eq, beq_iff_eq,
    UInt16.le_iff_toNat_le, ← UInt16.toNat_inj]
  simp
  omega

theorem IsSlug.derived {slug : Text} (legal : IsSlug slug) (enough : wsSlugMin ≤ slug.length)
    (fits : slug.length ≤ wsSlugMax) :
    ∃ ticket, deriveWorkspaceSlug parseUrl slug = .named slug false ticket := by
  have noSlash : unit '/' ∉ slug := fun member => by
    rcases legal.units member with isUnit | isDash
    · exact absurd isUnit (by decide)
    · exact absurd isDash (by decide)
  have trimmed : slug.trim = slug := by
    have white : ∀ c ∈ slug, Text.isWhiteSpace c = false := fun c member =>
      isWhiteSpace_slug (legal.units member)
    obtain ⟨first, isFirst⟩ := Option.ne_none_iff_exists'.mp fun none =>
      legal.ne_nil (List.head?_eq_none_iff.mp none)
    obtain ⟨last, isLast⟩ := Option.ne_none_iff_exists'.mp fun none =>
      legal.ne_nil (List.getLast?_eq_none_iff.mp none)
    exact Text.trim_of_ends isFirst isLast (white first (List.mem_of_head? isFirst))
      (white last (List.mem_of_getLast? isLast))
  have plain : isUrl slug.trim = false := by
    rw [trimmed, ← Bool.not_eq_true]
    exact fun found => noSlash (Text.mem_of_includes found (by decide))
  have whole : wholeCandidate parseUrl slug = slug := by
    rw [wholeCandidate_plain parseUrl (by rw [trimmed]; exact legal.ne_nil) plain, trimmed, namePart,
      lastSegment, lastIndexOf_eq_none.mpr noSlash, ite_self, legal.slugifyWords_eq]
  unfold wholeCandidate at whole
  refine ⟨parseLinearRef parseUrl slug.trim, ?_⟩
  simp only [deriveWorkspaceSlug, whole, plain, Bool.false_and, fitSlug_short fits]
  rw [if_neg (by rw [trimmed]; exact legal.ne_nil), if_neg (by simp), if_neg legal.ne_nil,
    if_neg (by omega)]

/-! ## What every answer promises -/

/-- The first of the words is one character, and the second cannot follow it whole. -/
def LoneFirst (parts : List Text) : Prop :=
  ∃ c word rest, parts = [c] :: word :: rest ∧ wsSlugMax ≤ word.length + 1

/-- A plain name whose first word is one character and whose second has thirty or more. -/
def LoneInitial (input : Text) : Prop :=
  isUrl input.trim = false ∧ LoneFirst (nameWords (namePart input.trim))

structure Fits (slug : Text) : Prop where
  legal : IsSlug slug
  enough : wsSlugMin ≤ slug.length
  fits : slug.length ≤ wsSlugMax

/-- A proper start of the candidate, cut before a dash if any cut before one fits. -/
structure IsCut (candidate slug : Text) : Prop where
  start : slug <+: candidate
  proper : slug ≠ candidate
  boundary : (∃ n, candidate[n]? = some dash ∧ Fits (candidate.take n)) →
    candidate[slug.length]? = some dash

def Promise (input : Text) : SlugAsk → Prop
  | .auto => ∀ c ∈ input, Text.isWhiteSpace c = true
  | .named slug shortened _ =>
      Fits slug ∧
        (if shortened then IsCut (wholeCandidate parseUrl input) slug
          else slug = wholeCandidate parseUrl input) ∧
        ∃ ticket, deriveWorkspaceSlug parseUrl slug = .named slug false ticket
  | .refused .tooShort => (wholeCandidate parseUrl input).length < wsSlugMin
  | .refused .noUsableCharacters => wholeCandidate parseUrl input = []
  | .refused .urlNotRecognised =>
      isUrl input.trim = true ∧ parseLinearRef parseUrl input.trim = none

theorem fitSlug_lone {parts : List Text} (each : ∀ word ∈ parts, IsWord word)
    (enough : wsSlugMin ≤ (Text.join [dash] parts).length) :
    (fitSlug (Text.join [dash] parts) wsSlugMax).slug.length < wsSlugMin ↔ LoneFirst parts := by
  have legal : IsSlug (Text.join [dash] parts) := by
    refine ⟨parts, ?_, each, rfl⟩
    rintro rfl
    exact absurd enough (by decide)
  have notDash : ∀ word ∈ parts, ∀ i : Nat, word[i]? ≠ some dash := fun word member i isDash =>
    absurd ((each word member).2 dash (List.mem_of_getElem? isDash)) (by decide)
  constructor
  · intro short
    by_cases long : wsSlugMax < (Text.join [dash] parts).length
    · obtain ⟨kept, ⟨n, within, isDash, cut, last⟩ | ⟨-, cut⟩⟩ := fitSlug_long legal long (by decide)
      · -- the only dash that fits stands at one: the first word is one character
        rw [cut] at short kept
        have length : ((Text.join [dash] parts).take n).length = n := List.length_take_of_le (by omega)
        have one : n = 1 := by
          have positive := List.length_pos_of_ne_nil kept.ne_nil
          simp only [length] at short positive
          have small : n < 2 := short
          omega
        subst one
        match parts, notDash, each with
        | [], _, _ => exact absurd enough (by decide)
        | [word], notDash, _ => exact absurd isDash (notDash word (by simp) 1)
        | first :: second :: rest, notDash, each =>
            rw [join_cons_cons] at isDash last long
            have firstOne : first.length = 1 := by
              have positive := List.length_pos_of_ne_nil (each first (by simp)).1
              by_contra more
              rw [List.getElem?_append_left (by omega)] at isDash
              exact notDash first (by simp) 1 isDash
            obtain ⟨c, rfl⟩ := List.length_eq_one_iff.mp firstOne
            refine ⟨c, second, rest, rfl, ?_⟩
            by_contra fits
            cases rest with
            | nil =>
                simp only [Text.join, List.length_append, List.length_cons, List.length_nil] at long
                omega
            | cons third rest =>
                have later := last (second.length + 2) (by omega) (by
                  rw [join_cons_cons]
                  simp)
                omega
      · rw [cut, List.length_take_of_le (by omega)] at short
        exact absurd short (by decide)
    · rw [fitSlug_short (Nat.not_lt.mp long)] at short
      exact absurd enough (Nat.not_le.mpr short)
  · rintro ⟨c, word, rest, rfl, wide⟩
    have isDash : (Text.join [dash] ([c] :: word :: rest))[1]? = some dash := by
      rw [join_cons_cons]
      rfl
    have long : wsSlugMax < (Text.join [dash] ([c] :: word :: rest)).length := by
      rw [join_cons_cons]
      cases rest <;> simp [Text.join] <;> omega
    obtain ⟨-, ⟨n, within, isDash', cut, last⟩ | ⟨none, -⟩⟩ := fitSlug_long legal long (by decide)
    · have one : n = 1 := by
        have above := last 1 (by decide) isDash
        by_contra other
        obtain ⟨i, rfl⟩ := Nat.exists_eq_add_of_le (show 2 ≤ n by omega)
        have inWord : i < word.length := by
          have bound : wsSlugMax = 31 := rfl
          omega
        refine notDash word (by simp) i ?_
        rw [← isDash', join_cons_cons, Nat.add_comm 2 i]
        cases rest with
        | nil => rfl
        | cons next rest =>
            rw [join_cons_cons]
            exact (List.getElem?_append_left inWord).symm
      rw [cut, one]
      exact Nat.lt_of_le_of_lt (List.length_take_le _ _) (by decide)
    · exact absurd isDash (none 1 (by decide))

/-- The words of the candidate; those of a ticket never start with a lone character, as
its number is short. -/
theorem wholeCandidate_parts {input : Text} (some' : input.trim ≠ [])
    (answered : (isUrl input.trim && (parseLinearRef parseUrl input.trim).isNone) = false) :
    ∃ parts, (∀ word ∈ parts, IsWord word) ∧
      wholeCandidate parseUrl input = Text.join [dash] parts ∧
      (LoneFirst parts ↔ LoneInitial input) := by
  cases url : isUrl input.trim with
  | false =>
      refine ⟨nameWords (namePart input.trim), fun _ => isWord_of_mem, ?_, ?_⟩
      · rw [wholeCandidate_plain parseUrl some' url, slugifyWords_eq]
      · simp [LoneInitial, url]
  | true =>
      unfold wholeCandidate
      cases read : parseLinearRef parseUrl input.trim with
      | none => simp [url, read] at answered
      | some ticket =>
          have valid := parseLinearRef_valid parseUrl read
          refine ⟨refWords ticket, refWords_each valid, candidateOf_some valid _, ?_⟩
          refine iff_of_false ?_ fun lone => by simp [LoneInitial, url] at lone
          rintro ⟨c, word, rest, same, wide⟩
          have isNum := valid.num
          simp only [refWords, List.cons.injEq] at same
          simp only [Slug.isNum, Bool.and_eq_true, decide_eq_true_eq] at isNum
          rw [same.2.1] at isNum
          have bound : wsSlugMax = 31 := rfl
          omega

theorem blank_not_lone {input : Text} (blank : input.trim = []) : ¬LoneInitial input := by
  rintro ⟨-, c, word, rest, same, -⟩
  rw [blank] at same
  cases same

theorem auto_iff (input : Text) :
    deriveWorkspaceSlug parseUrl input = .auto ↔ ∀ c ∈ input, Text.isWhiteSpace c = true := by
  rw [← Text.trim_eq_nil, deriveWorkspaceSlug]
  constructor
  · intro isAuto
    by_contra some'
    simp only [if_neg some'] at isAuto
    split_ifs at isAuto
  · intro blank
    simp only [if_pos blank]

/-- What is cut to fit is legal, and where there is a dash to cut at it is cut there. -/
theorem fitSlug_promise {candidate : Text} (legal : IsSlug candidate)
    (long : ¬(fitSlug candidate wsSlugMax).slug.length < wsSlugMin) :
    Fits (fitSlug candidate wsSlugMax).slug ∧
      if (fitSlug candidate wsSlugMax).shortened then
        IsCut candidate (fitSlug candidate wsSlugMax).slug
      else (fitSlug candidate wsSlugMax).slug = candidate := by
  by_cases fits : candidate.length ≤ wsSlugMax
  · rw [fitSlug_short fits] at long ⊢
    exact ⟨⟨legal, Nat.not_lt.mp long, fits⟩, rfl⟩
  · have longer := Nat.not_le.mp fits
    obtain ⟨kept, ⟨n, within, isDash, cut, last⟩ | ⟨none, cut⟩⟩ :=
      fitSlug_long legal longer (by decide)
    · have length : (candidate.take n).length = n := List.length_take_of_le (by omega)
      rw [cut] at kept long ⊢
      refine ⟨⟨kept, Nat.not_lt.mp long, length.le.trans within⟩, List.take_prefix _ _,
        fun same => ?_, fun _ => by rwa [length]⟩
      rw [← same, length] at longer
      omega
    · have length : (candidate.take wsSlugMax).length = wsSlugMax :=
        List.length_take_of_le (Nat.le_of_lt longer)
      rw [cut] at kept long ⊢
      refine ⟨⟨kept, Nat.not_lt.mp long, length.le⟩, List.take_prefix _ _, fun same => ?_, ?_⟩
      · rw [← same, length] at longer
        exact absurd longer (Nat.lt_irrefl _)
      · rintro ⟨n, isDash, shorter⟩
        obtain ⟨inside, -⟩ := List.getElem?_eq_some_iff.mp isDash
        have bound := shorter.fits
        rw [List.length_take_of_le (Nat.le_of_lt inside)] at bound
        exact absurd isDash (none n bound)

/-- What is answered to a name that is neither blank nor an unreadable URL. -/
theorem derive_candidate {input : Text} (some' : input.trim ≠ [])
    (answered : (isUrl input.trim && (parseLinearRef parseUrl input.trim).isNone) = false) :
    deriveWorkspaceSlug parseUrl input =
      if wholeCandidate parseUrl input = [] then .refused .noUsableCharacters
      else if (fitSlug (wholeCandidate parseUrl input) wsSlugMax).slug.length < wsSlugMin then
        .refused .tooShort
      else .named (fitSlug (wholeCandidate parseUrl input) wsSlugMax).slug
        (fitSlug (wholeCandidate parseUrl input) wsSlugMax).shortened
        (parseLinearRef parseUrl input.trim) := by
  rw [deriveWorkspaceSlug]
  simp only [if_neg some', answered, Bool.false_eq_true, if_false]
  rfl

theorem LoneFirst.length {parts : List Text} (lone : LoneFirst parts) :
    wsSlugMin ≤ (Text.join [dash] parts).length := by
  obtain ⟨c, word, rest, rfl, wide⟩ := lone
  rw [join_cons_cons]
  simp [wsSlugMin]

/-- Every answer keeps its promise, exactly if the name does not start with a lone
character and a word that fits no slug. -/
theorem derive_promise_iff (input : Text) :
    ((deriveWorkspaceSlug parseUrl input = .auto ↔ ∀ c ∈ input, Text.isWhiteSpace c = true) ∧
        Promise parseUrl input (deriveWorkspaceSlug parseUrl input)) ↔ ¬LoneInitial input := by
  rw [and_iff_right (auto_iff parseUrl input)]
  by_cases blank : input.trim = []
  · refine iff_of_true ?_ (blank_not_lone blank)
    rw [(auto_iff parseUrl input).mpr (Text.trim_eq_nil.mp blank)]
    exact Text.trim_eq_nil.mp blank
  · cases unread : isUrl input.trim && (parseLinearRef parseUrl input.trim).isNone with
    | true =>
        rw [deriveWorkspaceSlug]
        simp only [if_neg blank, unread, if_true]
        rw [Bool.and_eq_true, Option.isNone_iff_eq_none] at unread
        exact iff_of_true unread fun lone => by simp [lone.1] at unread
    | false =>
        obtain ⟨parts, each, whole, lone⟩ := wholeCandidate_parts parseUrl blank unread
        rw [derive_candidate parseUrl blank unread, ← lone]
        by_cases empty : wholeCandidate parseUrl input = []
        · rw [if_pos empty]
          refine iff_of_true empty fun cut => ?_
          have enough := cut.length
          rw [← whole, empty] at enough
          exact absurd enough (by decide)
        · have legal : IsSlug (wholeCandidate parseUrl input) :=
            ⟨parts, fun none => empty (by rw [whole, none]; rfl), each, whole⟩
          rw [if_neg empty]
          by_cases enough : wsSlugMin ≤ (wholeCandidate parseUrl input).length
          · have short := fitSlug_lone each (whole ▸ enough)
            rw [← whole] at short
            by_cases cut : LoneFirst parts
            · rw [if_pos (short.mpr cut)]
              exact iff_of_false (Nat.not_lt.mpr enough) (not_not_intro cut)
            · have long := mt short.mp cut
              obtain ⟨fits, isCut⟩ := fitSlug_promise legal long
              rw [if_neg long]
              exact iff_of_true ⟨fits, isCut, fits.legal.derived parseUrl fits.enough fits.fits⟩ cut
          · have fits : (wholeCandidate parseUrl input).length ≤ wsSlugMax := by
              have bound : wsSlugMin ≤ wsSlugMax := by decide
              omega
            rw [fitSlug_short fits, if_pos (Nat.not_le.mp enough)]
            exact iff_of_true (Nat.not_le.mp enough) fun cut => enough (whole ▸ cut.length)

/-- The second word of this name is longer than a slug has room for after the first. -/
theorem derive_lone_refused :
    ¬Promise (fun _ => none) (Text.lit "a supercalifragilisticexpialidocious")
      (deriveWorkspaceSlug (fun _ => none) (Text.lit "a supercalifragilisticexpialidocious")) := by
  have refused : deriveWorkspaceSlug (fun _ => none)
      (Text.lit "a supercalifragilisticexpialidocious") = .refused .tooShort := by decide +kernel
  have length : (wholeCandidate (fun _ => none)
      (Text.lit "a supercalifragilisticexpialidocious")).length = 36 := by decide +kernel
  rw [refused]
  intro short
  rw [Promise, length] at short
  exact absurd short (by decide)

end

end Ccrc.Shared.Slug
