import Mathlib

/-! A list read as words: the maximal runs of the items worth keeping. Putting one
separator for everything between two words, and none at the ends, loses nothing but
what stood between them. -/

set_option autoImplicit false

namespace Ccrc.Library

variable {α : Type*}

/-! ## The last occurrence of an item -/

section LastIndex

variable [DecidableEq α] {item : α} {items : List α}

/-- `items.lastIndexOf(item)`. -/
def lastIndexOf (item : α) : List α → Option Nat
  | [] => none
  | head :: rest =>
      match lastIndexOf item rest with
      | some index => some (index + 1)
      | none => if head = item then some 0 else none

theorem lastIndexOf_eq_none : lastIndexOf item items = none ↔ item ∉ items := by
  induction items with
  | nil => simp [lastIndexOf]
  | cons head rest ih =>
      rw [lastIndexOf, List.mem_cons, not_or, ← ih]
      cases lastIndexOf item rest with
      | some index => simp
      | none => simp [eq_comm]

theorem lastIndexOf_some {index : Nat} (found : lastIndexOf item items = some index) :
    items[index]? = some item ∧ item ∉ items.drop (index + 1) ∧ index < items.length := by
  induction items generalizing index with
  | nil => cases found
  | cons head rest ih =>
      rw [lastIndexOf] at found
      cases later : lastIndexOf item rest with
      | some place =>
          rw [later] at found
          obtain ⟨here, absent, within⟩ := ih later
          cases found
          exact ⟨here, absent, by simpa using within⟩
      | none =>
          rw [later] at found
          by_cases here : head = item
          · rw [if_pos here, Option.some.injEq] at found
            subst found here
            exact ⟨rfl, lastIndexOf_eq_none.mp later, by simp⟩
          · rw [if_neg here] at found
            cases found

end LastIndex

/-! ## Words -/

section Words

variable (keeps : α → Bool) (separator : α)

/-- The maximal runs of kept items. -/
def words : List α → List (List α)
  | [] => []
  | item :: rest =>
      if keeps item then
        if rest.head?.any keeps then (words rest).modifyHead (item :: ·) else [item] :: words rest
      else words rest

/-- Every maximal run of other items as one separator; inside a run, where its
separator has been written, the rest of it is dropped. -/
def collapse (inRun : Bool) : List α → List α
  | [] => []
  | item :: rest =>
      if keeps item then item :: collapse false rest
      else if inRun then collapse true rest
      else separator :: collapse true rest

/-- A list without the separators at its two ends. -/
def strip [DecidableEq α] (items : List α) : List α :=
  (items.dropWhile (· == separator)).rdropWhile (· == separator)

variable {keeps separator}

theorem words_ne_nil {items : List α} (starts : items.head?.any keeps = true) :
    words keeps items ≠ [] := by
  match items with
  | item :: rest =>
      rw [words, if_pos (by simpa using starts)]
      split
      · rename_i next
        intro empty
        have nonempty := words_ne_nil next
        generalize words keeps rest = others at empty nonempty
        cases others with
        | nil => exact nonempty rfl
        | cons _ _ => cases empty
      · exact List.cons_ne_nil _ _

theorem mem_words {items : List α} {word : List α} (member : word ∈ words keeps items) :
    word ≠ [] ∧ ∀ item ∈ word, keeps item = true := by
  induction items generalizing word with
  | nil => cases member
  | cons item rest ih =>
      rw [words] at member
      by_cases kept : keeps item = true
      · rw [if_pos kept] at member
        split at member
        · generalize words keeps rest = others at member ih
          cases others with
          | nil => cases member
          | cons first others =>
              rw [List.modifyHead_cons, List.mem_cons] at member
              rcases member with rfl | later
              · refine ⟨List.cons_ne_nil _ _, fun each among => ?_⟩
                rcases List.mem_cons.mp among with rfl | among
                · exact kept
                · exact (ih List.mem_cons_self).2 each among
              · exact ih (List.mem_cons_of_mem first later)
        · rcases List.mem_cons.mp member with rfl | later
          · exact ⟨List.cons_ne_nil _ _, fun each among => by rwa [List.mem_singleton.mp among]⟩
          · exact ih later
      · rw [if_neg kept] at member
        exact ih member

theorem words_of_kept {word : List α} (some : word ≠ []) (all : ∀ item ∈ word, keeps item = true) :
    words keeps word = [word] := by
  induction word with
  | nil => exact absurd rfl some
  | cons item rest ih =>
      rw [words, if_pos (all item List.mem_cons_self)]
      cases rest with
      | nil => simp [words]
      | cons next rest =>
          rw [if_pos (by simp [all next]), ih (List.cons_ne_nil _ _) fun each among =>
            all each (List.mem_cons_of_mem _ among), List.modifyHead_cons]

/-- A word ends where the next item is not kept. -/
theorem words_append {word rest : List α} {other : α} (some : word ≠ [])
    (all : ∀ item ∈ word, keeps item = true) (dropped : keeps other = false) :
    words keeps (word ++ other :: rest) = word :: words keeps rest := by
  induction word with
  | nil => exact absurd rfl some
  | cons item word ih =>
      rw [List.cons_append, words, if_pos (all item List.mem_cons_self)]
      cases word with
      | nil =>
          rw [List.nil_append, if_neg (by simp [dropped]), words, if_neg (by simp [dropped])]
      | cons next word =>
          rw [List.cons_append, if_pos (by simp [all next]), ← List.cons_append,
            ih (List.cons_ne_nil _ _) fun each among => all each (List.mem_cons_of_mem _ among),
            List.modifyHead_cons]

theorem words_skip {rest : List α} {other : α} (dropped : keeps other = false) :
    words keeps (other :: rest) = words keeps rest := by
  rw [words, if_neg (by simp [dropped])]

/-- What words joined by a separator read back as. -/
theorem words_intercalate {parts : List (List α)} (dropped : keeps separator = false)
    (each : ∀ word ∈ parts, word ≠ [] ∧ ∀ item ∈ word, keeps item = true) :
    words keeps ([separator].intercalate parts) = parts := by
  induction parts with
  | nil => rfl
  | cons first rest ih =>
      obtain ⟨some, all⟩ := each first List.mem_cons_self
      cases rest with
      | nil => simpa using words_of_kept some all
      | cons second rest =>
          rw [List.intercalate_cons_cons, List.append_assoc, List.singleton_append,
            words_append some all dropped, ih fun word among =>
              each word (List.mem_cons_of_mem first among)]

/-! ### Collapsing keeps the words and one separator between them -/

theorem rdropWhile_cons (drops : α → Bool) (item : α) (rest : List α) :
    (item :: rest).rdropWhile drops =
      if drops item ∧ rest.rdropWhile drops = [] then [] else item :: rest.rdropWhile drops := by
  by_cases none : rest.rdropWhile drops = []
  · rw [none]
    have all := List.rdropWhile_eq_nil_iff.mp none
    by_cases drop : drops item = true
    · rw [if_pos ⟨drop, rfl⟩, List.rdropWhile_eq_nil_iff]
      simpa [drop] using all
    · rw [if_neg fun both => drop both.1, List.rdropWhile, List.reverse_cons,
        List.dropWhile_append_of_pos (by simpa using all), List.dropWhile_cons_of_neg drop]
      rfl
  · rw [if_neg fun both => none both.2, List.rdropWhile, List.reverse_cons, List.dropWhile_append,
      if_neg, List.reverse_append, List.rdropWhile]
    · rfl
    · intro empty
      exact none (by rw [List.rdropWhile, List.isEmpty_iff.mp empty, List.reverse_nil])

private theorem intercalate_eq_nil {items : List α} :
    [separator].intercalate (words keeps items) = [] ↔ words keeps items = [] := by
  refine ⟨fun empty => ?_, fun empty => by rw [empty]; rfl⟩
  have each : ∀ word ∈ words keeps items, word ≠ [] := fun _ member => (mem_words member).1
  generalize words keeps items = parts at empty each
  match parts with
  | [] => rfl
  | [word] => exact absurd (by simpa using empty) (each word List.mem_cons_self)
  | first :: second :: rest => simp [List.intercalate_cons_cons] at empty

/-- Inside a run and outside one: only outside does the first run leave a separator. -/
private theorem rdropWhile_collapse [DecidableEq α] (dropped : keeps separator = false)
    (items : List α) :
    (collapse keeps separator true items).rdropWhile (· == separator) =
        [separator].intercalate (words keeps items) ∧
      (collapse keeps separator false items).rdropWhile (· == separator) =
        if words keeps items = [] then []
        else (if items.head?.any keeps then [] else [separator]) ++
          [separator].intercalate (words keeps items) := by
  induction items with
  | nil => exact ⟨rfl, rfl⟩
  | cons item rest ih =>
      obtain ⟨inside, outside⟩ := ih
      by_cases kept : keeps item = true
      · have other : (item == separator) = false := by
          rw [beq_eq_false_iff_ne]
          rintro rfl
          exact absurd kept (by simp [dropped])
        have joined : item :: (collapse keeps separator false rest).rdropWhile (· == separator) =
            [separator].intercalate (words keeps (item :: rest)) := by
          rw [outside, words, if_pos kept]
          by_cases next : rest.head?.any keeps = true
          · rw [if_neg (words_ne_nil next), if_pos next, if_pos next, List.nil_append]
            have some := words_ne_nil next
            generalize words keeps rest = parts at some ⊢
            match parts with
            | [_] => simp
            | first :: second :: parts => simp [List.intercalate_cons_cons]
          · rw [if_neg next, if_neg next]
            generalize words keeps rest = parts
            cases parts with
            | nil => simp
            | cons first parts => simp [List.intercalate_cons_cons]
        have some : words keeps (item :: rest) ≠ [] := words_ne_nil (by simpa using kept)
        rw [if_neg some, if_pos (by simpa using kept), List.nil_append, collapse, if_pos kept,
          collapse, if_pos kept, rdropWhile_cons, if_neg (by simp [other])]
        exact ⟨joined, joined⟩
      · rw [words_skip (by simpa using kept), collapse, if_neg kept, if_pos rfl, collapse,
          if_neg kept, if_neg (by simp), rdropWhile_cons, inside]
        refine ⟨rfl, ?_⟩
        by_cases empty : words keeps rest = []
        · rw [if_pos empty, if_pos ⟨by simp, intercalate_eq_nil.mpr empty⟩]
        · rw [if_neg empty, if_neg fun both => empty (intercalate_eq_nil.mp both.2),
            if_neg (by simpa using kept), List.singleton_append]

private theorem dropWhile_collapse [DecidableEq α] (dropped : keeps separator = false)
    (items : List α) :
    (collapse keeps separator true items).dropWhile (· == separator) =
        collapse keeps separator true items ∧
      (collapse keeps separator false items).dropWhile (· == separator) =
        collapse keeps separator true items := by
  induction items with
  | nil => exact ⟨rfl, rfl⟩
  | cons item rest ih =>
      by_cases kept : keeps item = true
      · have other : item ≠ separator := by
          rintro rfl
          exact absurd kept (by simp [dropped])
        simp [collapse, kept, other]
      · simp [collapse, kept, ih.1]

theorem strip_collapse [DecidableEq α] (dropped : keeps separator = false) (items : List α) :
    strip separator (collapse keeps separator false items) =
      [separator].intercalate (words keeps items) := by
  rw [strip, (dropWhile_collapse dropped items).2, (rdropWhile_collapse dropped items).1]

end Words

end Ccrc.Library
