import Ccrc.Library.Text

/-! What trimming leaves, and texts joined and cut at a separator. -/

set_option autoImplicit false

namespace Ccrc.Library

namespace Text

private theorem dropWhile_of_head {text : Text} {head : UInt16} (isHead : text.head? = some head)
    (kept : isWhiteSpace head = false) : text.dropWhile isWhiteSpace = text := by
  cases text with
  | nil => cases isHead
  | cons first rest =>
      cases isHead
      rw [List.dropWhile_cons_of_neg (by simp [kept])]

private theorem head_dropWhile {text : Text} {head : UInt16}
    (isHead : (text.dropWhile isWhiteSpace).head? = some head) : isWhiteSpace head = false := by
  have stops := List.head?_dropWhile_not isWhiteSpace text
  rw [isHead] at stops
  simpa using stops

theorem trim_trim (text : Text) : text.trim.trim = text.trim := by
  unfold trim trimStart
  obtain ⟨dropped, split⟩ := (List.dropWhile_suffix isWhiteSpace :
    (text.dropWhile isWhiteSpace).reverse.dropWhile isWhiteSpace <:+ _)
  cases final : ((text.dropWhile isWhiteSpace).reverse.dropWhile isWhiteSpace).reverse with
  | nil => rfl
  | cons head rest =>
      -- the first unit kept is the first one after the leading white space
      have isHead : (text.dropWhile isWhiteSpace).head? = some head := by
        have whole := congrArg List.reverse split
        rw [List.reverse_append, List.reverse_reverse, final] at whole
        rw [← whole]
        rfl
      have first : (head :: rest).dropWhile isWhiteSpace = head :: rest :=
        dropWhile_of_head rfl (head_dropWhile isHead)
      rw [first, ← final, List.reverse_reverse, List.dropWhile_idempotent]

theorem isNonblank_trim {text : Text} (some : text.trim ≠ []) : text.trim.isNonblank = true := by
  simp [isNonblank, some, trim_trim]

theorem trim_ne_nil {head : UInt16} {rest : Text} (kept : isWhiteSpace head = false) :
    trim (head :: rest) ≠ [] := by
  have start : trimStart (head :: rest) = head :: rest := dropWhile_of_head rfl kept
  intro blank
  unfold trim at blank
  rw [start, List.reverse_eq_nil_iff, trimStart, List.dropWhile_eq_nil_iff] at blank
  have white := blank head (by simp)
  simp [kept] at white

theorem trim_eq_nil {text : Text} : text.trim = [] ↔ ∀ c ∈ text, isWhiteSpace c = true := by
  unfold trim trimStart
  rw [List.reverse_eq_nil_iff, List.dropWhile_eq_nil_iff,
    ← List.dropWhile_eq_nil_iff (l := text)]
  constructor
  · intro all
    by_contra some
    obtain ⟨head, isHead⟩ := Option.ne_none_iff_exists'.mp fun none =>
      some (List.head?_eq_none_iff.mp none)
    have white := all head (List.mem_reverse.mpr (List.mem_of_head? isHead))
    rw [head_dropWhile isHead] at white
    cases white
  · intro none
    rw [none]
    exact fun c member => absurd member List.not_mem_nil

/-- A text that neither begins nor ends with white space is left alone. -/
theorem trim_of_ends {text : Text} {first last : UInt16} (isFirst : text.head? = some first)
    (isLast : text.getLast? = some last) (firstKept : isWhiteSpace first = false)
    (lastKept : isWhiteSpace last = false) : trim text = text := by
  have isLast' : text.reverse.head? = some last := by rw [List.head?_reverse, isLast]
  rw [trim, trimStart, trimStart, dropWhile_of_head isFirst firstKept,
    dropWhile_of_head isLast' lastKept, List.reverse_reverse]

theorem mem_of_includes {part text : Text} (found : includes part text = true) {c : UInt16}
    (member : c ∈ part) : c ∈ text := by
  induction text with
  | nil =>
      rw [includes, List.isEmpty_iff] at found
      exact absurd member (by simp [found])
  | cons first text ih =>
      rw [includes, Bool.or_eq_true, startsWith, List.isPrefixOf_iff_prefix] at found
      rcases found with here | later
      · exact here.subset member
      · exact List.mem_cons_of_mem _ (ih later)

theorem join_eq_intercalate (separator : Text) (parts : List Text) :
    join separator parts = separator.intercalate parts := by
  induction parts with
  | nil => rfl
  | cons part parts ih =>
      cases parts with
      | nil => simp [join]
      | cons next parts =>
          rw [List.intercalate_cons_of_ne_nil (List.cons_ne_nil next parts), ← ih]
          rfl

/-- The first occurrence cuts where nothing before it holds the separator. -/
theorem cut_iff {separator : UInt16} {text before after : Text} :
    cut separator text = some (before, after) ↔
      separator ∉ before ∧ text = before ++ separator :: after := by
  induction text generalizing before with
  | nil =>
      refine iff_of_false (fun bad => by cases bad) ?_
      rintro ⟨-, bad⟩
      cases before <;> cases bad
  | cons head rest ih =>
      rw [cut]
      by_cases same : head = separator
      · rw [if_pos same]
        constructor
        · intro read
          cases read
          exact ⟨List.not_mem_nil, by rw [same, List.nil_append]⟩
        · rintro ⟨absent, whole⟩
          cases before with
          | nil => rw [(List.cons.inj whole).2]
          | cons first before =>
              rw [← (List.cons.inj whole).1] at absent
              exact absurd (same ▸ List.mem_cons_self) absent
      · rw [if_neg same, Option.map_eq_some_iff]
        constructor
        · rintro ⟨⟨before', after'⟩, found, pair⟩
          cases pair
          obtain ⟨absent, rfl⟩ := ih.mp found
          refine ⟨fun member => ?_, rfl⟩
          rcases List.mem_cons.mp member with here | inside
          · exact same here.symm
          · exact absent inside
        · rintro ⟨absent, whole⟩
          cases before with
          | nil => exact absurd (List.cons.inj whole).1 same
          | cons first before =>
              obtain ⟨rfl, rest'⟩ := List.cons.inj whole
              exact ⟨(before, after),
                ih.mpr ⟨fun inside => absent (List.mem_cons_of_mem _ inside), rest'⟩, rfl⟩

end Text

end Ccrc.Library
