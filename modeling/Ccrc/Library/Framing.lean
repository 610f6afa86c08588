import Mathlib

/-! Lines of a sequence, each ended by a mark: framing what is complete, where a line
stands, and what a longer sequence changes of it. -/

set_option autoImplicit false

namespace Ccrc.Library

variable {α : Type} {mark : α}

/-- The complete lines, without their marks, and what follows the last mark. -/
def frame [DecidableEq α] (mark : α) : List α → List (List α) × List α
  | [] => ([], [])
  | head :: rest =>
      if head = mark then ([] :: (frame mark rest).1, (frame mark rest).2)
      else match (frame mark rest).1 with
        | [] => ([], head :: (frame mark rest).2)
        | line :: lines => ((head :: line) :: lines, (frame mark rest).2)

def joined (mark : α) (lines : List (List α)) : List α := lines.flatMap (· ++ [mark])

/-- The lines with the places where they start. -/
def placed : Nat → List (List α) → List (Nat × List α)
  | _, [] => []
  | start, line :: lines => (start, line) :: placed (start + line.length + 1) lines

/-- A place where a line starts. -/
def Boundary (mark : α) (text : List α) (start : Nat) : Prop :=
  start = 0 ∨ ∃ before, start = before + 1 ∧ text[before]? = some mark

/-- A complete line of a sequence. -/
structure IsLine (mark : α) (text : List α) (start : Nat) (line : List α) : Prop where
  free : mark ∉ line
  boundary : Boundary mark text start
  held : line ++ [mark] <+: text.drop start

theorem frame_joined [DecidableEq α] (text : List α) :
    joined mark (frame mark text).1 ++ (frame mark text).2 = text := by
  induction text with
  | nil => rfl
  | cons head rest ih =>
      rw [frame]
      split
      next isMark => simpa [joined, isMark] using ih
      next =>
          split
          next none =>
              rw [none] at ih
              simpa [joined] using ih
          next line lines isFirst =>
              rw [isFirst] at ih
              simpa [joined] using ih

theorem frame_free [DecidableEq α] (text : List α) :
    (∀ line ∈ (frame mark text).1, mark ∉ line) ∧ mark ∉ (frame mark text).2 := by
  induction text with
  | nil => simp [frame]
  | cons head rest ih =>
      rw [frame]
      split
      next => simpa using ih
      next other =>
          split
          next none => simpa [Ne.symm other] using ih.2
          next line lines isFirst =>
              rw [isFirst] at ih
              simpa [Ne.symm other] using ih

theorem joined_cons (line : List α) (lines : List (List α)) :
    joined mark (line :: lines) = line ++ [mark] ++ joined mark lines := List.flatMap_cons

/-- Lines in front are framed as they are. -/
theorem frame_joined_append [DecidableEq α] {lines : List (List α)}
    (free : ∀ line ∈ lines, mark ∉ line) (rest : List α) :
    frame mark (joined mark lines ++ rest) =
      (lines ++ (frame mark rest).1, (frame mark rest).2) := by
  induction lines with
  | nil => rfl
  | cons line lines ih =>
      obtain ⟨lineFree, laterFree⟩ := List.forall_mem_cons.mp free
      rw [joined_cons, List.append_assoc, List.append_assoc, List.singleton_append]
      have framed := ih laterFree
      induction line with
      | nil => rw [List.nil_append, frame, if_pos rfl, framed]; rfl
      | cons head line ihLine =>
          rw [List.mem_cons, not_or] at lineFree
          have later := ihLine
            (List.forall_mem_cons.mpr ⟨lineFree.2, laterFree⟩) lineFree.2
          rw [List.cons_append, frame, if_neg (Ne.symm lineFree.1), later]
          rfl

/-- A piece without a mark belongs to the first line that ends behind it. -/
theorem frame_free_append [DecidableEq α] {piece : List α} (free : mark ∉ piece)
    (rest : List α) :
    frame mark (piece ++ rest) =
      match (frame mark rest).1 with
      | [] => ([], piece ++ (frame mark rest).2)
      | line :: lines => ((piece ++ line) :: lines, (frame mark rest).2) := by
  induction piece with
  | nil =>
      cases framed : frame mark rest with
      | mk lines tail => cases lines <;> simp [framed]
  | cons head piece ih =>
      rw [List.mem_cons, not_or] at free
      rw [List.cons_append, frame, if_neg (Ne.symm free.1), ih free.2]
      cases (frame mark rest).1 <;> rfl

/-- Without a mark there is no line. -/
theorem frame_none [DecidableEq α] {piece : List α} (free : mark ∉ piece) :
    frame mark piece = ([], piece) := by
  have framed := frame_free_append free ([] : List α)
  rw [List.append_nil] at framed
  simpa [frame] using framed

/-- One line and its end in front of a text. -/
theorem frame_line [DecidableEq α] {line : List α} (free : mark ∉ line) (rest : List α) :
    frame mark (line ++ mark :: rest) =
      (line :: (frame mark rest).1, (frame mark rest).2) := by
  have framed := @frame_joined_append _ mark _ [line] (by simpa using free) rest
  simpa [joined] using framed

/-- Pieces are framed as one: what is open of the first goes on in the second. -/
theorem frame_pieces [DecidableEq α] (open_ first second : List α) :
    frame mark (open_ ++ (first ++ second)) =
      ((frame mark (open_ ++ first)).1 ++
          (frame mark ((frame mark (open_ ++ first)).2 ++ second)).1,
        (frame mark ((frame mark (open_ ++ first)).2 ++ second)).2) := by
  have whole := frame_joined_append (@frame_free _ mark _ (open_ ++ first)).1
    ((frame mark (open_ ++ first)).2 ++ second)
  rwa [← List.append_assoc, frame_joined, List.append_assoc] at whole

/-- Of joined lines that are cut anywhere, those that end before the cut are framed, and
the piece behind them is the start of the next one. -/
theorem frame_take [DecidableEq α] {lines : List (List α)} (free : ∀ line ∈ lines, mark ∉ line)
    (count : Nat) :
    ∃ whole ≤ lines.length, frame mark ((joined mark lines).take count) =
        (lines.take whole, ((joined mark lines).take count).drop
          (joined mark (lines.take whole)).length) ∧
      joined mark (lines.take whole) <+: (joined mark lines).take count ∧
      ∀ next, lines[whole]? = some next →
        ((joined mark lines).take count).drop (joined mark (lines.take whole)).length <+: next := by
  induction lines generalizing count with
  | nil => exact ⟨0, Nat.le_refl _, by simp [joined, frame], by simp [joined], by simp⟩
  | cons line lines ih =>
      obtain ⟨lineFree, laterFree⟩ := List.forall_mem_cons.mp free
      have shape : joined mark (line :: lines) = line ++ mark :: joined mark lines := by
        rw [joined_cons, List.append_assoc, List.singleton_append]
      by_cases inside : line.length < count
      · obtain ⟨count, rfl⟩ : ∃ more, count = line.length + (more + 1) :=
          ⟨count - line.length - 1, by omega⟩
        obtain ⟨whole, bound, framed, opens, next⟩ := ih laterFree count
        have cut : (joined mark (line :: lines)).take (line.length + (count + 1)) =
            line ++ mark :: (joined mark lines).take count := by
          rw [shape, List.take_length_add_append, List.take_succ_cons]
        have front : joined mark ((line :: lines).take (whole + 1)) =
            line ++ mark :: joined mark (lines.take whole) := by
          rw [List.take_succ_cons, joined_cons, List.append_assoc, List.singleton_append]
        have rest : ((joined mark (line :: lines)).take (line.length + (count + 1))).drop
            (joined mark ((line :: lines).take (whole + 1))).length =
              ((joined mark lines).take count).drop (joined mark (lines.take whole)).length := by
          rw [cut, front, List.length_append, List.length_cons, List.drop_length_add_append,
            List.drop_succ_cons]
        refine ⟨whole + 1, Nat.succ_le_succ bound, ?_, ?_, ?_⟩
        · rw [rest, cut, frame_line lineFree, framed, List.take_succ_cons]
        · rw [cut, front]
          exact (List.prefix_append_right_inj _).mpr (List.cons_prefix_cons.mpr ⟨rfl, opens⟩)
        · rw [rest]
          simpa using next
      · have cut : (joined mark (line :: lines)).take count = line.take count := by
          rw [shape, List.take_append_of_le_length (by omega)]
        have pieceFree : mark ∉ line.take count := fun member =>
          lineFree (List.mem_of_mem_take member)
        refine ⟨0, Nat.zero_le _, ?_, ?_, ?_⟩
        · rw [cut, frame_none pieceFree]
          rfl
        · exact List.nil_prefix
        · intro next isNext
          rw [cut]
          obtain rfl := Option.some.inj isNext
          exact List.take_prefix _ _

theorem joined_append (first second : List (List α)) :
    joined mark (first ++ second) = joined mark first ++ joined mark second := List.flatMap_append

theorem joined_take_length_le (mark : α) (lines : List (List α)) {few many : Nat}
    (fewer : few ≤ many) :
    (joined mark (lines.take few)).length ≤ (joined mark (lines.take many)).length := by
  have parts := List.take_append_drop few (lines.take many)
  rw [List.take_take, Nat.min_eq_left fewer] at parts
  rw [← parts, joined_append, List.length_append]
  exact Nat.le_add_right _ _

/-- The lines that a cut leaves whole are those whose mark is inside it. -/
theorem lt_whole_iff [DecidableEq α] {lines : List (List α)} {count whole : Nat}
    (opens : joined mark (lines.take whole) <+: (joined mark lines).take count)
    (next : ∀ next, lines[whole]? = some next →
      ((joined mark lines).take count).drop (joined mark (lines.take whole)).length <+: next)
    {place : Nat} (inside : place < lines.length) :
    place < whole ↔ (joined mark (lines.take (place + 1))).length ≤ count := by
  have fits := opens.length_le
  rw [List.length_take] at fits
  constructor
  · intro before
    have fewer := @joined_take_length_le _ mark lines (place + 1) whole before
    omega
  · intro within
    by_contra behind
    obtain ⟨last, isLast⟩ : ∃ last, lines[whole]? = some last :=
      ⟨_, List.getElem?_eq_getElem (Nat.lt_of_le_of_lt (Nat.not_lt.mp behind) inside)⟩
    have short := (next last isLast).length_le
    have longer := @joined_take_length_le _ mark lines (whole + 1) (place + 1) (by omega)
    have total := @joined_take_length_le _ mark lines (place + 1) lines.length inside
    have length : (joined mark [last]).length = last.length + 1 := by simp [joined]
    rw [List.take_length] at total
    rw [List.take_add_one, isLast, joined_append, List.length_append, Option.toList_some,
      length] at longer
    rw [List.length_drop, List.length_take] at short
    omega

/-- The framing of two pieces from that of each: the line between them is joined. -/
theorem frame_append [DecidableEq α] (first second : List α) :
    frame mark (first ++ second) =
      match (frame mark second).1 with
      | [] => ((frame mark first).1, (frame mark first).2 ++ (frame mark second).2)
      | line :: lines =>
          ((frame mark first).1 ++ ((frame mark first).2 ++ line) :: lines,
            (frame mark second).2) := by
  obtain ⟨linesFree, restFree⟩ := @frame_free _ mark _ first
  have framed := frame_joined_append linesFree ((frame mark first).2 ++ second)
  rw [← List.append_assoc, frame_joined, frame_free_append restFree] at framed
  rw [framed]
  cases (frame mark second).1 <;> simp

/-- Of two lines at one place neither is longer. -/
theorem line_unique {text first second : List α} (firstFree : mark ∉ first)
    (secondFree : mark ∉ second) (isFirst : first ++ [mark] <+: text)
    (isSecond : second ++ [mark] <+: text) : first = second := by
  induction first generalizing second text with
  | nil =>
      cases second with
      | nil => rfl
      | cons head rest =>
          obtain ⟨after, rfl⟩ := isFirst
          rw [List.nil_append, List.singleton_append, List.cons_append, List.cons_prefix_cons]
            at isSecond
          exact absurd (isSecond.1 ▸ List.mem_cons_self) secondFree
  | cons head rest ih =>
      obtain ⟨after, rfl⟩ := isFirst
      cases second with
      | nil =>
          rw [List.nil_append, List.cons_append, List.cons_append, List.cons_prefix_cons]
            at isSecond
          exact absurd (isSecond.1 ▸ List.mem_cons_self) firstFree
      | cons other later =>
          rw [List.cons_append, List.cons_append, List.cons_append, List.cons_prefix_cons]
            at isSecond
          obtain ⟨rfl, isLater⟩ := isSecond
          rw [List.mem_cons, not_or] at firstFree secondFree
          rw [ih firstFree.2 secondFree.2 ⟨after, rfl⟩ isLater]

namespace IsLine

variable {text more line : List α} {start : Nat}

theorem end_le (isLine : IsLine mark text start line) : start + line.length + 1 ≤ text.length := by
  have fits := isLine.held.length_le
  rw [List.length_append, List.length_drop, List.length_singleton] at fits
  omega

/-- A line between what comes before it, which is nothing or ends in a mark, and the rest. -/
theorem split (isLine : IsLine mark text start line) :
    ∃ before after, text = before ++ line ++ mark :: after ∧
      (before = [] ∨ ∃ front, before = front ++ [mark]) := by
  obtain ⟨after, held⟩ := isLine.held
  refine ⟨text.take start, after, ?_, ?_⟩
  · rw [List.append_assoc, ← List.singleton_append, ← List.append_assoc line, held,
      List.take_append_drop]
  · rcases isLine.boundary with rfl | ⟨before, rfl, isMark⟩
    · exact Or.inl rfl
    · exact Or.inr ⟨text.take before, by rw [List.take_add_one, isMark]; rfl⟩

/-- A longer sequence holds every line. -/
theorem extend (isLine : IsLine mark text start line) (grown : text <+: more) :
    IsLine mark more start line := by
  obtain ⟨after, rfl⟩ := grown
  have within := isLine.end_le
  refine ⟨isLine.free, ?_, ?_⟩
  · rcases isLine.boundary with first | ⟨before, rfl, isMark⟩
    · exact Or.inl first
    · exact Or.inr ⟨before, rfl, by rw [List.getElem?_append_left (by omega), isMark]⟩
  · rw [List.drop_append_of_le_length (by omega)]
    exact isLine.held.trans (List.prefix_append _ _)

/-- A line that ends within a shorter sequence is one of its own. -/
theorem restrict (isLine : IsLine mark more start line) (grown : text <+: more)
    (within : start + line.length + 1 ≤ text.length) : IsLine mark text start line := by
  obtain ⟨after, rfl⟩ := grown
  refine ⟨isLine.free, ?_, ?_⟩
  · rcases isLine.boundary with first | ⟨before, rfl, isMark⟩
    · exact Or.inl first
    · rw [List.getElem?_append_left (by omega)] at isMark
      exact Or.inr ⟨before, rfl, isMark⟩
  · have held := isLine.held
    rw [List.drop_append_of_le_length (by omega)] at held
    refine List.prefix_of_prefix_length_le held (List.prefix_append _ _) ?_
    rw [List.length_append, List.length_drop, List.length_singleton]
    omega

theorem unique {other : List α} (isLine : IsLine mark text start line)
    (again : IsLine mark text start other) : line = other :=
  line_unique isLine.free again.free isLine.held again.held

/-- A line that ends past a boundary starts at it or past it. -/
theorem start_ge {place : Nat} (isLine : IsLine mark text start line)
    (boundary : Boundary mark text place) (past : place < start + line.length + 1) :
    place ≤ start := by
  by_contra early
  rcases boundary with first | ⟨before, rfl, isMark⟩
  · omega
  · obtain ⟨after, held⟩ := isLine.held
    have inside : text[before]? = (line)[before - start]? := by
      have dropped : text[before]? = (text.drop start)[before - start]? := by
        rw [List.getElem?_drop]
        congr 1
        omega
      rw [dropped, ← held, List.append_assoc, List.getElem?_append_left (by omega)]
    rw [inside] at isMark
    exact isLine.free (List.mem_of_getElem? isMark)

end IsLine

theorem placed_lines (start : Nat) (lines : List (List α)) :
    (placed start lines).map (·.2) = lines := by
  induction lines generalizing start with
  | nil => rfl
  | cons line lines ih => rw [placed, List.map_cons, ih]

section Placed

variable {text rest : List α} {start : Nat} {lines : List (List α)}

theorem boundary_next {line after : List α} (held : text.drop start = line ++ [mark] ++ after) :
    Boundary mark text (start + line.length + 1) ∧
      text.drop (start + line.length + 1) = after := by
  constructor
  · refine Or.inr ⟨start + line.length, rfl, ?_⟩
    rw [← List.getElem?_drop, held, List.append_assoc, List.getElem?_append_right (Nat.le_refl _)]
    simp
  · rw [Nat.add_assoc, ← List.drop_drop, held, List.drop_left']
    simp

/-- Framed lines are lines, and they are all that end within what was framed. -/
theorem mem_placed (held : text.drop start = joined mark lines ++ rest)
    (boundary : Boundary mark text start) (free : ∀ line ∈ lines, mark ∉ line) {place : Nat}
    {line : List α} :
    (place, line) ∈ placed start lines ↔ IsLine mark text place line ∧ start ≤ place ∧
      place + line.length + 1 ≤ start + (joined mark lines).length := by
  induction lines generalizing start with
  | nil =>
      simp only [placed, joined, List.flatMap_nil, List.length_nil, List.not_mem_nil, false_iff]
      omega
  | cons first lines ih =>
      rw [joined_cons, List.append_assoc] at held
      obtain ⟨next, dropped⟩ := boundary_next held
      have later := ih dropped next fun line member => free line (List.mem_cons_of_mem _ member)
      have isFirst : IsLine mark text start first :=
        ⟨free first List.mem_cons_self, boundary, held ▸ List.prefix_append _ _⟩
      have length : (joined mark (first :: lines)).length =
          first.length + 1 + (joined mark lines).length := by
        rw [joined_cons, List.length_append, List.length_append, List.length_singleton]
      rw [placed, List.mem_cons, later, length]
      constructor
      · rintro (here | ⟨isLine, past, within⟩)
        · cases here
          exact ⟨isFirst, Nat.le_refl _, by omega⟩
        · exact ⟨isLine, by omega, by omega⟩
      · rintro ⟨isLine, past, within⟩
        rcases Nat.eq_or_lt_of_le past with here | beyond
        · subst here
          exact Or.inl (Prod.ext rfl (isLine.unique isFirst))
        · have passed : start + first.length + 1 < place + line.length + 1 ∨
              place + line.length + 1 ≤ start + first.length + 1 := by omega
          rcases passed with passed | inside
          · exact Or.inr ⟨isLine, isLine.start_ge next passed, by omega⟩
          · have early := isFirst.start_ge isLine.boundary (by omega)
            omega

end Placed

end Ccrc.Library
