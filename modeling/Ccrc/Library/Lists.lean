import Mathlib

/-! Lists whose members exclude one another, the first member of each key, and
texts cut at a separator. -/

set_option autoImplicit false

namespace Ccrc.Library

variable {α κ : Type*}

/-- A selection that no two members of a list may share picks one at most. -/
theorem length_filter_le_one {selects : α → Bool} {items : List α}
    (exclusive : items.Pairwise fun first second => ¬(selects first ∧ selects second)) :
    (items.filter selects).length ≤ 1 := by
  have apart := exclusive.filter selects
  have each : ∀ item ∈ items.filter selects, selects item = true := fun item member =>
    (List.mem_filter.mp member).2
  generalize items.filter selects = kept at apart each
  match kept with
  | [] => simp
  | [_] => simp
  | first :: second :: rest =>
      exact absurd ⟨each first (by simp), each second (by simp)⟩
        ((List.pairwise_cons.mp apart).1 second (by simp))

theorem foldl_max_bounds [LinearOrder α] (start : α) (items : List α) :
    start ≤ items.foldl max start ∧ ∀ item ∈ items, item ≤ items.foldl max start := by
  induction items generalizing start with
  | nil => exact ⟨le_refl start, fun _ member => absurd member List.not_mem_nil⟩
  | cons first rest ih =>
      obtain ⟨above, each⟩ := ih (max start first)
      refine ⟨le_trans (le_max_left start first) above, fun item member => ?_⟩
      cases List.mem_cons.mp member with
      | inl here =>
          rw [here]
          exact le_trans (le_max_right start first) above
      | inr later => exact each item later

theorem le_foldl_max [LinearOrder α] {start : α} {items : List α} {item : α}
    (member : item ∈ items) : item ≤ items.foldl max start :=
  (foldl_max_bounds start items).2 item member

/-- A rewrite that leaves alone what is sought, and turns nothing else into it. -/
theorem find?_map_fixed {sought : α → Bool} {change : α → α} (items : List α)
    (same : ∀ item, sought (change item) = sought item)
    (fixed : ∀ item, sought item = true → change item = item) :
    (items.map change).find? sought = items.find? sought := by
  induction items with
  | nil => rfl
  | cons item items ih =>
      rw [List.map_cons, List.find?_cons, List.find?_cons, same, ih]
      cases found : sought item with
      | true => simp [fixed item found]
      | false => rfl

/-! ## Reading every member -/

theorem forall₂_mem_left {β : Type*} {related : α → β → Prop} {items : List α} {results : List β}
    (each : List.Forall₂ related items results) {item : α} (member : item ∈ items) :
    ∃ result ∈ results, related item result := by
  induction each with
  | nil => cases member
  | @cons first result _ _ here _ ih =>
      cases List.mem_cons.mp member with
      | inl same => exact ⟨result, List.mem_cons_self, same ▸ here⟩
      | inr later =>
          obtain ⟨other, among, holds⟩ := ih later
          exact ⟨other, List.mem_cons_of_mem result among, holds⟩

theorem forall₂_mem_right {β : Type*} {related : α → β → Prop} {items : List α}
    {results : List β} (each : List.Forall₂ related items results) {result : β}
    (member : result ∈ results) : ∃ item ∈ items, related item result :=
  forall₂_mem_left each.flip member

theorem mapM_eq_some_iff {β : Type*} {read : α → Option β} {items : List α} {results : List β} :
    items.mapM read = some results ↔
      List.Forall₂ (fun item result => read item = some result) items results := by
  induction items generalizing results with
  | nil =>
      rw [List.mapM_nil, List.forall₂_nil_left_iff]
      exact ⟨fun same => (Option.some.inj same).symm, fun same => congrArg some same.symm⟩
  | cons item items ih =>
      simp only [List.mapM_cons, Option.bind_eq_bind, Option.bind_eq_some_iff, Option.pure_def,
        Option.some.injEq, List.forall₂_cons_left_iff, ih]
      constructor
      · rintro ⟨result, isRead, rest, areRead, rfl⟩
        exact ⟨result, rest, isRead, areRead, rfl⟩
      · rintro ⟨result, rest, isRead, areRead, rfl⟩
        exact ⟨result, isRead, rest, areRead, rfl⟩

theorem mapM_eq_ok_iff {β ε : Type*} {read : α → Except ε β} {items : List α}
    {results : List β} :
    items.mapM read = .ok results ↔
      List.Forall₂ (fun item result => read item = .ok result) items results := by
  induction items generalizing results with
  | nil =>
      rw [List.mapM_nil, List.forall₂_nil_left_iff]
      exact ⟨fun same => (Except.ok.inj same).symm, fun same => congrArg Except.ok same.symm⟩
  | cons item items ih =>
      rw [List.mapM_cons, List.forall₂_cons_left_iff]
      constructor
      · intro isRead
        cases first : read item with
        | error error => simp [first, bind, Except.bind] at isRead
        | ok result =>
            cases others : items.mapM read with
            | error error => simp [first, others, bind, Except.bind] at isRead
            | ok rest =>
                simp only [first, others, bind, Except.bind, pure, Except.pure,
                  Except.ok.injEq] at isRead
                exact ⟨result, rest, rfl, ih.mp others, isRead.symm⟩
      · rintro ⟨result, rest, first, others, rfl⟩
        simp [first, ih.mpr others, bind, Except.bind, pure, Except.pure]

/-- Of a list without two of a key, a member is all that its key selects. -/
theorem filter_key_eq {key : α → κ} [DecidableEq κ] {items : List α}
    (distinct : (items.map key).Nodup) {item : α} (member : item ∈ items) :
    items.filter (fun other => key other = key item) = [item] := by
  induction items with
  | nil => cases member
  | cons head rest ih =>
      rw [List.map_cons, List.nodup_cons] at distinct
      cases List.mem_cons.mp member with
      | inl here =>
          subst here
          rw [List.filter_cons_of_pos (by simp), List.filter_eq_nil_iff.mpr]
          intro other later same
          exact distinct.1 (of_decide_eq_true same ▸ List.mem_map_of_mem later)
      | inr later =>
          rw [List.filter_cons_of_neg, ih distinct.2 later]
          intro same
          exact distinct.1 (of_decide_eq_true same ▸ List.mem_map_of_mem later)

/-! ## The first member of each key -/

section FirstBy

variable [DecidableEq κ]

/-- The members whose key neither stands in `seen` nor was met before. -/
def firstBy (key : α → κ) (seen : List κ) : List α → List α
  | [] => []
  | item :: rest =>
      if key item ∈ seen then firstBy key seen rest
      else item :: firstBy key (key item :: seen) rest

variable {key : α → κ}

theorem firstBy_sublist (seen : List κ) (items : List α) :
    (firstBy key seen items).Sublist items := by
  induction items generalizing seen with
  | nil => exact List.Sublist.refl []
  | cons item rest ih =>
      rw [firstBy]
      split
      next => exact (ih seen).cons item
      next => exact (ih _).cons_cons item

theorem firstBy_unseen {seen : List κ} {items : List α} {item : α}
    (member : item ∈ firstBy key seen items) : key item ∉ seen := by
  induction items generalizing seen with
  | nil => cases member
  | cons first rest ih =>
      rw [firstBy] at member
      split at member
      next => exact ih member
      next unseen =>
          cases List.mem_cons.mp member with
          | inl here => exact here ▸ unseen
          | inr later => exact fun old => ih later (List.mem_cons_of_mem _ old)

theorem firstBy_nodup (key : α → κ) (seen : List κ) (items : List α) :
    ((firstBy key seen items).map key).Nodup := by
  induction items generalizing seen with
  | nil => exact List.nodup_nil
  | cons item rest ih =>
      rw [firstBy]
      split
      next => exact ih seen
      next =>
          refine List.nodup_cons.mpr ⟨fun again => ?_, ih _⟩
          obtain ⟨other, member, same⟩ := List.mem_map.mp again
          exact firstBy_unseen member (same ▸ List.mem_cons_self)

theorem firstBy_covers (key : α → κ) {seen : List κ} {items : List α} {item : α} (member : item ∈ items)
    (unseen : key item ∉ seen) : ∃ first ∈ firstBy key seen items, key first = key item := by
  induction items generalizing seen with
  | nil => cases member
  | cons head rest ih =>
      rw [firstBy]
      by_cases old : key head ∈ seen
      · rw [if_pos old]
        cases List.mem_cons.mp member with
        | inl here => exact absurd (here ▸ old) unseen
        | inr later => exact ih later unseen
      · rw [if_neg old]
        by_cases same : key head = key item
        · exact ⟨head, List.mem_cons_self, same⟩
        · cases List.mem_cons.mp member with
          | inl here => exact absurd (congrArg key here.symm) same
          | inr later =>
              have still : key item ∉ key head :: seen := by
                simpa [Ne.symm same] using unseen
              obtain ⟨first, among, isSame⟩ := ih later still
              exact ⟨first, List.mem_cons_of_mem _ among, isSame⟩

end FirstBy

/-! ## Texts cut at a separator -/

theorem intercalate_append (separator : List α) {before after : List (List α)}
    (isBefore : before ≠ []) (isAfter : after ≠ []) :
    separator.intercalate (before ++ after) =
      separator.intercalate before ++ separator ++ separator.intercalate after := by
  induction before with
  | nil => exact absurd rfl isBefore
  | cons item before ih =>
      cases before with
      | nil => simp [List.intercalate_cons_of_ne_nil isAfter]
      | cons next before =>
          rw [List.cons_append, List.intercalate_cons_of_ne_nil (by simp), ih (by simp),
            List.intercalate_cons_of_ne_nil (List.cons_ne_nil next before)]
          simp

theorem not_mem_of_mem_splitOn [DecidableEq α] {separator : α} {items part : List α}
    (among : part ∈ items.splitOn separator) : separator ∉ part := by
  induction items generalizing part with
  | nil =>
      rw [List.splitOn_nil, List.mem_singleton] at among
      rw [among]
      exact List.not_mem_nil
  | cons head rest ih =>
      rw [List.splitOn_cons_eq_if_modifyHead] at among
      split at among
      next =>
          rcases List.mem_cons.mp among with rfl | later
          · exact List.not_mem_nil
          · exact ih later
      next other =>
          cases segments : rest.splitOn separator with
          | nil => exact absurd segments (List.splitOn_ne_nil separator rest)
          | cons first segments' =>
              rw [segments, List.modifyHead_cons] at among
              rw [segments] at ih
              rcases List.mem_cons.mp among with rfl | later
              · intro member
                rcases List.mem_cons.mp member with rfl | inside
                · exact other (beq_self_eq_true _)
                · exact ih List.mem_cons_self inside
              · exact ih (List.mem_cons_of_mem _ later)

/-- One text's segments open the other's exactly where the texts are equal or the
other goes on after the separator. -/
theorem splitOn_isPrefix_iff [DecidableEq α] (separator : α) (first second : List α) :
    first.splitOn separator <+: second.splitOn separator ↔
      first = second ∨ first ++ [separator] <+: second := by
  constructor
  · rintro ⟨rest, segments⟩
    have whole : [separator].intercalate (second.splitOn separator) = second :=
      List.intercalate_splitOn separator
    cases rest with
    | nil =>
        rw [List.append_nil] at segments
        rw [← segments, List.intercalate_splitOn] at whole
        exact Or.inl whole
    | cons segment rest =>
        have nonempty := List.splitOn_ne_nil separator first
        rw [← segments, intercalate_append _ nonempty (List.cons_ne_nil segment rest),
          List.intercalate_splitOn] at whole
        exact Or.inr ⟨_, whole⟩
  · rintro (rfl | ⟨rest, rfl⟩)
    · exact List.prefix_refl _
    · refine ⟨rest.splitOn separator, ?_⟩
      rw [List.append_assoc, List.singleton_append]
      exact (List.splitOn_append_cons_self first rest).symm

end Ccrc.Library
