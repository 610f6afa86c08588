import Mathlib

/-! A loop that takes, again and again, the first item of a line that is ready, and
what is left of a finite relation where every item has a next one. -/

set_option autoImplicit false

namespace Ccrc.Library

variable {α : Type*}

section Greedy

variable [DecidableEq α] (line : List α) (ready : List α → α → Bool)

def nextReady (taken : List α) : Option α :=
  line.find? fun item => decide (item ∉ taken) && ready taken item

/-- Each turn takes one item; the turns end where no item is ready. -/
def greedy : Nat → List α → List α
  | 0, taken => taken
  | turns + 1, taken =>
      match nextReady line ready taken with
      | none => taken
      | some item => greedy turns (taken ++ [item])

variable {line ready} {taken : List α}

theorem nextReady_some {item : α} (found : nextReady line ready taken = some item) :
    item ∈ line ∧ item ∉ taken ∧ ready taken item = true := by
  have accepted := List.find?_some found
  rw [Bool.and_eq_true, decide_eq_true_eq] at accepted
  exact ⟨List.mem_of_find?_eq_some found, accepted⟩

theorem nextReady_none (found : nextReady line ready taken = none) {item : α}
    (member : item ∈ line) (left : item ∉ taken) : ready taken item = false := by
  have refused := List.find?_eq_none.mp found item member
  simpa [left] using refused

/-- What was taken is from the line, once each, and every item was the first one ready. -/
structure Taken (line : List α) (ready : List α → α → Bool) (taken : List α) : Prop where
  inside : ∀ item ∈ taken, item ∈ line
  distinct : taken.Nodup
  first : ∀ before item after, taken = before ++ item :: after →
    nextReady line ready before = some item

theorem taken_nil : Taken line ready [] :=
  ⟨fun _ member => absurd member List.not_mem_nil, List.nodup_nil,
    fun before item after split => by cases before <;> cases split⟩

theorem Taken.snoc (good : Taken line ready taken) {item : α}
    (found : nextReady line ready taken = some item) : Taken line ready (taken ++ [item]) := by
  obtain ⟨member, fresh, -⟩ := nextReady_some found
  refine ⟨?_, ?_, ?_⟩
  · intro other there
    cases List.mem_append.mp there with
    | inl before => exact good.inside other before
    | inr last => rwa [List.mem_singleton.mp last]
  · refine List.nodup_append.mpr ⟨good.distinct, List.nodup_singleton item, ?_⟩
    intro other there last isLast same
    exact fresh (List.mem_singleton.mp isLast ▸ same ▸ there)
  · intro before other after split
    cases after.eq_nil_or_concat with
    | inl empty =>
        subst empty
        obtain ⟨same, last⟩ := List.append_inj' split rfl
        cases last
        rwa [← same]
    | inr more =>
        obtain ⟨rest, last, rfl⟩ := more
        have whole : taken ++ [item] = (before ++ other :: rest) ++ [last] := by simpa using split
        exact good.first before other rest (List.append_inj' whole rfl).1

/-- With a turn for every item the loop ends because no item that is left is ready. -/
theorem greedy_taken (turns : Nat) (good : Taken line ready taken)
    (enough : line.length ≤ turns + taken.length) :
    Taken line ready (greedy line ready turns taken) ∧
      ∀ item ∈ line, item ∉ greedy line ready turns taken →
        ready (greedy line ready turns taken) item = false := by
  induction turns generalizing taken with
  | zero =>
      refine ⟨good, fun item member left => absurd ?_ left⟩
      have all := (List.subperm_of_subset good.distinct good.inside).perm_of_length_le
        (by simpa using enough)
      exact all.mem_iff.mpr member
  | succ turns ih =>
      unfold greedy
      split
      next found => exact ⟨good, fun item member left => nextReady_none found member left⟩
      next item found =>
          refine ih (good.snoc found) ?_
          rw [List.length_append, List.length_singleton]
          omega

end Greedy

section Next

variable {related : α → α → Prop} {ends : α → Prop} {items : List α}

/-- Where every item ends or has a next one among them, every item reaches an end or a cycle. -/
theorem reaches_end_or_cycle
    (next : ∀ item ∈ items, ends item ∨ ∃ after ∈ items, related item after) {item : α}
    (member : item ∈ items) : ∃ last, Relation.ReflTransGen related item last ∧
      (ends last ∨ Relation.TransGen related last last) := by
  by_contra none
  push Not at none
  let Reached := { other : α // other ∈ items ∧ Relation.ReflTransGen related item other }
  have finite : Finite Reached :=
    (items.finite_toSet.subset fun other there => there.1).to_subtype
  let before : Reached → Reached → Prop := fun one two => Relation.TransGen related two.1 one.1
  have transitive : IsTrans Reached before := ⟨fun _ _ _ left right => right.trans left⟩
  have irreflexive : Std.Irrefl before := ⟨fun one cycle => (none one.1 one.2.2).2 cycle⟩
  have wellFounded := Finite.wellFounded_of_trans_of_irrefl before
  obtain ⟨last, -, least⟩ := wellFounded.has_min Set.univ ⟨⟨item, member, .refl⟩, trivial⟩
  cases next last.1 last.2.1 with
  | inl isEnd => exact (none last.1 last.2.2).1 isEnd
  | inr more =>
      obtain ⟨after, there, step⟩ := more
      exact least ⟨after, there, last.2.2.tail step⟩ trivial (.single step)

end Next

end Ccrc.Library
