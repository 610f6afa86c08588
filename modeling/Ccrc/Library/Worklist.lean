import Mathlib

/-! A depth-first search over a stack, and what it proves of a graph one node's
edges of which are replaced. -/

set_option autoImplicit false

namespace Ccrc.Library

variable {α ε : Type*} [DecidableEq α]

/-- Pops the stack until it is empty. Nodes are refused as they are popped, met
once, and their successors pushed in order. Every pop spends fuel. -/
def explore (reject : α → Option ε) (expand : α → Except ε (List α)) (exhausted : ε) :
    Nat → List α → List α → Except ε (List α)
  | _, seen, [] => .ok seen
  | 0, _, _ :: _ => .error exhausted
  | fuel + 1, seen, item :: stack =>
      match reject item with
      | some error => .error error
      | none =>
          if item ∈ seen then explore reject expand exhausted fuel seen stack
          else match expand item with
            | .error error => .error error
            | .ok next =>
                explore reject expand exhausted fuel (item :: seen) (next.reverse ++ stack)

section Explore

variable {reject : α → Option ε} {expand : α → Except ε (List α)} {exhausted : ε}

/-- What a finished search has met holds its start and all that follows from it. -/
theorem explore_closed {fuel : Nat} {seen stack met : List α}
    (finished : explore reject expand exhausted fuel seen stack = .ok met) :
    (∀ item ∈ seen, item ∈ met) ∧ (∀ item ∈ stack, item ∈ met) ∧
      ∀ item ∈ met, item ∈ seen ∨ reject item = none ∧
        ∃ next, expand item = .ok next ∧ ∀ after ∈ next, after ∈ met := by
  induction fuel generalizing seen stack with
  | zero =>
      cases stack with
      | nil =>
          cases finished
          exact ⟨fun _ member => member, fun _ member => absurd member List.not_mem_nil,
            fun _ member => Or.inl member⟩
      | cons item stack => cases finished
  | succ fuel ih =>
      cases stack with
      | nil =>
          cases finished
          exact ⟨fun _ member => member, fun _ member => absurd member List.not_mem_nil,
            fun _ member => Or.inl member⟩
      | cons item stack =>
          simp only [explore] at finished
          cases rejected : reject item with
          | some error => simp [rejected] at finished
          | none =>
              rw [rejected] at finished
              by_cases old : item ∈ seen
              · simp only [if_pos old] at finished
                obtain ⟨kept, covered, closed⟩ := ih finished
                exact ⟨kept, List.forall_mem_cons.mpr ⟨kept item old, covered⟩, closed⟩
              · simp only [if_neg old] at finished
                cases expanded : expand item with
                | error error => simp [expanded] at finished
                | ok next =>
                    rw [expanded] at finished
                    obtain ⟨kept, covered, closed⟩ := ih finished
                    have here := kept item List.mem_cons_self
                    refine ⟨fun other member => kept other (List.mem_cons_of_mem item member),
                      List.forall_mem_cons.mpr ⟨here, fun other member =>
                        covered other (List.mem_append_right _ member)⟩, fun other member => ?_⟩
                    cases closed other member with
                    | inr follows => exact Or.inr follows
                    | inl early =>
                        cases List.mem_cons.mp early with
                        | inr seen => exact Or.inl seen
                        | inl same =>
                            subst same
                            exact Or.inr ⟨rejected, next, expanded, fun after among =>
                              covered after (List.mem_append_left _ (List.mem_reverse.mpr among))⟩

/-- The pops that are left at most: the stack, and the successors of every node not
yet met. -/
def pending (weight : α → Nat) (nodes seen stack : List α) : Nat :=
  stack.length + (nodes.map fun node => if node ∈ seen then 0 else weight node).sum

theorem pending_meet (weight : α → Nat) {nodes seen stack next : List α} {item : α}
    (node : item ∈ nodes) (fresh : item ∉ seen) (weighs : next.length = weight item) :
    pending weight nodes (item :: seen) (next.reverse ++ stack) <
      pending weight nodes seen (item :: stack) := by
  have lighter : (nodes.map fun node => if node ∈ item :: seen then 0 else weight node).sum +
      weight item ≤ (nodes.map fun node => if node ∈ seen then 0 else weight node).sum := by
    have each : ∀ node, (if node ∈ item :: seen then 0 else weight node) ≤
        if node ∈ seen then 0 else weight node := by
      intro node
      by_cases old : node ∈ seen
      · simp [old]
      · rw [if_neg old]
        split
        next => exact Nat.zero_le _
        next => exact Nat.le_refl _
    induction nodes with
    | nil => cases node
    | cons first rest ih =>
        simp only [List.map_cons, List.sum_cons]
        cases List.mem_cons.mp node with
        | inl here =>
            have later := List.sum_le_sum (l := rest) fun node _ => each node
            rw [← here, if_pos List.mem_cons_self, if_neg fresh]
            omega
        | inr there =>
            have head := each first
            have later := ih there
            omega
  simp only [pending, List.length_append, List.length_reverse, List.length_cons, weighs]
  omega

/-- Fuel for every pending pop is enough: more of it changes nothing. -/
theorem explore_fuel {weight : α → Nat} {nodes : List α}
    (known : ∀ item next, reject item = none → expand item = .ok next →
      item ∈ nodes ∧ next.length = weight item)
    {fuel more : Nat} {seen stack : List α} (enough : pending weight nodes seen stack ≤ fuel)
    (atLeast : fuel ≤ more) :
    explore reject expand exhausted more seen stack =
      explore reject expand exhausted fuel seen stack := by
  induction fuel generalizing more seen stack with
  | zero =>
      cases stack with
      | nil => cases more <;> rfl
      | cons item stack => simp [pending] at enough
  | succ fuel ih =>
      obtain ⟨more, rfl⟩ := Nat.exists_eq_succ_of_ne_zero (Nat.ne_of_gt (Nat.lt_of_lt_of_le (Nat.succ_pos fuel) atLeast))
      have still := Nat.le_of_succ_le_succ atLeast
      cases stack with
      | nil => rfl
      | cons item stack =>
          simp only [explore]
          cases rejected : reject item with
          | some error => rfl
          | none =>
              by_cases old : item ∈ seen
              · simp only [if_pos old]
                refine ih ?_ still
                simp only [pending, List.length_cons] at enough ⊢
                omega
              · simp only [if_neg old]
                cases expanded : expand item with
                | error error => rfl
                | ok next =>
                    obtain ⟨node, weighs⟩ := known item next rejected expanded
                    exact ih (Nat.le_of_lt_succ
                      (Nat.lt_of_lt_of_le (pending_meet weight node old weighs) enough)) still

end Explore

/-! ## Acyclic graphs -/

variable {edge after : α → α → Prop}

/-- No node follows from itself, not by one edge either. -/
def Acyclic (edge : α → α → Prop) : Prop := ∀ node, ¬Relation.TransGen edge node node

omit [DecidableEq α] in
theorem Acyclic.mono (acyclic : Acyclic edge) (fewer : ∀ one two, after one two → edge one two) :
    Acyclic after := fun node cycle => acyclic node (Relation.TransGen.mono fewer node node cycle)

omit [DecidableEq α] in
/-- Every path of the changed graph is an old one, or passes through the source. -/
theorem path_old_or_through {source : α}
    (same : ∀ one two, one ≠ source → after one two → edge one two) {one two : α}
    (path : Relation.TransGen after one two) :
    Relation.TransGen edge one two ∨
      Relation.ReflTransGen after one source ∧ Relation.TransGen after source two := by
  induction path with
  | @single two step =>
      by_cases here : one = source
      · subst here
        exact Or.inr ⟨.refl, .single step⟩
      · exact Or.inl (.single (same one two here step))
  | @tail mid two path step ih =>
      cases ih with
      | inr through => exact Or.inr ⟨through.1, through.2.tail step⟩
      | inl old =>
          by_cases here : mid = source
          · subst here
            exact Or.inr ⟨path.to_reflTransGen, .single step⟩
          · exact Or.inl (old.tail (same mid two here step))

omit [DecidableEq α] in
/-- Replacing the edges of one node keeps a graph acyclic when the node is not
among what follows from its new edges. -/
theorem Acyclic.replace (acyclic : Acyclic edge) {source : α} {met : α → Prop}
    (same : ∀ one two, one ≠ source → after one two → edge one two)
    (start : ∀ two, after source two → met two)
    (closed : ∀ one two, met one → edge one two → met two) (apart : ¬met source) :
    Acyclic after := by
  have stays : ∀ {one two}, met one → Relation.ReflTransGen after one two → met two := by
    intro one two isMet path
    induction path with
    | refl => exact isMet
    | @tail mid two _ step ih =>
        have elsewhere : mid ≠ source := fun here => apart (here ▸ ih)
        exact closed mid two ih (same mid two elsewhere step)
  have noReturn : ¬Relation.TransGen after source source := by
    intro cycle
    obtain ⟨first, step, rest⟩ := Relation.TransGen.head'_iff.mp cycle
    exact apart (stays (start first step) rest)
  intro node cycle
  cases path_old_or_through same cycle with
  | inl old => exact acyclic node old
  | inr through => exact noReturn (through.2.trans_left through.1)

end Ccrc.Library
