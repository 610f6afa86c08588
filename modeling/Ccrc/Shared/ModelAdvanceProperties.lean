import Ccrc.Library.Run
import Ccrc.Shared.ModelAdvance

/-! Classes that move one at a time: within one family, upwards, and to a fixed
point. -/

set_option autoImplicit false

namespace Ccrc.Shared

open Library

/-! ## Versions -/

theorem findSome?_range {β : Type} (f : Nat → Option β) (n : Nat) (value : β) :
    (List.range n).findSome? f = some value ↔
      ∃ i < n, f i = some value ∧ ∀ j < i, f j = none := by
  induction n with
  | zero => simp
  | succ n ih =>
      rw [List.range_succ, List.findSome?_append, List.findSome?_singleton]
      constructor
      · intro found
        cases early : (List.range n).findSome? f with
        | some first =>
            rw [early, Option.some_or] at found
            cases found
            obtain ⟨i, bound, here, before⟩ := ih.mp early
            exact ⟨i, by omega, here, before⟩
        | none =>
            rw [early, Option.none_or] at found
            refine ⟨n, by omega, found, fun j bound => ?_⟩
            exact List.findSome?_eq_none_iff.mp early j (List.mem_range.mpr bound)
      · rintro ⟨i, bound, here, before⟩
        by_cases last : i = n
        · subst last
          have none : (List.range i).findSome? f = none :=
            List.findSome?_eq_none_iff.mpr fun j member => before j (List.mem_range.mp member)
          rw [none, Option.none_or, here]
        · rw [ih.mpr ⟨i, by omega, here, before⟩, Option.some_or]

/-- The first part that differs is the greater one's. -/
theorem compareVersions_pos_iff {a b : List Nat} :
    0 < compareVersions a b ↔
      ∃ i, b.getD i 0 < a.getD i 0 ∧ ∀ j < i, a.getD j 0 = b.getD j 0 := by
  unfold compareVersions
  have same : ∀ j, comparePart a b j = none ↔ a.getD j 0 = b.getD j 0 := by
    intro j
    simp [comparePart]
  constructor
  · intro positive
    cases found : (List.range (max a.length b.length)).findSome? (comparePart a b) with
    | none =>
        rw [found] at positive
        cases positive
    | some value =>
        rw [found, Option.getD_some] at positive
        obtain ⟨i, -, here, before⟩ := (findSome?_range _ _ _).mp found
        refine ⟨i, ?_, fun j bound => (same j).mp (before j bound)⟩
        unfold comparePart at here
        grind
  · rintro ⟨i, greater, before⟩
    have inside : i < max a.length b.length := by
      by_contra outside
      have missing : a.getD i 0 = 0 := by simp [List.getElem?_eq_none (show a.length ≤ i by omega)]
      omega
    have here : comparePart a b i = some 1 := by
      rw [comparePart, if_pos (Nat.ne_of_gt greater), if_pos greater]
    rw [(findSome?_range _ _ _).mpr ⟨i, inside, here, fun j bound => (same j).mpr (before j bound)⟩]
    decide

theorem compareVersions_trans {a b c : List Nat} (left : 0 < compareVersions a b)
    (right : 0 < compareVersions b c) : 0 < compareVersions a c := by
  obtain ⟨i, greater, before⟩ := compareVersions_pos_iff.mp left
  obtain ⟨j, greater', before'⟩ := compareVersions_pos_iff.mp right
  refine compareVersions_pos_iff.mpr ⟨min i j, ?_, fun k bound => ?_⟩
  · rcases Nat.lt_trichotomy i j with less | same | more
    · rw [Nat.min_eq_left less.le, ← before' i less]
      exact greater
    · subst same
      rw [Nat.min_self]
      exact greater'.trans greater
    · rw [Nat.min_eq_right more.le, before j more]
      exact greater'
  · exact (before k (by omega)).trans (before' k (by omega))

theorem compareVersions_self (a : List Nat) : compareVersions a a = 0 := by
  have none : ∀ i ∈ List.range (max a.length a.length), comparePart a a i = none := by
    intro i _
    simp [comparePart]
  rw [compareVersions, List.findSome?_eq_none_iff.mpr none]
  rfl

/-! ## What a candidate is -/

section Candidate

variable {registry : Registry} {catalogue : Option Catalogue} {cls : ModelClass}
  {family fam : Option Text} {id : Text}

theorem mem_eligibleIds (member : id ∈ eligibleIds registry catalogue) :
    id ∈ resolveDiscovery registry catalogue ∧
      ∃ found, catalogue = some found ∧ ∃ m ∈ found.models, m.id = id ∧ m.hidden = false := by
  unfold eligibleIds at member
  cases catalogue with
  | none => cases member
  | some found =>
      obtain ⟨listed, visible⟩ := List.mem_filter.mp member
      refine ⟨(firstBy_sublist [] _).subset listed, found, rfl, ?_⟩
      obtain ⟨m, among, same⟩ := List.mem_map.mp (of_decide_eq_true visible)
      obtain ⟨inside, shown⟩ := List.mem_filter.mp among
      exact ⟨m, inside, same, by simpa using shown⟩

theorem mem_inFamily {m : InFamily} :
    m ∈ inFamily registry catalogue fam ↔
      m.id ∈ eligibleIds registry catalogue ∧ ∃ p, parseModelId m.id = some p ∧
        some p.family = fam ∧ m.version = p.version := by
  unfold inFamily
  rw [List.mem_filterMap]
  constructor
  · rintro ⟨other, member, taken⟩
    cases parsed : parseModelId other with
    | none => simp [parsed] at taken
    | some p =>
        by_cases same : some p.family = fam
        · simp only [parsed, same, if_true, Option.some.injEq] at taken
          subst taken
          exact ⟨member, p, parsed, same, rfl⟩
        · simp [parsed, same] at taken
  · rintro ⟨member, p, parsed, same, version⟩
    refine ⟨m.id, member, ?_⟩
    simp only [parsed, same, if_true, Option.some.injEq]
    cases m
    simp_all

/-- No other eligible id of the family has the version. -/
def Untied (registry : Registry) (catalogue : Option Catalogue) (id : Text) : Prop :=
  ∀ other ∈ eligibleIds registry catalogue, ∀ p q, parseModelId id = some p →
    parseModelId other = some q → q.family = p.family →
      compareVersions q.version p.version = 0 → other = id

theorem untied_of_mem {m : InFamily} (member : m ∈ untied (inFamily registry catalogue fam)) :
    Untied registry catalogue m.id := by
  obtain ⟨inside, alone⟩ := List.mem_filter.mp member
  obtain ⟨only, single⟩ := List.length_eq_one_iff.mp (beq_iff_eq.mp alone)
  obtain ⟨-, p', parsed', same, version⟩ := mem_inFamily.mp inside
  have itself : m = only := by
    rw [← List.mem_singleton, ← single, List.mem_filter]
    exact ⟨inside, by simp [compareVersions_self]⟩
  intro other eligible p q parsed parsedOther families tied
  cases parsed'.symm.trans parsed
  have twin : (⟨other, q.version⟩ : InFamily) = only := by
    rw [← List.mem_singleton, ← single, List.mem_filter, mem_inFamily]
    exact ⟨⟨eligible, q, parsedOther, by rw [families, same], rfl⟩, by simp [version, tied]⟩
  rw [itself, ← twin]

/-- Everything the choice of a candidate says of it. -/
structure Chosen (registry : Registry) (catalogue : Option Catalogue) (cls : ModelClass)
    (family : Option Text) (id : Text) : Prop where
  eligible : id ∈ eligibleIds registry catalogue
  untied : Untied registry catalogue id
  inFamily : familyOf (some id) =
    if (registry.classes cls).isSome then familyOf (registry.classes cls) else family
  free : ∀ other, registry.classes other ≠ some id
  newer : ∀ pin found, registry.classes cls = some pin → catalogue = some found →
    (∃ m ∈ found.models, m.id = pin) →
    ∃ p q, parseModelId pin = some p ∧ parseModelId id = some q ∧
      0 < compareVersions q.version p.version
  fresh : ∀ pin, registry.classes cls = some pin →
    ∃ found, catalogue = some found ∧ ((∃ m ∈ found.models, m.id = pin) ∨ found.stale = false)

theorem mem_otherPins {other : ModelClass} (apart : other ≠ cls)
    (pinned : registry.classes other = some id) : id ∈ otherPins registry cls := by
  refine List.mem_filterMap.mpr ⟨other, List.mem_filter.mpr ⟨?_, by simpa using apart⟩, pinned⟩
  cases other <;> decide

theorem firstOf_candidate {reason : AdvanceReason} {members : List InFamily}
    (chosen : (firstOf reason members).candidate = some id) : ∃ m ∈ members, m.id = id := by
  cases members with
  | nil => cases chosen
  | cons first rest => exact ⟨first, List.mem_cons_self, Option.some.inj chosen⟩

/-- What is left of the family for the class. -/
theorem mem_free {members : List InFamily} {pin : Option Text} {others : List Text} {m : InFamily}
    (free : m ∈ (newestFirst (untied members)).filter fun m =>
      decide (some m.id ≠ pin) && decide (m.id ∉ others)) :
    m ∈ untied members ∧ some m.id ≠ pin ∧ m.id ∉ others := by
  obtain ⟨sorted, rest⟩ := List.mem_filter.mp free
  simp only [Bool.and_eq_true, decide_eq_true_eq] at rest
  exact ⟨List.mem_mergeSort.mp sorted, rest⟩

/-- Every candidate is the id of a member that is free and untied. -/
theorem candidate_member
    (chosen : (chooseCandidate registry catalogue cls family).candidate = some id) :
    (∀ pin, registry.classes cls = some pin → (parseModelId pin).isSome) ∧
      ∃ m ∈ untied (inFamily registry catalogue
          (if (registry.classes cls).isSome then familyOf (registry.classes cls) else family)),
        m.id = id ∧ some id ≠ registry.classes cls ∧ id ∉ otherPins registry cls ∧
          ∀ pin, registry.classes cls = some pin → ∃ found, catalogue = some found ∧
            if (found.models.any fun row => decide (row.id = pin)) = true then
              0 < compareVersions m.version (((parseModelId pin).map (·.version)).getD [])
            else found.stale = false := by
  unfold chooseCandidate at chosen
  dsimp only at chosen
  generalize (if (registry.classes cls).isSome then familyOf (registry.classes cls) else family) =
    fam at chosen ⊢
  split at chosen
  next => cases chosen
  next readable =>
      split at chosen
      next => cases chosen
      next =>
          generalize registry.classes cls = pin at *
          cases pin with
          | none =>
              obtain ⟨m, free, same⟩ := firstOf_candidate chosen
              obtain ⟨member, apart, others⟩ := mem_free free
              exact ⟨by simp, m, member, same, same ▸ apart, same ▸ others, by simp⟩
          | some pin =>
              have parses : (parseModelId pin).isSome := by simpa [Option.isSome_iff_ne_none] using readable
              cases catalogue with
              | none => cases chosen
              | some found =>
                  dsimp only at chosen
                  split at chosen
                  next listed =>
                      obtain ⟨m, newer, same⟩ := firstOf_candidate chosen
                      obtain ⟨free, positive⟩ := List.mem_filter.mp newer
                      obtain ⟨member, apart, others⟩ := mem_free free
                      refine ⟨fun _ pinned => Option.some.inj pinned ▸ parses, m, member, same,
                        same ▸ apart, same ▸ others, ?_⟩
                      rintro _ ⟨rfl⟩
                      refine ⟨found, rfl, ?_⟩
                      rw [if_pos listed]
                      exact of_decide_eq_true positive
                  next unlisted =>
                      split at chosen
                      next => cases chosen
                      next fresh =>
                          obtain ⟨m, free, same⟩ := firstOf_candidate chosen
                          obtain ⟨member, apart, others⟩ := mem_free free
                          refine ⟨fun _ pinned => Option.some.inj pinned ▸ parses, m, member, same,
                            same ▸ apart, same ▸ others, ?_⟩
                          rintro _ ⟨rfl⟩
                          refine ⟨found, rfl, ?_⟩
                          rw [if_neg unlisted]
                          simpa using fresh

theorem chosen_of_candidate
    (chosen : (chooseCandidate registry catalogue cls family).candidate = some id) :
    Chosen registry catalogue cls family id := by
  obtain ⟨parses, m, member, rfl, apart, others, moved⟩ := candidate_member chosen
  obtain ⟨inside, p, parsed, same, version⟩ :=
    mem_inFamily.mp (List.mem_filter.mp member).1
  constructor
  case eligible => exact inside
  case untied => exact untied_of_mem member
  case inFamily =>
      rw [← same]
      simp [familyOf, parsed]
  case free =>
      intro other pinned
      by_cases here : other = cls
      · exact apart (here ▸ pinned.symm)
      · exact others (mem_otherPins here pinned)
  case newer =>
      rintro pin found pinned rfl ⟨row, listed, rfl⟩
      obtain ⟨found', same', judged⟩ := moved row.id pinned
      cases same'
      have any : (found.models.any fun other => decide (other.id = row.id)) = true :=
        List.any_eq_true.mpr ⟨row, listed, by simp⟩
      rw [if_pos any, version] at judged
      obtain ⟨before, parsed'⟩ := Option.isSome_iff_exists.mp (parses row.id pinned)
      refine ⟨before, p, parsed', parsed, ?_⟩
      simpa [parsed'] using judged
  case fresh =>
      intro pin pinned
      obtain ⟨found, same', judged⟩ := moved pin pinned
      refine ⟨found, same', ?_⟩
      split at judged
      next listed =>
          obtain ⟨row, among, isPin⟩ := List.any_eq_true.mp listed
          exact .inl ⟨row, among, of_decide_eq_true isPin⟩
      next => exact .inr judged

end Candidate

/-! ## One move -/

section Moves

variable (catalogue : Option Catalogue) (families : ModelClass → Option Text)

/-- The model that a class would move to. -/
def candidateOf (registry : Registry) (cls : ModelClass) : Option Text :=
  (chooseCandidate registry catalogue cls (families cls)).candidate

theorem advanceClass_none {registry : Registry} {cls : ModelClass}
    (settled : candidateOf catalogue families registry cls = none) :
    advanceClass catalogue families registry cls = registry := by
  unfold candidateOf at settled
  rw [advanceClass, settled]

theorem advanceClass_some {registry : Registry} {cls : ModelClass} {id : Text}
    (chosen : candidateOf catalogue families registry cls = some id) :
    (advanceClass catalogue families registry cls).classes =
      Function.update registry.classes cls (some id) := by
  unfold candidateOf at chosen
  rw [advanceClass, chosen]

theorem advanceClass_discovery (registry : Registry) (cls : ModelClass) :
    (advanceClass catalogue families registry cls).discovery = registry.discovery := by
  unfold advanceClass
  split <;> rfl

variable {catalogue families}

variable (catalogue) in
theorem eligibleIds_congr {before after : Registry} (same : after.discovery = before.discovery) :
    eligibleIds after catalogue = eligibleIds before catalogue := by
  unfold eligibleIds resolveDiscovery
  rw [same]

theorem eligibleIds_advanceClass (registry : Registry) (cls : ModelClass) :
    eligibleIds (advanceClass catalogue families registry cls) catalogue =
      eligibleIds registry catalogue :=
  eligibleIds_congr catalogue (advanceClass_discovery catalogue families registry cls)

/-- A pin that has moved once is one the catalogue lists. -/
theorem listed_of_eligible {registry : Registry} {id : Text}
    (eligible : id ∈ eligibleIds registry catalogue) :
    ∃ found, catalogue = some found ∧ ∃ m ∈ found.models, m.id = id := by
  obtain ⟨-, found, same, m, among, here, -⟩ := mem_eligibleIds eligible
  exact ⟨found, same, m, among, here⟩

/-! ## How far a class can still move -/

/-- The version of `id` is greater than that of `pin`. -/
def isAbove (pin id : Text) : Bool :=
  match parseModelId pin, parseModelId id with
  | some p, some q => decide (0 < compareVersions q.version p.version)
  | _, _ => false

theorem isAbove_trans {first second third : Text} (left : isAbove first second = true)
    (right : isAbove second third = true) : isAbove first third = true := by
  unfold isAbove at *
  cases parsed : parseModelId first with
  | none => simp [parsed] at left
  | some p =>
      cases parsed' : parseModelId second with
      | none => simp [parsed'] at right
      | some q =>
          cases parsed'' : parseModelId third with
          | none => simp [parsed', parsed''] at right
          | some r =>
              simp only [parsed, parsed', parsed'', decide_eq_true_eq] at left right ⊢
              exact compareVersions_trans right left

theorem isAbove_irrefl (id : Text) : isAbove id id = false := by
  unfold isAbove
  cases parseModelId id with
  | none => rfl
  | some p => simp [compareVersions_self]

/-- The eligible ids above the pin; one more than all of them before the first move. -/
def ahead (eligible : List Text) (pin : Option Text) : Nat :=
  match pin with
  | none => eligible.length + 1
  | some pin =>
      if pin ∈ eligible then (eligible.filter (isAbove pin)).length else eligible.length + 1

theorem ahead_le (eligible : List Text) (pin : Option Text) :
    ahead eligible pin ≤ eligible.length + 1 := by
  unfold ahead
  split
  next => exact Nat.le_refl _
  next =>
      split
      next => exact (List.length_filter_le _ _).trans (Nat.le_succ _)
      next => exact Nat.le_refl _

theorem length_filter_lt {α : Type} {narrow wide : α → Bool} {items : List α}
    (within : ∀ item, narrow item = true → wide item = true) {extra : α} (member : extra ∈ items)
    (outside : narrow extra = false) (inside : wide extra = true) :
    (items.filter narrow).length < (items.filter wide).length := by
  have nested : items.filter narrow = (items.filter wide).filter narrow := by
    rw [List.filter_filter]
    refine List.filter_congr fun item _ => ?_
    cases taken : narrow item with
    | false => simp
    | true => simp [within item taken]
  rw [nested, List.length_filter_lt_length_iff_exists]
  exact ⟨extra, List.mem_filter.mpr ⟨member, inside⟩, by simp [outside]⟩

theorem ahead_of_chosen {registry : Registry} {cls : ModelClass} {family : Option Text} {id : Text}
    (chosen : Chosen registry catalogue cls family id) :
    ahead (eligibleIds registry catalogue) (some id) <
      ahead (eligibleIds registry catalogue) (registry.classes cls) := by
  rw [ahead, if_pos chosen.eligible]
  have below : ((eligibleIds registry catalogue).filter (isAbove id)).length <
      (eligibleIds registry catalogue).length + 1 :=
    Nat.lt_succ_of_le (List.length_filter_le _ _)
  unfold ahead
  split
  next => exact below
  next pin pinned =>
      split
      next eligible =>
          obtain ⟨found, same, listed⟩ := listed_of_eligible eligible
          obtain ⟨p, q, parsed, parsed', greater⟩ := chosen.newer pin found pinned same listed
          have above : isAbove pin id = true := by simp [isAbove, parsed, parsed', greater]
          exact length_filter_lt (fun _ more => isAbove_trans above more) chosen.eligible
            (isAbove_irrefl id) above
      next => exact below

/-- All the moves that are left. -/
def movesLeft (catalogue : Option Catalogue) (registry : Registry) : Nat :=
  (classes.map fun cls => ahead (eligibleIds registry catalogue) (registry.classes cls)).sum

theorem sum_update_lt (measure : Option Text → Nat) (pins : ModelClass → Option Text)
    (cls : ModelClass) (pin : Option Text) (less : measure pin < measure (pins cls)) :
    (classes.map fun other => measure (Function.update pins cls pin other)).sum <
      (classes.map fun other => measure (pins other)).sum := by
  cases cls <;>
    simp only [classes, List.map_cons, List.map_nil, List.sum_cons, List.sum_nil,
      Function.update_self, ne_eq, reduceCtorEq, not_false_eq_true, Function.update_of_ne] <;>
    omega

theorem movesLeft_le (registry : Registry) :
    movesLeft catalogue registry ≤ 4 * (eligibleIds registry catalogue).length + 4 := by
  have each := fun cls => ahead_le (eligibleIds registry catalogue) (registry.classes cls)
  have haiku := each .haiku
  have sonnet := each .sonnet
  have opus := each .opus
  have fable := each .fable
  simp only [movesLeft, classes, List.map_cons, List.map_nil, List.sum_cons, List.sum_nil]
  omega

theorem movesLeft_move {registry : Registry} {cls : ModelClass} {id : Text}
    (chosen : candidateOf catalogue families registry cls = some id) :
    movesLeft catalogue (advanceClass catalogue families registry cls) <
      movesLeft catalogue registry := by
  unfold movesLeft
  rw [eligibleIds_advanceClass, advanceClass_some catalogue families chosen]
  exact sum_update_lt _ _ _ _ (ahead_of_chosen (chosen_of_candidate chosen))

variable (catalogue families) in
/-- What a step does to any one class. -/
theorem advanceClass_cases (registry : Registry) (cls other : ModelClass) :
    (advanceClass catalogue families registry cls).classes other = registry.classes other ∨
      other = cls ∧ ∃ id, Chosen registry catalogue cls (families cls) id ∧
        (advanceClass catalogue families registry cls).classes other = some id := by
  cases found : candidateOf catalogue families registry cls with
  | none =>
      rw [advanceClass_none catalogue families found]
      exact .inl rfl
  | some id =>
      rw [advanceClass_some catalogue families found]
      by_cases same : other = cls
      · subst same
        rw [Function.update_self]
        exact .inr ⟨rfl, id, chosen_of_candidate found, rfl⟩
      · rw [Function.update_of_ne same]
        exact .inl rfl

end Moves

/-! ## Runs -/

section Runs

variable (catalogue : Option Catalogue) (families : ModelClass → Option Text)

/-- The registry after a run of steps, one class each. -/
def advanceAll (start : Registry) (steps : List ModelClass) : Registry :=
  runFrom (advanceClass catalogue families) start steps

/-- How many steps of a run found a candidate. -/
def moves : Registry → List ModelClass → Nat
  | _, [] => 0
  | registry, cls :: rest =>
      (if (candidateOf catalogue families registry cls).isSome then 1 else 0) +
        moves (advanceClass catalogue families registry cls) rest

/-- A step of the run moved the class. -/
def HasMoved (start : Registry) (steps : List ModelClass) (cls : ModelClass) : Prop :=
  ∃ before after, steps = before ++ cls :: after ∧
    (candidateOf catalogue families (advanceAll catalogue families start before) cls).isSome

def PinsDistinct (registry : Registry) : Prop :=
  ∀ cls other pin, registry.classes cls = some pin → registry.classes other = some pin →
    other = cls

def Lists (catalogue : Option Catalogue) (id : Text) : Prop :=
  ∃ found, catalogue = some found ∧ ∃ m ∈ found.models, m.id = id

variable {catalogue families} {start : Registry}

/-- What every step keeps, a run keeps. -/
theorem advanceAll_keeps (holds : Registry → Prop)
    (kept : ∀ registry cls, holds registry → holds (advanceClass catalogue families registry cls))
    (begins : holds start) (steps : List ModelClass) :
    holds (advanceAll catalogue families start steps) :=
  runFrom_invariant kept begins steps

theorem advanceAll_discovery (steps : List ModelClass) :
    (advanceAll catalogue families start steps).discovery = start.discovery :=
  advanceAll_keeps (fun registry => registry.discovery = start.discovery)
    (fun registry cls same => (advanceClass_discovery catalogue families registry cls).trans same)
    rfl steps

theorem family_kept {cls : ModelClass} {pin : Text} (pinned : start.classes cls = some pin)
    (steps : List ModelClass) :
    ∃ pin', (advanceAll catalogue families start steps).classes cls = some pin' ∧
      familyOf (some pin') = familyOf (some pin) := by
  refine advanceAll_keeps (fun registry => ∃ pin', registry.classes cls = some pin' ∧
    familyOf (some pin') = familyOf (some pin)) ?_ ⟨pin, pinned, rfl⟩ steps
  rintro registry turn ⟨pin', pinned', family⟩
  rcases advanceClass_cases catalogue families registry turn cls with
    kept | ⟨rfl, id, chosen, moved⟩
  · exact ⟨pin', kept.trans pinned', family⟩
  · refine ⟨id, moved, ?_⟩
    rw [chosen.inFamily, pinned', Option.isSome_some, if_pos rfl, family]

theorem filled_from {cls : ModelClass} (empty : start.classes cls = none)
    (steps : List ModelClass) :
    ∀ pin, (advanceAll catalogue families start steps).classes cls = some pin →
      familyOf (some pin) = families cls := by
  refine advanceAll_keeps (fun registry => ∀ pin, registry.classes cls = some pin →
    familyOf (some pin) = families cls) ?_ ?_ steps
  · intro registry turn before pin pinned
    rcases advanceClass_cases catalogue families registry turn cls with
      kept | ⟨rfl, id, chosen, moved⟩
    · exact before pin (kept.symm.trans pinned)
    · cases moved.symm.trans pinned
      rw [chosen.inFamily]
      cases earlier : registry.classes cls with
      | none => rfl
      | some pin' => exact before pin' earlier
  · intro pin pinned
    cases empty.symm.trans pinned

theorem distinct_kept (distinct : PinsDistinct start) (steps : List ModelClass) :
    PinsDistinct (advanceAll catalogue families start steps) := by
  refine advanceAll_keeps PinsDistinct ?_ distinct steps
  intro registry turn before cls other pin pinned pinned'
  rcases advanceClass_cases catalogue families registry turn cls with
    kept | ⟨here, id, chosen, moved⟩
  · rcases advanceClass_cases catalogue families registry turn other with
      kept' | ⟨-, id, chosen, moved⟩
    · exact before cls other pin (kept.symm.trans pinned) (kept'.symm.trans pinned')
    · cases moved.symm.trans pinned'
      exact absurd (kept.symm.trans pinned) (chosen.free cls)
  · cases moved.symm.trans pinned
    rcases advanceClass_cases catalogue families registry turn other with kept' | ⟨there, -⟩
    · exact absurd (kept'.symm.trans pinned') (chosen.free other)
    · exact there.trans here.symm

/-- The class pins a model inside the discovery scope that is listed visible. -/
def PinsEligible (catalogue : Option Catalogue) (start : Registry) (cls : ModelClass)
    (registry : Registry) : Prop :=
  registry.discovery = start.discovery ∧
    ∃ pin, registry.classes cls = some pin ∧ pin ∈ eligibleIds start catalogue

theorem pinsEligible_step {cls : ModelClass} {registry : Registry}
    (eligible : PinsEligible catalogue start cls registry) (turn : ModelClass) :
    PinsEligible catalogue start cls (advanceClass catalogue families registry turn) := by
  obtain ⟨discovery, pin, pinned, member⟩ := eligible
  refine ⟨(advanceClass_discovery catalogue families registry turn).trans discovery, ?_⟩
  rcases advanceClass_cases catalogue families registry turn cls with kept | ⟨-, id, chosen, moved⟩
  · exact ⟨pin, kept.trans pinned, member⟩
  · exact ⟨id, moved, eligibleIds_congr catalogue discovery ▸ chosen.eligible⟩

theorem eligible_of_moved {cls : ModelClass} {steps : List ModelClass}
    (moved : HasMoved catalogue families start steps cls) :
    PinsEligible catalogue start cls (advanceAll catalogue families start steps) := by
  obtain ⟨before, after, rfl, some⟩ := moved
  obtain ⟨id, chosen⟩ := Option.isSome_iff_exists.mp some
  have here : PinsEligible catalogue start cls (advanceClass catalogue families
      (advanceAll catalogue families start before) cls) := by
    have discovery : (advanceAll catalogue families start before).discovery = start.discovery :=
      advanceAll_discovery before
    refine ⟨(advanceClass_discovery catalogue families _ cls).trans discovery, id, ?_, ?_⟩
    · rw [advanceClass_some catalogue families chosen, Function.update_self]
    · rw [← eligibleIds_congr catalogue discovery]
      exact (chosen_of_candidate chosen).eligible
  have keeps : ∀ registry turn, PinsEligible catalogue start cls registry →
      PinsEligible catalogue start cls (advanceClass catalogue families registry turn) :=
    fun _ turn eligible => pinsEligible_step eligible turn
  unfold advanceAll
  rw [runFrom_append, runFrom_cons]
  exact runFrom_invariant keeps here after

theorem moves_bound (registry : Registry) (steps : List ModelClass) :
    moves catalogue families registry steps +
        movesLeft catalogue (advanceAll catalogue families registry steps) ≤
      movesLeft catalogue registry := by
  induction steps generalizing registry with
  | nil => simp [moves, advanceAll]
  | cons cls rest ih =>
      have later := ih (advanceClass catalogue families registry cls)
      rw [moves]
      unfold advanceAll at later ⊢
      rw [runFrom_cons]
      cases found : candidateOf catalogue families registry cls with
      | none =>
          rw [advanceClass_none catalogue families found] at later ⊢
          simpa using later
      | some id =>
          have less := movesLeft_move found
          simp only [Option.isSome_some, if_true]
          omega

theorem unlisted_kept {cls : ModelClass} {pin : Text} (pinned : start.classes cls = some pin)
    (unlisted : ¬Lists catalogue pin)
    (stale : ∀ found, catalogue = some found → found.stale = true) (steps : List ModelClass) :
    (advanceAll catalogue families start steps).classes cls = some pin := by
  refine advanceAll_keeps (fun registry => registry.classes cls = some pin) ?_ pinned steps
  intro registry turn still
  rcases advanceClass_cases catalogue families registry turn cls with
    kept | ⟨rfl, id, chosen, -⟩
  · exact kept.trans still
  · obtain ⟨found, same, listed | fresh⟩ := chosen.fresh pin still
    · exact absurd ⟨found, same, listed⟩ unlisted
    · cases (stale found same).symm.trans fresh

/-- What holds of every run of steps. -/
structure AdvanceLaws (catalogue : Option Catalogue) (families : ModelClass → Option Text)
    (start : Registry) (steps : List ModelClass) (reached : Registry) : Prop where
  familyKept : ∀ cls pin, start.classes cls = some pin → ∃ pin', reached.classes cls = some pin' ∧
    familyOf (some pin') = familyOf (some pin)
  filledFrom : ∀ cls pin, start.classes cls = none → reached.classes cls = some pin →
    familyOf (some pin) = families cls
  free : ∀ cls id, candidateOf catalogue families reached cls = some id →
    ∀ other, reached.classes other ≠ some id
  distinct : PinsDistinct start → PinsDistinct reached
  upwards : ∀ cls id, HasMoved catalogue families start steps cls →
    candidateOf catalogue families reached cls = some id →
      ∃ pin p q, reached.classes cls = some pin ∧ parseModelId pin = some p ∧
        parseModelId id = some q ∧ 0 < compareVersions q.version p.version
  visible : ∀ cls id, candidateOf catalogue families reached cls = some id →
    id ∈ resolveDiscovery reached catalogue ∧
      ∃ found, catalogue = some found ∧ ∃ m ∈ found.models, m.id = id ∧ m.hidden = false
  untied : ∀ cls id, candidateOf catalogue families reached cls = some id →
    Untied reached catalogue id
  bounded : moves catalogue families start steps ≤ 4 * (eligibleIds start catalogue).length + 4
  unlisted : ∀ cls pin, start.classes cls = some pin → ¬Lists catalogue pin →
    (∀ found, catalogue = some found → found.stale = true) → reached.classes cls = some pin

theorem advanceLaws (steps : List ModelClass) :
    AdvanceLaws catalogue families start steps (advanceAll catalogue families start steps) where
  familyKept := fun _ _ pinned => family_kept pinned steps
  filledFrom := fun _ pin empty => filled_from empty steps pin
  free := fun _ _ chosen => (chosen_of_candidate chosen).free
  distinct := fun distinct => distinct_kept distinct steps
  upwards := by
    intro cls id moved chosen
    obtain ⟨-, pin, pinned, eligible⟩ := eligible_of_moved moved
    obtain ⟨found, same, listed⟩ := listed_of_eligible eligible
    obtain ⟨p, q, parsed, parsed', greater⟩ :=
      (chosen_of_candidate chosen).newer pin found pinned same listed
    exact ⟨pin, p, q, pinned, parsed, parsed', greater⟩
  visible := fun _ _ chosen => mem_eligibleIds (chosen_of_candidate chosen).eligible
  untied := fun _ _ chosen => (chosen_of_candidate chosen).untied
  bounded := (Nat.le_of_add_right_le (moves_bound start steps)).trans (movesLeft_le start)
  unlisted := fun _ _ pinned unlisted stale => unlisted_kept pinned unlisted stale steps

/-- Every class has its turn again and again. -/
def Fair (order : Nat → ModelClass) : Prop := ∀ cls n, ∃ m, n ≤ m ∧ order m = cls

/-- The registry after the first `n` turns of an order. -/
def afterTurns (catalogue : Option Catalogue) (families : ModelClass → Option Text)
    (start : Registry) (order : Nat → ModelClass) (n : Nat) : Registry :=
  advanceAll catalogue families start ((List.range n).map order)

theorem afterTurns_succ (order : Nat → ModelClass) (n : Nat) :
    afterTurns catalogue families start order (n + 1) =
      advanceClass catalogue families (afterTurns catalogue families start order n) (order n) := by
  unfold afterTurns advanceAll
  rw [List.range_succ, List.map_append, runFrom_append]
  rfl

/-- Where the moves that are left are fewest, nothing moves any more. -/
theorem settles (order : Nat → ModelClass) (fair : Fair order) :
    ∃ n, ∀ m, n ≤ m → ∀ cls,
      candidateOf catalogue families (afterTurns catalogue families start order m) cls = none := by
  let left := fun n => movesLeft catalogue (afterTurns catalogue families start order n)
  let fewest := Function.argmin left
  have least : ∀ m, left fewest ≤ left m := fun m => Function.argmin_le left m
  have still : ∀ m, fewest ≤ m →
      afterTurns catalogue families start order m =
        afterTurns catalogue families start order fewest := by
    intro m later
    induction m, later using Nat.le_induction with
    | base => rfl
    | succ m later ih =>
        rw [afterTurns_succ]
        cases found : candidateOf catalogue families
            (afterTurns catalogue families start order m) (order m) with
        | none => rw [advanceClass_none catalogue families found, ih]
        | some id =>
            have less := movesLeft_move found
            rw [← afterTurns_succ] at less
            have bound := least (m + 1)
            have same : left fewest = movesLeft catalogue
                (afterTurns catalogue families start order m) := by rw [ih]
            exact absurd (Nat.lt_of_le_of_lt bound less) (by rw [same]; exact Nat.lt_irrefl _)
  refine ⟨fewest, fun m later cls => ?_⟩
  obtain ⟨turn, after, isTurn⟩ := fair cls fewest
  rw [still m later]
  cases found : candidateOf catalogue families
      (afterTurns catalogue families start order fewest) cls with
  | none => rfl
  | some id =>
      rw [← still turn after, ← isTurn] at found
      have less := movesLeft_move found
      rw [← afterTurns_succ, still (turn + 1) (by omega), still turn after] at less
      exact absurd less (Nat.lt_irrefl _)

/-- Classes advance within one family, never backwards, and to a fixed point. -/
theorem modelClasses_advance (catalogue : Option Catalogue)
    (families : ModelClass → Option Text) (start : Registry) :
    (∀ steps, AdvanceLaws catalogue families start steps
        (advanceAll catalogue families start steps)) ∧
      ∀ order, Fair order → ∃ n, ∀ m, n ≤ m → ∀ cls,
        candidateOf catalogue families (afterTurns catalogue families start order m) cls = none :=
  ⟨advanceLaws, settles⟩

end Runs

end Ccrc.Shared
