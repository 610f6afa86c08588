import Ccrc.Library.OpenAddressing
import Ccrc.Coord.DelegationHashSet

/-! The hash set is a table with open addressing whose load stays under three quarters:
every probe ends, and what was added is found from then on. -/

set_option autoImplicit false

namespace Ccrc.Coord.DelegationHashSet

open Library
open Library.OpenAddressing (probe occupied Sound)

abbrev Pair : Type := UInt32 × UInt32

/-! ## The array as its pairs -/

def pairsOf : List UInt32 → List Pair
  | [] => []
  | [_] => []
  | hi :: lo :: rest => (hi, lo) :: pairsOf rest

theorem pairsOf_length (slots : List UInt32) : (pairsOf slots).length = slots.length / 2 := by
  induction slots using pairsOf.induct with
  | case1 => rfl
  | case2 => simp [pairsOf]
  | case3 hi lo rest ih => simp only [pairsOf, List.length_cons, ih]; omega

theorem pairsOf_getElem? (slots : List UInt32) (i : Nat) (pair : Pair) :
    (pairsOf slots)[i]? = some pair ↔
      slots[2 * i]? = some pair.1 ∧ slots[2 * i + 1]? = some pair.2 := by
  induction slots using pairsOf.induct generalizing i with
  | case1 => simp [pairsOf]
  | case2 => simp [pairsOf]
  | case3 hi lo rest ih =>
      cases i with
      | zero => simp [pairsOf, Prod.ext_iff]
      | succ i =>
          rw [pairsOf, List.getElem?_cons_succ, ih]
          rfl

theorem isPair_iff {slots : List UInt32} {i : Nat} {pair : Pair} :
    isPair slots i pair = true ↔ (pairsOf slots)[i]? = some pair := by
  rw [pairsOf_getElem?, isPair, Bool.and_eq_true, beq_iff_eq, beq_iff_eq]

theorem pairsOf_putPair (slots : List UInt32) (i : Nat) (pair : Pair) :
    pairsOf (putPair slots i pair) = (pairsOf slots).set i pair := by
  induction slots using pairsOf.induct generalizing i with
  | case1 => rfl
  | case2 => cases i <;> rfl
  | case3 hi lo rest ih =>
      cases i with
      | zero => rfl
      | succ i => exact congrArg ((hi, lo) :: ·) (ih i)

theorem putPair_length (slots : List UInt32) (i : Nat) (pair : Pair) :
    (putPair slots i pair).length = slots.length := by
  rw [putPair, List.length_set, List.length_set]

theorem pairsOf_replicate (pairs : Nat) :
    pairsOf (List.replicate (2 * pairs) 0) = List.replicate pairs (0, 0) := by
  induction pairs with
  | zero => rfl
  | succ pairs ih =>
      rw [Nat.mul_succ, List.replicate_succ, List.replicate_succ, pairsOf, ih, List.replicate_succ]

/-! ## Probes -/

/-- Where the probe for a hash starts among so many pairs. -/
def home (pairs : Nat) (hash : Pair) : Nat :=
  (hash.2 ^^^ hash.1 * 0x9e3779b1).toNat &&& (pairs - 1)

/-- A length that a mask can stand for: a power of two of pairs. -/
def IsMasked (slots : List UInt32) : Prop := ∃ k, 10 ≤ k ∧ slots.length = 2 * 2 ^ k

theorem IsMasked.pairs {slots : List UInt32} (masked : IsMasked slots) :
    ∃ k, (pairsOf slots).length = 2 ^ k := by
  obtain ⟨k, -, length⟩ := masked
  exact ⟨k, by rw [pairsOf_length, length]; omega⟩

theorem home_lt {slots : List UInt32} (masked : IsMasked slots) (hash : Pair) :
    home (pairsOf slots).length hash < (pairsOf slots).length := by
  obtain ⟨k, power⟩ := masked.pairs
  rw [home, power, Nat.and_two_pow_sub_one_eq_mod]
  exact Nat.mod_lt _ (Nat.two_pow_pos k)

theorem probeFrom_eq {slots : List UInt32} (masked : IsMasked slots) (hash : Pair)
    (fuel i : Nat) :
    probeFrom slots hash fuel i = probe (0, 0) (pairsOf slots) hash fuel i := by
  obtain ⟨k, power⟩ := masked.pairs
  induction fuel generalizing i with
  | zero => rfl
  | succ fuel ih =>
      rw [probeFrom, probe, ih, ← pairsOf_length, power, Nat.and_two_pow_sub_one_eq_mod]
      simp only [Bool.or_eq_true, isPair_iff]

theorem probeOf_eq {slots : List UInt32} (masked : IsMasked slots) (hash : Pair) :
    probeOf slots hash = probe (0, 0) (pairsOf slots) hash (pairsOf slots).length
      (home (pairsOf slots).length hash) := by
  rw [probeOf, probeFrom_eq masked, pairsOf_length, home]

theorem hash64_ne (text : Text) : hash64 text ≠ (0, 0) := by
  simp only [hash64]
  split_ifs with both
  · decide
  · exact fun bad => both (Prod.ext_iff.mp bad)

/-! ## What the array holds -/

/-- The array holds these hashes, each where its probe finds it. -/
structure Holding (slots : List UInt32) (size : Nat) (added : List Pair) : Prop where
  sound : Sound (0, 0) home (pairsOf slots)
  size : size = occupied (0, 0) (pairsOf slots)
  mem : ∀ hash, hash ≠ (0, 0) → (hash ∈ pairsOf slots ↔ hash ∈ added)

section Holding

variable {slots : List UInt32} {size : Nat} {added : List Pair}

theorem Holding.room (holding : Holding slots size added) (masked : IsMasked slots)
    (load : size * 4 ≤ slots.length / 2 * 3) :
    occupied (0, 0) (pairsOf slots) < (pairsOf slots).length := by
  obtain ⟨k, power⟩ := masked.pairs
  have positive := Nat.two_pow_pos k
  rw [← pairsOf_length] at load
  have filled := holding.size
  omega

/-- A probe ends, at the hash if it was added and else at an empty pair. -/
theorem Holding.probeOf (holding : Holding slots size added) (masked : IsMasked slots)
    (load : size * 4 ≤ slots.length / 2 * 3) {hash : Pair} (isHash : hash ≠ (0, 0)) :
    ∃ i, probeOf slots hash = some i ∧ (isPair slots i hash = true ↔ hash ∈ added) := by
  have empty := OpenAddressing.vacant_of_occupied_lt (holding.room masked load)
  obtain ⟨i, found⟩ := OpenAddressing.probe_ends (home_lt masked hash) empty
  refine ⟨i, (probeOf_eq masked hash).trans found, ?_⟩
  rw [isPair_iff, holding.sound.probe_iff isHash found, holding.mem hash isHash]

theorem Holding.putPair (holding : Holding slots size added) (masked : IsMasked slots)
    {hash : Pair} (isHash : hash ≠ (0, 0)) (absent : hash ∉ added) {i : Nat}
    (found : DelegationHashSet.probeOf slots hash = some i) :
    Holding (putPair slots i hash) (size + 1) (hash :: added) := by
  rw [probeOf_eq masked] at found
  have absent' : hash ∉ pairsOf slots := fun stored => absent ((holding.mem hash isHash).mp stored)
  obtain ⟨sound, free⟩ := holding.sound.insert absent' found
  refine ⟨?_, ?_, fun other isOther => ?_⟩
  · rw [pairsOf_putPair]
    exact sound
  · rw [pairsOf_putPair, OpenAddressing.occupied_set free isHash, holding.size]
  · rw [pairsOf_putPair, OpenAddressing.mem_set_free free isOther, holding.mem other isOther,
      List.mem_cons]

end Holding

/-! ## Growing -/

/-- One pair of the old array into the new one. -/
def growStep (grown : List UInt32) (pair : Pair) : Option (List UInt32) :=
  if pair = (0, 0) then some grown else (probeOf grown pair).map (putPair grown · pair)

theorem IsMasked.putPair {slots : List UInt32} (masked : IsMasked slots) (i : Nat) (pair : Pair) :
    IsMasked (putPair slots i pair) := by
  obtain ⟨k, large, length⟩ := masked
  exact ⟨k, large, (putPair_length slots i pair).trans length⟩

theorem grow_eq (slots : List UInt32) :
    grow slots =
      (pairsOf slots).foldlM growStep (List.replicate (max 2048 (slots.length * 2)) 0) := by
  have pairs : pairsOf slots = (List.range (slots.length / 2)).map fun j =>
      (slots.getD (2 * j) 0, slots.getD (2 * j + 1) 0) := by
    refine List.ext_getElem (by simp [pairsOf_length]) fun j within within' => ?_
    have here := (pairsOf_getElem? slots j _).mp (List.getElem?_eq_getElem within)
    rw [List.getElem_map, List.getElem_range, List.getD_eq_getElem?_getD,
      List.getD_eq_getElem?_getD, here.1, here.2]
    rfl
  rw [pairs, List.foldlM_map]
  rfl

theorem growStep_refill {grown : List UInt32} (masked : IsMasked grown) {keys after : List Pair}
    (filled : OpenAddressing.refill (0, 0) home (pairsOf grown) keys = some after) :
    ∃ slots, keys.foldlM growStep grown = some slots ∧ pairsOf slots = after ∧
      slots.length = grown.length := by
  induction keys generalizing grown with
  | nil => exact ⟨grown, rfl, Option.some.inj filled, rfl⟩
  | cons key keys ih =>
      rw [OpenAddressing.refill, List.foldlM_cons] at filled
      rw [List.foldlM_cons, growStep]
      by_cases isEmpty : key = (0, 0)
      · rw [if_pos isEmpty] at filled ⊢
        exact ih masked filled
      · rw [if_neg isEmpty] at filled ⊢
        rw [OpenAddressing.insert?, ← probeOf_eq masked] at filled
        cases found : probeOf grown key with
        | none =>
            rw [found] at filled
            cases filled
        | some i =>
            rw [found, Option.map_some, ← pairsOf_putPair] at filled
            obtain ⟨slots, moved, same, length⟩ := ih (masked.putPair i key) filled
            exact ⟨slots, moved, same, length.trans (putPair_length grown i key)⟩

/-- Growing loses no hash, and makes room for one more. -/
theorem Holding.grow {slots : List UInt32} {size : Nat} {added : List Pair}
    (holding : Holding slots size added) (shape : slots = [] ∨ IsMasked slots)
    (load : size * 4 ≤ slots.length / 2 * 3) :
    ∃ grown, grow slots = some grown ∧ IsMasked grown ∧ Holding grown size added ∧
      (size + 1) * 4 ≤ grown.length / 2 * 3 := by
  -- the new array has twice the pairs, and at least 1024
  obtain ⟨pairs, fresh, large, powers⟩ : ∃ pairs, max 2048 (slots.length * 2) = 2 * pairs ∧
      (size + 1) * 4 ≤ pairs * 3 ∧ ∃ k, 10 ≤ k ∧ pairs = 2 ^ k := by
    rcases shape with rfl | ⟨k, large, length⟩
    · exact ⟨1024, rfl, by simp only [List.length_nil] at load; omega, 10, by decide, rfl⟩
    · have enough : 2 ^ 10 ≤ 2 ^ k := Nat.pow_le_pow_right (by decide) large
      refine ⟨2 ^ (k + 1), ?_, ?_, k + 1, by omega, rfl⟩
      · rw [length, Nat.pow_succ]
        omega
      · rw [length] at load
        rw [Nat.pow_succ]
        omega
  have masked : IsMasked (List.replicate (2 * pairs) 0) := by
    obtain ⟨k, large, power⟩ := powers
    exact ⟨k, large, by rw [List.length_replicate, power]⟩
  have empty := pairsOf_replicate pairs
  have none : occupied (0, 0) (pairsOf (List.replicate (2 * pairs) 0)) = 0 := by
    rw [empty, OpenAddressing.occupied_replicate]
  have length : (pairsOf (List.replicate (2 * pairs) 0)).length = pairs := by
    rw [empty, List.length_replicate]
  obtain ⟨after, filled, sound, holds⟩ := Sound.refill (empty ▸ OpenAddressing.sound_vacant pairs)
    (home_lt masked) holding.sound.distinct
    (fun key _ isKey stored => isKey (List.eq_of_mem_replicate (empty ▸ stored)))
    (by rw [none, length, ← holding.size]; omega)
  obtain ⟨grown, moved, same, length'⟩ := growStep_refill masked filled
  rw [List.length_replicate] at length'
  have mem := holds.mem
  have count := holds.occupied
  rw [none, Nat.zero_add, ← holding.size] at count
  refine ⟨grown, by rw [grow_eq, fresh]; exact moved, ?_, ⟨same ▸ sound, ?_, ?_⟩, by omega⟩
  · obtain ⟨k, large, power⟩ := powers
    exact ⟨k, large, by rw [length', power]⟩
  · rw [same, count]
  · intro hash isHash
    rw [same, mem hash isHash, ← holding.mem hash isHash, or_iff_right]
    exact fun stored => isHash (List.eq_of_mem_replicate (empty ▸ stored))

/-! ## Runs -/

/-- A set that has come of adding texts with these hashes. -/
structure Marked (set : DelegationHashSet) (added : List Pair) : Prop where
  shape : set.slots = [] ∨ IsMasked set.slots
  load : set.size * 4 ≤ set.slots.length / 2 * 3
  holding : Holding set.slots set.size added
  card : set.size = added.toFinset.card

theorem marked_empty : Marked emptyDelegationHashSet [] := by
  refine ⟨.inl rfl, Nat.zero_le _, ⟨fun place key holds => ?_, rfl, fun hash _ => ?_⟩, rfl⟩
  · cases holds
  · simp [emptyDelegationHashSet, pairsOf]

section Marked

variable {set : DelegationHashSet} {added : List Pair}

theorem Marked.absent (marked : Marked set added) (none : set.slots = []) {hash : Pair}
    (isHash : hash ≠ (0, 0)) : hash ∉ added := by
  rw [← marked.holding.mem hash isHash, none]
  exact List.not_mem_nil

theorem Marked.masked (marked : Marked set added) (some' : set.slots ≠ []) :
    IsMasked set.slots :=
  marked.shape.resolve_left some'

/-- What is found is what was added. -/
theorem Marked.has (marked : Marked set added) (text : Text) :
    delegationHashSetHas set text = some (decide (hash64 text ∈ added)) := by
  rw [delegationHashSetHas]
  by_cases empty : set.size = 0
  · rw [if_pos empty, decide_eq_false]
    have none : added.toFinset = ∅ := Finset.card_eq_zero.mp (marked.card.symm.trans empty)
    rw [← List.mem_toFinset, none]
    exact Finset.notMem_empty _
  · have some' : set.slots ≠ [] := by
      intro none
      have load := marked.load
      rw [none] at load
      simp only [List.length_nil] at load
      omega
    obtain ⟨i, found, holds⟩ :=
      marked.holding.probeOf (marked.masked some') marked.load (hash64_ne text)
    rw [if_neg empty, found, Option.map_some, Option.some.injEq, Bool.eq_iff_iff, holds,
      decide_eq_true_iff]

theorem Marked.stored (marked : Marked set added) {hash : Pair} (isHash : hash ≠ (0, 0)) :
    stored set.slots hash = some (decide (hash ∈ added)) := by
  rw [DelegationHashSet.stored]
  by_cases empty : set.slots = []
  · rw [if_neg (by simp [empty]), decide_eq_false (marked.absent empty isHash)]
  · obtain ⟨i, found, holds⟩ := marked.holding.probeOf (marked.masked empty) marked.load isHash
    rw [if_pos (List.length_pos_of_ne_nil empty), found, Option.map_some, Option.some.injEq,
      Bool.eq_iff_iff, holds, decide_eq_true_iff]

/-- The array with room for one more: grown, or as it is. -/
theorem Marked.roomFor (marked : Marked set added) :
    ∃ slots, roomFor set = some slots ∧ IsMasked slots ∧ Holding slots set.size added ∧
      (set.size + 1) * 4 ≤ slots.length / 2 * 3 := by
  simp only [DelegationHashSet.roomFor]
  by_cases tight : (set.size + 1) * 4 > set.slots.length / 2 * 3
  · rw [if_pos tight]
    exact marked.holding.grow marked.shape marked.load
  · rw [if_neg tight]
    have some' : set.slots ≠ [] := by
      intro none
      rw [none] at tight
      simp only [List.length_nil] at tight
      omega
    exact ⟨set.slots, rfl, marked.masked some', marked.holding, Nat.not_lt.mp tight⟩

/-- One call: it ends, it adds the hash or had it, or it refuses at the cap and changes
nothing. -/
theorem Marked.add (marked : Marked set added) (text : Text) (cap : Option Nat) :
    ∃ set' answer, delegationHashSetAdd set text cap = some (set', answer) ∧
      Marked set' (if answer then hash64 text :: added else added) ∧
      (answer = false → set' = set ∧ reached set.size cap = true ∧ hash64 text ∉ added) := by
  have isHash := hash64_ne text
  simp only [delegationHashSetAdd, marked.stored isHash, Option.bind_eq_bind, Option.bind_some]
  by_cases present : hash64 text ∈ added
  · rw [if_pos (decide_eq_true present)]
    refine ⟨set, true, rfl, ?_, fun bad => by cases bad⟩
    have same : (hash64 text :: added).toFinset = added.toFinset := by
      rw [List.toFinset_cons, Finset.insert_eq_of_mem (List.mem_toFinset.mpr present)]
    refine ⟨marked.shape, marked.load, ⟨marked.holding.sound, marked.holding.size, ?_⟩,
      same ▸ marked.card⟩
    intro hash other
    rw [if_pos rfl, marked.holding.mem hash other, List.mem_cons, iff_or_self]
    exact fun here => here ▸ present
  · rw [if_neg (by simpa using present)]
    by_cases full : reached set.size cap = true
    · rw [if_pos full]
      exact ⟨set, false, rfl, marked, fun _ => ⟨rfl, full, present⟩⟩
    · rw [if_neg full]
      obtain ⟨slots, ready, masked, holding, load⟩ := marked.roomFor
      obtain ⟨i, found, -⟩ := holding.probeOf masked (by omega) isHash
      have put := holding.putPair masked isHash present found
      refine ⟨⟨putPair slots i (hash64 text), set.size + 1⟩, true, ?_, ?_, fun bad => by cases bad⟩
      · rw [ready, Option.bind_some, found, Option.bind_some]
      · refine ⟨.inr (masked.putPair i _), ?_, put, ?_⟩
        · rw [putPair_length]
          exact load
        · rw [if_pos rfl, List.toFinset_cons,
            Finset.card_insert_of_notMem (fun inside => present (List.mem_toFinset.mp inside)),
            marked.card]

end Marked

/-- A call of `delegationHashSetAdd`. -/
abbrev Call : Type := Text × Option Nat

/-- The calls one after the other, with their answers. -/
def runAdds (set : DelegationHashSet) : List Call → Option (DelegationHashSet × List Bool)
  | [] => some (set, [])
  | (text, cap) :: calls => do
      let (next, answer) ← delegationHashSetAdd set text cap
      let (final, answers) ← runAdds next calls
      some (final, answer :: answers)

/-- The hash pairs of the texts whose add answered true. -/
def addedHashes (calls : List Call) (answers : List Bool) : List Pair :=
  ((calls.zip answers).filter (·.2)).map fun call => hash64 call.1.1

theorem Marked.congr {set : DelegationHashSet} {added added' : List Pair}
    (marked : Marked set added) (same : ∀ hash, hash ∈ added ↔ hash ∈ added') :
    Marked set added' := by
  refine ⟨marked.shape, marked.load, ⟨marked.holding.sound, marked.holding.size, ?_⟩, ?_⟩
  · intro hash isHash
    rw [marked.holding.mem hash isHash, same]
  · rw [marked.card]
    congr 1
    ext hash
    rw [List.mem_toFinset, List.mem_toFinset, same]

theorem Marked.run {set : DelegationHashSet} {added : List Pair} (marked : Marked set added)
    (calls : List Call) :
    ∃ final answers, runAdds set calls = some (final, answers) ∧
      answers.length = calls.length ∧ Marked final (addedHashes calls answers ++ added) := by
  induction calls generalizing set added with
  | nil => exact ⟨set, [], rfl, rfl, marked⟩
  | cons call calls ih =>
      obtain ⟨text, cap⟩ := call
      obtain ⟨next, answer, one, marked', -⟩ := marked.add text cap
      obtain ⟨final, answers, rest, length, marked''⟩ := ih marked'
      refine ⟨final, answer :: answers, ?_, congrArg (· + 1) length, ?_⟩
      · simp only [runAdds, one, rest, Option.bind_eq_bind, Option.bind_some]
      · refine marked''.congr fun hash => ?_
        cases answer with
        | true =>
            simp only [addedHashes, List.zip_cons_cons, List.filter_cons_of_pos, List.map_cons,
              if_pos, List.mem_append, List.mem_cons, List.cons_append]
            tauto
        | false => simp [addedHashes, List.zip_cons_cons]

/-- Whatever was called, the set knows the texts it took and no hash besides theirs; every
probe ends, and a call that answers false found the set at its cap and left it alone. -/
theorem hashSet_never_forgets (calls : List Call) :
    ∃ set answers, runAdds emptyDelegationHashSet calls = some (set, answers) ∧
      answers.length = calls.length ∧
      (set.slots ≠ [] → (0, 0) ∈ pairsOf set.slots ∧ ∀ hash, ∃ i, probeOf set.slots hash = some i) ∧
      set.size = occupied (0, 0) (pairsOf set.slots) ∧
      set.size = (addedHashes calls answers).toFinset.card ∧
      (∀ text cap, ((text, cap), true) ∈ calls.zip answers →
        delegationHashSetHas set text = some true) ∧
      (∀ text, delegationHashSetHas set text =
        some (decide (hash64 text ∈ addedHashes calls answers))) ∧
      ∀ text cap, ∃ set' answer, delegationHashSetAdd set text cap = some (set', answer) ∧
        (answer = false → set' = set ∧ hash64 text ∉ addedHashes calls answers ∧
          ∃ bound, cap = some bound ∧ bound ≤ set.size) := by
  obtain ⟨set, answers, ran, length, marked⟩ := marked_empty.run calls
  rw [List.append_nil] at marked
  refine ⟨set, answers, ran, length, fun some' => ?_, marked.holding.size, marked.card, ?_,
    marked.has, ?_⟩
  · have masked := marked.masked some'
    have empty := OpenAddressing.vacant_of_occupied_lt (marked.holding.room masked marked.load)
    refine ⟨empty, fun hash => ?_⟩
    obtain ⟨i, found⟩ := OpenAddressing.probe_ends (home_lt masked hash) empty
    exact ⟨i, (probeOf_eq masked hash).trans found⟩
  · intro text cap answered
    rw [marked.has, decide_eq_true]
    exact List.mem_map.mpr ⟨_, List.mem_filter.mpr ⟨answered, rfl⟩, rfl⟩
  · intro text cap
    obtain ⟨set', answer, one, -, refused⟩ := marked.add text cap
    refine ⟨set', answer, one, fun no => ?_⟩
    obtain ⟨same, full, absent⟩ := refused no
    obtain ⟨bound, isCap, reached⟩ := (Option.any_eq_true _ _).mp full
    exact ⟨same, absent, bound, isCap, of_decide_eq_true reached⟩

end Ccrc.Coord.DelegationHashSet
