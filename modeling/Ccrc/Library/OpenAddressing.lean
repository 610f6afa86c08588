import Mathlib

/-! Open addressing with linear probing: a key goes to the first vacant cell from its
home on. Where every stored key is found by its own probe, a probe tells what is
stored, and stays right under every insertion and every move to a larger table. -/

set_option autoImplicit false

namespace Ccrc.Library.OpenAddressing

variable {κ : Type*} [DecidableEq κ] (vacant : κ)

/-- The first cell, from `index` on and around, that holds the key or is vacant. With
as much fuel as there are cells the probe fails only where it would go round for ever. -/
def probe (cells : List κ) (key : κ) : Nat → Nat → Option Nat
  | 0, _ => none
  | fuel + 1, index =>
      if cells[index]? = some key ∨ cells[index]? = some vacant then some index
      else probe cells key fuel ((index + 1) % cells.length)

def occupied (cells : List κ) : Nat := cells.countP (· ≠ vacant)

variable {vacant} {cells : List κ} {key other : κ} {index place fuel : Nat}

theorem probe_holds (found : probe vacant cells key fuel index = some place) :
    cells[place]? = some key ∨ cells[place]? = some vacant := by
  induction fuel generalizing index with
  | zero => cases found
  | succ fuel ih =>
      rw [probe] at found
      split at found
      · next holds => cases found; exact holds
      · exact ih found

theorem probe_lt (found : probe vacant cells key fuel index = some place) :
    place < cells.length := by
  rcases probe_holds found with holds | holds <;>
    exact (List.getElem?_eq_some_iff.mp holds).1

/-- More fuel changes nothing. -/
theorem probe_mono (found : probe vacant cells key fuel index = some place) {more : Nat}
    (enough : fuel ≤ more) : probe vacant cells key more index = some place := by
  induction fuel generalizing index more with
  | zero => cases found
  | succ fuel ih =>
      obtain ⟨more, rfl⟩ := Nat.exists_eq_add_of_le' enough
      rw [probe] at found
      rw [← Nat.add_assoc, probe]
      split at found
      · next holds => rwa [if_pos holds]
      · next passes => rw [if_neg passes]; exact ih found (by omega)

theorem probe_passes (lost : probe vacant cells key fuel index = none) {step : Nat}
    (within : step < fuel) : cells[(index + step) % cells.length]? ≠ some vacant ∨
      cells.length ≤ index := by
  induction fuel generalizing index step with
  | zero => cases within
  | succ fuel ih =>
      rw [probe] at lost
      split at lost
      · cases lost
      · next passes =>
          by_cases inside : index < cells.length
          · refine .inl ?_
            cases step with
            | zero =>
                rw [Nat.add_zero, Nat.mod_eq_of_lt inside]
                exact fun holds => passes (.inr holds)
            | succ step =>
                have positive : 0 < cells.length := by omega
                have later := ih lost (Nat.lt_of_succ_lt_succ within)
                rcases later with holds | outside
                · rwa [Nat.mod_add_mod, Nat.add_assoc, Nat.add_comm 1] at holds
                · exact absurd (Nat.mod_lt _ positive) (Nat.not_lt.mpr outside)
          · exact .inr (Nat.not_lt.mp inside)

/-- A probe ends where a cell is vacant. -/
theorem probe_ends (inside : index < cells.length) (some' : vacant ∈ cells) :
    ∃ place, probe vacant cells key cells.length index = some place := by
  rw [← Option.ne_none_iff_exists']
  intro lost
  obtain ⟨i, within, isVacant⟩ := List.mem_iff_getElem.mp some'
  have reached : (index + (i + cells.length - index) % cells.length) % cells.length = i := by
    rw [Nat.add_mod_mod, Nat.add_sub_cancel' (by omega), Nat.add_mod_right,
      Nat.mod_eq_of_lt within]
  rcases probe_passes lost (Nat.mod_lt (i + cells.length - index) (by omega)) with passes | outside
  · rw [reached] at passes
    exact passes (List.getElem?_eq_some_iff.mpr ⟨within, isVacant⟩)
  · omega

/-- Filling a vacant cell takes no key out of its probe's way. -/
theorem probe_set_other (found : probe vacant cells other fuel index = some place)
    (stored : cells[place]? = some other) (isOther : other ≠ vacant) {filled : Nat}
    (free : cells[filled]? = some vacant) :
    probe vacant (cells.set filled key) other fuel index = some place := by
  induction fuel generalizing index with
  | zero => cases found
  | succ fuel ih =>
      rw [probe] at found ⊢
      split at found
      · next holds =>
          cases found
          have elsewhere : filled ≠ place := by
            rintro rfl
            exact isOther (Option.some.inj (stored.symm.trans free))
          rw [List.getElem?_set_ne elsewhere, if_pos holds]
      · next passes =>
          have elsewhere : filled ≠ index := by
            rintro rfl
            exact passes (.inr free)
          rw [List.getElem?_set_ne elsewhere, if_neg passes, List.length_set]
          exact ih found

theorem probe_set_self (found : probe vacant cells key fuel index = some place)
    (free : cells[place]? = some vacant) :
    probe vacant (cells.set place key) key fuel index = some place := by
  induction fuel generalizing index with
  | zero => cases found
  | succ fuel ih =>
      rw [probe] at found ⊢
      split at found
      · next holds =>
          cases found
          rw [if_pos (.inl (List.getElem?_set_self (List.getElem?_eq_some_iff.mp free).1))]
      · next passes =>
          have elsewhere : place ≠ index := by
            rintro rfl
            exact passes (.inr free)
          rw [List.getElem?_set_ne elsewhere, if_neg passes, List.length_set]
          exact ih found

/-! ## Tables -/

section Sound

variable (vacant) (home : Nat → κ → Nat)

/-- Every stored key is found by its own probe, so no key stands twice. -/
def Sound (cells : List κ) : Prop :=
  ∀ place key, cells[place]? = some key → key ≠ vacant →
    probe vacant cells key cells.length (home cells.length key) = some place

variable {vacant home}

theorem sound_vacant (size : Nat) : Sound vacant home (List.replicate size vacant) := by
  intro place key holds isKey
  rw [List.getElem?_replicate] at holds
  split at holds
  · exact absurd (Option.some.inj holds).symm isKey
  · cases holds

/-- What a probe says of the key: it ends at the key if that is stored, and else at a
vacant cell. -/
theorem Sound.probe_iff (sound : Sound vacant home cells) (isKey : key ≠ vacant)
    (found : probe vacant cells key cells.length (home cells.length key) = some place) :
    cells[place]? = some key ↔ key ∈ cells := by
  constructor
  · exact List.mem_of_getElem?
  · intro stored
    obtain ⟨i, holds⟩ := List.mem_iff_getElem?.mp stored
    have same := sound i key holds isKey
    rw [found, Option.some.injEq] at same
    rw [same, holds]

theorem Sound.insert (sound : Sound vacant home cells) (absent : key ∉ cells)
    (found : probe vacant cells key cells.length (home cells.length key) = some place) :
    Sound vacant home (cells.set place key) ∧ cells[place]? = some vacant := by
  have free : cells[place]? = some vacant := by
    rcases probe_holds found with holds | holds
    · exact absurd (List.mem_of_getElem? holds) absent
    · exact holds
  refine ⟨fun i other holds isOther => ?_, free⟩
  rw [List.length_set]
  by_cases here : place = i
  · subst here
    rw [List.getElem?_set_self (probe_lt found), Option.some.injEq] at holds
    subst holds
    exact probe_set_self found free
  · rw [List.getElem?_set_ne here] at holds
    exact probe_set_other (sound i other holds isOther) holds isOther free

end Sound

/-! ## Counting -/

theorem occupied_replicate (size : Nat) : occupied vacant (List.replicate size vacant) = 0 := by
  simp [occupied, List.countP_replicate]

theorem vacant_of_occupied_lt (fewer : occupied vacant cells < cells.length) : vacant ∈ cells := by
  by_contra absent
  refine absurd (List.countP_eq_length.mpr fun key member => ?_) (Nat.ne_of_lt fewer)
  have apart : key ≠ vacant := fun same => absent (same ▸ member)
  simpa using apart

theorem occupied_set (free : cells[place]? = some vacant) (isKey : key ≠ vacant) :
    occupied vacant (cells.set place key) = occupied vacant cells + 1 := by
  obtain ⟨within, isVacant⟩ := List.getElem?_eq_some_iff.mp free
  rw [occupied, List.countP_set within, isVacant]
  simp [isKey, occupied]

omit [DecidableEq κ] in
theorem mem_set_free (free : cells[place]? = some vacant) (isOther : other ≠ vacant) :
    other ∈ cells.set place key ↔ other = key ∨ other ∈ cells := by
  obtain ⟨within, -⟩ := List.getElem?_eq_some_iff.mp free
  constructor
  · intro member
    rcases List.mem_or_eq_of_mem_set member with stored | same
    · exact .inr stored
    · exact .inl same
  · rintro (rfl | stored)
    · exact List.mem_set within other
    · obtain ⟨i, holds⟩ := List.mem_iff_getElem?.mp stored
      have elsewhere : place ≠ i := by
        rintro rfl
        exact isOther (Option.some.inj (holds.symm.trans free))
      exact List.mem_of_getElem? (i := i) (by rwa [List.getElem?_set_ne elsewhere])

/-! ## Moving to another table -/

section Refill

variable (vacant) (home : Nat → κ → Nat)

def insert? (cells : List κ) (key : κ) : Option (List κ) :=
  (probe vacant cells key cells.length (home cells.length key)).map (cells.set · key)

/-- Every stored key of a list into a table, one after the other. -/
def refill (cells keys : List κ) : Option (List κ) :=
  keys.foldlM (fun cells key => if key = vacant then some cells else insert? vacant home cells key)
    cells

variable {vacant home}

/-- What a table has come to after the insertion of some keys. -/
structure Holds (before after added : List κ) : Prop where
  length : after.length = before.length
  occupied : occupied vacant after = occupied vacant before + OpenAddressing.occupied vacant added
  mem : ∀ key, key ≠ vacant → (key ∈ after ↔ key ∈ before ∨ key ∈ added)

theorem Sound.insert? (sound : Sound vacant home cells) (isKey : key ≠ vacant)
    (absent : key ∉ cells) (isHome : home cells.length key < cells.length)
    (room : occupied vacant cells < cells.length) :
    ∃ after, insert? vacant home cells key = some after ∧ Sound vacant home after ∧
      @Holds κ _ vacant cells after [key] := by
  obtain ⟨place, found⟩ := @probe_ends _ _ _ _ key _ isHome (vacant_of_occupied_lt room)
  obtain ⟨sound', free⟩ := sound.insert absent found
  refine ⟨cells.set place key, by rw [OpenAddressing.insert?, found, Option.map_some], sound',
    List.length_set, ?_, fun other isOther => ?_⟩
  · rw [occupied_set free isKey]
    simp [occupied, isKey]
  · rw [mem_set_free free isOther, List.mem_singleton, or_comm]

/-- Keys that exclude one another all find their place, as long as there is room. -/
theorem Sound.refill {keys : List κ} (sound : Sound vacant home cells)
    (isHome : ∀ key, home cells.length key < cells.length)
    (distinct : keys.Pairwise fun first second => first ≠ vacant → first ≠ second)
    (absent : ∀ key ∈ keys, key ≠ vacant → key ∉ cells)
    (room : occupied vacant cells + occupied vacant keys < cells.length) :
    ∃ after, refill vacant home cells keys = some after ∧ Sound vacant home after ∧
      @Holds κ _ vacant cells after keys := by
  induction keys generalizing cells with
  | nil => exact ⟨cells, rfl, sound, rfl, rfl, by simp⟩
  | cons key keys ih =>
      obtain ⟨apart, distinct⟩ := List.pairwise_cons.mp distinct
      have absent' := fun other member => absent other (List.mem_cons_of_mem key member)
      rw [OpenAddressing.refill, List.foldlM_cons]
      by_cases isVacant : key = vacant
      · have count : occupied vacant (key :: keys) = occupied vacant keys := by
          simp [occupied, isVacant]
        rw [if_pos isVacant]
        obtain ⟨after, moved, sound', holds⟩ := ih sound isHome distinct absent' (count ▸ room)
        refine ⟨after, moved, sound', holds.length, count.symm ▸ holds.occupied, fun other is => ?_⟩
        have apart : other ≠ key := fun same => is (same.trans isVacant)
        rw [holds.mem other is, List.mem_cons, or_iff_right apart]
      · have count : occupied vacant (key :: keys) = 1 + occupied vacant keys := by
          simp [occupied, isVacant, Nat.add_comm]
        rw [if_neg isVacant]
        obtain ⟨next, inserted, sound', stored⟩ :=
          sound.insert? isVacant (absent key List.mem_cons_self isVacant) (isHome key) (by omega)
        have one : occupied vacant [key] = 1 := by simp [occupied, isVacant]
        have stored' := stored.occupied
        rw [one] at stored'
        have elsewhere : ∀ other ∈ keys, other ≠ vacant → other ∉ next := by
          intro other member is inside
          rcases (stored.mem other is).mp inside with before | same
          · exact absent' other member is before
          · exact apart other member isVacant (List.mem_singleton.mp same).symm
        obtain ⟨after, moved, sound'', holds⟩ :=
          ih sound' (by rwa [stored.length]) distinct elsewhere (by rw [stored.length]; omega)
        refine ⟨after, by rw [inserted]; exact moved, sound'', holds.length.trans stored.length,
          ?_, fun other is => ?_⟩
        · rw [holds.occupied, stored', count, Nat.add_assoc]
        · rw [holds.mem other is, stored.mem other is, List.mem_cons, List.mem_cons, or_assoc]
          simp

theorem Sound.distinct (sound : Sound vacant home cells) :
    cells.Pairwise fun first second => first ≠ vacant → first ≠ second := by
  rw [List.pairwise_iff_getElem]
  intro i j within within' before isKey same
  have first := sound i _ (List.getElem?_eq_getElem within) isKey
  have second := sound j _ (List.getElem?_eq_getElem within') (same ▸ isKey)
  rw [← same, first, Option.some.injEq] at second
  omega

end Refill

end Ccrc.Library.OpenAddressing
