import Ccrc.Testbox.Pristine

/-! What every operation of the pristine-install store keeps: distinct keys, no present
key doomed, and `copying` as the number of copies that have not ended. -/

set_option autoImplicit false

namespace Ccrc.Testbox

open Library

namespace PristineStore

/-- How often a key is being copied, as the store has it. -/
def copyingOf (store : PristineStore) (key : Text) : Nat :=
  ((store.find key).map (·.copying)).getD 0

def isBuilding (store : PristineStore) (key : Text) : Prop :=
  ∃ entry, store.find key = some entry ∧ entry.state = .building

end PristineStore

open PristineStore

/-- The store's invariant, `copies` telling how many copies of a key have not ended. -/
structure StoreKept (copies : Text → Nat) (store : PristineStore) : Prop where
  distinct : (store.entries.map (·.key)).Nodup
  clear : ∀ {key entry}, store.find key = some entry → entry.state = .present → key ∉ store.doomed
  copying : ∀ key, store.copyingOf key = copies key
  copied : ∀ {key entry}, store.find key = some entry → 0 < entry.copying → entry.state = .present

variable {copies : Text → Nat} {store : PristineStore}

theorem emptyStore_kept (node platform : Text) : StoreKept (fun _ => 0) (emptyStore node platform) :=
  { distinct := List.nodup_nil
    clear := by
      intro key entry found
      cases found
    copying := fun _ => rfl
    copied := by
      intro key entry found
      cases found }

section Moves

variable {entry : PristineEntry} {key : Text}

theorem StoreKept.put (kept : StoreKept copies store) {after : Text → Nat}
    (clear : entry.state = .present → entry.key ∉ store.doomed)
    (copied : 0 < entry.copying → entry.state = .present)
    (counts : ∀ key, after key = if entry.key = key then entry.copying else copies key) :
    StoreKept after (store.put entry) := by
  refine ⟨put_distinct entry kept.distinct, ?_, ?_, ?_⟩
  · intro key held found present
    rw [find_put] at found
    split at found
    next same =>
      cases found
      exact same ▸ clear present
    next => exact kept.clear found present
  · intro key
    rw [counts, copyingOf, find_put]
    split
    next => rfl
    next => exact kept.copying key
  · intro key held found counted
    rw [find_put] at found
    split at found
    next =>
      cases found
      exact copied counted
    next => exact kept.copied found counted

/-- Entries that no prepare copies leave the store, and the doomed keys change. -/
theorem StoreKept.filter (kept : StoreKept copies store) (keeps : PristineEntry → Bool)
    (doomed : List Text) (node : Text)
    (idle : ∀ entry ∈ store.entries, keeps entry = false → entry.copying = 0)
    (clear : ∀ entry ∈ store.entries, keeps entry = true → entry.state = .present →
      entry.key ∉ doomed) :
    StoreKept copies { store with node, entries := store.entries.filter keeps, doomed } := by
  have left (key : Text) :
      find { store with node, entries := store.entries.filter keeps, doomed } key =
        (store.find key).filter keeps := find_filter kept.distinct key
  refine ⟨(List.filter_sublist.map _).nodup kept.distinct, ?_, ?_, ?_⟩
  · intro key held found present
    rw [left, Option.filter_eq_some_iff] at found
    obtain ⟨member, same⟩ := find_some found.1
    exact same ▸ clear held member found.2 present
  · intro key
    rw [← kept.copying key, copyingOf, copyingOf, left]
    cases found : store.find key with
    | none => rfl
    | some held =>
        cases keep : keeps held with
        | true => rw [Option.filter_some, if_pos keep]
        | false =>
            have none := idle held (find_some found).1 keep
            simp [Option.filter_some, keep, none]
  · intro key held found counted
    rw [left, Option.filter_eq_some_iff] at found
    exact kept.copied found.1 counted

theorem StoreKept.congr (kept : StoreKept copies store) {after : Text → Nat}
    (same : ∀ key, after key = copies key) : StoreKept after store :=
  ⟨kept.distinct, kept.clear, fun key => (kept.copying key).trans (same key).symm, kept.copied⟩

/-- What is not present is not copied. -/
theorem StoreKept.idle (kept : StoreKept copies store) (found : store.find key = some entry)
    (absent : entry.state ≠ .present) : entry.copying = 0 :=
  Nat.eq_zero_of_not_pos fun counted => absent (kept.copied found counted)

theorem StoreKept.found (kept : StoreKept copies store) (member : entry ∈ store.entries) :
    store.find entry.key = some entry := rowOf_mem kept.distinct member

theorem isBuilding_put (building : store.isBuilding key)
    (stays : entry.key = key → entry.state = .building) : (store.put entry).isBuilding key := by
  obtain ⟨held, found, state⟩ := building
  by_cases same : entry.key = key
  · exact ⟨entry, by rw [find_put, if_pos same], stays same⟩
  · exact ⟨held, by rw [find_put, if_neg same, found], state⟩

theorem isBuilding_filter {keeps : PristineEntry → Bool} {doomed : List Text} {node : Text}
    (distinct : (store.entries.map (·.key)).Nodup) (building : store.isBuilding key)
    (stays : ∀ entry ∈ store.entries, entry.state = .building → entry.key = key →
      keeps entry = true) :
    isBuilding { store with node, entries := store.entries.filter keeps, doomed } key := by
  obtain ⟨held, found, state⟩ := building
  obtain ⟨member, same⟩ := find_some found
  refine ⟨held, ?_, state⟩
  exact (find_filter distinct key).trans (by
    rw [found, Option.filter_some, if_pos (stays held member state same)])

end Moves

/-! ## Adopting -/

theorem adopt_kept (kept : StoreKept (fun _ => 0) store) (none : store.doomed = [])
    (keys : List Text) (now : Int) :
    StoreKept (fun _ => 0) (store.adopt keys now) ∧ (store.adopt keys now).doomed = [] := by
  unfold PristineStore.adopt
  induction keys generalizing store with
  | nil => exact ⟨kept, none⟩
  | cons key keys ih =>
      rw [List.foldl_cons]
      unfold adoptOne
      split
      · exact ih kept none
      · refine ih (kept.put (fun _ => ?_) (fun copies => absurd copies (Nat.lt_irrefl 0)) ?_) none
        · rw [none]
          exact List.not_mem_nil
        · intro other
          split <;> rfl

/-! ## Naming inputs -/

section Seen

variable {repository package : Text} {inputs : List InstallInput} {now : Int}

/-- The failed entries of the package leave, and the key comes in as missing. -/
theorem seen_fresh (absent : store.find (installKey inputs store.node store.platform) = none) :
    (store.seen repository package inputs now).store =
      { store with
        entries := store.entries.filter fun held => !held.isFailedOf repository package }.put
        (missingEntry (installKey inputs store.node store.platform) repository package inputs
          store.node now) := by
  have gone : find { store with
      entries := store.entries.filter fun held => !held.isFailedOf repository package }
      (installKey inputs store.node store.platform) = none := by
    refine rowOf_none.mpr fun held member => ?_
    exact rowOf_none.mp absent held (List.mem_of_mem_filter member)
  simp only [seen, absent]
  unfold put
  rw [if_neg]
  intro held
  obtain ⟨row, member, same⟩ := List.any_eq_true.mp held
  exact rowOf_none.mp gone row member (of_decide_eq_true same)

/-- What `isFailedOf` takes away has failed. -/
theorem failed_of_isFailedOf {entry : PristineEntry}
    (taken : (!entry.isFailedOf repository package) = false) : entry.state = .failed := by
  simp only [PristineEntry.isFailedOf, Bool.not_eq_false', Bool.and_eq_true,
    decide_eq_true_eq] at taken
  exact taken.1.1

theorem seen_kept (kept : StoreKept copies store) :
    StoreKept
      (fun key => copies key +
        if (store.seen repository package inputs now).present = true ∧
          (store.seen repository package inputs now).key = key then 1 else 0)
      (store.seen repository package inputs now).store := by
  cases found : store.find (installKey inputs store.node store.platform) with
  | some entry =>
      have same := (find_some found).2
      have counted := kept.copying (installKey inputs store.node store.platform)
      rw [copyingOf, found, Option.map_some, Option.getD_some] at counted
      simp only [seen, found]
      refine kept.put (fun present => same ▸ kept.clear found present) ?_ ?_
      · intro positive
        by_contra absent
        have other : entry.state ≠ .present := absent
        have idle := kept.idle found other
        simp [PristineEntry.usedBy, idle, other] at positive
      · intro key
        by_cases here : installKey inputs store.node store.platform = key
        · subst here
          simp [PristineEntry.usedBy, same, counted]
        · simp [PristineEntry.usedBy, same, here]
  | none =>
      have counted := kept.copying (installKey inputs store.node store.platform)
      rw [copyingOf, found, Option.map_none, Option.getD_none] at counted
      have fewer := kept.filter (fun held => !held.isFailedOf repository package) store.doomed
        store.node
        (fun held member taken => kept.idle (kept.found member) (by
          rw [failed_of_isFailedOf taken]
          decide))
        (fun held member _ present => kept.clear (kept.found member) present)
      rw [seen_fresh found]
      simp only [seen, found]
      refine fewer.put (fun present => by cases present) (fun positive => by cases positive) ?_
      intro key
      by_cases here : installKey inputs store.node store.platform = key
      · subst here
        simp [missingEntry, ← counted]
      · simp [missingEntry, here]

theorem seen_doomed : (store.seen repository package inputs now).store.doomed = store.doomed := by
  simp only [seen]
  split <;> rfl

theorem seen_isBuilding (distinct : (store.entries.map (·.key)).Nodup) {key : Text}
    (building : store.isBuilding key) :
    (store.seen repository package inputs now).store.isBuilding key := by
  cases found : store.find (installKey inputs store.node store.platform) with
  | some entry =>
      simp only [seen, found]
      refine isBuilding_put building fun same => ?_
      obtain ⟨held, here, state⟩ := building
      rw [← same, show (entry.usedBy repository package inputs now).key = entry.key from rfl,
        (find_some found).2, found] at here
      cases here
      exact state
  | none =>
      rw [seen_fresh found]
      refine isBuilding_put (isBuilding_filter distinct building ?_) ?_
      · intro held member state _
        by_contra taken
        rw [Bool.not_eq_true] at taken
        rw [failed_of_isFailedOf taken] at state
        cases state
      · intro same
        obtain ⟨held, here, _⟩ := building
        rw [← same, show (missingEntry (installKey inputs store.node store.platform)
          (some repository) (some package) inputs store.node now).key =
            installKey inputs store.node store.platform from rfl, found] at here
        cases here

end Seen

/-! ## The end of a prepare -/

theorem copyEnded_kept (kept : StoreKept copies store) (key : Text) (copied : 0 < copies key) :
    StoreKept (fun other => copies other - if key = other then 1 else 0) (store.copyEnded key) := by
  have counted := kept.copying key
  cases found : store.find key with
  | none =>
      rw [copyingOf, found, Option.map_none, Option.getD_none] at counted
      omega
  | some entry =>
      rw [copyingOf, found, Option.map_some, Option.getD_some] at counted
      have same := (find_some found).2
      simp only [copyEnded, found]
      refine kept.put ?_ ?_ ?_
      · intro present
        exact same ▸ kept.clear found present
      · intro positive
        have before : 0 < entry.copying := Nat.lt_of_lt_of_le positive (Nat.sub_le _ _)
        have present := kept.copied found before
        exact present
      · intro other
        by_cases here : key = other
        · subst here
          simp [same, counted]
        · simp [same, here]

theorem copyEnded_doomed (key : Text) : (store.copyEnded key).doomed = store.doomed := by
  unfold copyEnded
  split <;> rfl

theorem copyEnded_isBuilding {key : Text} (ended : Text) (building : store.isBuilding key) :
    (store.copyEnded ended).isBuilding key := by
  unfold copyEnded
  split
  next => exact building
  next entry found =>
    refine isBuilding_put building fun same => ?_
    obtain ⟨held, here, state⟩ := building
    rw [← same, show ({ entry with copying := entry.copying - 1 } : PristineEntry).key = entry.key
      from rfl, (find_some found).2, found] at here
    cases here
    exact state

/-- Every copy of one prepare ends. -/
theorem copiesEnded_kept {keys : List Text} (kept : StoreKept copies store)
    (copied : ∀ key, keys.count key ≤ copies key) :
    StoreKept (fun key => copies key - keys.count key) (keys.foldl copyEnded store) := by
  induction keys generalizing copies store with
  | nil => simpa using kept
  | cons key keys ih =>
      have here := copied key
      rw [List.count_cons_self] at here
      refine (ih (copyEnded_kept kept key (by omega)) fun other => ?_).congr fun other => ?_
      · have bound := copied other
        rw [List.count_cons] at bound
        by_cases same : key = other
        · simp only [same, if_true, BEq.rfl] at bound ⊢
          omega
        · simp only [same, if_false, beq_iff_eq] at bound ⊢
          omega
      · rw [List.count_cons]
        by_cases same : key = other
        · simp only [same, if_true, BEq.rfl]
          omega
        · simp [same]

theorem copiesEnded_doomed (keys : List Text) :
    (keys.foldl copyEnded store).doomed = store.doomed := by
  induction keys generalizing store with
  | nil => rfl
  | cons key keys ih => exact ih.trans (copyEnded_doomed key)

theorem copiesEnded_isBuilding {key : Text} (keys : List Text) (building : store.isBuilding key) :
    (keys.foldl copyEnded store).isBuilding key := by
  induction keys generalizing store with
  | nil => exact building
  | cons ended keys ih => exact ih (copyEnded_isBuilding ended building)

/-! ## Builds -/

/-- The entry of the key is neither present nor being built. -/
def PristineStore.isWanted (store : PristineStore) (key : Text) : Prop :=
  ∃ entry, store.find key = some entry ∧ (entry.state = .missing ∨ entry.state = .failed)

theorem due_isWanted (kept : StoreKept copies store) {now : Int} {key : Text}
    (member : key ∈ store.due now) : store.isWanted key := by
  obtain ⟨entry, isDue, rfl⟩ := List.mem_map.mp member
  obtain ⟨held, wanted⟩ := List.mem_filter.mp isDue
  refine ⟨entry, kept.found held, ?_⟩
  simp only [Bool.and_eq_true, Bool.or_eq_true, decide_eq_true_eq] at wanted
  exact wanted.2.imp id (·.1)

theorem due_nodup (kept : StoreKept copies store) (now : Int) : (store.due now).Nodup :=
  (List.filter_sublist.map _).nodup kept.distinct

theorem buildQueued_kept (kept : StoreKept copies store) {key : Text}
    (wanted : store.isWanted key) : StoreKept copies (store.buildQueued key) := by
  obtain ⟨entry, found, state⟩ := wanted
  have same := (find_some found).2
  have idle := kept.idle found (by rcases state with missing | failed <;> simp [*])
  have counted := kept.copying key
  rw [copyingOf, found, Option.map_some, Option.getD_some] at counted
  simp only [buildQueued, found]
  refine kept.put (fun present => by cases present) ?_ ?_
  · intro positive
    exact absurd idle (Nat.pos_iff_ne_zero.mp positive)
  · intro other
    by_cases here : key = other
    · subst here
      simp [same, counted]
    · simp [same, here]

theorem buildQueued_doomed (key : Text) : (store.buildQueued key).doomed = store.doomed := by
  unfold buildQueued
  split <;> rfl

theorem buildQueued_isBuilding {key : Text} (queued : Text) (building : store.isBuilding key) :
    (store.buildQueued queued).isBuilding key := by
  unfold buildQueued
  split
  next => exact building
  next => exact isBuilding_put building fun _ => rfl

theorem buildQueued_building {key : Text} (wanted : store.isWanted key) :
    (store.buildQueued key).isBuilding key := by
  obtain ⟨entry, found, _⟩ := wanted
  have same := (find_some found).2
  simp only [buildQueued, found]
  exact ⟨_, by rw [find_put, if_pos same], rfl⟩

theorem buildQueued_isWanted {key other : Text} (differs : key ≠ other)
    (wanted : store.isWanted other) : (store.buildQueued key).isWanted other := by
  obtain ⟨entry, found, state⟩ := wanted
  refine ⟨entry, ?_, state⟩
  unfold buildQueued
  split
  next => exact found
  next held here =>
    rw [find_put, if_neg, found]
    rw [show ({ held with state := .building } : PristineEntry).key = held.key from rfl,
      (find_some here).2]
    exact differs

section BuildEnded

variable {key : Text} {exit now : Int} {retryMs : List Int} {after : PristineStore}

/-- The entry of a build that ended is put back, present only after exit 0. -/
theorem buildEnded_ok (ended : store.buildEnded key exit now retryMs = .ok after) :
    (store.find key = none ∧ after = store) ∨
      ∃ entry last, store.find key = some entry ∧ last.key = key ∧ last.copying = entry.copying ∧
        (last.state = .failed ∨ (last.state = .present ∧ exit = 0)) ∧ after = store.put last := by
  unfold buildEnded at ended
  split at ended
  next absent =>
    cases ended
    exact .inl ⟨absent, rfl⟩
  next entry found =>
    have same := (find_some found).2
    split at ended
    next success =>
      have put := Except.ok.inj ended
      refine .inr ⟨entry, _, found, ?_, ?_, .inr ⟨?_, success⟩, put.symm⟩
      · exact same
      · rfl
      · rfl
    next =>
      cases delayed : retryDelay retryMs (entry.attempts + 1) with
      | error fault =>
          simp only [delayed] at ended
          cases ended
      | ok delay =>
          simp only [delayed] at ended
          have put := Except.ok.inj ended
          refine .inr ⟨entry, _, found, ?_, ?_, .inl ?_, put.symm⟩
          · exact same
          · rfl
          · rfl

theorem buildEnded_kept (kept : StoreKept copies store) (building : store.isBuilding key)
    (undoomed : exit = 0 → key ∉ store.doomed)
    (ended : store.buildEnded key exit now retryMs = .ok after) : StoreKept copies after := by
  obtain ⟨held, here, state⟩ := building
  rcases buildEnded_ok ended with ⟨absent, rfl⟩ | ⟨entry, last, found, same, copying, state', rfl⟩
  · exact kept
  · rw [here] at found
    cases found
    have idle := kept.idle here (by rw [state]; decide)
    have counted := kept.copying key
    rw [copyingOf, here, Option.map_some, Option.getD_some] at counted
    refine kept.put ?_ ?_ ?_
    · intro present
      rcases state' with failed | ⟨_, success⟩
      · rw [failed] at present
        cases present
      · exact same ▸ undoomed success
    · intro positive
      rw [copying, idle] at positive
      exact absurd positive (Nat.lt_irrefl 0)
    · intro other
      split
      next equal => rw [copying, ← equal, same, counted]
      next => rfl

theorem buildEnded_doomed (ended : store.buildEnded key exit now retryMs = .ok after) :
    after.doomed = store.doomed := by
  rcases buildEnded_ok ended with ⟨_, rfl⟩ | ⟨_, _, _, _, _, _, rfl⟩ <;> rfl

theorem buildEnded_isBuilding {other : Text} (differs : key ≠ other)
    (building : store.isBuilding other)
    (ended : store.buildEnded key exit now retryMs = .ok after) : after.isBuilding other := by
  rcases buildEnded_ok ended with ⟨_, rfl⟩ | ⟨_, last, _, same, _, _, rfl⟩
  · exact building
  · exact isBuilding_put building fun equal => absurd (same.symm.trans equal) differs

end BuildEnded

theorem undoom_kept (kept : StoreKept copies store) (keys : List Text) :
    StoreKept copies (store.undoom keys) :=
  { distinct := kept.distinct
    clear := fun found present doomed =>
      kept.clear found present (List.mem_of_mem_filter doomed)
    copying := kept.copying
    copied := kept.copied }

/-! ## Expiry and a new node version -/

section Tick

variable {now keepMs : Int} {node key : Text}

theorem mem_expired (kept : StoreKept copies store) (old : key ∈ store.expired now keepMs) :
    ∃ entry, store.find key = some entry ∧ entry.state = .present ∧ entry.copying = 0 := by
  obtain ⟨entry, idle, rfl⟩ := List.mem_map.mp old
  obtain ⟨member, unused⟩ := List.mem_filter.mp idle
  simp only [Bool.and_eq_true, decide_eq_true_eq] at unused
  exact ⟨entry, kept.found member, unused.1.1, unused.1.2⟩

/-- A key that is newly doomed was present, and is out of the store. -/
theorem mem_expire_doomed :
    key ∈ (store.expire now keepMs).doomed →
      key ∈ store.doomed ∨ key ∈ store.expired now keepMs := by
  intro doomed
  simp only [expire] at doomed
  split at doomed
  next => exact .inl doomed
  next => exact (List.mem_append.mp doomed).imp id List.mem_of_mem_filter

theorem subset_expire_doomed : store.doomed ⊆ (store.expire now keepMs).doomed := by
  simp only [expire]
  split
  next => exact List.Subset.refl _
  next => exact List.subset_append_left _ _

theorem expire_kept (kept : StoreKept copies store) : StoreKept copies (store.expire now keepMs) := by
  simp only [expire]
  split
  next => exact kept
  next =>
    refine kept.filter (fun entry => !(store.expired now keepMs).contains entry.key) _ store.node
      ?_ ?_
    · intro entry member gone
      rw [Bool.not_eq_false', List.contains_iff_mem] at gone
      obtain ⟨held, found, _, idle⟩ := mem_expired kept gone
      rw [kept.found member] at found
      cases found
      exact idle
    · intro entry member stays present doomed
      rw [Bool.not_eq_true', ← Bool.not_eq_true, List.contains_iff_mem] at stays
      rcases List.mem_append.mp doomed with before | added
      · exact kept.clear (kept.found member) present before
      · exact stays (List.mem_of_mem_filter added)

theorem expire_isBuilding (kept : StoreKept copies store) (building : store.isBuilding key) :
    (store.expire now keepMs).isBuilding key := by
  simp only [expire]
  split
  next => exact building
  next =>
    refine isBuilding_filter kept.distinct building ?_
    intro entry member state _
    rw [Bool.not_eq_true', ← Bool.not_eq_true, List.contains_iff_mem]
    intro gone
    obtain ⟨held, found, present, _⟩ := mem_expired kept gone
    rw [kept.found member] at found
    cases found
    rw [state] at present
    cases present

/-- One entry of the old store leaves the new one as it was, or adds a missing key. -/
theorem renode_cases (before : PristineStore) (next : PristineStore) (entry : PristineEntry) :
    renode before node now next entry = next ∨
      ∃ fresh : PristineEntry, next.find fresh.key = none ∧ fresh.state = .missing ∧
        fresh.copying = 0 ∧ renode before node now next entry = next.put fresh := by
  simp only [renode]
  split
  next => exact .inl rfl
  next =>
    split
    next => exact .inl rfl
    next absent =>
      exact .inr ⟨_, Option.not_isSome_iff_eq_none.mp absent, rfl, rfl, rfl⟩

theorem renode_kept (before : PristineStore) (entry : PristineEntry)
    (kept : StoreKept copies store) : StoreKept copies (renode before node now store entry) := by
  rcases renode_cases before store entry with same | ⟨fresh, absent, state, idle, same⟩
  · rw [same]
    exact kept
  · rw [same]
    refine kept.put (fun present => by rw [state] at present; cases present) ?_ ?_
    · intro positive
      rw [idle] at positive
      exact absurd positive (Nat.lt_irrefl 0)
    · intro other
      split
      next equal =>
        have counted := kept.copying fresh.key
        rw [copyingOf, absent, Option.map_none, Option.getD_none] at counted
        rw [idle, ← equal, counted]
      next => rfl

theorem renode_isBuilding (before : PristineStore) (entry : PristineEntry)
    (building : store.isBuilding key) : (renode before node now store entry).isBuilding key := by
  rcases renode_cases before store entry with same | ⟨fresh, absent, _, _, same⟩
  · rw [same]
    exact building
  · rw [same]
    refine isBuilding_put building fun equal => ?_
    obtain ⟨held, found, _⟩ := building
    rw [← equal, absent] at found
    cases found

theorem renode_doomed (before : PristineStore) (entry : PristineEntry) :
    (renode before node now store entry).doomed = store.doomed := by
  rcases renode_cases before store entry with same | ⟨_, _, _, _, same⟩ <;> rw [same]
  rfl

/-- The fold of `nodeChanged`, from what the failed entries leave. -/
theorem renoded_kept (before : PristineStore) (entries : List PristineEntry)
    (kept : StoreKept copies store) :
    StoreKept copies (entries.foldl (renode before node now) store) ∧
      (entries.foldl (renode before node now) store).doomed = store.doomed ∧
      ∀ key, store.isBuilding key →
        (entries.foldl (renode before node now) store).isBuilding key := by
  induction entries generalizing store with
  | nil => exact ⟨kept, rfl, fun _ building => building⟩
  | cons entry entries ih =>
      obtain ⟨after, doomed, building⟩ := ih (renode_kept before entry kept)
      exact ⟨after, doomed.trans (renode_doomed before entry), fun key held =>
        building key (renode_isBuilding before entry held)⟩

theorem nodeChanged_kept (kept : StoreKept copies store) (node : Text) (now : Int) :
    StoreKept copies (store.nodeChanged node now) ∧
      (store.nodeChanged node now).doomed = store.doomed ∧
      ∀ key, store.isBuilding key → (store.nodeChanged node now).isBuilding key := by
  unfold nodeChanged
  split
  next => exact ⟨kept, rfl, fun _ building => building⟩
  next =>
    have fewer := kept.filter (fun entry => entry.state ≠ .failed) store.doomed node
      (fun entry member gone => kept.idle (kept.found member) (by
        rw [of_decide_eq_false gone |> Classical.not_not.mp]
        decide))
      (fun entry member _ present => kept.clear (kept.found member) present)
    obtain ⟨after, doomed, building⟩ := renoded_kept store store.entries fewer
    refine ⟨after, doomed, fun key held => building key (isBuilding_filter kept.distinct held ?_)⟩
    intro entry _ state _
    rw [state]
    rfl

end Tick

end Ccrc.Testbox
