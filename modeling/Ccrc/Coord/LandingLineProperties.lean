import Ccrc.Coord.LandingLine

/-! The landing order is the greedy topological order of the pinned entries, and what
it leaves for last is exactly what waits on an ejected or unknown entry or on a cycle. -/

set_option autoImplicit false

namespace Ccrc.Coord

open Library Shared

/-- First-green, as an order: a fix of main first, then the earlier pin, then the lower PR. -/
def NotAfter (a b : LandingEntry) : Prop :=
  (a.fixesMain = true ∧ b.fixesMain = false) ∨
    (a.fixesMain = b.fixesMain ∧
      (a.pinnedAt < b.pinnedAt ∨ (a.pinnedAt = b.pinnedAt ∧ a.pr ≤ b.pr)))

/-- The second entry is a pinned one that the first waits for. -/
def WaitsFor (entries : List LandingEntry) (a b : LandingEntry) : Prop :=
  b ∈ entries ∧ b.state = .pinned ∧ b.id ∈ a.afterIds

/-- A target of the entry is ejected or unknown. -/
def WaitsOnLost (entries : List LandingEntry) (a : LandingEntry) : Prop :=
  ∃ b ∈ entries, b.id ∈ a.afterIds ∧ (b.state = .ejected ∨ b.state = .unknown)

/-- Along pinned entries, the entry reaches one that waits on an ejected or unknown entry,
or a cycle. -/
def Blocked (entries : List LandingEntry) (a : LandingEntry) : Prop :=
  ∃ b, Relation.ReflTransGen (WaitsFor entries) a b ∧
    (WaitsOnLost entries b ∨ Relation.TransGen (WaitsFor entries) b b)

/-- Every outstanding target of the entry is among those taken. -/
def Released (entries taken : List LandingEntry) (a : LandingEntry) : Prop :=
  ∀ b ∈ entries, b.id ∈ a.afterIds →
    b.state = .pinned ∨ b.state = .ejected ∨ b.state = .unknown → b ∈ taken

/-- The taken part of an order is a greedy topological order of the entries. -/
structure GreedyTopological (entries front : List LandingEntry) : Prop where
  targets : ∀ before a after, front = before ++ a :: after →
    ¬WaitsOnLost entries a ∧ ∀ b, WaitsFor entries a b → b ∈ before
  least : ∀ before a after, front = before ++ a :: after →
    ∀ b ∈ entries, b.state = .pinned → b ∉ before → Released entries before b → NotAfter a b
  outside : ∀ a ∈ entries, a.state = .pinned → (a ∉ front ↔ Blocked entries a)

theorem byKey_iff (a b : LandingEntry) : byKey a b ≤ 0 ↔ NotAfter a b := by
  unfold byKey NotAfter
  dsimp only
  cases a.fixesMain <;> cases b.fixesMain <;> simp
  all_goals
    split <;> omega

theorem NotAfter.total (a b : LandingEntry) : NotAfter a b ∨ NotAfter b a := by
  unfold NotAfter
  cases a.fixesMain <;> cases b.fixesMain <;> simp <;> omega

theorem NotAfter.trans {a b c : LandingEntry} (left : NotAfter a b) (right : NotAfter b c) :
    NotAfter a c := by
  unfold NotAfter at *
  cases fixesA : a.fixesMain <;> cases fixesB : b.fixesMain <;> cases fixesC : c.fixesMain <;>
    simp_all <;> omega

variable {entries : List LandingEntry}

theorem mem_pinnedLine {a : LandingEntry} :
    a ∈ pinnedLine entries ↔ a ∈ entries ∧ a.state = .pinned := by
  simp [pinnedLine, List.mem_mergeSort, LandingEntry.isPinned]

theorem pinnedLine_sorted (entries : List LandingEntry) :
    (pinnedLine entries).Pairwise NotAfter := by
  have sorted := @List.pairwise_mergeSort _ (fun a b => decide (byKey a b ≤ 0))
    (fun a b c left right => by
      simp only [decide_eq_true_eq, byKey_iff] at left right ⊢
      exact left.trans right)
    (fun a b => by
      simp only [Bool.or_eq_true, decide_eq_true_eq, byKey_iff]
      exact NotAfter.total a b)
    (entries.filter LandingEntry.isPinned)
  exact sorted.imp fun {a b} first => (byKey_iff a b).mp (of_decide_eq_true first)

theorem pinnedLine_nodup (distinct : (entries.map (·.id)).Nodup) : (pinnedLine entries).Nodup :=
  (List.mergeSort_perm _ _).nodup_iff.mpr (distinct.of_map.filter _)

theorem id_injective (distinct : (entries.map (·.id)).Nodup) {a b : LandingEntry}
    (left : a ∈ entries) (right : b ∈ entries) (same : a.id = b.id) : a = b :=
  List.inj_on_of_nodup_map distinct left right same

theorem mem_outstandingIds {target : Int} : target ∈ outstandingIds entries ↔
    ∃ b ∈ entries, b.id = target ∧
      (b.state = .pinned ∨ b.state = .ejected ∨ b.state = .unknown) := by
  simp only [outstandingIds, List.mem_map, List.mem_filter, Bool.or_eq_true, beq_iff_eq, or_assoc]
  constructor
  · rintro ⟨b, ⟨member, state⟩, same⟩
    exact ⟨b, member, same, state⟩
  · rintro ⟨b, member, same, state⟩
    exact ⟨b, ⟨member, state⟩, same⟩

theorem landingReady_iff (distinct : (entries.map (·.id)).Nodup) {taken : List LandingEntry}
    (inside : ∀ b ∈ taken, b ∈ entries) (a : LandingEntry) :
    landingReady (outstandingIds entries) taken a = true ↔ Released entries taken a := by
  simp only [landingReady, List.all_eq_true, Bool.or_eq_true, decide_eq_true_eq,
    mem_outstandingIds, List.mem_map]
  constructor
  · intro ready b member isTarget state
    obtain ⟨other, there, same⟩ := (ready b.id isTarget).resolve_left
      (not_not.mpr ⟨b, member, rfl, state⟩)
    exact id_injective distinct (inside other there) member same ▸ there
  · intro released target isTarget
    by_cases outstanding : ∃ b ∈ entries, b.id = target ∧
        (b.state = .pinned ∨ b.state = .ejected ∨ b.state = .unknown)
    · obtain ⟨b, member, rfl, state⟩ := outstanding
      exact .inr ⟨b, released b member isTarget state, rfl⟩
    · exact .inl outstanding

/-- What the loop took is taken in turn, and nothing that is left is ready. -/
theorem takenLine_taken (distinct : (entries.map (·.id)).Nodup) :
    Taken (pinnedLine entries) (landingReady (outstandingIds entries)) (takenLine entries) ∧
      ∀ a ∈ pinnedLine entries, a ∉ takenLine entries → ¬Released entries (takenLine entries) a := by
  have start : Taken (pinnedLine entries) (landingReady (outstandingIds entries)) [] := taken_nil
  have taken := greedy_taken (pinnedLine entries).length start (by simp)
  refine ⟨taken.1, fun a member left released => ?_⟩
  have ready := (landingReady_iff distinct
    (fun b there => (mem_pinnedLine.mp (taken.1.inside b there)).1) a).mpr released
  exact Bool.noConfusion (ready.symm.trans (taken.2 a member left))

/-- A member of the taken part stands after what it waits for. -/
theorem taken_targets (distinct : (entries.map (·.id)).Nodup) {before after : List LandingEntry}
    {a : LandingEntry} (split : takenLine entries = before ++ a :: after) :
    ¬WaitsOnLost entries a ∧ ∀ b, WaitsFor entries a b → b ∈ before := by
  obtain ⟨taken, -⟩ := takenLine_taken distinct
  have inside : ∀ b ∈ before, b ∈ entries ∧ b.state = .pinned := fun b there =>
    mem_pinnedLine.mp (taken.inside b (by rw [split]; exact List.mem_append_left _ there))
  obtain ⟨-, -, ready⟩ := nextReady_some (taken.first before a after split)
  have released := (landingReady_iff distinct (fun b there => (inside b there).1) a).mp ready
  constructor
  · rintro ⟨b, member, isTarget, lost⟩
    have there := inside b (released b member isTarget (.inr lost))
    rcases lost with lost | lost <;> rw [there.2] at lost <;> cases lost
  · rintro b ⟨member, pinned, isTarget⟩
    exact released b member isTarget (.inl pinned)

/-- Along what a taken entry waits for, the place in the order goes down. -/
theorem waitsFor_earlier (distinct : (entries.map (·.id)).Nodup) {a b : LandingEntry}
    (member : a ∈ takenLine entries) (waits : WaitsFor entries a b) :
    b ∈ takenLine entries ∧ (takenLine entries).idxOf b < (takenLine entries).idxOf a := by
  obtain ⟨before, after, split⟩ := List.append_of_mem member
  have there := (taken_targets distinct split).2 b waits
  have fresh : a ∉ before := by
    have nodup := (takenLine_taken distinct).1.distinct
    rw [split] at nodup
    exact fun early => (List.nodup_append.mp nodup).2.2 a early a List.mem_cons_self rfl
  rw [split, List.idxOf_append_of_mem there, List.idxOf_append_of_notMem fresh,
    List.idxOf_cons_self]
  exact ⟨List.mem_append_left _ there, Nat.lt_add_right 0 (List.idxOf_lt_length_iff.mpr there)⟩

theorem reaches_earlier (distinct : (entries.map (·.id)).Nodup) {a b : LandingEntry}
    (member : a ∈ takenLine entries) (path : Relation.TransGen (WaitsFor entries) a b) :
    b ∈ takenLine entries ∧ (takenLine entries).idxOf b < (takenLine entries).idxOf a := by
  induction path with
  | single waits => exact waitsFor_earlier distinct member waits
  | tail _ waits ih =>
      have last := waitsFor_earlier distinct ih.1 waits
      exact ⟨last.1, last.2.trans ih.2⟩

theorem taken_not_blocked (distinct : (entries.map (·.id)).Nodup) {a : LandingEntry}
    (member : a ∈ takenLine entries) : ¬Blocked entries a := by
  rintro ⟨b, path, fault⟩
  have there : b ∈ takenLine entries := by
    cases Relation.reflTransGen_iff_eq_or_transGen.mp path with
    | inl same => rwa [same]
    | inr path => exact (reaches_earlier distinct member path).1
  cases fault with
  | inl lost =>
      obtain ⟨before, after, split⟩ := List.append_of_mem there
      exact (taken_targets distinct split).1 lost
  | inr cycle => exact Nat.lt_irrefl _ (reaches_earlier distinct there cycle).2

theorem left_blocked (distinct : (entries.map (·.id)).Nodup) {a : LandingEntry}
    (member : a ∈ entries) (pinned : a.state = .pinned) (left : a ∉ takenLine entries) :
    Blocked entries a := by
  have next : ∀ a ∈ (pinnedLine entries).filter (fun a => decide (a ∉ takenLine entries)),
      WaitsOnLost entries a ∨ ∃ b ∈ (pinnedLine entries).filter
        (fun a => decide (a ∉ takenLine entries)), WaitsFor entries a b := by
    intro a there
    simp only [List.mem_filter, decide_eq_true_eq] at there
    have stuck := (takenLine_taken distinct).2 a there.1 there.2
    unfold Released at stuck
    push Not at stuck
    obtain ⟨b, within, isTarget, state, untaken⟩ := stuck
    rcases state with pinned | lost
    · refine .inr ⟨b, ?_, within, pinned, isTarget⟩
      simp only [List.mem_filter, decide_eq_true_eq]
      exact ⟨mem_pinnedLine.mpr ⟨within, pinned⟩, untaken⟩
    · exact .inl ⟨b, within, isTarget, lost⟩
  have rest : a ∈ (pinnedLine entries).filter fun a => decide (a ∉ takenLine entries) := by
    simp only [List.mem_filter, decide_eq_true_eq]
    exact ⟨mem_pinnedLine.mpr ⟨member, pinned⟩, left⟩
  exact reaches_end_or_cycle next rest

theorem takenLine_topological (distinct : (entries.map (·.id)).Nodup) :
    GreedyTopological entries (takenLine entries) := by
  obtain ⟨taken, -⟩ := takenLine_taken distinct
  refine ⟨fun before a after split => taken_targets distinct split, ?_, fun a member pinned =>
    ⟨left_blocked distinct member pinned, fun blocked there =>
      taken_not_blocked distinct there blocked⟩⟩
  intro before a after split b member pinned left released
  have inside : ∀ c ∈ before, c ∈ entries := fun c there =>
    (mem_pinnedLine.mp (taken.inside c (by rw [split]; exact List.mem_append_left _ there))).1
  have ready := (landingReady_iff distinct inside b).mpr released
  -- The first entry that is ready stands no later in the line than any other one.
  obtain ⟨accepted, front, back, line, refused⟩ :=
    List.find?_eq_some_iff_append.mp (taken.first before a after split)
  have there : b ∈ pinnedLine entries := mem_pinnedLine.mpr ⟨member, pinned⟩
  have sorted := pinnedLine_sorted entries
  rw [line] at there sorted
  cases List.mem_append.mp there with
  | inl early =>
      have bad := refused b early
      simp [left, ready] at bad
  | inr later =>
      cases List.mem_cons.mp later with
      | inl same => rw [same]; exact (NotAfter.total a a).elim id id
      | inr after => exact (List.pairwise_cons.mp (List.pairwise_append.mp sorted).2.1).1 b after

/-- The order holds the pinned entries, a greedy topological part of them first; the head
is the first of that part. -/
theorem landingOrder_topological (entries : List LandingEntry)
    (distinct : (entries.map (·.id)).Nodup) (flags : LandingLineFlags)
    (recovery : Option LandingRecovery) :
    (landingOrder entries flags recovery).order.Perm (entries.filter LandingEntry.isPinned) ∧
      ∃ front back, (landingOrder entries flags recovery).order = front ++ back ∧
        GreedyTopological entries front ∧
        ∀ head, (landingOrder entries flags recovery).head = some head →
          front.head? = some head ∧ Released entries [] head := by
  have order : (landingOrder entries flags recovery).order = takenLine entries ++
      (pinnedLine entries).filter fun a => decide (a ∉ takenLine entries) := by
    unfold landingOrder
    dsimp only
    split
    next => rfl
    next => split <;> rfl
  have first : ∀ head, (landingOrder entries flags recovery).head = some head →
      (takenLine entries).head? = some head := by
    intro head found
    unfold landingOrder at found
    dsimp only at found
    split at found
    next => cases found
    next =>
        split at found
        next => cases found
        next => exact found
  obtain ⟨taken, -⟩ := takenLine_taken distinct
  refine ⟨?_, _, _, order, takenLine_topological distinct, fun head found => ?_⟩
  · rw [order]
    have whole : (takenLine entries ++ (pinnedLine entries).filter
        fun a => decide (a ∉ takenLine entries)).Perm (pinnedLine entries) := by
      refine (List.perm_ext_iff_of_nodup ?_ (pinnedLine_nodup distinct)).mpr fun a => ?_
      · refine List.nodup_append.mpr ⟨taken.distinct, (pinnedLine_nodup distinct).filter _, ?_⟩
        intro a there b late same
        simp only [List.mem_filter, decide_eq_true_eq] at late
        exact late.2 (same ▸ there)
      · simp only [List.mem_append, List.mem_filter, decide_eq_true_eq]
        constructor
        · rintro (there | late)
          · exact taken.inside a there
          · exact late.1
        · intro member
          by_cases there : a ∈ takenLine entries
          · exact .inl there
          · exact .inr ⟨member, there⟩
    exact whole.trans (List.mergeSort_perm _ _)
  · have isFirst := first head found
    refine ⟨isFirst, ?_⟩
    obtain ⟨rest, split⟩ := List.head?_eq_some_iff.mp isFirst
    obtain ⟨-, -, ready⟩ := nextReady_some (taken.first [] head rest split)
    exact (landingReady_iff distinct (fun _ there => absurd there List.not_mem_nil) head).mp ready

def lineEntry (id pr pinnedAt : Int) (state : LandingEntryState) (afterIds : List Int) :
    LandingEntry where
  id := id
  project := Text.lit "p"
  pr := pr
  pinnedSha := []
  handoffCommit := []
  runId := none
  state := state
  baseSha := none
  ejectionKind := none
  ejections := 0
  afterIds := afterIds
  fixesMain := false
  setBy := []
  pinnedAt := pinnedAt

/-- Two entries in a cycle, one that waits on an ejected entry, and a chain. -/
def crossedLine : List LandingEntry :=
  [lineEntry 1 11 5 .pinned [2], lineEntry 2 12 1 .pinned [1], lineEntry 3 13 2 .ejected [],
    lineEntry 4 14 3 .pinned [3], lineEntry 5 15 4 .pinned [6, 9], lineEntry 6 16 9 .pinned []]

theorem landingOrder_topological_crossed :
    (landingOrder crossedLine ⟨false, false⟩ none).order.Perm
        (crossedLine.filter LandingEntry.isPinned) ∧
      ∃ front back, (landingOrder crossedLine ⟨false, false⟩ none).order = front ++ back ∧
        GreedyTopological crossedLine front ∧
        ∀ head, (landingOrder crossedLine ⟨false, false⟩ none).head = some head →
          front.head? = some head ∧ Released crossedLine [] head :=
  landingOrder_topological crossedLine (by decide) ⟨false, false⟩ none

end Ccrc.Coord
