import Ccrc.Library.Run
import Ccrc.Library.Lists
import Ccrc.Coord.Landing

/-! Generations of a checks episode over any run of passes. Every pass is a
short sequence of row pushes, each of which is admissible for the rows before
it; one push lemma for each kind of row carries the whole invariant. -/

set_option autoImplicit false

namespace Ccrc.Coord

open Library Shared

/-- The generation and word of the mail a row comes with. -/
def ChecksRow.mailKey (row : ChecksRow) : Option (Int × ChecksMailWord) :=
  match row.what with
  | .open => none
  | .green => some (row.gen, .green)
  | .red => some (row.gen, .red)
  | .stuck => some (row.gen, .stuck)

def ChecksMailAsk.key (mail : ChecksMailAsk) : Int × ChecksMailWord := (mail.gen, mail.word)

/-- Two rows that one generation may hold together. -/
def ChecksRow.Compatible (first second : ChecksRow) : Prop :=
  first.gen = second.gen →
    ¬(first.isEdge ∧ second.isEdge) ∧ ¬(first.isStuck ∧ second.isStuck) ∧
    ¬(first.what = .green ∧ second.isStuck) ∧ ¬(first.isStuck ∧ second.what = .green)

instance : Std.Symm ChecksRow.Compatible where
  symm first second compatible same := by
    obtain ⟨edges, stucks, greenFirst, greenSecond⟩ := compatible same.symm
    exact ⟨fun both => edges ⟨both.2, both.1⟩, fun both => stucks ⟨both.2, both.1⟩,
      fun both => greenSecond ⟨both.2, both.1⟩, fun both => greenFirst ⟨both.2, both.1⟩⟩

/-- The invariant of an episode's rows. -/
structure RowsValid (rows : List ChecksRow) : Prop where
  opened : (rows.filter (·.isOpen)).map (·.gen) =
    (List.range (rows.countP (·.isOpen))).map Int.ofNat
  known : ∀ row ∈ rows, 0 ≤ row.gen ∧ row.gen ≤ currentGenNumber rows
  compatible : rows.Pairwise ChecksRow.Compatible

theorem rowsValid_nil : RowsValid [] := ⟨rfl, by simp, .nil⟩

@[simp] theorem currentGenNumber_append (rows added : List ChecksRow) :
    currentGenNumber (rows ++ added) =
      currentGenNumber rows + (added.countP (·.isOpen) : Int) := by
  simp only [currentGenNumber, List.countP_append]
  omega

/-- A row of the current generation that opens nothing keeps the invariant when
the generation's rows all admit it. -/
theorem RowsValid.push_settled {rows : List ChecksRow} (valid : RowsValid rows)
    (row : ChecksRow) (notOpen : row.isOpen = false)
    (current : row.gen = currentGenNumber rows) (some : 0 ≤ currentGenNumber rows)
    (admitted : ∀ before ∈ rows, before.Compatible row) : RowsValid (rows ++ [row]) where
  opened := by simpa [notOpen] using valid.opened
  known := by
    intro other member
    rcases List.mem_append.mp member with before | added
    · simpa [notOpen] using valid.known other before
    · obtain rfl : other = row := by simpa using added
      simp [notOpen, current, some]
  compatible := by
    refine List.pairwise_append.mpr ⟨valid.compatible, by simp, ?_⟩
    intro before member added isRow
    obtain rfl : added = row := by simpa using isRow
    exact admitted before member

/-- Opening the generation after the current one is always admissible. -/
theorem RowsValid.push_open {rows : List ChecksRow} (valid : RowsValid rows)
    (row : ChecksRow) (isOpen : row.isOpen = true)
    (next : row.gen = currentGenNumber rows + 1) : RowsValid (rows ++ [row]) where
  opened := by
    have count : currentGenNumber rows + 1 = Int.ofNat (rows.countP (·.isOpen)) := by
      simp [currentGenNumber]
    simp [isOpen, valid.opened, List.countP_append, List.range_succ, next, count]
  known := by
    intro other member
    have atLeast : -1 ≤ currentGenNumber rows := by
      unfold currentGenNumber
      omega
    rcases List.mem_append.mp member with before | added
    · have bounds := valid.known other before
      simp [isOpen]
      omega
    · obtain rfl : other = row := by simpa using added
      simp [isOpen, next]
      omega
  compatible := by
    refine List.pairwise_append.mpr ⟨valid.compatible, by simp, ?_⟩
    intro before member added isRow same
    obtain rfl : added = row := by simpa using isRow
    have bounds := valid.known before member
    omega

/-- Nothing of the generation after the current one is among the rows. -/
theorem RowsValid.fresh_next {rows : List ChecksRow} (valid : RowsValid rows)
    {row : ChecksRow} (member : row ∈ rows) : row.gen ≠ currentGenNumber rows + 1 := by
  have bounds := valid.known row member
  omega

theorem currentGen_gen (rows : List ChecksRow) :
    (currentGen rows).gen = currentGenNumber rows := rfl

private theorem find_own_none {rows : List ChecksRow} {selects : ChecksRow → Bool}
    {gen : Int} (none : (rows.filter (·.gen == gen)).find? selects = none)
    {row : ChecksRow} (member : row ∈ rows) (own : row.gen = gen) : selects row = false := by
  have absent := List.find?_eq_none.mp none row
    (List.mem_filter.mpr ⟨member, by simpa using own⟩)
  simpa using absent

private theorem find_own_some {rows : List ChecksRow} {selects : ChecksRow → Bool}
    {gen : Int} {row : ChecksRow}
    (found : (rows.filter (·.gen == gen)).find? selects = some row) :
    row ∈ rows ∧ row.gen = gen ∧ selects row = true := by
  have member := List.mem_filter.mp (List.mem_of_find?_eq_some found)
  exact ⟨member.1, by simpa using member.2, List.find?_some found⟩

/-- What a pass holds between its pushes. -/
structure DraftValid (rows : List ChecksRow) (draft : ChecksDraft) : Prop where
  rowsValid : RowsValid (rows ++ draft.write)
  mailed : draft.write.filterMap (·.mailKey) = draft.mail.toList.map (·.key)

theorem DraftValid.openGeneration {rows : List ChecksRow} {draft : ChecksDraft}
    (valid : DraftValid rows draft) (gen nowMs : Int)
    (next : gen = currentGenNumber (rows ++ draft.write) + 1) :
    DraftValid rows (openGeneration draft gen nowMs) where
  rowsValid := by
    simpa [Coord.openGeneration, ChecksDraft.push] using
      valid.rowsValid.push_open
        { gen, what := .open, fp := none, reading := none, atMs := nowMs } rfl next
  mailed := by
    simpa [Coord.openGeneration, ChecksDraft.push, ChecksRow.mailKey] using valid.mailed

/-- Settling a generation with no edge and no `stuck` row yet. -/
theorem DraftValid.settleGeneration {rows : List ChecksRow} {draft : ChecksDraft}
    (valid : DraftValid rows draft) (unmailed : draft.mail = none) (gen nowMs : Int)
    (fp : Text) {word : RequiredChecksWord} {settled : ChecksRowWhat × ChecksMailWord}
    (settles : settledWord word = some settled)
    (current : gen = currentGenNumber (rows ++ draft.write)) (nonneg : 0 ≤ gen)
    (unsettled : ∀ row ∈ rows ++ draft.write, row.gen = gen →
      row.isEdge = false ∧ row.isStuck = false) :
    DraftValid rows (settleGeneration draft gen nowMs fp settled) := by
  have cases : settled = (.green, .green) ∨ settled = (.red, .red) := by
    cases word <;> simp_all [settledWord]
  constructor
  · have pushed := valid.rowsValid.push_settled
      { gen, what := settled.1, fp := some fp, reading := none, atMs := nowMs }
      (by rcases cases with rfl | rfl <;> rfl) current (current ▸ nonneg) (by
        intro before member same
        obtain ⟨noEdge, noStuck⟩ := unsettled before member same
        rcases cases with rfl | rfl <;> simp_all [ChecksRow.isEdge, ChecksRow.isStuck])
    simpa [Coord.settleGeneration, ChecksDraft.push] using pushed
  · have before := valid.mailed
    rw [unmailed] at before
    rcases cases with rfl | rfl <;>
      simp_all [Coord.settleGeneration, ChecksDraft.push, ChecksRow.mailKey, ChecksMailAsk.key]

/-- The `stuck` row of a generation with no green edge and no `stuck` row. -/
theorem DraftValid.stuckGeneration {rows : List ChecksRow} {draft : ChecksDraft}
    (valid : DraftValid rows draft) (unmailed : draft.mail = none) (gen nowMs : Int)
    (reading : Text) (cause : StuckCause)
    (current : gen = currentGenNumber (rows ++ draft.write)) (nonneg : 0 ≤ gen)
    (unstuck : ∀ row ∈ rows ++ draft.write, row.gen = gen → row.isStuck = false)
    (ungreened : ∀ row ∈ rows ++ draft.write, row.gen = gen → row.what ≠ .green) :
    DraftValid rows (stuckGeneration draft gen nowMs reading cause) := by
  constructor
  · have pushed := valid.rowsValid.push_settled
      { gen, what := .stuck, fp := none, reading := some reading, atMs := nowMs }
      rfl current (current ▸ nonneg) (by
        intro before member same
        have notStuck := unstuck before member same
        have notGreen := ungreened before member same
        simp_all [ChecksRow.isEdge, ChecksRow.isStuck])
    simpa [Coord.stuckGeneration, ChecksDraft.push] using pushed
  · have before := valid.mailed
    rw [unmailed] at before
    simp_all [Coord.stuckGeneration, ChecksDraft.push, ChecksRow.mailKey, ChecksMailAsk.key]

theorem openEpisode_valid {rows : List ChecksRow} (valid : RowsValid rows)
    (episodeAtMs : Int) :
    DraftValid rows (openEpisode rows episodeAtMs) ∧
      (openEpisode rows episodeAtMs).mail = none ∧
      0 ≤ currentGenNumber (rows ++ (openEpisode rows episodeAtMs).write) := by
  have idle : DraftValid rows { write := [], mail := none } := ⟨by simpa using valid, rfl⟩
  unfold openEpisode
  split
  next opened =>
    have positive : 0 < rows.countP (·.isOpen) := by
      simpa [List.countP_pos_iff] using opened
    refine ⟨idle, rfl, ?_⟩
    simp only [List.append_nil, currentGenNumber]
    omega
  next unopened =>
    have none : rows.countP (·.isOpen) = 0 := by
      simpa [List.countP_eq_zero] using unopened
    refine ⟨idle.openGeneration 0 episodeAtMs (by simp [currentGenNumber, none]), rfl, ?_⟩
    simp [openGeneration, ChecksDraft.push, currentGenNumber, ChecksRow.isOpen]

/-- After the next generation is opened it holds no edge and no `stuck` row, so
it may be settled at once. -/
private theorem DraftValid.openNext_settle {rows : List ChecksRow} {draft : ChecksDraft}
    (valid : DraftValid rows draft) (unmailed : draft.mail = none)
    (nonneg : 0 ≤ currentGenNumber (rows ++ draft.write)) (nowMs : Int) (fp : Text)
    {word : RequiredChecksWord} {settled : ChecksRowWhat × ChecksMailWord}
    (settles : settledWord word = some settled) :
    DraftValid rows (Coord.settleGeneration
      (Coord.openGeneration draft (currentGenNumber (rows ++ draft.write) + 1) nowMs)
      (currentGenNumber (rows ++ draft.write) + 1) nowMs fp settled) := by
  have opened := valid.openGeneration _ nowMs rfl
  refine opened.settleGeneration unmailed _ nowMs fp settles ?_ (by omega) ?_
  · simp [Coord.openGeneration, ChecksDraft.push, ChecksRow.isOpen, ← List.append_assoc]
  · intro row member own
    rw [Coord.openGeneration, ChecksDraft.push, ← List.append_assoc] at member
    rcases List.mem_append.mp member with before | added
    · exact absurd own (valid.rowsValid.fresh_next before)
    · obtain rfl := List.mem_singleton.mp added
      exact ⟨rfl, rfl⟩

theorem foldAnswer_valid {rows : List ChecksRow} {draft : ChecksDraft}
    (valid : DraftValid rows draft) (unmailed : draft.mail = none)
    (nonneg : 0 ≤ currentGenNumber (rows ++ draft.write)) (answered : ChecksRead)
    (nowMs : Int) : DraftValid rows (foldAnswer rows draft answered nowMs) := by
  have opensNext := valid.openGeneration _ nowMs rfl
  unfold foldAnswer
  simp only [currentGen_gen]
  split
  next stuck noEdge hasStuck =>
    split
    next settled settles =>
      exact valid.openNext_settle unmailed nonneg nowMs answered.fp settles
    next => split <;> assumption
  next edge hasEdge =>
    split
    next => exact opensNext
    next =>
      split
      next settled settles =>
        split
        next => exact valid.openNext_settle unmailed nonneg nowMs answered.fp settles
        next => exact valid
      next => exact valid
  next noEdge noStuck =>
    split
    next settled settles =>
      refine valid.settleGeneration unmailed _ nowMs answered.fp settles rfl nonneg ?_
      intro row member own
      exact ⟨find_own_none noEdge member own, find_own_none noStuck member own⟩
    next => exact valid

/-- A generation whose first edge is not green holds no green edge at all. -/
private theorem ungreened_of_edge {rows : List ChecksRow} (valid : RowsValid rows)
    (notGreen : (currentGen rows).edge.any (·.what == .green) = false)
    {row : ChecksRow} (member : row ∈ rows) (own : row.gen = currentGenNumber rows) :
    row.what ≠ .green := by
  intro green
  cases edge : (currentGen rows).edge with
  | none =>
      have notEdge := find_own_none edge member own
      simp [ChecksRow.isEdge, green] at notEdge
  | some kept =>
      obtain ⟨keptMember, keptOwn, keptEdge⟩ := find_own_some edge
      have keptRed : kept.what ≠ .green := by simpa [edge] using notGreen
      have different : kept ≠ row := fun same => keptRed (same ▸ green)
      have compatible := valid.compatible.forall keptMember member different
      exact (compatible (keptOwn.trans own.symm)).1
        ⟨keptEdge, by simp [ChecksRow.isEdge, green]⟩

/-- A generation that owes its bound has no `stuck` row and no green edge, so
the `stuck` row is admissible. -/
theorem foldBound_valid {rows : List ChecksRow} {draft : ChecksDraft}
    (valid : DraftValid rows draft) (unmailed : draft.mail = none)
    (nonneg : 0 ≤ currentGenNumber (rows ++ draft.write)) (answered : Option ChecksRead)
    (nowMs : Int) (forced : Option StuckCause) :
    DraftValid rows (foldBound rows draft answered nowMs forced) := by
  unfold foldBound
  simp only [currentGen_gen]
  split
  next opened hasOpen noStuck =>
    by_cases green : (currentGen (rows ++ draft.write)).edge.any (·.what == .green) = true
    · rw [if_pos green]
      exact valid
    · rw [if_neg green]
      split
      next =>
        refine valid.stuckGeneration unmailed _ nowMs _ _ rfl nonneg ?_ ?_
        · intro row member own
          exact find_own_none noStuck member own
        · intro row member own
          exact ungreened_of_edge valid.rowsValid (by simpa using green) member own
      next => exact valid
  next => exact valid

/-- No half of a pass takes a row back. -/
theorem foldAnswer_write (rows : List ChecksRow) (draft : ChecksDraft)
    (answered : ChecksRead) (nowMs : Int) :
    draft.write <+: (foldAnswer rows draft answered nowMs).write := by
  unfold foldAnswer
  simp only [openGeneration, settleGeneration, ChecksDraft.push]
  repeat' split
  all_goals simp

theorem foldRead_valid {rows : List ChecksRow} {draft : ChecksDraft}
    (valid : DraftValid rows draft) (unmailed : draft.mail = none)
    (nonneg : 0 ≤ currentGenNumber (rows ++ draft.write)) (answered : Option ChecksRead)
    (nowMs : Int) :
    DraftValid rows (foldRead rows draft answered nowMs) ∧
      0 ≤ currentGenNumber (rows ++ (foldRead rows draft answered nowMs).write) := by
  cases answered with
  | none => exact ⟨valid, nonneg⟩
  | some answered =>
      refine ⟨foldAnswer_valid valid unmailed nonneg answered nowMs, ?_⟩
      obtain ⟨added, written⟩ := foldAnswer_write rows draft answered nowMs
      rw [foldRead, ← written, ← List.append_assoc, currentGenNumber_append]
      omega

/-- One pass: its rows keep the invariant and come with the mails they name. -/
theorem foldChecks_valid {rows : List ChecksRow} (valid : RowsValid rows)
    (read : Option ChecksRead) (nowMs episodeAtMs : Int) (forced : Option StuckCause) :
    RowsValid (rows ++ (foldChecks rows read nowMs episodeAtMs forced).write) ∧
      (foldChecks rows read nowMs episodeAtMs forced).write.filterMap (·.mailKey) =
        (foldChecks rows read nowMs episodeAtMs forced).mail.toList.map (·.key) := by
  obtain ⟨opened, unmailed, nonneg⟩ := openEpisode_valid valid episodeAtMs
  unfold foldChecks
  simp only
  generalize read.filter (·.word != .unmeasured) = answered
  obtain ⟨settled, settledNonneg⟩ := foldRead_valid opened unmailed nonneg answered nowMs
  split
  next => exact ⟨settled.rowsValid, settled.mailed⟩
  next noMail =>
    have bounded := foldBound_valid settled noMail settledNonneg answered nowMs forced
    exact ⟨bounded.rowsValid, bounded.mailed⟩

/-- The two calls a pass may make for an episode. -/
inductive ChecksCall where
  | edge (read : ChecksRead) (nowMs episodeAtMs : Int) (live : Bool)
  | bound (nowMs episodeAtMs : Int) (cause : StuckCause)
  deriving Repr

def ChecksCall.fold (rows : List ChecksRow) : ChecksCall → ChecksFold
  | .edge read nowMs episodeAtMs live => checksEdge rows read nowMs episodeAtMs live
  | .bound nowMs episodeAtMs cause => stuckOnly rows nowMs episodeAtMs cause

/-- The rows that a series of passes has written. -/
def episodeRows (folds : List ChecksFold) : List ChecksRow := folds.flatMap (·.write)

/-- One pass more: it is given the rows that the passes before it wrote. -/
def episodeStep (folds : List ChecksFold) (call : ChecksCall) : List ChecksFold :=
  folds ++ [call.fold (episodeRows folds)]

/-- The folds of a whole run, from no rows. -/
def episodeRun (calls : List ChecksCall) : List ChecksFold := runFrom episodeStep [] calls

/-- What holds of the passes made so far. -/
structure EpisodeValid (folds : List ChecksFold) : Prop where
  rowsValid : RowsValid (episodeRows folds)
  mailed : ∀ fold ∈ folds, fold.write.filterMap (·.mailKey) = fold.mail.toList.map (·.key)

theorem ChecksCall.fold_valid {rows : List ChecksRow} (valid : RowsValid rows)
    (call : ChecksCall) :
    RowsValid (rows ++ (call.fold rows).write) ∧
      (call.fold rows).write.filterMap (·.mailKey) = (call.fold rows).mail.toList.map (·.key) := by
  cases call with
  | edge read nowMs episodeAtMs live =>
      exact foldChecks_valid valid (some read) nowMs episodeAtMs none
  | bound nowMs episodeAtMs cause =>
      exact foldChecks_valid valid none nowMs episodeAtMs (some cause)

theorem EpisodeValid.step {folds : List ChecksFold} (valid : EpisodeValid folds)
    (call : ChecksCall) : EpisodeValid (episodeStep folds call) := by
  obtain ⟨rowsValid, mailed⟩ := call.fold_valid valid.rowsValid
  constructor
  · simpa [episodeStep, episodeRows] using rowsValid
  · intro fold member
    rcases List.mem_append.mp member with before | added
    · exact valid.mailed fold before
    · obtain rfl := List.mem_singleton.mp added
      exact mailed

theorem episodeRun_valid (calls : List ChecksCall) : EpisodeValid (episodeRun calls) :=
  runFrom_invariant (fun _ call valid => valid.step call) ⟨rowsValid_nil, by simp⟩ calls

/-- At most one row of a kind that no generation may hold twice. -/
private theorem unique_of_compatible {rows : List ChecksRow} (valid : RowsValid rows)
    {selects : ChecksRow → Bool} (gen : Int)
    (exclusive : ∀ {first second : ChecksRow}, first.Compatible second →
      first.gen = second.gen → ¬(selects first ∧ selects second)) :
    (rows.filter fun row => row.gen == gen && selects row).length ≤ 1 := by
  refine length_filter_le_one (valid.compatible.imp ?_)
  intro first second compatible both
  simp only [Bool.and_eq_true, beq_iff_eq] at both
  obtain ⟨⟨firstOwn, firstSelected⟩, secondOwn, secondSelected⟩ := both
  exact exclusive compatible (firstOwn.trans secondOwn.symm) ⟨firstSelected, secondSelected⟩

/-- Rows that a generation may hold together never ask for one mail. -/
private theorem mailKey_ne_of_compatible {first second : ChecksRow}
    (compatible : first.Compatible second) {key : Int × ChecksMailWord}
    (firstKey : first.mailKey = some key) (secondKey : second.mailKey = some key) : False := by
  unfold ChecksRow.mailKey at firstKey secondKey
  cases firstWhat : first.what <;> cases secondWhat : second.what <;>
    simp only [firstWhat, secondWhat, reduceCtorEq, Option.some.injEq] at firstKey secondKey
  all_goals
    have keys := firstKey.trans secondKey.symm
    have words : _ = _ := congrArg Prod.snd keys
    have same : first.gen = second.gen := congrArg Prod.fst keys
    have exclusive := compatible same
    simp_all [ChecksRow.isEdge, ChecksRow.isStuck]

theorem RowsValid.mailKeys_nodup {rows : List ChecksRow} (valid : RowsValid rows) :
    (rows.filterMap (·.mailKey)).Nodup := by
  rw [List.nodup_iff_pairwise_ne, List.pairwise_filterMap]
  refine valid.compatible.imp ?_
  intro first second compatible firstKey firstMails secondKey secondMails same
  subst same
  exact mailKey_ne_of_compatible compatible firstMails secondMails

/-- The mails of all passes, as generation and word. -/
def episodeMails (folds : List ChecksFold) : List (Int × ChecksMailWord) :=
  folds.flatMap fun fold => fold.mail.toList.map (·.key)

theorem EpisodeValid.mails {folds : List ChecksFold} (valid : EpisodeValid folds) :
    episodeMails folds = (episodeRows folds).filterMap (·.mailKey) := by
  rw [episodeMails, episodeRows, List.filterMap_flatMap]
  exact List.flatMap_congr fun fold member => (valid.mailed fold member).symm

/-- Generations are opened as 0, 1, 2, and so on; each settles once at most, is
stuck once at most, and never after a green edge; and the mails are those of the
edge and `stuck` rows, none of them sent twice. -/
theorem episodeRun_generations (calls : List ChecksCall) :
    let folds := episodeRun calls
    let rows := episodeRows folds
    (rows.filter (·.isOpen)).map (·.gen) =
        (List.range (rows.countP (·.isOpen))).map Int.ofNat ∧
      (∀ gen, (rows.filter fun row => row.gen == gen && row.isEdge).length ≤ 1) ∧
      (∀ gen, (rows.filter fun row => row.gen == gen && row.isStuck).length ≤ 1) ∧
      (∀ green ∈ rows, green.what = .green →
        ∀ row ∈ rows, row.gen = green.gen → row.what ≠ .stuck) ∧
      (∀ row ∈ rows, 0 ≤ row.gen ∧ row.gen < rows.countP (·.isOpen)) ∧
      (∀ fold ∈ folds,
        fold.write.filterMap (·.mailKey) = fold.mail.toList.map (·.key)) ∧
      (episodeMails folds).Nodup := by
  intro folds rows
  have valid : EpisodeValid folds := episodeRun_valid calls
  refine ⟨valid.rowsValid.opened, ?_, ?_, ?_, ?_, valid.mailed, ?_⟩
  · intro gen
    exact unique_of_compatible valid.rowsValid gen fun compatible same => (compatible same).1
  · intro gen
    exact unique_of_compatible valid.rowsValid gen fun compatible same => (compatible same).2.1
  · intro green greenMember isGreen row member same isStuck
    have different : green ≠ row := by
      rintro rfl
      simp [isGreen] at isStuck
    have compatible := valid.rowsValid.compatible.forall greenMember member different
    exact (compatible same.symm).2.2.1 ⟨isGreen, by simp [ChecksRow.isStuck, isStuck]⟩
  · intro row member
    obtain ⟨nonneg, bound⟩ := valid.rowsValid.known row member
    exact ⟨nonneg, Int.lt_of_le_of_lt bound (Int.sub_lt_self _ Int.one_pos)⟩
  · rw [valid.mails]
    exact valid.rowsValid.mailKeys_nodup

end Ccrc.Coord
