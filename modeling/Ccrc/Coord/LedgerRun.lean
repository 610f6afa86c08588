import Ccrc.Coord.LedgerLogProperties
import Ccrc.Coord.LedgerStore

/-! No deviation number is issued twice, as long as no database is put back that drops a
number whose only line went behind a torn one. -/

set_option autoImplicit false

namespace Ccrc.Coord

open Library
open Library.Text (lit)

/-! ## What an allocation passes -/

/-- A number that no later allocation reaches: the floor stands above it, or a row or a
line of its own at or above it. -/
def Passed (db : LedgerDb) (log : Option Bytes) (project : Text) (n : Int) : Prop :=
  (∃ floor, db.floor? project = some floor ∧ n < floor) ∨
    (∃ row ∈ db.alloc, row.project = project ∧ n ≤ row.n) ∨
    ∃ entry, OwnLine (log.getD []) entry ∧ entry.project = project ∧ n ≤ entry.n ∧
      entry.n.natAbs < 2 ^ 53

theorem maxRow_le {db : LedgerDb} {row : LedgerAllocRow} {project : Text}
    (member : row ∈ db.alloc) (same : row.project = project) :
    ∃ greatest, maxRow db project = some greatest ∧ row.n ≤ greatest := by
  have listed : row.n ∈ (db.alloc.filter (·.project = project)).map (·.n) :=
    List.mem_map_of_mem (List.mem_filter.mpr ⟨member, by simpa using same⟩)
  unfold maxRow
  cases found : ((db.alloc.filter (·.project = project)).map (·.n)).max? with
  | none =>
      rw [List.max?_eq_none_iff] at found
      rw [found] at listed
      cases listed
  | some greatest => exact ⟨greatest, rfl, (List.max?_eq_some_iff.mp found).2 row.n listed⟩

theorem maxAllocated_own {log : Option Bytes} {entry : LedgerLogEntry}
    (own : OwnLine (log.getD []) entry) (small : entry.n.natAbs < 2 ^ 53) :
    ∃ greatest, maxAllocated log entry.project = some greatest ∧ entry.n ≤ greatest := by
  cases log with
  | some bytes => exact maxAllocated_ownLine own small
  | none =>
      obtain ⟨start, isLine⟩ := own
      have ends := isLine.end_le
      rw [Option.getD_none, List.length_nil] at ends
      omega

theorem journalFloor_ge (db file : Option Int) {n greatest : Int} (below : n ≤ greatest)
    (recorded : db = some greatest ∨ file = some greatest) :
    n ≤ (journalFloor db file).getD 0 := by
  rcases recorded with rfl | rfl
  · cases file with
    | none => exact below
    | some other => exact Int.le_trans below (Int.le_max_left _ _)
  · cases db with
    | none => exact below
    | some other => exact Int.le_trans below (Int.le_max_right _ _)

/-- What a decision allocates lies past everything that was passed. -/
theorem allocationDecision_past {db : LedgerDb} {log : Option Bytes} {input : AllocationInput}
    {numbers : List Int} {floor : Int}
    (decided : allocationDecision db log input = .ok numbers floor) {n : Int}
    (passed : Passed db log input.project n) : ∀ m ∈ numbers, n < m := by
  obtain ⟨isFloor, size, positive, rfl⟩ := decideAllocation_ok decided
  intro m member
  obtain ⟨atLeast, _⟩ := mem_numbersFrom.mp member
  rcases passed with ⟨stored, found, below⟩ | ⟨row, isRow, same, below⟩ |
    ⟨entry, own, same, below, small⟩
  · cases isFloor.symm.trans found
    omega
  · obtain ⟨greatest, found, atMost⟩ := maxRow_le isRow same
    have recorded := journalFloor_ge (maxRow db input.project)
      (maxAllocated log input.project) (Int.le_trans below atMost) (Or.inl found)
    omega
  · obtain ⟨greatest, found, atMost⟩ := maxAllocated_own own small
    have recorded := journalFloor_ge (maxRow db input.project)
      (maxAllocated log input.project) (Int.le_trans below atMost) (Or.inr (same ▸ found))
    omega

theorem Passed.mono {db more : LedgerDb} {log grown : Option Bytes} {project : Text} {n : Int}
    (passed : Passed db log project n)
    (floors : ∀ floor, db.floor? project = some floor →
      ∃ later, more.floor? project = some later ∧ floor ≤ later)
    (rows : db.alloc ⊆ more.alloc) (grows : log.getD [] <+: grown.getD []) :
    Passed more grown project n := by
  rcases passed with ⟨floor, found, below⟩ | ⟨row, member, kept⟩ | ⟨entry, own, kept⟩
  · obtain ⟨later, foundLater, above⟩ := floors floor found
    exact Or.inl ⟨later, foundLater, by omega⟩
  · exact Or.inr (Or.inl ⟨row, rows member, kept⟩)
  · exact Or.inr (Or.inr ⟨entry, own.extend grows, kept⟩)

/-! ## Floors -/

theorem floor?_set (db : LedgerDb) {project other : Text} (row : LedgerFloorRow)
    (apart : other ≠ project) :
    ({ db with floors := db.floors.set project row } : LedgerDb).floor? other =
      db.floor? other := by
  rw [LedgerDb.floor?, Map.get?_set_ne apart]
  rfl

/-- A floor only ever rises. -/
theorem raiseLedgerFloor_floor? (db : LedgerDb) (project : Text) (raised : Int) (evidence : Text)
    (updatedAt : Int) {other : Text} {floor : Int} (stored : db.floor? other = some floor) :
    ∃ later, (raiseLedgerFloor db project raised evidence updatedAt).floor? other = some later ∧
      floor ≤ later := by
  unfold raiseLedgerFloor
  split
  next row found =>
      split
      next higher =>
          by_cases same : other = project
          · subst same
            rw [LedgerDb.floor?, found, Option.map_some, Option.some.injEq] at stored
            refine ⟨raised, ?_, by omega⟩
            rw [LedgerDb.floor?, Map.get?_set_self]
            rfl
          · exact ⟨floor, (floor?_set db _ same).trans stored, Int.le_refl _⟩
      next => exact ⟨floor, stored, Int.le_refl _⟩
  next none =>
      have apart : other ≠ project := by
        rintro rfl
        rw [LedgerDb.floor?, none] at stored
        cases stored
      exact ⟨floor, (floor?_set db _ apart).trans stored, Int.le_refl _⟩

theorem raiseLedgerFloor_alloc (db : LedgerDb) (project : Text) (raised : Int) (evidence : Text)
    (updatedAt : Int) : (raiseLedgerFloor db project raised evidence updatedAt).alloc = db.alloc := by
  unfold raiseLedgerFloor
  split
  next => split <;> rfl
  next => rfl

theorem insertAllocations_some {input : AllocationInput} {numbers : List Int} {db next : LedgerDb}
    (inserted : insertAllocations db input numbers = some next) :
    next = { db with alloc := db.alloc ++ numbers.map (allocationRow input) } := by
  induction numbers generalizing db with
  | nil =>
      rw [insertAllocations, Option.some.injEq] at inserted
      rw [← inserted, List.map_nil, List.append_nil]
  | cons n rest ih =>
      rw [insertAllocations] at inserted
      split at inserted
      next => cases inserted
      next =>
          rw [ih inserted]
          simp only [List.append_assoc, List.singleton_append, List.map_cons]

/-! ## One allocation -/

/-- What an allocation leaves: the floors, the rows it had, a log that only grew; and of
a block that it answered, the decision, its rows and its bytes. -/
structure Allocated (db : LedgerDb) (log : Option Bytes) (input : AllocationInput)
    (outcome : AllocateOutcome) : Prop where
  floors : outcome.db.floors = db.floors
  rows : db.alloc ⊆ outcome.db.alloc
  grows : log.getD [] <+: outcome.log.getD []
  block : ∀ block, outcome.result = some (.ok block) → block.project = input.project ∧
    allocationDecision db log input = .ok block.numbers block.floor ∧
    (∀ n ∈ block.numbers, allocationRow input n ∈ outcome.db.alloc) ∧
    outcome.log.getD [] = log.getD [] ++ allocationBytes input block.numbers

theorem allocateDeviations_allocated (db : LedgerDb) (log : Option Bytes) (input : AllocationInput)
    (ending : AllocateEnd) : Allocated db log input (allocateDeviations db log input ending) := by
  unfold allocateDeviations
  split
  next =>
      exact ⟨rfl, List.Subset.refl _, List.prefix_rfl, fun _ answered => by cases answered⟩
  next numbers floor decided =>
      dsimp only
      cases ending with
      | torn kept =>
          exact ⟨rfl, List.Subset.refl _, List.prefix_append _ _, fun _ answered => by cases answered⟩
      | uncommitted =>
          exact ⟨rfl, List.Subset.refl _, List.prefix_append _ _, fun _ answered => by cases answered⟩
      | committed =>
          dsimp only
          split
          next =>
              exact ⟨rfl, List.Subset.refl _, List.prefix_append _ _,
                fun _ answered => by cases answered⟩
          next inserted isInserted =>
              obtain rfl := insertAllocations_some isInserted
              refine ⟨rfl, List.subset_append_left _ _, List.prefix_append _ _,
                fun block answered => ?_⟩
              cases answered
              refine ⟨rfl, decided, fun n member => ?_, rfl⟩
              exact List.mem_append_right _ (List.mem_map_of_mem member)

theorem numbersFrom_succ (start : Int) (size : Nat) :
    numbersFrom start (size + 1) = start :: numbersFrom (start + 1) size := by
  simp only [numbersFrom, List.range_succ_eq_map, List.map_cons, List.map_map]
  congr 1
  · omega
  · refine List.map_congr_left fun i _ => ?_
    simp only [Function.comp_apply]
    omega

/-- Of a block that was appended at the start of a line, or of several lines, the
greatest number has a line of its own. -/
theorem allocated_ownLine {bytes : Bytes} (input : AllocationInput) {start : Int} {size : Nat}
    (apart : ((numbersFrom start size).length = 1 && !atLineStart bytes) = false) {n : Int}
    (member : n ∈ numbersFrom start size) :
    ∃ entry, OwnLine (bytes ++ allocationBytes input (numbersFrom start size)) entry ∧
      entry.project = input.project ∧ n ≤ entry.n ∧ entry.n ∈ numbersFrom start size := by
  obtain ⟨atLeast, below⟩ := mem_numbersFrom.mp member
  have greatest : start + size - 1 ∈ numbersFrom start size := mem_numbersFrom.mpr (by omega)
  let entryOf (n : Int) : LedgerLogEntry :=
    { project := input.project, n, title := input.title, allocatedTo := input.allocatedTo
      recordedAt := input.now }
  refine ⟨entryOf (start + size - 1), ?_, rfl, by simp only [entryOf]; omega, greatest⟩
  refine ownLine_append ?_
  cases starts : atLineStart bytes with
  | true => exact Or.inl ⟨rfl, List.mem_map_of_mem greatest⟩
  | false =>
      refine Or.inr ?_
      cases size with
      | zero => omega
      | succ size =>
          cases size with
          | zero => simp [starts, numbersFrom] at apart
          | succ size =>
              rw [numbersFrom_succ, List.map_cons, List.tail_cons]
              exact List.mem_map_of_mem (mem_numbersFrom.mpr (by omega))

/-! ## The invariant -/

/-- Every number that was answered is passed, and one that is no glued line's by a line;
the blocks of a project share no number, and each is a run from its floor on. -/
structure LedgerSound (world : LedgerWorld) : Prop where
  passed : ∀ issued ∈ world.issued, ∀ n ∈ issued.block.numbers,
    Passed world.db world.log issued.block.project n
  own : ∀ issued ∈ world.issued, issued.glued = false → ∀ n ∈ issued.block.numbers,
    ∃ entry, OwnLine (world.log.getD []) entry ∧ entry.project = issued.block.project ∧
      n ≤ entry.n ∧ entry.n.natAbs < 2 ^ 53
  disjoint : world.issued.Pairwise fun first second =>
    first.block.project = second.block.project →
      List.Disjoint first.block.numbers second.block.numbers
  runs : ∀ issued ∈ world.issued, ∃ start size, issued.block.numbers = numbersFrom start size ∧
    0 < size ∧ ∃ floor, issued.floorInForce = some floor ∧ floor ≤ start

theorem LedgerSound.start : LedgerSound LedgerWorld.start where
  passed := fun _ member => absurd member List.not_mem_nil
  own := fun _ member => absurd member List.not_mem_nil
  disjoint := List.Pairwise.nil
  runs := fun _ member => absurd member List.not_mem_nil

/-- The numbers that a decision would answer are safe integers. -/
def AllocationDecision.exact : AllocationDecision → Prop
  | .ok numbers _ => ∀ n ∈ numbers, (n.natAbs : Int) ≤ Number.maxSafeInteger
  | .refused _ => True

def LedgerStep.exact (world : LedgerWorld) : LedgerStep → Prop
  | .allocate input _ => (allocationDecision world.db world.log input).exact
  | .raise _ _ _ _ | .putBack _ => True

/-- A database that is put back keeps, for every number whose one line went behind a torn
one, a floor above it or a row at or above it, unless a block with a line of its own went
as far. -/
def LedgerStep.keeps (world : LedgerWorld) : LedgerStep → Prop
  | .putBack back => ∀ issued ∈ world.issued, issued.glued = true → ∀ n ∈ issued.block.numbers,
      (∃ floor ∈ (world.earlier back).floor? issued.block.project, n < floor) ∨
        (∃ row ∈ (world.earlier back).alloc, row.project = issued.block.project ∧ n ≤ row.n) ∨
        ∃ other ∈ world.issued, other.block.project = issued.block.project ∧
          other.glued = false ∧ ∃ m ∈ other.block.numbers, n ≤ m
  | .raise _ _ _ _ | .allocate _ _ => True

instance AllocationDecision.exact.decidable :
    (decision : AllocationDecision) → Decidable decision.exact
  | .ok numbers _ =>
      inferInstanceAs (Decidable (∀ n ∈ numbers, (n.natAbs : Int) ≤ Number.maxSafeInteger))
  | .refused _ => .isTrue trivial

instance LedgerStep.exact.decidable (world : LedgerWorld) :
    (step : LedgerStep) → Decidable (step.exact world)
  | .allocate input _ =>
      inferInstanceAs (Decidable (allocationDecision world.db world.log input).exact)
  | .raise _ _ _ _ | .putBack _ => .isTrue trivial

instance LedgerStep.keeps.decidable (world : LedgerWorld) :
    (step : LedgerStep) → Decidable (step.keeps world)
  | .putBack _ =>
      inferInstanceAs (Decidable (∀ issued ∈ world.issued, issued.glued = true →
        ∀ n ∈ issued.block.numbers, _ ∨ _ ∨ _))
  | .raise _ _ _ _ | .allocate _ _ => .isTrue trivial

namespace LedgerSound

variable {world : LedgerWorld}

theorem raise (sound : LedgerSound world) (project : Text) (floor : Int) (evidence : Text)
    (updatedAt : Int) : LedgerSound (ledgerStep world (.raise project floor evidence updatedAt)) where
  passed := by
    intro issued member n isNumber
    refine (sound.passed issued member n isNumber).mono
      (fun _ => raiseLedgerFloor_floor? _ _ _ _ _) ?_ List.prefix_rfl
    exact (raiseLedgerFloor_alloc _ _ _ _ _).symm ▸ List.Subset.refl _
  own := sound.own
  disjoint := sound.disjoint
  runs := sound.runs

theorem putBack (sound : LedgerSound world) {back : Nat}
    (keeps : (LedgerStep.putBack back).keeps world) :
    LedgerSound (ledgerStep world (.putBack back)) where
  passed := by
    intro issued member n isNumber
    cases glued : issued.glued with
    | false => exact Or.inr (Or.inr (sound.own issued member glued n isNumber))
    | true =>
        rcases keeps issued member glued n isNumber with floor | row |
          ⟨other, isOther, same, own, m, isNumber, above⟩
        · exact Or.inl floor
        · exact Or.inr (Or.inl row)
        · obtain ⟨entry, line, named, atMost, small⟩ := sound.own other isOther own m isNumber
          exact Or.inr (Or.inr ⟨entry, line, named.trans same, Int.le_trans above atMost, small⟩)
  own := sound.own
  disjoint := sound.disjoint
  runs := sound.runs

/-- What an allocation leaves as it was. -/
theorem grow (sound : LedgerSound world) {db : LedgerDb} {log : Option Bytes}
    (floors : db.floors = world.db.floors) (rows : world.db.alloc ⊆ db.alloc)
    (grows : world.log.getD [] <+: log.getD []) :
    LedgerSound { world.commit db with log } where
  passed := by
    intro issued member n isNumber
    refine (sound.passed issued member n isNumber).mono (fun floor stored => ?_) rows grows
    refine ⟨floor, ?_, Int.le_refl _⟩
    rw [LedgerDb.floor?] at stored ⊢
    rw [← stored]
    exact congrArg (fun floors => (Map.get? _ floors).map (·.floor)) floors
  own := by
    intro issued member glued n isNumber
    obtain ⟨entry, line, kept⟩ := sound.own issued member glued n isNumber
    exact ⟨entry, line.extend grows, kept⟩
  disjoint := sound.disjoint
  runs := sound.runs

theorem allocate (sound : LedgerSound world) {input : AllocationInput} {ending : AllocateEnd}
    (exact : (LedgerStep.allocate input ending).exact world) :
    LedgerSound (ledgerStep world (.allocate input ending)) := by
  have allocated := allocateDeviations_allocated world.db world.log input ending
  have grown := sound.grow allocated.floors allocated.rows allocated.grows
  unfold ledgerStep
  dsimp only
  split
  next block answered =>
      obtain ⟨named, decided, rows, bytes⟩ := allocated.block block answered
      obtain ⟨isFloor, size, positive, isNumbers⟩ := decideAllocation_ok decided
      have small : ∀ n ∈ block.numbers, (n.natAbs : Int) ≤ Number.maxSafeInteger := by
        simpa only [LedgerStep.exact, decided, AllocationDecision.exact] using exact
      have past : ∀ issued ∈ world.issued, issued.block.project = block.project →
          List.Disjoint issued.block.numbers block.numbers := by
        intro issued member same n isOld isNew
        have passed := sound.passed issued member n isOld
        rw [same, named] at passed
        exact absurd (allocationDecision_past decided passed n isNew) (by omega)
      refine ⟨?_, ?_, ?_, ?_⟩
      · intro issued member n isNumber
        rcases List.mem_append.mp member with old | new
        · exact grown.passed issued old n isNumber
        · obtain rfl := List.mem_singleton.mp new
          exact Or.inr (Or.inl ⟨_, rows n isNumber, named.symm, Int.le_refl _⟩)
      · intro issued member glued n isNumber
        rcases List.mem_append.mp member with old | new
        · exact grown.own issued old glued n isNumber
        · obtain rfl := List.mem_singleton.mp new
          dsimp only at glued isNumber ⊢
          rw [isNumbers] at glued isNumber
          obtain ⟨entry, line, same, above, listed⟩ :=
            allocated_ownLine input glued isNumber
          rw [← isNumbers] at line listed
          have safe := small entry.n listed
          unfold Number.maxSafeInteger at safe
          exact ⟨entry, bytes ▸ line, same.trans named.symm, above, by omega⟩
      · refine List.pairwise_append.mpr ⟨sound.disjoint, List.pairwise_singleton _ _, ?_⟩
        intro issued member new isNew
        obtain rfl := List.mem_singleton.mp isNew
        exact past issued member
      · intro issued member
        rcases List.mem_append.mp member with old | new
        · exact sound.runs issued old
        · obtain rfl := List.mem_singleton.mp new
          exact ⟨_, size, isNumbers, positive, _, isFloor, Int.le_max_left _ _⟩
  next => exact grown
  next => exact grown

theorem step (sound : LedgerSound world) {step : LedgerStep} (exact : step.exact world)
    (keeps : step.keeps world) : LedgerSound (ledgerStep world step) := by
  cases step with
  | raise project floor evidence updatedAt => exact sound.raise project floor evidence updatedAt
  | allocate input ending => exact sound.allocate exact
  | putBack back => exact sound.putBack keeps

end LedgerSound

/-! ## The whole run -/

def LedgerStep.putsBack : LedgerStep → Bool
  | .putBack _ => true
  | .raise _ _ _ _ | .allocate _ _ => false

theorem ledgerStep_floor? {world : LedgerWorld} {step : LedgerStep} (onward : step.putsBack = false)
    {project : Text} {floor : Int} (stored : world.db.floor? project = some floor) :
    ∃ later, (ledgerStep world step).db.floor? project = some later ∧ floor ≤ later := by
  cases step with
  | raise other raised evidence updatedAt => exact raiseLedgerFloor_floor? _ _ _ _ _ stored
  | allocate input ending =>
      have floors := (allocateDeviations_allocated world.db world.log input ending).floors
      refine ⟨floor, ?_, Int.le_refl _⟩
      rw [← stored]
      unfold ledgerStep
      dsimp only
      split <;> exact congrArg (fun floors => (Map.get? _ floors).map (·.floor)) floors
  | putBack => cases onward

theorem run_floor? {world : LedgerWorld} {steps : List LedgerStep}
    (onward : ∀ step ∈ steps, step.putsBack = false) {project : Text} {floor : Int}
    (stored : world.db.floor? project = some floor) :
    ∃ later, (runFrom ledgerStep world steps).db.floor? project = some later ∧ floor ≤ later := by
  induction steps generalizing world floor with
  | nil => exact ⟨floor, stored, Int.le_refl _⟩
  | cons step rest ih =>
      obtain ⟨next, found, above⟩ := ledgerStep_floor? (onward step List.mem_cons_self) stored
      obtain ⟨later, isLater, higher⟩ :=
        ih (fun later member => onward later (List.mem_cons_of_mem _ member)) found
      exact ⟨later, isLater, by omega⟩

/-- What a deviation number is promised: the blocks of a project share none, each is a
run of numbers that starts at or above the floor that then stood. -/
structure IssuedOnce (world : LedgerWorld) : Prop where
  disjoint : world.issued.Pairwise fun first second =>
    first.block.project = second.block.project →
      List.Disjoint first.block.numbers second.block.numbers
  runs : ∀ issued ∈ world.issued, ∃ start size, issued.block.numbers = numbersFrom start size ∧
    0 < size ∧ ∃ floor, issued.floorInForce = some floor ∧ floor ≤ start

/-- No number is issued twice in a run whose databases are put back with care. -/
theorem ledger_issuedOnce {steps : List LedgerStep}
    (guarded : Guarded ledgerStep (fun world step => step.exact world ∧ step.keeps world)
      LedgerWorld.start steps) :
    IssuedOnce (runFrom ledgerStep LedgerWorld.start steps) ∧
      ∀ before after, steps = before ++ after → (∀ step ∈ after, step.putsBack = false) →
        ∀ project floor, (runFrom ledgerStep LedgerWorld.start before).db.floor? project =
          some floor → ∃ later,
            (runFrom ledgerStep LedgerWorld.start steps).db.floor? project = some later ∧
              floor ≤ later := by
  have preserved : ∀ (world : LedgerWorld) (step : LedgerStep),
      step.exact world ∧ step.keeps world → LedgerSound world →
      LedgerSound (ledgerStep world step) :=
    fun world step allowed sound => sound.step allowed.1 allowed.2
  have sound := Guarded.invariant preserved LedgerSound.start guarded
  refine ⟨⟨sound.disjoint, sound.runs⟩, ?_⟩
  rintro before after rfl onward project floor stored
  rw [runFrom_append]
  exact run_floor? onward stored

namespace LedgerExample

def input (count : Int) : AllocationInput :=
  { project := lit "p", count := .ofInt count, title := lit "t", allocatedTo := lit "s"
    runId := none, now := 7 }

def raised : LedgerStep := .raise (lit "p") 10 (lit "plan.md names D-10") 1

/-- A line is torn behind its number, the next line is glued to it, and the database of
before is put back. -/
def glued : List LedgerStep :=
  [raised, .allocate (input 1) (.torn 22), .allocate (input 1) .committed, .putBack 0,
    .allocate (input 1) .committed]

/-- The block of the eleven, as it was answered either time. -/
def eleven (glued : Bool) : Issued :=
  { block := { project := lit "p", numbers := [11], floor := 10, title := lit "t"
               allocatedTo := lit "s", runId := none, allocatedAt := 7 }
    floorInForce := some 10, glued }

/-- Behind the torn line go two, and the second one has a line of its own. -/
def kept : List LedgerStep :=
  [raised, .allocate (input 1) (.torn 22), .allocate (input 2) .committed, .putBack 0,
    .allocate (input 1) .committed]

end LedgerExample

open LedgerExample in
/-- A number is issued twice. -/
theorem ledger_reissued :
    (runFrom ledgerStep LedgerWorld.start glued).issued = [eleven true, eleven false] ∧
      ¬IssuedOnce (runFrom ledgerStep LedgerWorld.start glued) := by
  have issued : (runFrom ledgerStep LedgerWorld.start glued).issued =
      [eleven true, eleven false] := by decide +kernel
  refine ⟨issued, fun once => ?_⟩
  have apart := once.disjoint
  rw [issued, List.pairwise_cons] at apart
  have disjoint := apart.1 (eleven false) (List.mem_singleton.mpr rfl) rfl
  exact disjoint (List.mem_singleton.mpr rfl) (List.mem_singleton.mpr rfl)

open LedgerExample in
theorem ledger_issuedOnce_kept :
    IssuedOnce (runFrom ledgerStep LedgerWorld.start kept) ∧
      (runFrom ledgerStep LedgerWorld.start kept).issued.map (·.block.numbers) =
        [[11, 12], [13]] := by
  have guarded : Guarded ledgerStep (fun world step => step.exact world ∧ step.keeps world)
      LedgerWorld.start kept := by decide +kernel
  refine ⟨(ledger_issuedOnce guarded).1, ?_⟩
  decide +kernel

end Ccrc.Coord
