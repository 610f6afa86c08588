import Ccrc.Library.TextProperties
import Ccrc.Coord.LandingProperties

/-! The fold of a read that was folded already: what a pass writes decides the state
of the current generation, and that state answers the same read with nothing. -/

set_option autoImplicit false

namespace Ccrc.Coord

open Library Shared

variable {rows : List ChecksRow}

/-! ## The current generation after a push -/

theorem currentGen_open (valid : RowsValid rows) {row : ChecksRow} (isOpen : row.isOpen = true)
    (next : row.gen = currentGenNumber rows + 1) :
    currentGen (rows ++ [row]) = ⟨currentGenNumber rows + 1, some row, none, none⟩ := by
  have gen : currentGenNumber (rows ++ [row]) = currentGenNumber rows + 1 := by simp [isOpen]
  have own : (rows ++ [row]).filter (·.gen == currentGenNumber rows + 1) = [row] := by
    rw [List.filter_append, List.filter_eq_nil_iff.mpr]
    · simp [next]
    · intro before member
      simpa using valid.fresh_next member
  have what : row.what = .open := by simpa [ChecksRow.isOpen] using isOpen
  simp only [currentGen, gen, own]
  simp [ChecksRow.isOpen, ChecksRow.isEdge, ChecksRow.isStuck, what]

/-- A row of the current generation that opens nothing is its edge or its `stuck` row
where it had none. -/
theorem currentGen_push {row : ChecksRow} (notOpen : row.isOpen = false)
    (current : row.gen = currentGenNumber rows) :
    currentGen (rows ++ [row]) =
      { currentGen rows with
        edge := (currentGen rows).edge.or (if row.isEdge then some row else none)
        stuck := (currentGen rows).stuck.or (if row.isStuck then some row else none) } := by
  have gen : currentGenNumber (rows ++ [row]) = currentGenNumber rows := by simp [notOpen]
  have own : (rows ++ [row]).filter (·.gen == currentGenNumber rows) =
      rows.filter (·.gen == currentGenNumber rows) ++ [row] := by
    simp [List.filter_append, current]
  simp only [currentGen, gen, own, List.find?_append, List.find?_cons, List.find?_nil, notOpen]
  cases row.isEdge <;> cases row.isStuck <;> simp

/-! ## One pass -/

/-- A read that changes no generation. -/
def NothingNew (c : CurrentGen) (read : ChecksRead) : Prop :=
  match c.edge, c.stuck with
  | none, some stuck =>
      settledWord read.word = none ∧
        ¬((read.word = .pending ∧
            (parseReading stuck.reading).map (·.1) ≠ some (Text.lit "pending")) ∨
          (runningWord read.word ∧ (parseReading stuck.reading).map (·.2) ≠ some read.fp))
  | some edge, _ =>
      runningWord read.word = false ∧
        ∀ settled, settledWord read.word = some settled →
          settled.1 = edge.what ∧ some read.fp = edge.fp
  | none, none => settledWord read.word = none

/-- A generation whose bound does not fall due. -/
def WithinBound (c : CurrentGen) (answered : Option ChecksRead) (nowMs : Int) : Prop :=
  ∀ opened, c.opened = some opened → c.stuck = none →
    c.edge.any (·.what == .green) = true ∨
      (¬(c.edge = none ∧ answered.any (·.word == .unverifiable) = true) ∧
        nowMs < (c.edge.getD opened).atMs + landingChecksStuckMs)

theorem settled_not_running {word : RequiredChecksWord} {settled : ChecksRowWhat × ChecksMailWord}
    (settles : settledWord word = some settled) :
    runningWord word = false ∧ (settled.1 = .green ∨ settled.1 = .red) := by
  cases word <;> cases settles <;> decide

theorem running_unsettled {word : RequiredChecksWord} (running : runningWord word = true) :
    settledWord word = none ∧ word ≠ .unverifiable := by
  cases word <;> first | exact ⟨rfl, by decide⟩ | cases running

/-- What the answered half of a pass does: nothing, where the read is nothing new; the
next generation opens on a running read; or a generation settles, the current one where
it has no edge and no `stuck` row, or the next one. -/
inductive Answers (rows : List ChecksRow) (draft : ChecksDraft) (read : ChecksRead)
    (nowMs : Int) : ChecksDraft → Prop
  | same (new : NothingNew (currentGen (rows ++ draft.write)) read) :
      Answers rows draft read nowMs draft
  | next (running : runningWord read.word = true) :
      Answers rows draft read nowMs
        (openGeneration draft (currentGenNumber (rows ++ draft.write) + 1) nowMs)
  | settle {settled : ChecksRowWhat × ChecksMailWord}
      (settles : settledWord read.word = some settled)
      (noEdge : (currentGen (rows ++ draft.write)).edge = none)
      (noStuck : (currentGen (rows ++ draft.write)).stuck = none) :
      Answers rows draft read nowMs
        (settleGeneration draft (currentGenNumber (rows ++ draft.write)) nowMs read.fp settled)
  | settleNext {settled : ChecksRowWhat × ChecksMailWord}
      (settles : settledWord read.word = some settled) :
      Answers rows draft read nowMs
        (settleGeneration
          (openGeneration draft (currentGenNumber (rows ++ draft.write) + 1) nowMs)
          (currentGenNumber (rows ++ draft.write) + 1) nowMs read.fp settled)

theorem foldAnswer_answers (rows : List ChecksRow) (draft : ChecksDraft) (read : ChecksRead)
    (nowMs : Int) : Answers rows draft read nowMs (foldAnswer rows draft read nowMs) := by
  unfold foldAnswer
  simp only [currentGen_gen]
  split
  next stuck noEdge hasStuck =>
      split
      next settled settles => exact .settleNext settles
      next unsettled =>
          split
          next more =>
              refine .next ?_
              rcases more with ⟨pending, -⟩ | ⟨running, -⟩
              · rw [pending]
                rfl
              · exact running
          next less =>
              refine .same ?_
              rw [NothingNew, noEdge, hasStuck]
              exact ⟨unsettled, less⟩
  next edge hasEdge =>
      split
      next running => exact .next running
      next still =>
          have still : runningWord read.word = false := by simpa using still
          split
          next settled settles =>
              split
              next => exact .settleNext settles
              next same =>
                  rw [not_or, not_not, not_not] at same
                  refine .same ?_
                  rw [NothingNew, hasEdge]
                  refine ⟨still, fun other settles' => ?_⟩
                  cases settles.symm.trans settles'
                  exact same
          next unsettled =>
              refine .same ?_
              rw [NothingNew, hasEdge]
              exact ⟨still, fun other settles => by rw [unsettled] at settles; cases settles⟩
  next noEdge noStuck =>
      split
      next settled settles => exact .settle settles noEdge noStuck
      next unsettled =>
          refine .same ?_
          rw [NothingNew, noEdge, noStuck]
          exact unsettled

theorem foldBound_within {draft : ChecksDraft} {answered : Option ChecksRead} {nowMs : Int}
    (within : WithinBound (currentGen (rows ++ draft.write)) answered nowMs)
    (forced : Option StuckCause) : foldBound rows draft answered nowMs forced = draft := by
  unfold foldBound
  simp only [currentGen_gen]
  split
  next opened hasOpen noStuck =>
      split
      next => rfl
      next unsettled =>
          rw [if_neg]
          have early := (within opened hasOpen noStuck).resolve_left unsettled
          rw [not_or, Bool.and_eq_true, Option.isNone_iff_eq_none, Int.not_le]
          exact early
  next => rfl

/-- Past its bound a generation gets its `stuck` row. -/
theorem foldBound_due {draft : ChecksDraft} {answered : Option ChecksRead} {nowMs : Int}
    (due : ¬WithinBound (currentGen (rows ++ draft.write)) answered nowMs)
    (forced : Option StuckCause) :
    (currentGen (rows ++ draft.write)).stuck = none ∧
      ∃ cause, foldBound rows draft answered nowMs forced =
        stuckGeneration draft (currentGenNumber (rows ++ draft.write)) nowMs
          (readingOf answered) cause := by
  unfold WithinBound at due
  push Not at due
  obtain ⟨opened, hasOpen, noStuck, unsettled, late⟩ := due
  refine ⟨noStuck, (if (currentGen (rows ++ draft.write)).edge.isNone &&
      answered.any (·.word == .unverifiable) then .unverifiable
    else forced.getD (if answered.isSome then .timeout else .unmeasured)), ?_⟩
  unfold foldBound
  simp only [currentGen_gen, hasOpen, noStuck]
  rw [if_neg unsettled, if_pos]
  by_cases unverifiable : (currentGen (rows ++ draft.write)).edge = none ∧
      answered.any (·.word == .unverifiable) = true
  · exact .inl (by simp [unverifiable])
  · exact .inr (late fun absent word => unverifiable ⟨absent, word⟩)

/-! ## The state that a pass leaves -/

/-- The running read whose fingerprint no `stuck` row can record. -/
def Unrecorded (answered : Option ChecksRead) : Prop :=
  ∃ read, answered = some read ∧ runningWord read.word = true ∧ isFp12 read.fp = false

/-- The same read changes nothing and the bound does not fall due. -/
def QuietFor (c : CurrentGen) (answered : Option ChecksRead) (nowMs : Int) : Prop :=
  (∀ read, answered = some read → NothingNew c read) ∧ WithinBound c answered nowMs

theorem parseReading_unread : parseReading (some (Text.lit "unread")) = none := by
  rw [parseReading, if_pos rfl]

/-- What a `stuck` row records of a running read. -/
theorem parseReading_running {read : ChecksRead} (running : runningWord read.word = true) :
    parseReading (some (readingOf (some read))) =
      if isFp12 read.fp then some (read.word.text, read.fp) else none := by
  obtain ⟨word, fp⟩ := read
  have which : word = .pending ∨ word = .notReported := by
    simpa [runningWord] using running
  cases whole : isFp12 fp with
  | false =>
      have unread : readingOf (some ⟨word, fp⟩) = Text.lit "unread" := by simp [readingOf, whole]
      rw [unread, parseReading_unread]
      rfl
  | true =>
      rcases which with rfl | rfl
      · simp [readingOf, whole, parseReading, RequiredChecksWord.text, Text.lit, Text.unit, Text.cut]
      · simp [readingOf, whole, parseReading, RequiredChecksWord.text, Text.lit, Text.unit, Text.cut]

theorem quiet_opened {gen : Int} {row : ChecksRow} {answered : Option ChecksRead} {nowMs : Int}
    (running : ∀ read, answered = some read → runningWord read.word = true)
    (now : row.atMs = nowMs) : QuietFor ⟨gen, some row, none, none⟩ answered nowMs := by
  refine ⟨fun read found => (running_unsettled (running read found)).1, ?_⟩
  intro opened found _
  cases found
  refine .inr ⟨fun ⟨_, unverifiable⟩ => ?_, ?_⟩
  · obtain ⟨read, found, word⟩ := (Option.any_eq_true _ _).mp unverifiable
    exact (running_unsettled (running read found)).2 (by simpa using word)
  · simp only [Option.getD_none, now, landingChecksStuckMs]
    omega

theorem quiet_settled {c : CurrentGen} {row : ChecksRow} {read : ChecksRead} {nowMs : Int}
    {settled : ChecksRowWhat × ChecksMailWord} (settles : settledWord read.word = some settled)
    (edge : c.edge = some row) (what : row.what = settled.1) (fp : row.fp = some read.fp)
    (now : row.atMs = nowMs) : QuietFor c (some read) nowMs := by
  constructor
  · intro other found
    cases found
    rw [NothingNew, edge]
    refine ⟨(settled_not_running settles).1, fun other settles' => ?_⟩
    cases settles.symm.trans settles'
    exact ⟨what.symm, fp.symm⟩
  · intro opened _ _
    refine .inr ⟨fun ⟨absent, _⟩ => absurd (edge.symm.trans absent) (by simp), ?_⟩
    simp only [edge, Option.getD_some, now, landingChecksStuckMs]
    omega

/-- A `stuck` row answers the read that it records. -/
theorem quiet_stuck_iff {c : CurrentGen} {row : ChecksRow} {answered : Option ChecksRead}
    {nowMs : Int} (new : ∀ read, answered = some read → NothingNew c read)
    (noStuck : c.stuck = none) (reading : row.reading = some (readingOf answered)) :
    QuietFor { c with stuck := some row } answered nowMs ↔ ¬Unrecorded answered := by
  constructor
  · rintro ⟨new', -⟩ ⟨read, rfl, running, short⟩
    have new := new read rfl
    have new' := new' read rfl
    unfold NothingNew at new new'
    cases edge : c.edge with
    | some kept =>
        rw [edge] at new
        exact Bool.noConfusion (running.symm.trans new.1)
    | none =>
        simp only [edge, reading, parseReading_running running, short] at new'
        refine new'.2 ?_
        cases word : read.word <;> rw [word] at running <;> first
          | (cases running; done)
          | simp [running]
  · intro recorded
    refine ⟨fun read found => ?_, fun _ _ absent => by cases absent⟩
    have new := new read found
    unfold NothingNew at new ⊢
    cases edge : c.edge with
    | some kept =>
        rw [edge] at new
        exact new
    | none =>
        simp only [edge, noStuck] at new
        refine ⟨new, ?_⟩
        subst found
        cases running : runningWord read.word with
        | false =>
            rintro (⟨pending, -⟩ | ⟨bad, -⟩)
            · rw [pending] at running
              cases running
            · cases bad
        | true =>
            have whole : isFp12 read.fp = true := by
              cases short : isFp12 read.fp with
              | true => rfl
              | false => exact absurd ⟨read, rfl, running, short⟩ recorded
            rw [reading, parseReading_running running, whole]
            rintro (⟨pending, apart⟩ | ⟨-, apart⟩)
            · rw [pending] at apart
              exact apart rfl
            · exact apart rfl

theorem stuckRow_pushed {draft : ChecksDraft} {gen nowMs : Int} {reading : Text}
    {cause : StuckCause} :
    (stuckGeneration draft gen nowMs reading cause).write =
      draft.write ++ [⟨gen, .stuck, none, some reading, nowMs⟩] := rfl

/-- The bounded half of a pass leaves a quiet state, but for the `stuck` row that could
not record the read. -/
theorem foldBound_quiet {draft : ChecksDraft} {answered : Option ChecksRead} {nowMs : Int}
    (new : ∀ read, answered = some read → NothingNew (currentGen (rows ++ draft.write)) read)
    (unstuck : ∀ row ∈ draft.write, row.isStuck = false) (forced : Option StuckCause) :
    QuietFor (currentGen (rows ++ (foldBound rows draft answered nowMs forced).write)) answered
        nowMs ↔
      ¬(Unrecorded answered ∧
        ∃ row ∈ (foldBound rows draft answered nowMs forced).write, row.isStuck = true) := by
  by_cases within : WithinBound (currentGen (rows ++ draft.write)) answered nowMs
  · rw [foldBound_within within forced]
    refine iff_of_true ⟨new, within⟩ ?_
    rintro ⟨-, row, member, stuck⟩
    exact Bool.noConfusion (stuck.symm.trans (unstuck row member))
  · obtain ⟨noStuck, cause, written⟩ := foldBound_due within forced
    have state : currentGen (rows ++ (foldBound rows draft answered nowMs forced).write) =
        { currentGen (rows ++ draft.write) with
          stuck := some ⟨currentGenNumber (rows ++ draft.write), .stuck, none,
            some (readingOf answered), nowMs⟩ } := by
      rw [written, stuckRow_pushed, ← List.append_assoc, currentGen_push rfl rfl, noStuck]
      simp [ChecksRow.isEdge, ChecksRow.isStuck]
    rw [state, quiet_stuck_iff new noStuck rfl, written, stuckRow_pushed]
    simp [ChecksRow.isStuck]

theorem settleGeneration_quiet {draft : ChecksDraft} {gen nowMs : Int} {read : ChecksRead}
    {settled : ChecksRowWhat × ChecksMailWord} (settles : settledWord read.word = some settled)
    (current : gen = currentGenNumber (rows ++ draft.write))
    (noEdge : (currentGen (rows ++ draft.write)).edge = none) :
    QuietFor (currentGen (rows ++ (settleGeneration draft gen nowMs read.fp settled).write))
      (some read) nowMs := by
  have what := (settled_not_running settles).2
  have written : (settleGeneration draft gen nowMs read.fp settled).write =
      draft.write ++ [⟨gen, settled.1, some read.fp, none, nowMs⟩] := rfl
  rw [written, ← List.append_assoc, currentGen_push ?_ current, noEdge]
  · refine @quiet_settled _ ⟨gen, settled.1, some read.fp, none, nowMs⟩ _ _ _ settles ?_ rfl rfl rfl
    rcases what with what | what <;> simp [ChecksRow.isEdge, what]
  · rcases what with what | what <;> simp [ChecksRow.isOpen, what]

theorem settleGeneration_unstuck {draft : ChecksDraft} {gen nowMs : Int} {read : ChecksRead}
    {settled : ChecksRowWhat × ChecksMailWord} (settles : settledWord read.word = some settled)
    (unstuck : ∀ row ∈ draft.write, row.isStuck = false) :
    ¬∃ row ∈ (settleGeneration draft gen nowMs read.fp settled).write, row.isStuck = true := by
  rintro ⟨row, member, stuck⟩
  rcases List.mem_append.mp member with before | added
  · exact Bool.noConfusion (stuck.symm.trans (unstuck row before))
  · rw [List.mem_singleton.mp added] at stuck
    rcases (settled_not_running settles).2 with what | what <;>
      simp [ChecksRow.isStuck, what] at stuck

theorem openEpisode_unstuck (rows : List ChecksRow) (episodeAtMs : Int) :
    ∀ row ∈ (openEpisode rows episodeAtMs).write, row.isStuck = false := by
  unfold openEpisode
  split
  next => simp
  next => simp [openGeneration, ChecksDraft.push, ChecksRow.isStuck]

/-- The state after a pass is quiet for the same read at the same time, but for the
`stuck` row that could not record it. -/
theorem foldChecks_quiet (valid : RowsValid rows) (read : Option ChecksRead)
    (nowMs episodeAtMs : Int) (forced : Option StuckCause) :
    QuietFor (currentGen (rows ++ (foldChecks rows read nowMs episodeAtMs forced).write))
        (read.filter (·.word != .unmeasured)) nowMs ↔
      ¬(Unrecorded (read.filter (·.word != .unmeasured)) ∧
        ∃ row ∈ (foldChecks rows read nowMs episodeAtMs forced).write, row.isStuck = true) := by
  obtain ⟨⟨opened, -⟩, unmailed, -⟩ := openEpisode_valid valid episodeAtMs
  have unstuck := openEpisode_unstuck rows episodeAtMs
  unfold foldChecks
  simp only
  generalize read.filter (·.word != .unmeasured) = answered
  generalize openEpisode rows episodeAtMs = start at opened unmailed unstuck
  cases answered with
  | none =>
      rw [foldRead, unmailed]
      exact foldBound_quiet (fun read found => by cases found) unstuck forced
  | some read =>
      rw [foldRead]
      have answers := foldAnswer_answers rows start read nowMs
      generalize foldAnswer rows start read nowMs = draft at answers
      cases answers with
      | same new =>
          rw [unmailed]
          exact foldBound_quiet (fun other found => by cases found; exact new) unstuck forced
      | next running =>
          have state : currentGen (rows ++ (openGeneration start
              (currentGenNumber (rows ++ start.write) + 1) nowMs).write) =
              ⟨currentGenNumber (rows ++ start.write) + 1,
                some ⟨currentGenNumber (rows ++ start.write) + 1, .open, none, none, nowMs⟩,
                none, none⟩ := by
            rw [openGeneration, ChecksDraft.push, ← List.append_assoc]
            exact currentGen_open opened rfl rfl
          have quiet : QuietFor (currentGen (rows ++ (openGeneration start
              (currentGenNumber (rows ++ start.write) + 1) nowMs).write)) (some read) nowMs := by
            rw [state]
            exact quiet_opened (fun other found => by cases found; exact running) rfl
          have mail : (openGeneration start (currentGenNumber (rows ++ start.write) + 1)
              nowMs).mail = none := unmailed
          rw [mail]
          dsimp only
          rw [foldBound_within quiet.2]
          refine iff_of_true quiet ?_
          rintro ⟨-, row, member, stuck⟩
          rcases List.mem_append.mp member with before | added
          · exact Bool.noConfusion (stuck.symm.trans (unstuck row before))
          · rw [List.mem_singleton.mp added] at stuck
            cases stuck
      | @settle settled settles noEdge noStuck =>
          refine iff_of_true (settleGeneration_quiet settles ?_ noEdge) ?_
          · rfl
          · rintro ⟨-, stuckRow⟩
            exact settleGeneration_unstuck settles unstuck stuckRow
      | @settleNext settled settles =>
          have pushed : RowsValid (rows ++ (openGeneration start
              (currentGenNumber (rows ++ start.write) + 1) nowMs).write) := by
            rw [openGeneration, ChecksDraft.push, ← List.append_assoc]
            exact opened.push_open _ rfl rfl
          have state : currentGen (rows ++ (openGeneration start
              (currentGenNumber (rows ++ start.write) + 1) nowMs).write) =
              ⟨currentGenNumber (rows ++ start.write) + 1,
                some ⟨currentGenNumber (rows ++ start.write) + 1, .open, none, none, nowMs⟩,
                none, none⟩ := by
            rw [openGeneration, ChecksDraft.push, ← List.append_assoc]
            exact currentGen_open opened rfl rfl
          refine iff_of_true (settleGeneration_quiet settles ?_ ?_) ?_
          · exact (congrArg CurrentGen.gen state).symm
          · exact congrArg CurrentGen.edge state
          · rintro ⟨-, stuckRow⟩
            refine settleGeneration_unstuck settles (fun row member => ?_) stuckRow
            rcases List.mem_append.mp member with before | added
            · exact unstuck row before
            · rw [List.mem_singleton.mp added]
              rfl

theorem openEpisode_opened (opened : rows.any (·.isOpen) = true) (episodeAtMs : Int) :
    openEpisode rows episodeAtMs = ⟨[], none⟩ := by
  rw [openEpisode, if_pos opened]

theorem foldAnswer_same {draft : ChecksDraft} {read : ChecksRead}
    (new : NothingNew (currentGen (rows ++ draft.write)) read) (nowMs : Int) :
    foldAnswer rows draft read nowMs = draft := by
  unfold foldAnswer
  unfold NothingNew at new
  dsimp only
  generalize currentGen (rows ++ draft.write) = c at new
  split
  next stuck noEdge hasStuck =>
      simp only [noEdge, hasStuck] at new
      rw [new.1]
      exact if_neg new.2
  next edge hasEdge =>
      simp only [hasEdge] at new
      rw [new.1]
      split
      next running => cases running
      next =>
          split
          next settled settles =>
              obtain ⟨what, fp⟩ := new.2 settled settles
              exact if_neg (by simp [what, fp])
          next => rfl
  next noEdge noStuck =>
      simp only [noEdge, noStuck] at new
      rw [new]

/-- The bounded half of a pass that has written nothing yet. -/
theorem foldBound_idle (rows : List ChecksRow) (answered : Option ChecksRead) (nowMs : Int) (forced : Option StuckCause) :
    (WithinBound (currentGen rows) answered nowMs ∧
        foldBound rows ⟨[], none⟩ answered nowMs forced = ⟨[], none⟩) ∨
      (¬WithinBound (currentGen rows) answered nowMs ∧
        ∃ row, (foldBound rows ⟨[], none⟩ answered nowMs forced).write = [row] ∧
          row.isStuck = true) := by
  have same : rows ++ (⟨[], none⟩ : ChecksDraft).write = rows := List.append_nil rows
  by_cases within : WithinBound (currentGen rows) answered nowMs
  · exact .inl ⟨within, foldBound_within (by rwa [same]) forced⟩
  · obtain ⟨-, cause, written⟩ := @foldBound_due rows ⟨[], none⟩ _ _ (by rwa [same]) forced
    exact .inr ⟨within, _, by rw [written]; rfl, rfl⟩

/-- A pass over an open episode writes nothing exactly where its state is quiet. -/
theorem foldChecks_nothing (opened : rows.any (·.isOpen) = true) (read : Option ChecksRead)
    (nowMs episodeAtMs : Int) (forced : Option StuckCause) :
    ((foldChecks rows read nowMs episodeAtMs forced).write = [] ∧
        (foldChecks rows read nowMs episodeAtMs forced).mail = none) ↔
      QuietFor (currentGen rows) (read.filter (·.word != .unmeasured)) nowMs := by
  have same : rows ++ (⟨[], none⟩ : ChecksDraft).write = rows := List.append_nil rows
  unfold foldChecks
  rw [openEpisode_opened opened]
  generalize read.filter (·.word != .unmeasured) = answered
  have bound : (∀ read, answered = some read → NothingNew (currentGen rows) read) →
      ((foldBound rows ⟨[], none⟩ answered nowMs forced).write = [] ∧
          (foldBound rows ⟨[], none⟩ answered nowMs forced).mail = none ↔
        QuietFor (currentGen rows) answered nowMs) := by
    intro new
    rcases foldBound_idle rows answered nowMs forced with ⟨within, idle⟩ | ⟨due, row, written, -⟩
    · rw [idle]
      exact iff_of_true ⟨rfl, rfl⟩ ⟨new, within⟩
    · rw [written]
      exact iff_of_false (fun nothing => by cases nothing.1) (fun quiet => due quiet.2)
  cases answered with
  | none => exact bound fun read found => by cases found
  | some read =>
      by_cases new : NothingNew (currentGen rows) read
      · simp only [foldRead, @foldAnswer_same rows ⟨[], none⟩ _ (by rwa [same]) nowMs]
        exact bound fun other found => by cases found; exact new
      · refine iff_of_false (fun nothing => ?_) (fun quiet => new (quiet.1 read rfl))
        obtain ⟨empty, unmailed⟩ := nothing
        have answers := foldAnswer_answers rows ⟨[], none⟩ read nowMs
        simp only [foldRead] at empty unmailed
        generalize foldAnswer rows ⟨[], none⟩ read nowMs = draft at answers empty unmailed
        cases answers with
        | same same' => exact new (same ▸ same')
        | settle settles noEdge noStuck => cases empty
        | settleNext settles => cases empty
        | next running =>
            change (foldBound rows (openGeneration ⟨[], none⟩
              (currentGenNumber (rows ++ []) + 1) nowMs) (some read) nowMs forced).write = [] at empty
            by_cases within : WithinBound (currentGen (rows ++ (openGeneration ⟨[], none⟩
                (currentGenNumber (rows ++ []) + 1) nowMs).write)) (some read) nowMs
            · rw [foldBound_within within forced] at empty
              cases empty
            · obtain ⟨-, cause, written⟩ := foldBound_due within forced
              rw [written] at empty
              cases empty

/-! ## The due time -/

theorem dueOf_within (rows : List ChecksRow) (nowMs : Int) :
    WithinBound (currentGen rows) none nowMs ↔ ∀ due, dueOf rows = some due → nowMs < due := by
  unfold WithinBound dueOf
  dsimp only
  have edge : ∀ row, (currentGen rows).edge = some row → row.what = .green ∨ row.what = .red := by
    intro row found
    simpa [ChecksRow.isEdge] using List.find?_some found
  generalize currentGen rows = c at edge
  obtain ⟨gen, opened, kept, stuck⟩ := c
  cases stuck with
  | some stuck => simp
  | none =>
      cases opened with
      | none => simp
      | some opened =>
          cases kept with
          | none => simp
          | some kept =>
              rcases edge kept rfl with what | what <;> simp [what]

theorem stuckOnly_within {rows : List ChecksRow} (opened : rows.any (·.isOpen) = true)
    (nowMs episodeAtMs : Int) (cause : StuckCause) :
    ((∀ due, dueOf rows = some due → nowMs < due) →
        (stuckOnly rows nowMs episodeAtMs cause).write = []) ∧
      ∀ due, dueOf rows = some due → due ≤ nowMs →
        ∃ row, (stuckOnly rows nowMs episodeAtMs cause).write = [row] ∧ row.isStuck = true := by
  have fold : (stuckOnly rows nowMs episodeAtMs cause).write =
      (foldBound rows ⟨[], none⟩ none nowMs (some cause)).write := by
    rw [stuckOnly, foldChecks, openEpisode_opened opened]
    rfl
  rw [fold, ← dueOf_within]
  rcases foldBound_idle rows none nowMs (some cause) with ⟨within, idle⟩ | ⟨late, written⟩
  · rw [idle]
    refine ⟨fun _ => rfl, fun due isDue passed => ?_⟩
    have early := (dueOf_within rows nowMs).mp within due isDue
    omega
  · exact ⟨fun within => absurd within late, fun _ _ _ => written⟩

theorem foldBound_write (rows : List ChecksRow) (draft : ChecksDraft)
    (answered : Option ChecksRead) (nowMs : Int) (forced : Option StuckCause) :
    draft.write <+: (foldBound rows draft answered nowMs forced).write := by
  by_cases within : WithinBound (currentGen (rows ++ draft.write)) answered nowMs
  · simp only [foldBound_within within forced, List.prefix_refl]
  · obtain ⟨-, cause, written⟩ := foldBound_due within forced
    rw [written]
    exact List.prefix_append _ _

/-- After a pass the episode is open. -/
theorem foldChecks_opened (rows : List ChecksRow) (read : Option ChecksRead)
    (nowMs episodeAtMs : Int) (forced : Option StuckCause) :
    (rows ++ (foldChecks rows read nowMs episodeAtMs forced).write).any (·.isOpen) = true := by
  have start : (rows ++ (openEpisode rows episodeAtMs).write).any (·.isOpen) = true := by
    unfold openEpisode
    split
    next opened => rwa [List.append_nil]
    next => simp [openGeneration, ChecksDraft.push, ChecksRow.isOpen]
  have written : (openEpisode rows episodeAtMs).write <+:
      (foldChecks rows read nowMs episodeAtMs forced).write := by
    unfold foldChecks
    simp only
    generalize read.filter (·.word != .unmeasured) = answered
    have answers : (openEpisode rows episodeAtMs).write <+:
        (foldRead rows (openEpisode rows episodeAtMs) answered nowMs).write := by
      cases answered with
      | none => exact List.prefix_rfl
      | some read => exact foldAnswer_write rows _ read nowMs
    split
    next => exact answers
    next => exact answers.trans (foldBound_write rows _ answered nowMs forced)
  obtain ⟨more, whole⟩ := written
  rw [← whole, ← List.append_assoc, List.any_append, start, Bool.true_or]

theorem unrecorded_iff (read : Option ChecksRead) :
    Unrecorded (read.filter (·.word != .unmeasured)) ↔
      ∃ answer, read = some answer ∧ runningWord answer.word = true ∧
        isFp12 answer.fp = false := by
  constructor
  · rintro ⟨answer, found, running, short⟩
    exact ⟨answer, (Option.filter_eq_some_iff.mp found).1, running, short⟩
  · rintro ⟨answer, rfl, running, short⟩
    refine ⟨answer, Option.filter_eq_some_iff.mpr ⟨rfl, ?_⟩, running, short⟩
    cases word : answer.word <;> rw [word] at running <;> first | rfl | cases running

def ChecksCall.read : ChecksCall → Option ChecksRead
  | .edge read _ _ _ => some read
  | .bound _ _ _ => none

/-- The read is running and its fingerprint is none, and the pass wrote a `stuck` row. -/
def ChecksCall.Unread (call : ChecksCall) (rows : List ChecksRow) : Prop :=
  (∃ read, call.read = some read ∧ runningWord read.word = true ∧ isFp12 read.fp = false) ∧
    ∃ row ∈ (call.fold rows).write, row.isStuck = true

/-- Folding a read again at the same time writes and mails nothing, but where the pass
wrote a `stuck` row that could not record its running read; and the due time of a pass is
exactly when the bound writes its one `stuck` row. -/
theorem checksFold_again (calls : List ChecksCall) (call : ChecksCall) :
    ((call.fold (episodeRows (episodeRun calls) ++
          (call.fold (episodeRows (episodeRun calls))).write)).write = [] ∧
        (call.fold (episodeRows (episodeRun calls) ++
          (call.fold (episodeRows (episodeRun calls))).write)).mail = none ↔
      ¬call.Unread (episodeRows (episodeRun calls))) ∧
    ∀ (nowMs episodeAtMs : Int) (cause : StuckCause),
      ((∀ due, (call.fold (episodeRows (episodeRun calls))).dueAtMs = some due → nowMs < due) →
        (stuckOnly (episodeRows (episodeRun calls) ++
          (call.fold (episodeRows (episodeRun calls))).write) nowMs episodeAtMs cause).write = []) ∧
      ∀ due, (call.fold (episodeRows (episodeRun calls))).dueAtMs = some due → due ≤ nowMs →
        ∃ row, (stuckOnly (episodeRows (episodeRun calls) ++
          (call.fold (episodeRows (episodeRun calls))).write) nowMs episodeAtMs cause).write =
            [row] ∧ row.isStuck = true := by
  have valid := (episodeRun_valid calls).rowsValid
  generalize episodeRows (episodeRun calls) = rows at valid
  have again : ∀ (read : Option ChecksRead) (nowMs episodeAtMs : Int) (forced : Option StuckCause),
      ((foldChecks (rows ++ (foldChecks rows read nowMs episodeAtMs forced).write) read nowMs
            episodeAtMs forced).write = [] ∧
          (foldChecks (rows ++ (foldChecks rows read nowMs episodeAtMs forced).write) read nowMs
            episodeAtMs forced).mail = none) ↔
        ¬((∃ answer, read = some answer ∧ runningWord answer.word = true ∧
            isFp12 answer.fp = false) ∧
          ∃ row ∈ (foldChecks rows read nowMs episodeAtMs forced).write, row.isStuck = true) := by
    intro read nowMs episodeAtMs forced
    rw [foldChecks_nothing (foldChecks_opened rows read nowMs episodeAtMs forced),
      foldChecks_quiet valid, unrecorded_iff]
  cases call with
  | edge read nowMs episodeAtMs live =>
      exact ⟨again (some read) nowMs episodeAtMs none, fun laterMs otherMs cause =>
        stuckOnly_within (foldChecks_opened rows (some read) nowMs episodeAtMs none) laterMs otherMs
          cause⟩
  | bound nowMs episodeAtMs cause =>
      exact ⟨again none nowMs episodeAtMs (some cause), fun laterMs otherMs other =>
        stuckOnly_within (foldChecks_opened rows none nowMs episodeAtMs (some cause)) laterMs
          otherMs other⟩

/-- A pending read with no fingerprint, past the bound of an episode that a pass opened. -/
theorem checksFold_again_unread :
    let rows := episodeRows (episodeRun [.bound 0 0 .timeout])
    let call := ChecksCall.edge ⟨.pending, []⟩ landingChecksStuckMs 0 true
    ¬((call.fold (rows ++ (call.fold rows).write)).write = [] ∧
      (call.fold (rows ++ (call.fold rows).write)).mail = none) := by
  decide

end Ccrc.Coord
