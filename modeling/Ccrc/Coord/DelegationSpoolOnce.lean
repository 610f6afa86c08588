import Ccrc.Coord.DelegationSpoolRun
import Ccrc.Library.Lists

/-! Ingestion of a bucket whose file only grows is exactly once; and what a replaced row
keeps out of the journal, whatever the files do. -/

set_option autoImplicit false

namespace Ccrc.Coord

open Library Shared
open Library.Text (lit unit)

/-! ## The invariant -/

/-- An event is of a line of some file that was seen, and of the bucket's own file where
it is of that bucket. -/
structure EventSound (seen : DelegationBucketId → Bytes → Prop) (id : DelegationBucketId)
    (file : Bytes) (event : DelegationEventEnvelope) : Prop where
  seen : ∃ other was, seen other was ∧ FromLine was other event
  own : bucketOf event = id → FromLine file id event

/-- Of one bucket: its rows, of whatever age, and its results are covered by the journal. -/
structure SpoolSound (seen : DelegationBucketId → Bytes → Prop) (id : DelegationBucketId)
    (world : SpoolWorld) : Prop where
  journal : ∀ event ∈ world.durable.journal, EventSound seen id (world.file id) event
  named : ∀ table ∈ world.tables, EachRow (fun other row => row.toDelegationBucketId = other) table
  rows : ∀ table ∈ world.tables, ∀ row, table.get? id = some row →
    Covered (world.file id) id row.cursor world.durable.journal
  taken : ∀ result ∈ world.results, ∀ event ∈ result.accepted,
    EventSound seen id (world.file id) event
  covers : ∀ result ∈ world.results, result.cursor.toDelegationBucketId = id →
    Covered (world.file id) id result.cursor.cursor (world.durable.journal ++ result.accepted)

section Sound

variable {seen : DelegationBucketId → Bytes → Prop} {id : DelegationBucketId} {world : SpoolWorld}

theorem SpoolSound.start : SpoolSound seen id SpoolWorld.start where
  journal := fun _ member => absurd member List.not_mem_nil
  named := by
    intro table member other row found
    obtain rfl := List.mem_singleton.mp member
    cases found
  rows := by
    intro table member row found
    obtain rfl := List.mem_singleton.mp member
    cases found
  taken := fun _ member => absurd member List.not_mem_nil
  covers := fun _ member => absurd member List.not_mem_nil

theorem EventSound.grow {file grown : Bytes} {event : DelegationEventEnvelope}
    (sound : EventSound seen id file event) (more : file <+: grown) :
    EventSound seen id grown event :=
  ⟨sound.seen, fun own => (sound.own own).grow more⟩

theorem table_mem (world : SpoolWorld) (back : Nat) : world.table back ∈ world.tables := by
  unfold SpoolWorld.table
  cases here : world.tables[back]? with
  | none => exact List.mem_cons_self
  | some table => exact List.mem_of_getElem? here

/-- Files may change as long as the bucket's own only grows. -/
theorem SpoolSound.grow (sound : SpoolSound seen id world)
    (files : Map DelegationBucketId Bytes)
    (more : world.file id <+: ({ world with files } : SpoolWorld).file id) :
    SpoolSound seen id { world with files } where
  journal := fun event member => (sound.journal event member).grow more
  named := sound.named
  rows := fun table member row found => (sound.rows table member row found).grow more
  taken := fun result member event isEvent => (sound.taken result member event isEvent).grow more
  covers := fun result member own => (sound.covers result member own).grow more

theorem SpoolSound.answer (sound : SpoolSound seen id world) {result : DelegationBucketResult}
    (taken : ∀ event ∈ result.accepted, EventSound seen id (world.file id) event)
    (covers : result.cursor.toDelegationBucketId = id → Covered (world.file id) id
      result.cursor.cursor (world.durable.journal ++ result.accepted)) :
    SpoolSound seen id (world.answer result) := by
  unfold SpoolWorld.answer
  split
  next =>
      refine ⟨sound.journal, sound.named, sound.rows, fun other member => ?_, fun other member => ?_⟩
      · rcases List.mem_append.mp member with old | new
        · exact sound.taken other old
        · exact List.mem_singleton.mp new ▸ taken
      · rcases List.mem_append.mp member with old | new
        · exact sound.covers other old
        · exact List.mem_singleton.mp new ▸ covers
  next => exact sound

theorem SpoolSound.read (sound : SpoolSound seen id world)
    (moment : ∀ other, seen other (world.file other)) (input : DelegationBucketInput)
    (length back : Nat) (ready : Bool) :
    SpoolSound seen id (spoolStep world (.read input length back ready)) := by
  have window : (windowOf world input length).bytes <+:
      (world.file input.toDelegationBucketId).drop input.readStart := List.take_prefix _ _
  have named := sound.named _ (table_mem world back)
  refine sound.answer (fun event taken => ?_) fun own => ?_
  · have of := ingest_taken window taken
    exact ⟨⟨_, _, moment _, of⟩, fun own => by rwa [← own, of.bucketOf]⟩
  · have isId : input.toDelegationBucketId = id := by
      rw [← own, ingest_named]
      · rfl
      · exact fun row found => named _ row found
    subst isId
    refine ingest_covers (fun row found => ⟨named _ row found, ?_⟩) window
    exact sound.rows _ (table_mem world back) row found

theorem SpoolSound.unreadable (sound : SpoolSound seen id world) (other : DelegationBucketId)
    (reason : DelegationBucketUnreadableReason) (detail : Text) (back : Nat) :
    SpoolSound seen id (spoolStep world (.unreadable other reason detail back)) := by
  refine sound.answer (fun _ taken => absurd taken List.not_mem_nil) fun own => ?_
  have table := table_mem world back
  simp only [unreadableDelegationBucketResult, gap] at own ⊢
  cases found : (world.table back).get? other with
  | none => exact (Covered.start _ _ _)
  | some row =>
      rw [found, Option.getD_some] at own
      have isId : other = id := (sound.named _ table other row found).symm.trans own
      subst isId
      exact (sound.rows _ table row found).mono (List.subset_append_left _ _)

/-- Where ids tell events apart, the journal has all that the chosen results accepted. -/
theorem applied_covers (sound : SpoolSound seen id world) (apart : NoCollision seen)
    {chosen : List Nat} {recordedAt : Text} {result : DelegationBucketResult}
    (member : result ∈ chosen.filterMap (world.results[·]?)) :
    result.accepted ⊆ (spoolStep world (.apply chosen recordedAt .durable)).durable.journal := by
  intro event isEvent
  refine (applyResult_journal recordedAt _ _).symm ▸ planned_covers ?_
    (List.mem_flatMap.mpr ⟨result, member, isEvent⟩)
  have ofSeen : ∀ event ∈ world.durable.journal ++
      (chosen.filterMap (world.results[·]?)).flatMap (·.accepted),
      ∃ other was, seen other was ∧ FromLine was other event := by
    intro event isEvent
    rcases List.mem_append.mp isEvent with old | new
    · exact (sound.journal event old).seen
    · obtain ⟨result, isResult, accepted⟩ := List.mem_flatMap.mp new
      exact (sound.taken result (mem_chosen isResult) event accepted).seen
  intro first isFirst second isSecond same
  obtain ⟨bucket, file, isSeen, of⟩ := ofSeen first isFirst
  obtain ⟨other, another, otherSeen, again⟩ := ofSeen second isSecond
  exact of.unique apart isSeen otherSeen again same

/-- What a longer journal and rows that it covers leave sound. -/
theorem SpoolSound.replace (sound : SpoolSound seen id world) {next : DelegationDurable}
    (kept : world.durable.journal ⊆ next.journal)
    (journal : ∀ event ∈ next.journal, EventSound seen id (world.file id) event)
    (named : EachRow (fun other row => row.toDelegationBucketId = other) next.cursors)
    (rows : EachRow (fun other row => other = id →
      Covered (world.file id) id row.cursor next.journal) next.cursors) :
    SpoolSound seen id { world with durable := next, earlier := world.tables } where
  journal := journal
  named := by
    intro table member
    rcases List.mem_cons.mp member with rfl | old
    · exact named
    · exact sound.named table old
  rows := by
    intro table member row found
    rcases List.mem_cons.mp member with rfl | old
    · exact rows id row found rfl
    · exact (sound.rows table old row found).mono kept
  taken := sound.taken
  covers := by
    intro result member own
    refine (sound.covers result member own).mono (List.append_subset.mpr ⟨?_, ?_⟩)
    · exact List.Subset.trans kept (List.subset_append_left _ _)
    · exact List.subset_append_right _ _

theorem SpoolSound.apply (sound : SpoolSound seen id world) (apart : NoCollision seen)
    (chosen : List Nat) (recordedAt : Text) (ending : DelegationApplyEnd) :
    SpoolSound seen id (spoolStep world (.apply chosen recordedAt ending)) := by
  obtain ⟨appended, isJournal⟩ := applyAcceptedBatch_journal world.durable
    (chosen.filterMap (world.results[·]?)) recordedAt ending
  have kept : world.durable.journal ⊆
      (spoolStep world (.apply chosen recordedAt ending)).durable.journal :=
    isJournal ▸ List.subset_append_left _ _
  have journal : ∀ event ∈ (spoolStep world (.apply chosen recordedAt ending)).durable.journal,
      EventSound seen id (world.file id) event := by
    intro event member
    rcases mem_applied member with old | ⟨result, isResult, accepted⟩
    · exact sound.journal event old
    · exact sound.taken result isResult event accepted
  have named := sound.named _ List.mem_cons_self
  have rows : EachRow (fun other row => other = id → Covered (world.file id) id row.cursor
      (spoolStep world (.apply chosen recordedAt ending)).durable.journal)
      world.durable.cursors := by
    intro other row found own
    subst own
    exact (sound.rows _ List.mem_cons_self row found).mono kept
  cases ending with
  | refused => exact sound.replace kept journal named rows
  | crashed => exact sound.replace kept journal named rows
  | durable =>
      refine sound.replace kept journal ?_ ?_
      · exact applyResult_rows recordedAt _ named fun result _ row same _ => same
      · refine applyResult_rows recordedAt _ rows fun result member row same stands own => ?_
        rw [stands]
        refine (sound.covers result (mem_chosen member) own).mono (List.append_subset.mpr ⟨kept, ?_⟩)
        exact applied_covers sound apart member

theorem SpoolSound.step (sound : SpoolSound seen id world) (apart : NoCollision seen)
    (moment : ∀ other, seen other (world.file other)) {step : SpoolStep}
    (keeps : step.keeps id = true) : SpoolSound seen id (spoolStep world step) := by
  have more := spoolStep_keeps world keeps
  cases step with
  | append other bytes => exact sound.grow _ more
  | rewrite other bytes => exact sound.grow _ more
  | read input length back ready => exact sound.read moment input length back ready
  | unreadable other reason detail back => exact sound.unreadable other reason detail back
  | apply chosen recordedAt ending => exact sound.apply apart chosen recordedAt ending

theorem SpoolSound.run (sound : SpoolSound seen id world) (apart : NoCollision seen)
    {steps : List SpoolStep} (keep : ∀ step ∈ steps, step.keeps id = true)
    (moments : ∀ other file, SeenIn world steps other file → seen other file) :
    SpoolSound seen id (runFrom spoolStep world steps) := by
  induction steps generalizing world with
  | nil => exact sound
  | cons step rest ih =>
      have next := sound.step apart (fun other => moments other _ ⟨[], step :: rest, rfl, rfl⟩)
        (keep step List.mem_cons_self)
      refine ih next (fun later member => keep later (List.mem_cons_of_mem _ member)) ?_
      rintro other file ⟨before, after, rfl, isFile⟩
      exact moments other file ⟨step :: before, after, rfl, isFile⟩

end Sound

/-! ## What the journal holds -/

theorem runFrom_once (steps : List SpoolStep) :
    ((runFrom spoolStep SpoolWorld.start steps).durable.journal.map (·.eventId)).Nodup := by
  have preserved : ∀ (world : SpoolWorld) (step : SpoolStep),
      (world.durable.journal.map (·.eventId)).Nodup →
      ((spoolStep world step).durable.journal.map (·.eventId)).Nodup := by
    intro world step once
    cases step with
    | append => exact once
    | rewrite => exact once
    | read => exact (answer_durable world _).symm ▸ once
    | unreadable => exact (answer_durable world _).symm ▸ once
    | apply chosen recordedAt ending =>
        obtain ⟨appended, isJournal⟩ := applyAcceptedBatch_journal world.durable
          (chosen.filterMap (world.results[·]?)) recordedAt ending
        rw [spoolStep, isJournal]
        exact planned_once once appended
  have start : (SpoolWorld.start.durable.journal.map (·.eventId)).Nodup := List.nodup_nil
  exact runFrom_invariant preserved start steps

/-- No two events of the bucket are of one place, and of a line that ends at or below
the durable cursor there is the one event. -/
structure ExactlyOnce (world : SpoolWorld) (id : DelegationBucketId) : Prop where
  once : ((world.durable.journal.filter fun event => bucketOf event = id).map
    (·.startOffset)).Nodup
  journalled : ∀ row, world.durable.cursors.get? id = some row → ∀ start rawLine line,
    ValidLine (world.file id) id start rawLine line → start + rawLine.length + 1 ≤ row.cursor →
    (world.durable.journal.filter fun event => bucketOf event = id).filter
      (fun event => event.startOffset = start) = [envelopeOf id start rawLine line]

theorem FromLine.place {file : Bytes} {id : DelegationBucketId}
    {event another : DelegationEventEnvelope} (of : FromLine file id event)
    (again : FromLine file id another) (same : event.startOffset = another.startOffset) :
    event = another := by
  obtain ⟨start, rawLine, line, valid, _, _, rfl⟩ := of
  obtain ⟨otherStart, otherLine, otherParsed, otherValid, _, _, rfl⟩ := again
  obtain rfl : start = otherStart := same
  obtain rfl := valid.isLine.unique otherValid.isLine
  cases valid.parsed.symm.trans otherValid.parsed
  rfl

theorem SpoolSound.exactlyOnce {seen : DelegationBucketId → Bytes → Prop}
    {id : DelegationBucketId} {world : SpoolWorld} (sound : SpoolSound seen id world)
    (once : (world.durable.journal.map (·.eventId)).Nodup) : ExactlyOnce world id := by
  have own : ∀ event ∈ world.durable.journal.filter fun event => bucketOf event = id,
      FromLine (world.file id) id event := by
    intro event member
    obtain ⟨held, isBucket⟩ := List.mem_filter.mp member
    exact (sound.journal event held).own (of_decide_eq_true isBucket)
  have places : ((world.durable.journal.filter fun event => bucketOf event = id).map
      (·.startOffset)).Nodup := by
    refine ((List.Nodup.of_map _ once).filter _).map_on ?_
    intro event member another again same
    exact (own event member).place (own another again) same
  refine ⟨places, fun row found start rawLine line valid ended => ?_⟩
  have held := (sound.rows _ List.mem_cons_self row found).held start rawLine line valid ended
  have member : envelopeOf id start rawLine line ∈
      world.durable.journal.filter fun event => bucketOf event = id :=
    List.mem_filter.mpr ⟨held, decide_eq_true (bucketOf_envelopeOf valid.parsed start)⟩
  exact filter_key_eq places member

/-! ## Replaced rows -/

def Replaced (table : Map DelegationBucketId DelegationBucketCursor) (id : DelegationBucketId) :
    Prop :=
  ∃ row, table.get? id = some row ∧ row.replaced = true

theorem setCursor_replaced {cursors : Map DelegationBucketId DelegationBucketCursor}
    {id : DelegationBucketId} (was : Replaced cursors id) (cursor : DelegationBucketCursor) :
    Replaced (setCursor cursors cursor) id := by
  rcases setCursor_get? cursors cursor id with same | ⟨_, row, set, _, _, isReplaced⟩
  · obtain ⟨row, found, isReplaced⟩ := was
    exact ⟨row, same.trans found, isReplaced⟩
  · exact ⟨row, set, isReplaced.mpr (Or.inr was)⟩

theorem applyResult_replaced {id : DelegationBucketId} (recordedAt : Text)
    (results : List DelegationBucketResult) (durable : DelegationDurable)
    (was : Replaced durable.cursors id) :
    Replaced (results.foldl (applyResult recordedAt) durable).cursors id := by
  induction results generalizing durable with
  | nil => exact was
  | cons result rest ih => exact ih _ (setCursor_replaced was result.cursor)

/-- No step clears the flag. -/
theorem spoolStep_replaced {id : DelegationBucketId} (world : SpoolWorld) (step : SpoolStep)
    (was : Replaced world.durable.cursors id) :
    Replaced (spoolStep world step).durable.cursors id := by
  cases step with
  | append => exact was
  | rewrite => exact was
  | read => exact (answer_durable world _).symm ▸ was
  | unreadable => exact (answer_durable world _).symm ▸ was
  | apply chosen recordedAt ending =>
      cases ending with
      | refused => exact was
      | crashed => exact was
      | durable => exact applyResult_replaced recordedAt _ _ was

/-- A read of the bucket is computed against a table where its row is replaced. -/
def SpoolStep.readsReplaced (id : DelegationBucketId) (world : SpoolWorld) : SpoolStep → Prop
  | .read input _ back _ => input.toDelegationBucketId = id → Replaced (world.table back) id
  | .append _ _ | .rewrite _ _ | .unreadable _ _ _ _ | .apply _ _ _ => True

/-- The events of a bucket that were journalled, or that a result accepted. -/
def SpoolWorld.knows (world : SpoolWorld) (id : DelegationBucketId)
    (event : DelegationEventEnvelope) : Prop :=
  bucketOf event = id ∧
    (event ∈ world.durable.journal ∨ ∃ result ∈ world.results, event ∈ result.accepted)

theorem answer_knows {world : SpoolWorld} {id : DelegationBucketId}
    {result : DelegationBucketResult} (none : ∀ event ∈ result.accepted, bucketOf event ≠ id)
    {event : DelegationEventEnvelope} (known : (world.answer result).knows id event) :
    world.knows id event := by
  obtain ⟨isBucket, journalled | ⟨other, member, accepted⟩⟩ := known
  · rw [answer_durable] at journalled
    exact ⟨isBucket, Or.inl journalled⟩
  · rcases mem_answer member with old | rfl
    · exact ⟨isBucket, Or.inr ⟨other, old, accepted⟩⟩
    · exact absurd isBucket (none event accepted)

/-- Where reads of a bucket are computed against its replaced row, no step learns an event
of it. -/
theorem spoolStep_knows {world : SpoolWorld} {id : DelegationBucketId} {step : SpoolStep}
    (late : step.readsReplaced id world) {event : DelegationEventEnvelope}
    (known : (spoolStep world step).knows id event) : world.knows id event := by
  cases step with
  | append => exact known
  | rewrite => exact known
  | read input length back ready =>
      refine answer_knows (fun event taken isBucket => ?_) known
      have of := ingest_taken (List.take_prefix _ _) taken
      obtain rfl : input.toDelegationBucketId = id := of.bucketOf.symm.trans isBucket
      obtain ⟨row, found, was⟩ := late rfl
      rw [ingest_replaced found was] at taken
      exact List.not_mem_nil taken
  | unreadable => exact answer_knows (fun _ taken => absurd taken List.not_mem_nil) known
  | apply chosen recordedAt ending =>
      obtain ⟨isBucket, journalled | accepted⟩ := known
      · exact ⟨isBucket, mem_applied journalled⟩
      · exact ⟨isBucket, Or.inr accepted⟩

theorem run_replaced {id : DelegationBucketId} {world : SpoolWorld} {steps : List SpoolStep}
    (was : Replaced world.durable.cursors id) :
    Replaced (runFrom spoolStep world steps).durable.cursors id := by
  have preserved : ∀ (world : SpoolWorld) (step : SpoolStep), Replaced world.durable.cursors id →
      Replaced (spoolStep world step).durable.cursors id := spoolStep_replaced
  exact runFrom_invariant preserved was steps

theorem run_knows {id : DelegationBucketId} {world : SpoolWorld} {steps : List SpoolStep}
    (late : Guarded spoolStep (fun world step => step.readsReplaced id world) world steps)
    {event : DelegationEventEnvelope} (known : (runFrom spoolStep world steps).knows id event) :
    world.knows id event := by
  induction steps generalizing world with
  | nil => exact known
  | cons step rest ih => exact spoolStep_knows late.1 (ih late.2 known)

/-- Of a bucket whose file only grows, ingestion is exactly once; no id is journalled
twice; and a replaced row stays one, of whose bucket only what was read before is ever
journalled. -/
theorem ingestion_exactlyOnce (id : DelegationBucketId) (steps before after : List SpoolStep) :
    ((∀ step ∈ steps, step.keeps id = true) → NoCollision (SeenIn SpoolWorld.start steps) →
      ExactlyOnce (runFrom spoolStep SpoolWorld.start steps) id) ∧
    ((runFrom spoolStep SpoolWorld.start steps).durable.journal.map (·.eventId)).Nodup ∧
    (Replaced (runFrom spoolStep SpoolWorld.start before).durable.cursors id →
      Replaced (runFrom spoolStep SpoolWorld.start (before ++ after)).durable.cursors id ∧
      (Guarded spoolStep (fun world step => step.readsReplaced id world)
          (runFrom spoolStep SpoolWorld.start before) after →
        ∀ event ∈ (runFrom spoolStep SpoolWorld.start (before ++ after)).durable.journal,
          bucketOf event = id →
          (runFrom spoolStep SpoolWorld.start before).knows id event)) := by
  have once := runFrom_once steps
  refine ⟨fun keep apart => ?_, once, fun was => ⟨?_, fun late event journalled isBucket => ?_⟩⟩
  · have started : SpoolSound (SeenIn SpoolWorld.start steps) id SpoolWorld.start := SpoolSound.start
    exact (started.run apart keep fun _ _ seen => seen).exactlyOnce once
  · rw [runFrom_append]
    exact run_replaced was
  · rw [runFrom_append] at journalled
    exact run_knows late ⟨isBucket, Or.inl journalled⟩

namespace SpoolExample

def id : DelegationBucketId :=
  { sessionId := lit "s", parentIncarnation := lit "00000000-0000-4000-8000-000000000000"
    bucket := lit "2026073112" }

def rawLine : Bytes :=
  Utf8.encode (unit '{' :: lit "\"v\":1,\"eventKind\":\"SessionEnd\",\"claudeSessionId\":\"c\"," ++
    lit "\"observedAt\":\"2026-07-31T12:00:00.000Z\",\"sessionId\":\"s\",\"reason\":\"clear\"," ++
    lit "\"parentIncarnation\":\"00000000-0000-4000-8000-000000000000\"" ++ [unit '}'])

def input (cursor lastSize size : Nat) : DelegationBucketInput :=
  { id with cursor, lastSize, size, bytes := [], readStart := 0, bucketPresent := true
            capabilityPresent := some true }

def recordedAt : Text := lit "2026-07-31T12:00:01.000Z"

def growing : List SpoolStep :=
  [.append id (rawLine ++ [newline]), .read (input 0 0 (rawLine.length + 1)) 4096 0 true,
    .apply [0] recordedAt .durable]

/-- A blank line is stepped over, then a line is read and nothing applied; the file is
emptied, and the read that finds that replaces the row. -/
def replacing : List SpoolStep :=
  [.append id [newline], .read (input 0 0 1) 1 0 true, .apply [0] recordedAt .durable,
    .append id (rawLine ++ [newline]), .read (input 1 1 (rawLine.length + 2)) 4096 0 true,
    .rewrite id [], .read (input 1 1 0) 0 0 true, .apply [2] recordedAt .durable]

/-- The read from before the replacement is applied. -/
def late : List SpoolStep := [.apply [1] recordedAt .durable]

/-- What the replacing run leaves, and what the late application then journals. -/
theorem replacing_late :
    ((runFrom spoolStep SpoolWorld.start replacing).durable.cursors.get? id).map (·.replaced) =
        some true ∧
      (runFrom spoolStep SpoolWorld.start replacing).durable.journal = [] ∧
      (runFrom spoolStep (runFrom spoolStep SpoolWorld.start replacing) late).durable.journal.map
        bucketOf = [id] := by
  decide +kernel

theorem replacing_replaced :
    Replaced (runFrom spoolStep SpoolWorld.start replacing).durable.cursors id :=
  Option.map_eq_some_iff.mp replacing_late.1

theorem growing_lines {other : DelegationBucketId} {file : Bytes}
    (seen : SeenIn SpoolWorld.start growing other file) {start : Nat} {raw : Bytes}
    {line : DelegationSpoolLine} (valid : ValidLine file other start raw line) :
    other = id ∧ start = 0 ∧ raw = rawLine := by
  obtain ⟨before, after, split, isFile⟩ := seen
  have keep : ∀ step ∈ after, step.keeps other = true := by
    intro step member
    have listed : step ∈ growing := split ▸ List.mem_append_right before member
    simp only [growing, List.mem_cons, List.not_mem_nil, or_false] at listed
    rcases listed with rfl | rfl | rfl <;> rfl
  have grown := run_keeps (runFrom spoolStep SpoolWorld.start before) keep
  rw [isFile, ← runFrom_append, ← split] at grown
  have last := (valid.grow grown).isLine
  have files : (runFrom spoolStep SpoolWorld.start growing).file =
      (spoolStep SpoolWorld.start (.append id (rawLine ++ [newline]))).file := by
    simp only [growing, runFrom_cons, runFrom_nil, apply_file, read_file]
  by_cases own : other = id
  · subst own
    have file : (runFrom spoolStep SpoolWorld.start growing).file id = rawLine ++ [newline] := by
      rw [files, SpoolWorld.file, spoolStep, Map.get?_set_self]
      rfl
    rw [file] at last
    have held : (rawLine ++ [newline]).drop 0 = joined newline [rawLine] ++ [] := by simp [joined]
    have free : ∀ line ∈ [rawLine], newline ∉ line := by decide +kernel
    have ends : start + raw.length + 1 ≤ 0 + (joined newline [rawLine]).length := by
      simpa [joined] using last.end_le
    have only := (mem_placed held (Or.inl rfl) free).mpr ⟨last, Nat.zero_le _, ends⟩
    simpa [placed] using only
  · have file : (runFrom spoolStep SpoolWorld.start growing).file other = [] := by
      rw [files, SpoolWorld.file, spoolStep, Map.get?_set_ne own]
      rfl
    rw [file] at last
    exact absurd last.end_le (by simp)

theorem growing_noCollision : NoCollision (SeenIn SpoolWorld.start growing) where
  lines := by
    intro one other file another seen otherSeen start otherStart raw otherRaw line otherLine valid
      otherValid same
    obtain ⟨rfl, rfl, rfl⟩ := growing_lines seen valid
    exact (growing_lines otherSeen otherValid).2.2.symm
  preimages := by
    intro one other file another seen otherSeen start otherStart raw otherRaw line otherLine valid
      otherValid same
    obtain ⟨rfl, rfl, rfl⟩ := growing_lines seen valid
    obtain ⟨rfl, rfl, rfl⟩ := growing_lines otherSeen otherValid
    rfl

end SpoolExample

open SpoolExample in
/-- A read from before its row was replaced adds its event after. -/
theorem ingestion_late :
    Replaced (runFrom spoolStep SpoolWorld.start replacing).durable.cursors SpoolExample.id ∧
      (runFrom spoolStep SpoolWorld.start replacing).durable.journal = [] ∧
      (runFrom spoolStep SpoolWorld.start (replacing ++ late)).durable.journal.map bucketOf =
        [SpoolExample.id] := by
  rw [runFrom_append]
  exact ⟨replacing_replaced, replacing_late.2⟩

open SpoolExample in
theorem ingestion_exactlyOnce_line :
    ExactlyOnce (runFrom spoolStep SpoolWorld.start growing) SpoolExample.id ∧
      (runFrom spoolStep SpoolWorld.start growing).durable.journal.map bucketOf =
        [SpoolExample.id] ∧
      ∀ event ∈ (runFrom spoolStep SpoolWorld.start
          (replacing ++ (late ++ [.read (input 1 1 0) 0 0 true]))).durable.journal,
        bucketOf event = SpoolExample.id →
        (runFrom spoolStep SpoolWorld.start replacing).knows SpoolExample.id event := by
  obtain ⟨once, _, kept⟩ := ingestion_exactlyOnce SpoolExample.id growing replacing
    (late ++ [.read (input 1 1 0) 0 0 true])
  refine ⟨once ?_ growing_noCollision, ?_, (kept replacing_replaced).2 ⟨trivial, ?_, trivial⟩⟩
  · decide +kernel
  · decide +kernel
  · exact fun _ => spoolStep_replaced _ _ replacing_replaced

end Ccrc.Coord
