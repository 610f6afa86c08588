import Ccrc.Coord.DelegationEventId
import Ccrc.Coord.DelegationIngestProperties
import Ccrc.Library.Run

/-! Runs of ingestion: files that are appended to or rewritten, reads against any table
that was ever durable, and applications of what was read, in any order. -/

set_option autoImplicit false

namespace Ccrc.Coord

open Library Shared
open Library.Text (lit)

structure SpoolWorld where
  files : Map DelegationBucketId Bytes
  durable : DelegationDurable
  /-- The tables that were durable before, the latest first. -/
  earlier : List (Map DelegationBucketId DelegationBucketCursor)
  /-- The results that were computed, applied or not. -/
  results : List DelegationBucketResult
  deriving DecidableEq, Repr

def SpoolWorld.start : SpoolWorld :=
  { files := [], durable := { journal := [], cursors := [], intervals := [] }, earlier := []
    results := [] }

def SpoolWorld.file (world : SpoolWorld) (id : DelegationBucketId) : Bytes :=
  (world.files.get? id).getD []

def SpoolWorld.tables (world : SpoolWorld) :
    List (Map DelegationBucketId DelegationBucketCursor) :=
  world.durable.cursors :: world.earlier

/-- The table that a read is computed against; the durable one where none is so old. -/
def SpoolWorld.table (world : SpoolWorld) (back : Nat) :
    Map DelegationBucketId DelegationBucketCursor :=
  world.tables[back]?.getD world.durable.cursors

inductive SpoolStep where
  | append (id : DelegationBucketId) (bytes : Bytes)
  | rewrite (id : DelegationBucketId) (bytes : Bytes)
  /-- At most `length` bytes from the place that the input states; its own bytes are not
  looked at. -/
  | read (input : DelegationBucketInput) (length back : Nat) (ready : Bool)
  | unreadable (id : DelegationBucketId) (reason : DelegationBucketUnreadableReason)
      (detail : Text) (back : Nat)
  | apply (chosen : List Nat) (recordedAt : Text) (ending : DelegationApplyEnd)
  deriving DecidableEq, Repr

/-- A result that is not of a bucket is refused by name, and never applied. -/
def SpoolWorld.answer (world : SpoolWorld) (result : DelegationBucketResult) : SpoolWorld :=
  if result.applicable then { world with results := world.results ++ [result] } else world

def windowOf (world : SpoolWorld) (input : DelegationBucketInput) (length : Nat) :
    DelegationBucketInput :=
  let file := world.file input.toDelegationBucketId
  { input with bytes := (file.drop input.readStart).take length }

def spoolStep (world : SpoolWorld) : SpoolStep → SpoolWorld
  | .append id bytes => { world with files := world.files.set id (world.file id ++ bytes) }
  | .rewrite id bytes => { world with files := world.files.set id bytes }
  | .read input length back ready =>
      world.answer (ingestDelegationBucket (windowOf world input length)
        { ready, bucketCursors := world.table back })
  | .unreadable id reason detail back =>
      world.answer (unreadableDelegationBucketResult id
        { ready := true, bucketCursors := world.table back } reason detail)
  | .apply chosen recordedAt ending =>
      { world with
        durable := applyAcceptedBatch world.durable
          (chosen.filterMap (world.results[·]?)) recordedAt ending
        earlier := world.tables }

/-- A step that leaves every byte of the bucket's file where it is. -/
def SpoolStep.keeps (id : DelegationBucketId) : SpoolStep → Bool
  | .rewrite other _ => decide (other ≠ id)
  | .append _ _ | .read _ _ _ _ | .unreadable _ _ _ _ | .apply _ _ _ => true

/-- A file that a bucket has at some moment of a run. -/
def SeenIn (world : SpoolWorld) (steps : List SpoolStep) (id : DelegationBucketId)
    (file : Bytes) : Prop :=
  ∃ before after, steps = before ++ after ∧ (runFrom spoolStep world before).file id = file

/-- SHA-256 keeps apart the lines of some files, and the preimages of their ids. -/
structure NoCollision (seen : DelegationBucketId → Bytes → Prop) : Prop where
  lines : ∀ id other file another, seen id file → seen other another →
    ∀ start otherStart rawLine otherLine line otherParsed,
    ValidLine file id start rawLine line → ValidLine another other otherStart otherLine otherParsed →
    sha256 rawLine = sha256 otherLine → rawLine = otherLine
  preimages : ∀ id other file another, seen id file → seen other another →
    ∀ start otherStart rawLine otherLine line otherParsed,
    ValidLine file id start rawLine line → ValidLine another other otherStart otherLine otherParsed →
    sha256 (eventIdPreimage id start (start + rawLine.length + 1) rawLine) =
      sha256 (eventIdPreimage other otherStart (otherStart + otherLine.length + 1) otherLine) →
    eventIdPreimage id start (start + rawLine.length + 1) rawLine =
      eventIdPreimage other otherStart (otherStart + otherLine.length + 1) otherLine

/-! ## What an id tells apart -/

theorem isOffset_fits {offset : Nat} (fits : isOffset offset = true) : offset < 256 ^ 8 := by
  have bounded : (offset : Int) ≤ Number.maxSafeInteger := of_decide_eq_true fits
  unfold Number.maxSafeInteger at bounded
  omega

/-- The line that an event's id was derived from is the line that it is of. -/
theorem FromLine.unique {seen : DelegationBucketId → Bytes → Prop} (apart : NoCollision seen)
    {id other : DelegationBucketId} {file another : Bytes} (isSeen : seen id file)
    (otherSeen : seen other another) {event otherEvent : DelegationEventEnvelope}
    (of : FromLine file id event) (again : FromLine another other otherEvent)
    (same : event.eventId = otherEvent.eventId) : event = otherEvent := by
  obtain ⟨start, rawLine, line, valid, isHour, fits, rfl⟩ := of
  obtain ⟨otherStart, otherLine, otherParsed, otherValid, isOther, otherFits, rfl⟩ := again
  have preimage := apart.preimages id other file another isSeen otherSeen _ _ _ _ _ _ valid
    otherValid (hexText_injective same)
  have digest : sha256 rawLine = sha256 otherLine :=
    (List.append_inj' preimage (by rw [sha256_length, sha256_length])).2
  obtain rfl := apart.lines id other file another isSeen otherSeen _ _ _ _ _ _ valid otherValid
    digest
  obtain ⟨owner, bucket⟩ := id
  obtain ⟨otherOwner, otherBucket⟩ := other
  obtain rfl := parseDelegationSpoolLine_owner valid.parsed otherValid.parsed
  obtain ⟨rfl, rfl⟩ := eventIdPreimage_injective isHour isOther
    (isOffset_fits (isOffset_mono fits (by omega)))
    (isOffset_fits (isOffset_mono otherFits (by omega))) preimage
  cases valid.parsed.symm.trans otherValid.parsed
  rfl

def bucketOf (event : DelegationEventEnvelope) : DelegationBucketId :=
  { sessionId := event.sessionId, parentIncarnation := event.parentIncarnation
    bucket := event.bucket }

theorem bucketOf_envelopeOf {id : DelegationBucketId} {rawLine : Bytes}
    {line : DelegationSpoolLine}
    (parsed : parseDelegationSpoolLine rawLine id.toSpoolOwner = .ok line) (start : Nat) :
    bucketOf (envelopeOf id start rawLine line) = id := by
  obtain ⟨_, _, _, _, read⟩ := parseDelegationSpoolLine_ok parsed
  obtain ⟨_, session, incarnation⟩ := readLine_ok read
  simp only [bucketOf, envelopeOf, session, incarnation]

theorem FromLine.bucketOf {file : Bytes} {id : DelegationBucketId}
    {event : DelegationEventEnvelope} (of : FromLine file id event) : bucketOf event = id := by
  obtain ⟨start, rawLine, line, valid, _, _, rfl⟩ := of
  exact bucketOf_envelopeOf valid.parsed start

/-! ## Steps -/

theorem answer_file (world : SpoolWorld) (result : DelegationBucketResult) :
    (world.answer result).file = world.file := by
  unfold SpoolWorld.answer
  split <;> rfl

theorem read_file (world : SpoolWorld) (input : DelegationBucketInput) (length back : Nat)
    (ready : Bool) : (spoolStep world (.read input length back ready)).file = world.file :=
  answer_file world _

theorem apply_file (world : SpoolWorld) (chosen : List Nat) (recordedAt : Text)
    (ending : DelegationApplyEnd) :
    (spoolStep world (.apply chosen recordedAt ending)).file = world.file := rfl

theorem answer_durable (world : SpoolWorld) (result : DelegationBucketResult) :
    (world.answer result).durable = world.durable := by
  unfold SpoolWorld.answer
  split <;> rfl

theorem mem_answer {world : SpoolWorld} {result other : DelegationBucketResult}
    (member : other ∈ (world.answer result).results) : other ∈ world.results ∨ other = result := by
  unfold SpoolWorld.answer at member
  split at member
  next => exact (List.mem_append.mp member).imp_right List.mem_singleton.mp
  next => exact Or.inl member

theorem file_set (world : SpoolWorld) (id : DelegationBucketId) (bytes : Bytes)
    {other : DelegationBucketId} (apart : other ≠ id) :
    ({ world with files := world.files.set id bytes } : SpoolWorld).file other =
      world.file other := by
  simp only [SpoolWorld.file, Map.get?_set_ne apart]

theorem spoolStep_keeps (world : SpoolWorld) {step : SpoolStep} {id : DelegationBucketId}
    (keeps : step.keeps id = true) : world.file id <+: (spoolStep world step).file id := by
  cases step with
  | append other bytes =>
      by_cases same : id = other
      · simp only [spoolStep, SpoolWorld.file, same, Map.get?_set_self]
        exact List.prefix_append _ _
      · exact (file_set world other _ same).symm ▸ List.prefix_rfl
  | rewrite other bytes =>
      exact (file_set world other bytes (Ne.symm (of_decide_eq_true keeps))).symm ▸ List.prefix_rfl
  | read => exact (read_file world _ _ _ _).symm ▸ List.prefix_rfl
  | unreadable => exact (answer_file world _).symm ▸ List.prefix_rfl
  | apply => exact List.prefix_rfl

theorem run_keeps (world : SpoolWorld) {steps : List SpoolStep} {id : DelegationBucketId}
    (keep : ∀ step ∈ steps, step.keeps id = true) :
    world.file id <+: (runFrom spoolStep world steps).file id := by
  induction steps generalizing world with
  | nil => exact List.prefix_rfl
  | cons step rest ih =>
      exact (spoolStep_keeps world (keep step List.mem_cons_self)).trans
        (ih _ fun later member => keep later (List.mem_cons_of_mem _ member))

theorem applyResult_journal (recordedAt : Text) (results : List DelegationBucketResult)
    (durable : DelegationDurable) :
    (results.foldl (applyResult recordedAt) durable).journal = durable.journal := by
  induction results generalizing durable with
  | nil => rfl
  | cons result rest ih => exact ih (applyResult recordedAt durable result)

/-- An application appends some first ones of the records that it plans. -/
theorem applyAcceptedBatch_journal (durable : DelegationDurable)
    (results : List DelegationBucketResult) (recordedAt : Text) (ending : DelegationApplyEnd) :
    ∃ appended, (applyAcceptedBatch durable results recordedAt ending).journal =
      durable.journal ++ (planDelegationJournalAppend (durable.journal.map (·.eventId))
        (results.flatMap (·.accepted))).take appended := by
  cases ending with
  | refused => exact ⟨0, (List.append_nil _).symm⟩
  | crashed appended => exact ⟨appended, rfl⟩
  | durable =>
      refine ⟨(planDelegationJournalAppend (durable.journal.map (·.eventId))
        (results.flatMap (·.accepted))).length, ?_⟩
      rw [List.take_length]
      exact applyResult_journal recordedAt results _

theorem mem_chosen {world : SpoolWorld} {chosen : List Nat} {result : DelegationBucketResult}
    (member : result ∈ chosen.filterMap (world.results[·]?)) : result ∈ world.results := by
  obtain ⟨index, _, here⟩ := List.mem_filterMap.mp member
  exact List.mem_of_getElem? here

/-- What the journal has after an application was there, or a chosen result accepted it. -/
theorem mem_applied {world : SpoolWorld} {chosen : List Nat} {recordedAt : Text}
    {ending : DelegationApplyEnd} {event : DelegationEventEnvelope}
    (member : event ∈ (spoolStep world (.apply chosen recordedAt ending)).durable.journal) :
    event ∈ world.durable.journal ∨ ∃ result ∈ world.results, event ∈ result.accepted := by
  obtain ⟨appended, isJournal⟩ := applyAcceptedBatch_journal world.durable
    (chosen.filterMap (world.results[·]?)) recordedAt ending
  rw [spoolStep, isJournal] at member
  refine (List.mem_append.mp member).imp_right fun new => ?_
  obtain ⟨result, isResult, accepted⟩ := List.mem_flatMap.mp
    ((planned_sublist _ _).mem (List.mem_of_mem_take new))
  exact ⟨result, mem_chosen isResult, accepted⟩

/-! ## The rows of tables -/

/-- What holds of every row of a table, by its id. -/
def EachRow (holds : DelegationBucketId → DelegationBucketCursor → Prop)
    (table : Map DelegationBucketId DelegationBucketCursor) : Prop :=
  ∀ id row, table.get? id = some row → holds id row

/-- A row that is set stands as the result's, but for its flag and its words. -/
theorem applyResult_rows {holds : DelegationBucketId → DelegationBucketCursor → Prop}
    (recordedAt : Text) {results : List DelegationBucketResult} (durable : DelegationDurable)
    (rows : EachRow holds durable.cursors)
    (set : ∀ result ∈ results, ∀ row : DelegationBucketCursor,
      row.toDelegationBucketId = result.cursor.toDelegationBucketId →
      row.cursor = result.cursor.cursor → holds result.cursor.toDelegationBucketId row) :
    EachRow holds (results.foldl (applyResult recordedAt) durable).cursors := by
  induction results generalizing durable with
  | nil => exact rows
  | cons result rest ih =>
      refine ih (applyResult recordedAt durable result) ?_
        fun later member => set later (List.mem_cons_of_mem _ member)
      intro id row found
      rcases setCursor_get? durable.cursors result.cursor id with same | ⟨own, _, set', named, stands, _⟩
      · exact rows id row (same ▸ found)
      · cases set'.symm.trans found
        subst own
        exact set result List.mem_cons_self row named stands

end Ccrc.Coord
