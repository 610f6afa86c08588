import Ccrc.Coord.DelegationSpoolLine
import Ccrc.Library.Framing
import Ccrc.Library.Map
import Ccrc.Library.Sha256

/-! Ingestion of one bucket of a spool: the id of a line, what one read of a bucket
answers, and the durable application of what it answered. -/

set_option autoImplicit false

namespace Ccrc.Coord

open Library Shared
open Library.Text (lit unit ofNat)

/-! ## The event id -/

structure DelegationBucketId extends SpoolOwner where
  bucket : Text
  deriving DecidableEq, Repr

/-- With its NUL. -/
def delegationEventIdDomain : Text := lit "ccrc-delegation-event-v1" ++ [0]

/-- A 32-bit big-endian byte length, then the bytes. -/
def lengthPrefixed (text : Text) : Bytes :=
  bigEndianBytes 4 (Utf8.encode text).length ++ Utf8.encode text

def hexText (bytes : Bytes) : Text :=
  bytes.flatMap fun byte => [Json.hexDigit (byte.toNat / 16), Json.hexDigit (byte.toNat % 16)]

def eventIdPreimage (id : DelegationBucketId) (startOffset endOffset : Nat) (rawLine : Bytes) :
    Bytes :=
  Utf8.encode delegationEventIdDomain ++ lengthPrefixed id.sessionId ++
    lengthPrefixed id.parentIncarnation ++ lengthPrefixed id.bucket ++
    bigEndianBytes 8 startOffset ++ bigEndianBytes 8 endOffset ++ sha256 rawLine

def deriveDelegationEventId (id : DelegationBucketId) (startOffset endOffset : Nat)
    (rawLine : Bytes) : Text :=
  hexText (sha256 (eventIdPreimage id startOffset endOffset rawLine))

/-! ## Rows and results -/

structure DelegationBucketAnchor where
  start : Nat
  sha256 : Text
  deriving DecidableEq, Repr

inductive DelegationIntervalState where
  | measured | unmeasured
  deriving DecidableEq, Repr

/-- The durable row of a bucket. -/
structure DelegationBucketCursor extends DelegationBucketId where
  cursor : Nat
  lastSize : Nat
  lastCompleteAt : Option Text
  intervalState : DelegationIntervalState
  detail : Option Text
  anchor : Option DelegationBucketAnchor
  replaced : Bool
  deriving DecidableEq, Repr

/-- One read of a bucket; a measured offset is never negative. -/
structure DelegationBucketInput extends DelegationBucketId where
  cursor : Nat
  lastSize : Nat
  size : Nat
  bytes : Bytes
  readStart : Nat
  bucketPresent : Bool
  capabilityPresent : Option Bool
  deriving DecidableEq, Repr

structure DelegationBucketResult where
  accepted : List DelegationEventEnvelope
  cursor : DelegationBucketCursor
  interval : DelegationIntervalState
  detail : Option Text
  applicable : Bool
  deriving DecidableEq, Repr

/-- What of the recovery state a read is computed against. -/
structure DelegationIngestState where
  ready : Bool
  bucketCursors : Map DelegationBucketId DelegationBucketCursor
  deriving DecidableEq, Repr

def delegationBucketReplaced : Text := lit "bucket-replaced"

/-! ## What is not a bucket read -/

/-- The start instant of the hour that a bucket's name stands for. -/
def delegationBucketUtcHour (bucket : Text) : Option Text :=
  let part (start count : Nat) := (bucket.drop start).take count
  let hour := part 0 4 ++ lit "-" ++ part 4 2 ++ lit "-" ++ part 6 2 ++ lit "T" ++ part 8 2 ++
    lit ":00:00.000Z"
  if bucket.length = 10 ∧ bucket.all Text.isDigit ∧ (parseDelegationInstant hour).isSome then
    some hour
  else none

def ownerDefect (owner : Text) : Option Text :=
  if owner = [] ∨ DelegationSpoolBounds.ownerIdBytes < (Utf8.encode owner).length ∨
      owner.any fun c => c == unit '/' || c == 0 then some (lit "sessionId is not an owner")
  else none

def identityDefect (id : DelegationBucketId) : Option Text :=
  (ownerDefect id.sessionId).or
    (if id.parentIncarnation = [] then some (lit "parentIncarnation is empty")
    else if delegationBucketUtcHour id.bucket = none then
      some (lit "bucket is not a YYYYMMDDHH hour")
    else none)

def isOffset (number : Nat) : Bool := (number : Int) ≤ Number.maxSafeInteger

def inputDefect (input : DelegationBucketInput) : Option Text :=
  let offsets := [("cursor", input.cursor), ("lastSize", input.lastSize), ("size", input.size),
    ("readStart", input.readStart)]
  (identityDefect input.toDelegationBucketId).or
    ((offsets.find? fun offset => !isOffset offset.2).map fun offset =>
      lit offset.1 ++ lit " is not a byte offset")

/-! ## Gaps -/

def freshRow (id : DelegationBucketId) : DelegationBucketCursor :=
  { id with cursor := 0, lastSize := 0, lastCompleteAt := none, intervalState := .measured
            detail := none, anchor := none, replaced := false }

/-- The durable row survives, marked unmeasured; a gap never clears `replaced`, and a
replaced row keeps its words. -/
def gap (state : DelegationIngestState) (id : DelegationBucketId) (detail : Text)
    (replaced applicable : Bool) : DelegationBucketResult :=
  let row := (state.bucketCursors.get? id).getD (freshRow id)
  let rowDetail := if row.replaced ∧ row.detail ≠ none then row.detail else some detail
  { accepted := []
    cursor := { row with intervalState := .unmeasured, detail := rowDetail
                         replaced := row.replaced || replaced }
    interval := .unmeasured, detail := some detail, applicable }

inductive DelegationBucketUnreadableReason where
  | capabilityAbsent | capabilityUnmeasured | directoryAbsent | directoryUnreadable
  | rangeUnreadable | bucketVanishedUnread | inputInvalid
  deriving DecidableEq, Repr

def DelegationBucketUnreadableReason.text : DelegationBucketUnreadableReason → Text
  | .capabilityAbsent => lit "capability-absent"
  | .capabilityUnmeasured => lit "capability-unmeasured"
  | .directoryAbsent => lit "directory-absent"
  | .directoryUnreadable => lit "directory-unreadable"
  | .rangeUnreadable => lit "range-unreadable"
  | .bucketVanishedUnread => lit "bucket-vanished-unread"
  | .inputInvalid => lit "input-invalid"

def unreadableDelegationBucketResult (id : DelegationBucketId) (state : DelegationIngestState)
    (reason : DelegationBucketUnreadableReason) (detail : Text) : DelegationBucketResult :=
  gap state id (reason.text ++ lit ": " ++ detail) false (reason != .inputInvalid)

/-! ## Lines -/

def newline : UInt8 := 0x0a

def sha256Hex (bytes : Bytes) : Text := hexText (sha256 bytes)

/-- The event of a line at its place. -/
def envelopeOf (id : DelegationBucketId) (start : Nat) (rawLine : Bytes)
    (line : DelegationSpoolLine) : DelegationEventEnvelope :=
  let endOffset := start + rawLine.length + 1
  { line with eventId := deriveDelegationEventId id start endOffset rawLine, bucket := id.bucket
              startOffset := start, endOffset }

def acceptLine (id : DelegationBucketId) (place : Nat × Bytes) : Option DelegationEventEnvelope :=
  (parseDelegationSpoolLine place.2 id.toSpoolOwner).toOption.map (envelopeOf id place.1 place.2)

def refuseLine (id : DelegationBucketId) (place : Nat × Bytes) : Option DelegationLineRejection :=
  match parseDelegationSpoolLine place.2 id.toSpoolOwner with
  | .ok _ => none
  | .error code => some code

/-- The codes in the order of their words. -/
def rejectionsInOrder : List DelegationLineRejection :=
  [.badEventKind, .badField, .badTimestamp, .badVersion, .blankLine, .duplicateKey,
    .incarnationMismatch, .invalidUtf8, .lineTooLong, .malformedJson, .missingKey, .notAnObject,
    .ownerMismatch, .unknownKey]

def refusalSummary (codes : List DelegationLineRejection) (complete : Nat) : Text :=
  let counts := rejectionsInOrder.filterMap fun code =>
    let count := codes.count code
    if count = 0 then none else some (code.text ++ lit "=" ++ ofNat count)
  ofNat codes.length ++ lit " of " ++ ofNat complete ++ lit " complete lines refused: " ++
    Text.join (lit ", ") counts

/-- The latest observation of a bucket, by its text. -/
def latestAt (before : Option Text) (events : List DelegationEventEnvelope) : Option Text :=
  events.foldl (fun latest event =>
    if latest.all fun latest => decide (latest < event.observedAt) then some event.observedAt
    else latest) before

def anchorOf (before : Option DelegationBucketAnchor) (places : List (Nat × Bytes)) :
    Option DelegationBucketAnchor :=
  match places.getLast? with
  | none => before
  | some (start, rawLine) => some { start, sha256 := sha256Hex rawLine }

/-- The anchor line reads back as it was stepped over: one complete line that ends at
the cursor, with its digest. -/
def anchorIntact (anchor : DelegationBucketAnchor) (cursor : Nat) (bytes : Bytes) : Bool :=
  let length := cursor - anchor.start
  anchor.start < cursor && decide (length ≤ bytes.length) &&
    bytes[length - 1]? == some newline && bytes.idxOf newline == length - 1 &&
    sha256Hex (bytes.take (length - 1)) == anchor.sha256

/-! ## The read -/

/-- The lines after the anchor line: the valid ones are accepted, the cursor steps over
every complete one. -/
def frameBucket (input : DelegationBucketInput) (state : DelegationIngestState)
    (durable : DelegationBucketCursor) (lineStart : Nat) : DelegationBucketResult :=
  let id := input.toDelegationBucketId
  let framed := frame newline (input.bytes.drop lineStart)
  let places := placed (input.readStart + lineStart) framed.1
  let events := places.filterMap (acceptLine id)
  let codes := places.filterMap (refuseLine id)
  let framedTo := input.readStart + lineStart + (joined newline framed.1).length
  let tail := framed.2.length
  let unread := input.size - (input.readStart + input.bytes.length)
  if 0 < unread ∧ places = [] then
    gap state id (lit "window-starved: " ++ ofNat input.bytes.length ++ lit " bytes read from " ++
      ofNat input.readStart ++ lit " frame no complete line past the cursor " ++
      ofNat input.cursor ++ lit ", and " ++ ofNat unread ++
      lit " bytes beyond the window are unread") false true
  else
    let tailTooLong := DelegationSpoolBounds.lineBytesBelow ≤ tail + 1
    let problems :=
      (if codes = [] then [] else [refusalSummary codes places.length]) ++
      (if tailTooLong then [lit "torn-tail-over-long: " ++ ofNat tail ++ lit " bytes after offset " ++
        ofNat framedTo ++ lit " with no LF can never be a line"] else [])
    let note :=
      if 0 < unread then
        some (lit "capped-read: " ++ ofNat unread ++ lit " bytes beyond the read window are unread")
      else if 0 < tail ∧ ¬tailTooLong then
        some (lit "torn-tail: " ++ ofNat tail ++ lit " unframed bytes after offset " ++
          ofNat framedTo)
      else none
    let interval : DelegationIntervalState := if problems = [] then .measured else .unmeasured
    let detail := if problems = [] then note else some (Text.join (lit "; ") problems)
    { accepted := events
      cursor := { id with
        cursor := framedTo, lastSize := input.size
        lastCompleteAt := latestAt durable.lastCompleteAt events
        intervalState := interval, detail, anchor := anchorOf durable.anchor places
        replaced := false }
      interval, detail, applicable := true }

/-- A read of a present bucket that starts at the durable coordinate. -/
def ingestPresent (input : DelegationBucketInput) (state : DelegationIngestState)
    (durable : DelegationBucketCursor) : DelegationBucketResult :=
  let id := input.toDelegationBucketId
  if input.size < input.cursor ∨ input.size < input.lastSize then
    let below :=
      if input.size < input.cursor then lit "the cursor " ++ ofNat input.cursor
      else lit "the last-seen size " ++ ofNat input.lastSize
    gap state id (delegationBucketReplaced ++ lit ": size " ++ ofNat input.size ++
      lit " is below " ++ below) true true
  else if 0 < input.cursor ∧ durable.anchor = none then
    gap state id (lit "cursor-unanchored: the durable row stands at " ++ ofNat input.cursor ++
      lit " with no anchor line to verify, so the bytes before it cannot be proved") false true
  else if input.size < input.readStart + input.bytes.length then
    gap state id (lit "range-inconsistent: " ++ ofNat input.bytes.length ++
      lit " bytes read from " ++ ofNat input.readStart ++ lit " of a file of " ++
      ofNat input.size) false true
  else match durable.anchor with
    | none => frameBucket input state durable 0
    | some anchor =>
        if anchorIntact anchor input.cursor input.bytes then
          frameBucket input state durable (input.cursor - anchor.start)
        else
          gap state id (delegationBucketReplaced ++ lit ": the last accepted line at offsets " ++
            ofNat anchor.start ++ lit ".." ++ ofNat input.cursor ++
            lit " no longer reads the same") true true

def ingestDelegationBucket (input : DelegationBucketInput) (state : DelegationIngestState) :
    DelegationBucketResult :=
  let id := input.toDelegationBucketId
  match inputDefect input with
  | some defect => gap state id (lit "input-invalid: " ++ defect) false false
  | none =>
      let durable := (state.bucketCursors.get? id).getD (freshRow id)
      let expectedStart := (durable.anchor.map (·.start)).getD durable.cursor
      if durable.replaced then
        gap state id (durable.detail.getD
          (delegationBucketReplaced ++ lit ": this bucket was replaced")) false true
      else if ¬state.ready then
        gap state id (lit "recovery-not-ready: the observation lane is reconstructing") false true
      else if input.capabilityPresent = some false then
        gap state id (lit "capability-absent") false true
      else if input.capabilityPresent = none then
        gap state id (lit "capability-unmeasured") false true
      else if input.cursor ≠ durable.cursor ∨ input.lastSize ≠ durable.lastSize then
        gap state id (lit "cursor-disagrees-with-durable-state: the read starts at " ++
          ofNat input.cursor ++ lit " (last seen " ++ ofNat input.lastSize ++
          lit "), the accepted coordinate is " ++ ofNat durable.cursor ++ lit " (last seen " ++
          ofNat durable.lastSize ++ lit ")") false true
      else if input.readStart ≠ expectedStart then
        gap state id (lit "read-window-mismatch: the bytes begin at " ++ ofNat input.readStart ++
          lit ", the durable row needs them from " ++ ofNat expectedStart) false true
      else if input.bucketPresent then ingestPresent input state durable
      else if input.bytes ≠ [] ∨ input.size ≠ 0 then
        gap state id (lit "input-inconsistent: an absent bucket carries bytes or a size") false true
      else if input.cursor < input.lastSize then
        gap state id (lit "bucket-vanished-unread: the bucket is gone with " ++
          ofNat (input.lastSize - input.cursor) ++ lit " bytes after offset " ++
          ofNat input.cursor ++ lit " never read") false true
      else
        { accepted := [], cursor := { durable with intervalState := .measured, detail := none }
          interval := .measured, detail := none, applicable := true }

/-! ## The durable application -/

structure DelegationObservationInterval where
  sessionId : Text
  parentIncarnation : Text
  utcHour : Text
  state : DelegationIntervalState
  detail : Option Text
  recordedAt : Text
  deriving DecidableEq, Repr

def isDelegationHourCarveOut (detail : Option Text) : Bool :=
  detail.any fun detail => detail.startsWith (lit "directory-absent") ||
    detail.startsWith (lit "capability-absent")

/-- An hour with a gap stays a gap, and a loss is never masked by a carve-out; else
the later recording stands. -/
def mergeDelegationObservationInterval (prior : Option DelegationObservationInterval)
    (next : DelegationObservationInterval) : DelegationObservationInterval :=
  match prior with
  | none => next
  | some prior =>
      let later := if prior.recordedAt < next.recordedAt then next else prior
      match prior.state, next.state with
      | .unmeasured, .measured => prior
      | .measured, .unmeasured => next
      | .measured, .measured => later
      | .unmeasured, .unmeasured =>
          match isDelegationHourCarveOut prior.detail, isDelegationHourCarveOut next.detail with
          | true, false => next
          | false, true => prior
          | true, true | false, false => later

/-- The journal's evidence, and the rows of the checkpoint that a read writes. -/
structure DelegationDurable where
  journal : List DelegationEventEnvelope
  cursors : Map DelegationBucketId DelegationBucketCursor
  intervals : Map (Text × Text × Text) DelegationObservationInterval
  deriving DecidableEq, Repr

/-- A stale row never clears `replaced`, and takes the words of the one that set it. -/
def setCursor (cursors : Map DelegationBucketId DelegationBucketCursor)
    (cursor : DelegationBucketCursor) : Map DelegationBucketId DelegationBucketCursor :=
  let id := cursor.toDelegationBucketId
  match cursors.get? id with
  | some prior =>
      if prior.replaced ∧ ¬cursor.replaced then
        cursors.set id { cursor with replaced := true, intervalState := .unmeasured
                                     detail := prior.detail }
      else cursors.set id cursor
  | none => cursors.set id cursor

def mergeInterval (intervals : Map (Text × Text × Text) DelegationObservationInterval)
    (interval : DelegationObservationInterval) :
    Map (Text × Text × Text) DelegationObservationInterval :=
  let key := (interval.sessionId, interval.parentIncarnation, interval.utcHour)
  intervals.set key (mergeDelegationObservationInterval (intervals.get? key) interval)

/-- The evidence that becomes records: an id that the journal or the batch has is
skipped. -/
def planDelegationJournalAppend (eventIds : List Text) :
    List DelegationEventEnvelope → List DelegationEventEnvelope
  | [] => []
  | event :: rest =>
      if event.eventId ∈ eventIds then planDelegationJournalAppend eventIds rest
      else event :: planDelegationJournalAppend (event.eventId :: eventIds) rest

/-- How a durable application ended: a refusal before its first byte, a crash after
some of its records, or its checkpoint. -/
inductive DelegationApplyEnd where
  | refused
  | crashed (appended : Nat)
  | durable
  deriving DecidableEq, Repr

def applyResult (recordedAt : Text) (durable : DelegationDurable)
    (result : DelegationBucketResult) : DelegationDurable :=
  let interval : DelegationObservationInterval :=
    { sessionId := result.cursor.sessionId, parentIncarnation := result.cursor.parentIncarnation
      utcHour := (delegationBucketUtcHour result.cursor.bucket).getD []
      state := result.interval, detail := result.detail, recordedAt }
  { durable with
    cursors := setCursor durable.cursors result.cursor
    intervals := mergeInterval durable.intervals interval }

/-- One application of several buckets' results: every record, then every row. -/
def applyAcceptedBatch (durable : DelegationDurable) (results : List DelegationBucketResult)
    (recordedAt : Text) (ending : DelegationApplyEnd) : DelegationDurable :=
  let records := planDelegationJournalAppend (durable.journal.map (·.eventId))
    (results.flatMap (·.accepted))
  match ending with
  | .refused => durable
  | .crashed appended => { durable with journal := durable.journal ++ records.take appended }
  | .durable =>
      results.foldl (applyResult recordedAt)
        { durable with journal := durable.journal ++ records }

end Ccrc.Coord
