import Ccrc.Coord.DelegationJournal

/-! Reading the delegation journal: the splitter of its bytes, the tail behind the last line
feed, the chain verifier, and the reader of a file chunk by chunk. -/

set_option autoImplicit false

namespace Ccrc.Coord

open Library
open Library.Text (lit)

/-! ## Lines -/

/-- The loop of `push`; the line is what stands behind the last line feed so far. -/
def splitLoop (lines : List Bytes) (line : Bytes) : Bytes → List Bytes × Bytes
  | [] => (lines, line)
  | byte :: rest =>
      if byte = newline then splitLoop (lines ++ [line]) [] rest
      else splitLoop lines (line ++ [byte]) rest

structure DelegationJournalLineSplitter where
  pending : Bytes := []

namespace DelegationJournalLineSplitter

/-- The complete lines of what has arrived so far. -/
def push (splitter : DelegationJournalLineSplitter) (chunk : Bytes) :
    DelegationJournalLineSplitter × List Bytes :=
  let (lines, pending) := splitLoop [] [] (splitter.pending ++ chunk)
  ({ pending }, lines)

def leftover (splitter : DelegationJournalLineSplitter) : Bytes := splitter.pending

end DelegationJournalLineSplitter

/-- The code of the error for bytes behind the last line feed. -/
def delegationTornTailError (leftover : Bytes) : DelegationJournalErrorCode :=
  match decodeDelegationJournalLine leftover with
  | .ok _ => .missingFinalLf
  | .error _ => .tornTail

/-! ## The chain -/

structure DelegationJournalPosition where
  sequence : Int
  journalId : Text
  digest : Text
  deriving DecidableEq, Repr

structure DelegationJournalChainOptions where
  completeFromStart : Bool := false
  anchor : Option DelegationJournalPosition := none

structure DelegationJournalCoverage where
  firstSequence : Option Int
  lastSequence : Option Int
  recordCount : Nat
  firstPreviousDigest : Option Text
  copiedEof : Option DelegationJournalPosition
  deriving DecidableEq, Repr

def DelegationJournalRecord.position (record : DelegationJournalRecord) :
    DelegationJournalPosition :=
  { sequence := record.sequence, journalId := record.journalId, digest := record.digest }

/-- What the verifier holds of the records that it accepted. -/
structure DelegationJournalChain where
  count : Nat := 0
  first : Option (Int × Option Text) := none
  last : Option DelegationJournalPosition := none
  anchorSeen : Bool := false

namespace DelegationJournalChain

/-- What a record has to be behind the one before it. -/
def follows (options : DelegationJournalChainOptions) (chain : DelegationJournalChain)
    (record : DelegationJournalRecord) : JournalRead Unit :=
  match chain.last with
  | none =>
      if options.completeFromStart && record.sequence != 1 then .error .sequenceStart
      else if options.completeFromStart && record.previousDigest.isSome then .error .previousDigest
      else .ok ()
  | some last =>
      if record.sequence = last.sequence then .error .sequenceDuplicate
      else if record.sequence < last.sequence then .error .sequenceDescent
      else if record.sequence ≠ last.sequence + 1 then .error .sequenceGap
      else if record.previousDigest ≠ some last.digest then .error .previousDigest
      else .ok ()

/-- Whether the record is the anchor's. -/
def meetsAnchor (options : DelegationJournalChainOptions) (record : DelegationJournalRecord) :
    JournalRead Bool :=
  match options.anchor with
  | none => .ok false
  | some anchor =>
      if record.sequence = anchor.sequence then
        if record.journalId ≠ anchor.journalId then .error .anchorJournalId
        else if record.digest ≠ anchor.digest then .error .anchorDigest
        else .ok true
      else if record.journalId = anchor.journalId then .error .anchorSequence
      else .ok false

def accept (options : DelegationJournalChainOptions) (chain : DelegationJournalChain)
    (record : DelegationJournalRecord) : JournalRead DelegationJournalChain :=
  if ¬isSequence record.sequence then .error .sequenceDomain
  else do
    chain.follows options record
    let met ← meetsAnchor options record
    return {
      count := chain.count + 1
      first := chain.first.or (some (record.sequence, record.previousDigest))
      last := some record.position
      anchorSeen := chain.anchorSeen || met }

/-- The coverage, once every record is in. -/
def finish (options : DelegationJournalChainOptions) (chain : DelegationJournalChain) :
    JournalRead DelegationJournalCoverage :=
  if options.anchor.isSome && !chain.anchorSeen then .error .anchorMissing
  else .ok {
    firstSequence := chain.first.map (·.1)
    lastSequence := chain.last.map (·.sequence)
    recordCount := chain.count
    firstPreviousDigest := chain.first.bind (·.2)
    copiedEof := chain.last }

end DelegationJournalChain

/-- The records of complete lines, each accepted behind those before it. -/
def acceptLines (options : DelegationJournalChainOptions) :
    DelegationJournalChain → List Bytes →
      JournalRead (DelegationJournalChain × List DelegationJournalRecord)
  | chain, [] => .ok (chain, [])
  | chain, line :: rest => do
      let record ← decodeDelegationJournalLine line
      let (last, records) ← acceptLines options (← chain.accept options record) rest
      return (last, record :: records)

/-- A whole journal as records. -/
def parseDelegationJournal (bytes : Bytes) (options : DelegationJournalChainOptions) :
    JournalRead (List DelegationJournalRecord) := do
  let (splitter, lines) := DelegationJournalLineSplitter.push {} bytes
  let (chain, records) ← acceptLines options {} lines
  if splitter.leftover ≠ [] then .error (delegationTornTailError splitter.leftover)
  let _ ← chain.finish options
  return records

/-! ## A file -/

/-- A file that is open for reading. A read answers bytes from its place on, perhaps fewer
than it was asked for, but none only at the end. -/
structure DelegationReadHandle where
  bytes : Bytes
  served : Nat → Nat → Nat
  some_ : ∀ {position length}, position < bytes.length → 0 < length → 0 < served position length
  within : ∀ position length, served position length ≤ length

def DelegationReadHandle.read (handle : DelegationReadHandle) (position length : Nat) : Bytes :=
  (handle.bytes.drop position).take (handle.served position length)

/-- A record and where its line stands in its file. -/
structure DelegationJournalLine where
  record : DelegationJournalRecord
  offset : Nat
  length : Nat
  bytes : Bytes

structure DelegationJournalTail where
  offset : Nat
  bytes : Bytes
  sha256 : Text
  code : DelegationJournalErrorCode
  deriving DecidableEq, Repr

/-- The lines of one chunk, up to one that is not a record; and where the next one starts. -/
def yieldLines : Nat → List Bytes → List DelegationJournalLine × JournalRead Nat
  | start, [] => ([], .ok start)
  | start, line :: rest =>
      match decodeDelegationJournalLine line with
      | .error code => ([], .error code)
      | .ok record =>
          let (later, ended) := yieldLines (start + line.length + 1) rest
          ({ record, offset := start, length := line.length + 1, bytes := line } :: later, ended)

/-- Where a reading of a file stands between two reads. -/
structure DelegationJournalCursor where
  splitter : DelegationJournalLineSplitter := {}
  position : Nat := 0
  lineStart : Nat := 0

/-- The loop of the reader. Every turn but the last one moves the position on. -/
def readLoop (handle : DelegationReadHandle) (chunkBytes : Nat) :
    Nat → DelegationJournalCursor →
      List DelegationJournalLine × JournalRead DelegationJournalCursor
  | 0, cursor => ([], .ok cursor)
  | fuel + 1, cursor =>
      let size := handle.bytes.length
      if cursor.position < size then
        let chunk := handle.read cursor.position (min chunkBytes (size - cursor.position))
        if chunk = [] then ([], .ok cursor)
        else
          let (splitter, lines) := cursor.splitter.push chunk
          match yieldLines cursor.lineStart lines with
          | (taken, .error code) => (taken, .error code)
          | (taken, .ok lineStart) =>
              let (later, ended) := readLoop handle chunkBytes fuel
                { splitter, position := cursor.position + chunk.length, lineStart }
              (taken ++ later, ended)
      else ([], .ok cursor)

/-- The lines that were yielded, and what the reader ends with: an error, or the tail that
it hands to `onTail`. -/
structure DelegationJournalReading where
  lines : List DelegationJournalLine
  ended : JournalRead (Option DelegationJournalTail)

/-- Without `onTail` bytes behind the last line feed are an error. -/
def readDelegationJournalLines (handle : DelegationReadHandle) (chunkBytes : Nat)
    (onTail : Bool) : DelegationJournalReading :=
  let (lines, ended) := readLoop handle chunkBytes (handle.bytes.length + 1) {}
  { lines
    ended := do
      let cursor ← ended
      let tail := cursor.splitter.leftover
      if tail = [] then return none
      else
        let code := delegationTornTailError tail
        if onTail then
          return some {
            offset := cursor.position - tail.length, bytes := tail, sha256 := sha256Hex tail
            code }
        else .error code }

end Ccrc.Coord
