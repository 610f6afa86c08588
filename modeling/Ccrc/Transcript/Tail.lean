import Ccrc.Library.Utf8Lossy
import Ccrc.Transcript.Parse

/-! The two readers of a transcript file: the backlog, over the text of one read, and the
tailer, over the chunks that are appended later. -/

set_option autoImplicit false

namespace Ccrc.Transcript

open Library

def backlogTailBytes : Nat := 1024 * 1024

inductive ReadFailure where
  | absent | unreadable
  deriving DecidableEq, Repr

/-- The text of the range that was read, and the file's size. -/
structure RangeRead where
  data : Text
  size : Nat

/-- `localIO.readFileFromMeasured` of a file that holds `bytes`. -/
def readFileFromMeasured (bytes : Bytes) (offset : Nat) : RangeRead :=
  let start := min offset bytes.length
  if bytes.length ≤ start then ⟨[], bytes.length⟩
  else ⟨Utf8.decodeLossy (bytes.drop start), bytes.length⟩

structure BacklogRead where
  events : List ChatEvent
  offset : Nat
  isMissing : Bool
  measured : Bool

/-- `text.split('\n')` -/
def splitLines : Text → List Text
  | [] => [[]]
  | c :: rest =>
      if c = lineFeed then [] :: splitLines rest
      else match splitLines rest with
        | [] => [[c]]
        | line :: lines => (c :: line) :: lines

/-- `items.slice(-count)`; of zero that is the whole list. -/
def lastOf {α : Type} (count : Nat) (items : List α) : List α :=
  if count = 0 then items else items.drop (items.length - count)

section Readers

variable (serialize : Json Number → Text)

/-- The events of the lines of a text that are not blank. -/
def textEvents (text : Text) : List ChatEvent :=
  ((splitLines text).filter fun line => line.trim != []).flatMap (parseTranscriptLine serialize)

def readBacklog (stat : Except ReadFailure Nat) (readFrom : Nat → Except ReadFailure RangeRead)
    (lastN : Nat) : BacklogRead :=
  match stat with
  | .error reason => ⟨[], 0, true, reason == .absent⟩
  | .ok 0 => ⟨[], 0, false, true⟩
  | .ok size =>
      let start := size - backlogTailBytes
      match readFrom start with
      | .error reason => ⟨[], size, reason == .absent, reason == .absent⟩
      | .ok res =>
          let text :=
            if 0 < start then
              match Text.cut lineFeed res.data with
              | some (_, after) => after
              | none => []
            else res.data
          ⟨lastOf lastN (textEvents serialize text), res.size, false, true⟩

/-! ## The tailer -/

def feedByte : UInt8 := 10

structure Tailer where
  offset : Nat
  carry : Bytes
  stopped : Bool

def Tailer.start (fromOffset : Nat) : Tailer := ⟨fromOffset, [], false⟩

inductive TailEmit where
  | events (events : List ChatEvent) (offset : Nat)
  | rotated

/-- `buf.lastIndexOf(byte)` -/
def lastIndexOf (byte : UInt8) : Bytes → Option Nat
  | [] => none
  | b :: rest =>
      match lastIndexOf byte rest with
      | some i => some (i + 1)
      | none => if b = byte then some 0 else none

def onChunk (tailer : Tailer) (chunk : Bytes) : Tailer × List TailEmit :=
  if tailer.stopped then (tailer, [])
  else
    let offset := tailer.offset + chunk.length
    let buf := tailer.carry ++ chunk
    match lastIndexOf feedByte buf with
    | none => ({ tailer with offset, carry := buf }, [])
    | some nl =>
        let events := textEvents serialize (Utf8.decodeLossy (buf.take nl))
        ({ tailer with offset, carry := buf.drop (nl + 1) },
          if events.isEmpty then [] else [.events events offset])

def onReset (tailer : Tailer) : Tailer × List TailEmit :=
  if tailer.stopped then (tailer, []) else ({ tailer with stopped := true }, [.rotated])

inductive TailSignal where
  | chunk (bytes : Bytes)
  | reset

def Tailer.receive (tailer : Tailer) : TailSignal → Tailer × List TailEmit
  | .chunk bytes => onChunk serialize tailer bytes
  | .reset => onReset tailer

/-- The tailer after a run of signals and what it emitted, in order. -/
def Tailer.run (tailer : Tailer) : List TailSignal → Tailer × List TailEmit
  | [] => (tailer, [])
  | signal :: rest =>
      let (next, emitted) := tailer.receive serialize signal
      let (last, later) := next.run rest
      (last, emitted ++ later)

def TailEmit.emitted : TailEmit → List ChatEvent
  | .events sent _ => sent
  | .rotated => []

/-! ## The chat -/

/-- What the chat shows of a file that the backlog measured as `atStat` and read as
`atRead`, and whose later growth came in `chunks`. -/
def chatEvents (atStat atRead : Bytes) (lastN : Nat) (chunks : List Bytes) : List ChatEvent :=
  let backlog := readBacklog serialize (.ok atStat.length)
    (fun offset => .ok (readFileFromMeasured atRead offset)) lastN
  backlog.events ++
    (((Tailer.start backlog.offset).run serialize (chunks.map .chunk)).2).flatMap TailEmit.emitted

end Readers

end Ccrc.Transcript
