import Ccrc.CodexBridge.Sse
import Ccrc.Library.CodePointsUtf8
import Ccrc.Library.Framing

/-! The incremental parser of the upstream's stream, and what a whole stream says when
its lines are read at once. -/

set_option autoImplicit false

namespace Ccrc.CodexBridge

open Library
open Library.Str (lit point)

/-- What is open of an event, and the warnings given. -/
structure SseFields where
  name : Option Str := none
  data : List Str := []
  seenField : Bool := false
  /-- A line of this event was not UTF-8. -/
  poisoned : Bool := false
  warnings : List Str := []

structure SseParser extends SseFields where
  buf : Bytes := []
  /-- The offset of the first byte not yet consumed into a line. -/
  start : Nat := 0
  /-- The offset from which no line end has been found yet. -/
  look : Nat := 0
  scanned : Nat := 0

namespace Sse

def done : Str := lit "[DONE]"

def warningsMax : Nat := 64

def lineEnd : UInt8 := 0x0A

def colon : UInt8 := 0x3A

/-- A line without the CR before its end. -/
def dropCr (line : Bytes) : Bytes := if line.getLast? = some 0x0D then line.dropLast else line

/-- `buf.find(byte, start)` -/
def findFrom (byte : UInt8) (buf : Bytes) (start : Nat) : Option Nat :=
  ((buf.drop start).findIdx? (· = byte)).map (start + ·)

/-- The field of a line, and its value without the one blank before it. -/
def fieldOf (line : Str) : Str × Str :=
  let (field, value) := line.partition (point ':')
  (field, if value.startsWith (lit " ") then value.drop 1 else value)

/-- Whether a line that is not UTF-8 makes its event malformed. -/
def poisons (raw : Bytes) : Bool :=
  match Str.decode? (raw.takeWhile (· ≠ colon)) with
  | some field => field = lit "data"
  | none => true

/-- The event's type: `data["type"]` when it is a string, else the name. -/
def typeOf (name : Option Str) (data : PyDict) : Option Str :=
  ((data.get? (lit "type")).bind PyJson.str?).or name

end Sse

namespace SseFields

open Sse

def warn (fields : SseFields) (what : Str) : SseFields :=
  if fields.warnings.length < Sse.warningsMax then
    { fields with warnings := fields.warnings ++ [what] }
  else if fields.warnings.length = Sse.warningsMax then
    { fields with warnings := fields.warnings ++ [lit "further warnings dropped"] }
  else fields

/-- `_dispatch` -/
def dispatch (limits : PyLimits) (fields : SseFields) : SseFields × Option SseEvent :=
  let fresh : SseFields := { warnings := fields.warnings }
  if fields.poisoned then (fresh, some ⟨fields.name, none, fields.name⟩)
  else if !fields.seenField || fields.data.isEmpty then (fresh, none)
  else
    let text := Str.join (lit "\n") fields.data
    if text.strip = done then (fresh, none)
    else
      match PyJson.loads limits true text with
      | none => (fresh.warn (lit "a data field that is not JSON"),
          some ⟨fields.name, none, fields.name⟩)
      | some parsed =>
          match parsed.dict? with
          | some data => (fresh, some ⟨fields.name, some data, typeOf fields.name data⟩)
          | none => (fresh.warn (lit "a data field that is not a JSON object"),
              some ⟨fields.name, none, fields.name⟩)

/-- `_line` -/
def line (limits : PyLimits) (fields : SseFields) (raw : Bytes) : SseFields × Option SseEvent :=
  if raw.isEmpty then fields.dispatch limits
  else if raw.head? = some colon then (fields, none)
  else
    match Str.decode? raw with
    | none =>
        let warned := fields.warn (lit "a line that is not UTF-8")
        if poisons raw then ({ warned with seenField := true, poisoned := true }, none)
        else (warned, none)
    | some text =>
        let (field, value) := fieldOf text
        let fields := { fields with seenField := true }
        if field = lit "event" then ({ fields with name := some value }, none)
        else if field = lit "data" then ({ fields with data := fields.data ++ [value] }, none)
        else (fields, none)

end SseFields

namespace SseParser

open Sse

/-- The loop of `feed`; every turn but the last one consumes a line end. -/
def feedLoop (limits : PyLimits) : Nat → SseParser → List SseEvent → SseParser × List SseEvent
  | 0, parser, out => (parser, out)
  | fuel + 1, parser, out =>
      match findFrom lineEnd parser.buf parser.look with
      | none =>
          ({ parser with
            scanned := parser.scanned + (parser.buf.length - parser.look)
            look := parser.buf.length }, out)
      | some nl =>
          let raw := (parser.buf.take nl).drop parser.start
          let (fields, event) := parser.toSseFields.line limits (dropCr raw)
          feedLoop limits fuel
            { parser with
              toSseFields := fields
              scanned := parser.scanned + (nl + 1 - parser.look)
              start := nl + 1
              look := nl + 1 }
            (out ++ event.toList)

def feed (limits : PyLimits) (parser : SseParser) (chunk : Bytes) : SseParser × List SseEvent :=
  let buf := parser.buf ++ chunk
  let (read, out) := feedLoop limits (buf.length + 1) { parser with buf } []
  if read.start ≠ 0 then
    ({ read with
      buf := read.buf.drop read.start, look := read.look - read.start, start := 0 }, out)
  else (read, out)

/-- An event still open is answered as if a blank line had followed. -/
def close (limits : PyLimits) (parser : SseParser) : SseParser × List SseEvent :=
  let rest := parser.buf.drop parser.start
  let (fields, last) :=
    if rest.isEmpty then (parser.toSseFields, none)
    else parser.toSseFields.line limits (dropCr rest)
  let (fields, open_) := fields.dispatch limits
  ({ parser with toSseFields := fields, buf := [], start := 0, look := 0 },
    last.toList ++ open_.toList)

/-- All the feed calls, and the events of each in order. -/
def feedAll (limits : PyLimits) : SseParser → List Bytes → SseParser × List SseEvent
  | parser, [] => (parser, [])
  | parser, chunk :: chunks =>
      let (fed, events) := parser.feed limits chunk
      let (read, later) := feedAll limits fed chunks
      (read, events ++ later)

/-- A new parser fed with the chunks and closed. -/
def parse (limits : PyLimits) (chunks : List Bytes) : SseParser × List SseEvent :=
  let (read, events) := feedAll limits {} chunks
  let (closed, last) := read.close limits
  (closed, events ++ last)

end SseParser

/-! ## A whole stream -/

namespace Sse

/-- What a line says to its event. -/
inductive LineField where
  | named (field value : Str)
  | unreadable
  | nothing
  deriving DecidableEq, Repr

/-- A comment says nothing, and a line that is not UTF-8 nothing but that its data cannot
be read. -/
def readLine (raw : Bytes) : LineField :=
  if raw.head? = some colon then .nothing
  else
    match Str.decode? raw with
    | some text => .named (fieldOf text).1 (fieldOf text).2
    | none => if poisons raw then .unreadable else .nothing

/-- The values of a field, in the order of their lines. -/
def valuesOf (field : Str) (lines : List Bytes) : List Str :=
  lines.filterMap fun raw =>
    match readLine raw with
    | .named name value => if name = field then some value else none
    | .unreadable | .nothing => none

end Sse

end Ccrc.CodexBridge
