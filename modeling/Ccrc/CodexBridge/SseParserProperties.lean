import Ccrc.CodexBridge.SseParser

/-! The parser under every cut of its stream: between two chunks it holds one piece of a
line, and what it read is what the lines say in order. -/

set_option autoImplicit false

namespace Ccrc.CodexBridge

open Library Sse
open Library.Str (lit point)

variable {limits : PyLimits}

/-- The lines in order, and the events that they complete. -/
def SseFields.readLines (limits : PyLimits) :
    SseFields → List Bytes → SseFields × List SseEvent
  | fields, [] => (fields, [])
  | fields, raw :: rest =>
      let (next, event) := fields.line limits raw
      let (last, later) := readLines limits next rest
      (last, event.toList ++ later)

section Find

variable {byte : UInt8} {buf : Bytes} {start nl : Nat}

end Find

/-- What a parser holds when no feed is under way: a piece of a line, all looked at. -/
structure SseParser.Quiet (parser : SseParser) : Prop where
  start : parser.start = 0
  look : parser.look = parser.buf.length
  free : lineEnd ∉ parser.buf

/-- The parser after some bytes more, the pieces of lines joined. -/
def SseParser.after (limits : PyLimits) (parser : SseParser) (bytes : Bytes) : SseParser :=
  let framed := frame lineEnd (parser.buf ++ bytes)
  { toSseFields := (parser.toSseFields.readLines limits (framed.1.map dropCr)).1
    buf := framed.2
    start := 0
    look := framed.2.length
    scanned := parser.scanned + bytes.length }

/-- The events that the bytes complete. -/
def SseParser.answers (limits : PyLimits) (parser : SseParser) (bytes : Bytes) :
    List SseEvent :=
  (parser.toSseFields.readLines limits
    ((frame lineEnd (parser.buf ++ bytes)).1.map dropCr)).2

section Feed

variable {parser : SseParser}

end Feed

/-- What is open of an event is what its lines so far say. -/
structure SseFields.Open (fields : SseFields) (lines : List Bytes) : Prop where
  name : fields.name = (valuesOf (lit "event") lines).getLast?
  data : fields.data = valuesOf (lit "data") lines
  poisoned : fields.poisoned = lines.any fun raw => readLine raw = .unreadable
  seen : fields.data ≠ [] → fields.seenField = true

section Block

variable {fields : SseFields} {lines : List Bytes}

/-- A warning changes nothing else. -/
theorem warn_keeps (fields : SseFields) (what : Str) :
    fields.warn what = { fields with warnings := (fields.warn what).warnings } := by
  unfold SseFields.warn
  split
  next => rfl
  next => split <;> rfl

theorem SseFields.Open.warn (isOpen : fields.Open lines) (what : Str) : (fields.warn what).Open lines := by
  rw [warn_keeps]
  exact ⟨isOpen.name, isOpen.data, isOpen.poisoned, isOpen.seen⟩

theorem valuesOf_append (field : Str) (first second : List Bytes) :
    valuesOf field (first ++ second) = valuesOf field first ++ valuesOf field second :=
  List.filterMap_append

theorem valuesOf_unnamed {raw : Bytes} (said : ∀ field value, readLine raw ≠ .named field value)
    (sought : Str) : valuesOf sought [raw] = [] := by
  unfold valuesOf
  rw [List.filterMap_cons]
  cases read : readLine raw with
  | named field value => exact absurd read (said field value)
  | unreadable => rfl
  | nothing => rfl

/-- A line that says nothing of its own changes nothing of what is open. -/
theorem SseFields.Open.nothing (isOpen : fields.Open lines) {raw : Bytes} (said : readLine raw = .nothing) :
    fields.Open (lines ++ [raw]) := by
  have unnamed := valuesOf_unnamed (by rw [said]; intro _ _ same; cases same)
  refine ⟨?_, ?_, ?_, isOpen.seen⟩
  · rw [valuesOf_append, unnamed, List.append_nil, isOpen.name]
  · rw [valuesOf_append, unnamed, List.append_nil, isOpen.data]
  · rw [List.any_append, ← isOpen.poisoned]
    simp [said]

end Block

end Ccrc.CodexBridge
