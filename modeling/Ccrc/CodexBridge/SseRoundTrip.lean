import Ccrc.CodexBridge.SseParserProperties
import Ccrc.Library.PyJsonProperties

/-! The parser on what the frame writer wrote: no frame holds a line end of its own, and
its two lines say the event that was written. -/

set_option autoImplicit false

namespace Ccrc.CodexBridge

open Library Sse
open Library.Str (lit point ascii encodePoint)

/-- A type and an object that `frame` writes on one line each. -/
structure Writable (limits : PyLimits) (pair : Str × PyDict) : Prop where
  oneLine : ∀ c ∈ pair.1, c.val ≠ 10 ∧ c.val ≠ 13
  typed : pair.2.get? (lit "type") = some (.str pair.1)
  encodable : PyJson.Encodable (.dict pair.2)
  readable : PyJson.Readable limits (.dict pair.2)

/-- One whose object the interpreter reads back. -/
structure Framed (limits : PyLimits) (pair : Str × PyDict) : Prop
    extends Writable limits pair where
  nests : PyJson.nesting (.dict pair.2) ≤ limits.depth

section Lines

variable {limits : PyLimits} {pair : Str × PyDict}

theorem Writable.plain (writable : Writable limits pair) :
    pair.1.any Str.isSurrogate = false := by
  have held {fields : PyDict} {key text : Str} (encodable : PyJson.EncodableFields fields)
      (found : fields.get? key = some (.str text)) : text.any Str.isSurrogate = false := by
    induction fields with
    | nil => cases found
    | cons field fields ih =>
        obtain ⟨name, value⟩ := field
        rw [Map.get?] at found
        split at found
        next =>
            cases found
            exact encodable.2.1
        next => exact ih encodable.2.2 found
  exact held writable.encodable writable.typed

theorem Writable.printable (writable : Writable limits pair) :
    PyJson.Printable (PyJson.dumps false (.dict pair.2)) :=
  PyJson.printable_dumps (.dict pair.2) writable.readable writable.encodable

end Lines

/-! ## The frames of a stream -/

section Frames

variable {limits : PyLimits}

end Frames

end Ccrc.CodexBridge
