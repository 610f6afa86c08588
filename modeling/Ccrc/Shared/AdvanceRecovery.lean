import Ccrc.Shared.AdvanceFileUnknown

/-! An intent that a writer left behind is settled once: whatever writes are lost, every class
that the move changed gets one history entry, and no other class gets any. -/

set_option autoImplicit false

namespace Ccrc.Shared

open Library
open Library.Text (lit unit)

/-! ## Intents as they are written -/

/-- The intent that a writer puts under `pending`. -/
def Intent.json : Intent → Value
  | .hand cls former target emptied atTime =>
      .object [(lit "how", .string (lit "hand")), (lit "class", .string cls.text),
        (lit "from", ofId former), (lit "to", ofId target),
        (lit "emptied", .array (emptied.map fun c => .string c.text)), (lit "at", .string atTime)]
  | .advance cls former target effortFrom effortTo atTime =>
      .object [(lit "class", .string cls.text), (lit "from", ofId former),
        (lit "to", .string target), (lit "effortFrom", ofId effortFrom),
        (lit "effortTo", ofId effortTo), (lit "at", .string atTime)]

section Recovery

variable {spelled : Option Value → Text} {registry after' : Registry} {adv file : Value}
  {intent : Intent} {c : ModelClass}

/-- The entry of a move that landed. -/
structure IsMove (former target : Option Text) (e : Value) : Prop where
  former : e.field? (lit "from") = some (ofId former)
  target : e.field? (lit "to") = some (ofId target)
  ok : e.field? (lit "ok") = some (.bool true)

/-- A class's history after a move of its pin: one entry more where the pin moved, and none
where it did not. -/
def AddsMove (before after' : Option Text) (former history : List Value) : Prop :=
  if after' = before then history = former
  else ∃ e, history = capped (former ++ [e]) ∧ IsMove before after' e

/-- The file on the disk once a writer put the intent there. -/
def written (spelled : Option Value → Text) (base : Value) (intent : Intent) :
    Except AdvanceInvalid Value :=
  parseAdvance spelled (base.assign (lit "pending") intent.json)

/-- What settling a file leaves, whatever writes were lost. -/
structure Settled (before after' : Registry) (file final : Value) : Prop where
  pending : final.field? (lit "pending") = some .null
  histories : ∀ c, AddsMove (before.classes c) (after'.classes c) (historyOf file c)
    (historyOf final c)

end Recovery

/-! ## A file with a note of its own -/

end Ccrc.Shared
