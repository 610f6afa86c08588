import Ccrc.Library.Text

/-! The states of an ask: a child's question, held for its parent before the operator
is told. -/

set_option autoImplicit false

namespace Ccrc.Shared

open Library

inductive AskState where
  | held | answering | answered | released | declined | stale | unknown
  deriving DecidableEq, Repr

def AskState.text : AskState → Text
  | .held => Text.lit "held"
  | .answering => Text.lit "answering"
  | .answered => Text.lit "answered"
  | .released => Text.lit "released"
  | .declined => Text.lit "declined"
  | .stale => Text.lit "stale"
  | .unknown => Text.lit "unknown"

def askStates : List AskState :=
  [.held, .answering, .answered, .released, .declined, .stale, .unknown]

/-- The member a stored word names, where it names one. -/
def isAskState (word : Text) : Option AskState := askStates.find? (·.text == word)

end Ccrc.Shared
