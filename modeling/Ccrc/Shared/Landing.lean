import Ccrc.Library.Text

/-! The landing vocabulary: the words of a required-checks verdict, of the
checks lane's mails and of a stuck wait, and the bound of a wait. -/

set_option autoImplicit false

namespace Ccrc.Shared

open Library

/-- The required checks of one head, as a verdict word. -/
inductive RequiredChecksWord where
  | green | red | pending | notReported | unverifiable | unmeasured
  deriving DecidableEq, Repr

def RequiredChecksWord.text : RequiredChecksWord → Text
  | .green => Text.lit "green"
  | .red => Text.lit "red"
  | .pending => Text.lit "pending"
  | .notReported => Text.lit "not-reported"
  | .unverifiable => Text.lit "unverifiable"
  | .unmeasured => Text.lit "unmeasured"

/-- The five mails of the checks lane. -/
inductive ChecksMailWord where
  | green | red | stuck | moved | left
  deriving DecidableEq, Repr

/-- Why a `stuck` mail was sent. -/
inductive StuckCause where
  | timeout | unmeasured | unverifiable | disabled
  deriving DecidableEq, Repr

/-- What one row of an episode's generations records. -/
inductive ChecksRowWhat where
  | open | green | red | stuck
  deriving DecidableEq, Repr

/-- The 45 minute bound of a wait, in milliseconds. -/
def landingChecksStuckMs : Int := 2700000

/-- True for a 12-hex fingerprint. -/
def isFp12 (text : Text) : Bool := text.isHexOf 12

/-- True for a 40-hex head. -/
def isHead40 (text : Text) : Bool := text.isHexOf 40

end Ccrc.Shared
