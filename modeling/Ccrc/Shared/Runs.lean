import Ccrc.Library.Text

/-! The run vocabulary: the states of a run and the edges each kind of run may
take between them. -/

set_option autoImplicit false

namespace Ccrc.Shared

open Library

inductive RunState where
  | planned | dispatched | working | awaitingReview | merging | closing | done | failed | unknown
  deriving DecidableEq, Repr

def RunState.text : RunState → Text
  | .planned => Text.lit "planned"
  | .dispatched => Text.lit "dispatched"
  | .working => Text.lit "working"
  | .awaitingReview => Text.lit "awaiting-review"
  | .merging => Text.lit "merging"
  | .closing => Text.lit "closing"
  | .done => Text.lit "done"
  | .failed => Text.lit "failed"
  | .unknown => Text.lit "unknown"

def runStates : List RunState :=
  [.planned, .dispatched, .working, .awaitingReview, .merging, .closing, .done, .failed, .unknown]

def isRunState (word : Text) : Option RunState := runStates.find? (·.text == word)

inductive RunKind where
  | work | review | unknown
  deriving DecidableEq, Repr

def RunKind.text : RunKind → Text
  | .work => Text.lit "work"
  | .review => Text.lit "review"
  | .unknown => Text.lit "unknown"

def runKinds : List RunKind := [.work, .review, .unknown]

def isRunKind (word : Text) : Option RunKind := runKinds.find? (·.text == word)

def runTransitions : RunState → List RunState
  | .planned => [.dispatched, .failed]
  | .dispatched => [.working, .closing, .failed]
  | .working => [.awaitingReview, .closing, .failed]
  | .awaitingReview => [.merging, .working, .closing, .failed]
  | .merging => [.closing, .working, .failed]
  | .closing => [.done, .failed]
  | .done | .failed | .unknown => []

def reviewRunTransitions : RunState → List RunState
  | .planned => [.dispatched, .failed]
  | .dispatched => [.working, .failed]
  | .working => [.done, .failed]
  | .awaitingReview | .merging | .closing | .done | .failed | .unknown => []

def transitionsFor : RunKind → RunState → List RunState
  | .work => runTransitions
  | .review => reviewRunTransitions
  | .unknown => fun _ => []

def terminalRunStates : List RunState := [.done, .failed]

end Ccrc.Shared
