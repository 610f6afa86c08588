import Ccrc.Shared.Asks
import Ccrc.Library.Json
import Ccrc.Library.Run
import Ccrc.Library.Table

/-! The rows of `asks` and the six writers that move one: a take and its rollback or
settlement by a principal, the sweep's release, the parent's decline and the pane's
staleness. Every writer is one guarded UPDATE. -/

set_option autoImplicit false

namespace Ccrc.Coord

open Library Shared

structure AskRow where
  id : Int
  atTime : Int
  childId : Text
  parentId : Text
  runId : Option Int
  askKey : Text
  askAt : Int
  dialogId : Text
  question : Text
  options : Text
  /-- A stored word: any text at all, the vocabulary's or not. -/
  state : Text
  answeredBy : Option Text
  answer : Option Text
  answeredAt : Option Int
  releasedAt : Option Int
  releaseReason : Option Text
  deriving DecidableEq, Repr

def isPositiveDecimalSafeInteger (value : Int) : Bool :=
  decide (1 ≤ value ∧ value ≤ Number.maxSafeInteger)

/-- The state of a row that can be read; none is an unreadable one. -/
def hydrateAsk (row : AskRow) : Option AskState :=
  if isPositiveDecimalSafeInteger row.id && row.runId.all isPositiveDecimalSafeInteger &&
      (Json.parse row.options).isSome then
    some ((isAskState row.state).getD .unknown)
  else none

/-- The two states that a principal may take a row from. -/
inductive AskTakeSource where
  | held | released
  deriving DecidableEq, Repr

def AskTakeSource.state : AskTakeSource → AskState
  | .held => .held
  | .released => .released

inductive AskTakeRefusal where
  | unknownAsk | notHeld | askMoved | declined | alreadyAnswered
  deriving DecidableEq, Repr

inductive AskTakeResult where
  | ok (row : AskRow) (source : AskTakeSource)
  | refused (why : AskTakeRefusal)
  | threw
  deriving DecidableEq, Repr

def takeGuard (id askAt : Int) (source : AskTakeSource) (row : AskRow) : Bool :=
  row.id == id && row.state == source.state.text && row.askAt == askAt

/-- The two terminal decisions are named before the instance guard answers. -/
def askTakeSource (state : AskState) (sameInstance : Bool) : Except AskTakeRefusal AskTakeSource :=
  if state = .declined then .error .declined
  else if state = .answered then .error .alreadyAnswered
  else if ¬sameInstance then .error .askMoved
  else match state with
    | .held => .ok .held
    | .released => .ok .released
    | .answering | .answered | .declined | .stale | .unknown => .error .notHeld

def takeAskForAnswer (rows : List AskRow) (id askAt : Int) : List AskRow × AskTakeResult :=
  match rowOf AskRow.id rows id with
  | none => (rows, .refused .unknownAsk)
  | some row =>
      match hydrateAsk row with
      | none => (rows, .threw)
      | some state =>
          match askTakeSource state (row.askAt == askAt) with
          | .error why => (rows, .refused why)
          | .ok source =>
              let (next, changes) := updateRows rows (takeGuard id askAt source) fun row =>
                { row with state := AskState.answering.text }
              if changes = 0 then (next, .refused .notHeld) else (next, .ok row source)

def untakeAsk (rows : List AskRow) (id : Int) (target : AskTakeSource) : List AskRow × Bool :=
  let (next, changes) := updateRows rows
    (fun row => row.id == id && row.state == AskState.answering.text) fun row =>
      { row with state := target.state.text }
  (next, decide (0 < changes))

def settleAsk (rows : List AskRow) (id : Int) (answerer answer : Text) (now : Int) : List AskRow :=
  (updateRows rows (fun row => row.id == id && row.state == AskState.answering.text) fun row =>
    { row with state := AskState.answered.text, answeredBy := some answerer, answer := some answer
               answeredAt := some now }).1

/-- The sweep's lapse and the parent's decline: what ends a hold, and as what. -/
def endHold (rows : List AskRow) (id now : Int) (ended : AskState) : List AskRow × Bool :=
  let (next, changes) := updateRows rows
    (fun row => row.id == id && row.state == AskState.held.text) fun row =>
      { row with state := ended.text, releasedAt := some now }
  (next, decide (0 < changes))

def releaseAsk (rows : List AskRow) (id now : Int) : List AskRow × Bool :=
  endHold rows id now .released

def declineAsk (rows : List AskRow) (id now : Int) : List AskRow × Bool :=
  endHold rows id now .declined

def staleAsk (rows : List AskRow) (dialogId childId : Text) (now : Int) : List AskRow × Bool :=
  let (next, changes) := updateRows rows
    (fun row => row.dialogId == dialogId && row.childId == childId &&
      (row.state == AskState.held.text || row.state == AskState.answering.text)) fun row =>
      { row with state := AskState.stale.text, releasedAt := some now }
  (next, decide (0 < changes))

/-! ## Principals -/

/-- A take that its principal has neither rolled back nor settled. -/
structure AskTaken (Principal : Type) where
  principal : Principal
  id : Int
  source : AskTakeSource
  deriving DecidableEq, Repr

structure AskWorld (Principal : Type) where
  rows : List AskRow
  taken : List (AskTaken Principal)
  deriving DecidableEq, Repr

/-- A principal rolls its own take back to where that take found the row. A
settlement is asked for by any principal at any time. -/
inductive AskCall (Principal : Type) where
  | take (principal : Principal) (id askAt : Int)
  | untake (principal : Principal) (id : Int)
  | settle (principal : Principal) (id : Int) (answerer answer : Text) (now : Int)
  | release (id now : Int)
  | decline (id now : Int)
  | stale (dialogId childId : Text) (now : Int)
  deriving DecidableEq, Repr

section Step

variable {Principal : Type} [DecidableEq Principal]

def AskTaken.isOf (principal : Principal) (id : Int) (taken : AskTaken Principal) : Bool :=
  taken.principal = principal && taken.id == id

def askStep (world : AskWorld Principal) : AskCall Principal → AskWorld Principal
  | .take principal id askAt =>
      let (rows, result) := takeAskForAnswer world.rows id askAt
      match result with
      | .ok _ source => { rows, taken := ⟨principal, id, source⟩ :: world.taken }
      | .refused _ | .threw => { world with rows }
  | .untake principal id =>
      match world.taken.find? (·.isOf principal id) with
      | none => world
      | some taken =>
          { rows := (untakeAsk world.rows id taken.source).1
            taken := world.taken.filter fun taken => !taken.isOf principal id }
  | .settle principal id answerer answer now =>
      { rows := settleAsk world.rows id answerer answer now
        taken := world.taken.filter fun taken => !taken.isOf principal id }
  | .release id now => { world with rows := (releaseAsk world.rows id now).1 }
  | .decline id now => { world with rows := (declineAsk world.rows id now).1 }
  | .stale dialogId childId now =>
      { world with rows := (staleAsk world.rows dialogId childId now).1 }

end Step

end Ccrc.Coord
