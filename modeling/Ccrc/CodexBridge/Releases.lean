import Ccrc.CodexBridge.ReasoningStore
import Ccrc.CodexBridge.LiveTextProperties

/-! The releases of a reply, each with the state it was made in. -/

set_option autoImplicit false

namespace Ccrc.CodexBridge

open Library
open Library.Str (lit)

/-- One release: the state before it, and the item at its index. -/
structure Released where
  before : Reducer
  oi : Nat
  item : PyDict

namespace Released

def isMessage (x : Released) : Bool := isStr "message" (x.item.get? (lit "type"))

def isIncomplete (x : Released) : Bool := isStr "incomplete" (x.item.get? (lit "status"))

/-- The message is sent as one text block at most. -/
def oneBlock (x : Released) : Bool :=
  !x.isMessage || x.isIncomplete ||
    match x.before.live.any (fun live => live.oi == x.oi), Reducer.groupsOf x.item with
    | _, [] => true
    | true, [(isRefusal, _)] => !isRefusal
    | false, [_] => true
    | _, _ => false

def phase (x : Released) : Option Str := nonemptyStr? (x.item.get? (lit "phase"))

/-- The texts of the blocks that the release of a message sent, its live block among them. -/
def sent (x : Released) : List Str :=
  if x.isMessage then
    (x.before.message x.oi x.item).texts.drop
      (x.before.texts.length - if x.before.live.isSome then 1 else 0)
  else []

end Released

/-- The last phase that a message named in which the text was sent. -/
def phaseOf (trace : List Released) (text : Str) : Option Str :=
  ((trace.filter fun x => text ∈ x.sent).filterMap (·.phase)).getLast?

namespace Reducer

def heldReleases (host : Host) : Nat → Reducer → List Released
  | 0, _ => []
  | turns + 1, r =>
      match r.held.get? r.cursor with
      | none => []
      | some item =>
          ⟨r.taken, r.cursor, item⟩ ::
            match r.taken.releaseItem host r.cursor item with
            | none => []
            | some r => heldReleases host turns r.moved

def doneReleases (host : Host) (r : Reducer) (d : PyDict) : List Released :=
  match (d.get? (lit "item")).bind PyJson.dict? with
  | none => []
  | some item =>
      let oi := (r.itemIndex (d.get? (lit "output_index")) (item.get? (lit "id"))).getD r.nextIndex
      if oi ∈ r.seen ∨ oi < r.cursor then []
      else (r.hold oi item).heldReleases host (r.hold oi item).held.length

/-- A live block of another item is closed before the item at `oi` is released. -/
def closeOther (r : Reducer) (oi : Nat) : Reducer :=
  if r.live.any fun live => live.oi != oi then r.closeLive none else r

def allReleases (host : Host) : List Nat → Reducer → List Released
  | [], _ => []
  | oi :: rest, r =>
      match (r.closeOther oi).held.get? oi with
      | none => []
      | some item =>
          ⟨(r.closeOther oi).takenAt oi, oi, item⟩ ::
            match ((r.closeOther oi).takenAt oi).releaseItem host oi item with
            | none => []
            | some r => allReleases host rest r

def concludeReleases (host : Host) (r : Reducer) (resp : PyDict) : List Released :=
  let output := ((resp.get? (lit "output")).bind PyJson.list?).getD []
  let filled := output.zipIdx.foldl fill r
  filled.allReleases host ((filled.held.map (·.1)).insertionSort (· ≤ ·))

def typedReleases (host : Host) (r : Reducer) (etype : Str) (d : PyDict) : List Released :=
  let resp := ((d.get? (lit "response")).bind PyJson.dict?).getD []
  let details := (resp.get? (lit "incomplete_details")).bind PyJson.dict?
  let reason := bounded (details.bind (·.get? (lit "reason")))
  if etype = lit "response.output_item.done" then r.doneReleases host d
  else if etype = lit "response.completed" then r.concludeReleases host resp
  else if etype = lit "response.incomplete" ∧ reason ∈ knownIncomplete then
    (r.name (lit "incompleteReason") reason).concludeReleases host resp
  else []

/-- The releases of one event. -/
def releases (host : Host) (r : Reducer) (ev : SseEvent) : List Released :=
  match r.terminal, ev.data, ev.type with
  | none, some d, some etype => r.typedReleases host etype d
  | _, _, _ => []

end Reducer

def allReleases (host : Host) : List SseEvent → Reducer → List Released
  | [], _ => []
  | ev :: rest, r =>
      r.releases host ev ++
        match r.feed host ev with
        | none => []
        | some r => if r.terminal.isSome then [] else allReleases host rest r

namespace Reply

/-- The texts of the reply's text blocks. -/
def texts (host : Host) (reply : Reply) : List Str :=
  ((reply.reduced host).map (·.texts)).getD []

def releases (host : Host) (reply : Reply) : List Released :=
  allReleases host reply.events reply.start

/-- No message of the reply is sent as two text blocks. -/
def oneBlock (host : Host) (reply : Reply) : Bool := (reply.releases host).all (·.oneBlock)

/-- The reasoning items that the reply keyed to the text. -/
def keyedTo (host : Host) (reply : Reply) (text : Str) : List PyDict :=
  ((reply.reduced host).map fun r =>
    (r.reasoning.filter fun entry => entry.2 = some (.text text)).map (·.1)).getD []

end Reply

end Ccrc.CodexBridge
