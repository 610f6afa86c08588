import Ccrc.CodexBridge.Server
import Ccrc.Library.Sha256

/-! The store of encrypted reasoning: what one reply leaves in it, under the keys
of its calls and of its texts. The rows are kept as they are written; nothing here
expires, is evicted or fails. -/

set_option autoImplicit false

namespace Ccrc.CodexBridge

open Library
open Library.Str (lit)

structure Turn where
  items : List PyDict
  phase : Option Str

abbrev Rows : Type := Map Str Turn

namespace ReasoningStore

def hexdigest (bytes : Bytes) : Str :=
  bytes.flatMap fun byte => [PyJson.hexDigit (byte.toNat / 16), PyJson.hexDigit (byte.toNat % 16)]

def textKey (session text : Str) : Str :=
  lit "text:" ++ hexdigest (sha256 ((session ++ 0 :: text).flatMap Str.encodePoint))

def callKey (callId : Str) : Str := lit "call:" ++ callId

def isPhase (phase : Str) : Bool :=
  1 ≤ phase.length && phase.length ≤ 32 &&
    phase.all fun c => (97 ≤ c.val && c.val ≤ 122) || c.val == 95

/-- A reasoning item with encrypted content, reduced to the fields that are kept. -/
def cleanItem (item : PyDict) : Option PyDict :=
  if isStr "reasoning" (item.get? (lit "type")) then
    (nonemptyStr? (item.get? (lit "encrypted_content"))).map fun encrypted =>
      let id := ((item.get? (lit "id")).bind PyJson.str?).map fun id => (lit "id", PyJson.str id)
      (lit "type", .str (lit "reasoning")) ::
        (id.toList ++
          [(lit "summary", .list []), (lit "encrypted_content", .str encrypted)])
  else none

def cleanTurn (turn : Turn) : Turn :=
  ⟨turn.items.filterMap cleanItem, turn.phase.filter isPhase⟩

def put (store : Rows) (key : Str) (turn : Turn) : Rows := Map.set key (cleanTurn turn) store

def get (store : Rows) (key : Str) : Option Turn := (store.get? key).map cleanTurn

/-- The row under `key` as a reply has built it so far. -/
def row (rows : Rows) (key : Str) : Turn := (rows.get? key).getD ⟨[], none⟩

def addItem (rows : Rows) (key : Str) (item : PyDict) : Rows :=
  let turn := row rows key
  Map.set key { turn with items := turn.items ++ [item] } rows

/-- A reasoning item under its key; without a session no text is a key. -/
def addReasoning (session : Str) (rows : Rows) (entry : PyDict × Option ReplayKey) : Rows :=
  match entry.2 with
  | none => rows
  | some (.call callId) => addItem rows (callKey callId) entry.1
  | some (.text text) => if session = [] then rows else addItem rows (textKey session text) entry.1

/-- The row of an emitted text, with the phase it was sent in. -/
def addText (session : Str) (phases : Map Str Str) (rows : Rows) (text : Str) : Rows :=
  if text = [] then rows
  else
    let key := textKey session text
    let turn := row rows key
    let phase := (phases.get? text).filter (· ≠ [])
    Map.set key { turn with phase := phase.or turn.phase } rows

/-- The emitted texts in the order of their indexes. -/
def emittedTexts (r : Reducer) : List Str :=
  ((r.emittedText.map (·.1)).insertionSort (· ≤ ·)).filterMap (r.emittedText.get? ·)

/-- What one reply is remembered by. -/
def replyRows (r : Reducer) (session : Str) : Rows :=
  let keyed := r.reasoning.foldl (addReasoning session) []
  if session = [] then keyed
  else (emittedTexts r).foldl (addText session r.phases) keyed

def remember (store : Rows) (r : Reducer) (session : Option Str) : Rows :=
  (replyRows r (session.getD [])).foldl (fun store entry => put store entry.1 entry.2) store

end ReasoningStore

/-- One reply of the upstream: how its reducer is made, and its events. -/
structure Reply where
  nameMap : Map Str Str
  toolsRequired : List Str
  liveText : Bool
  events : List SseEvent

namespace Reply

def start (reply : Reply) : Reducer :=
  .new reply.nameMap reply.toolsRequired reply.liveText

/-- The reducer that the reply leaves; none is an exception on the way. -/
def reduced (host : Host) (reply : Reply) : Option Reducer :=
  feedAll host reply.events reply.start

/-- The reply ends in a terminal that is no failure. -/
def ends (host : Host) (reply : Reply) : Bool :=
  (reply.reduced host).any fun r => r.terminal.any fun terminal => terminal.error.isNone

/-- A reply that ended is remembered; the handler of any other answers an error. -/
def remember (host : Host) (session : Str) (store : Rows) (reply : Reply) : Rows :=
  if reply.ends host then
    match reply.reduced host with
    | some r => ReasoningStore.remember store r (some session)
    | none => store
  else store

end Reply

end Ccrc.CodexBridge
