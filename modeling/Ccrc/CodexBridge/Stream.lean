import Ccrc.CodexBridge.Reducer

/-! The writer of one client's answer: the head and the frames of a stream, or an
HTTP answer that is no stream, and the message that a stream's events describe. -/

set_option autoImplicit false

namespace Ccrc.CodexBridge

open Library
open Library.Str (lit ascii)

/-! ## The frames -/

def ContentBlock.data : ContentBlock → PyDict
  | .text => [(lit "type", .str (lit "text")), (lit "text", .str [])]
  | .toolUse id name =>
      [(lit "type", .str (lit "tool_use")), (lit "id", .str id), (lit "name", .str name),
        (lit "input", .dict [])]

def Delta.data : Delta → PyDict
  | .text sent => [(lit "type", .str (lit "text_delta")), (lit "text", .str sent)]
  | .inputJson sent =>
      [(lit "type", .str (lit "input_json_delta")), (lit "partial_json", .str sent)]

namespace BlockEvent

def index : BlockEvent → Nat
  | .start index _ | .delta index _ | .stop index => index

/-- The same event at another index. -/
def setIndex (index : Nat) : BlockEvent → BlockEvent
  | .start _ opened => .start index opened
  | .delta _ change => .delta index change
  | .stop _ => .stop index

end BlockEvent

inductive MessageEvent where
  | messageStart (id model : Str)
  | block (event : BlockEvent)
  | messageDelta (stopReason : Option Str) (usage : PyDict)
  | messageStop
  | error (e : BridgeError)

namespace MessageEvent

def name : MessageEvent → Str
  | .messageStart _ _ => lit "message_start"
  | .block (.start _ _) => lit "content_block_start"
  | .block (.delta _ _) => lit "content_block_delta"
  | .block (.stop _) => lit "content_block_stop"
  | .messageDelta _ _ => lit "message_delta"
  | .messageStop => lit "message_stop"
  | .error _ => lit "error"

def data : MessageEvent → PyDict
  | .messageStart id model =>
      [(lit "type", .str (lit "message_start")),
        (lit "message", .dict [(lit "id", .str id), (lit "type", .str (lit "message")),
          (lit "role", .str (lit "assistant")), (lit "model", .str model),
          (lit "content", .list []), (lit "stop_reason", .none), (lit "stop_sequence", .none),
          (lit "usage", .dict (anthropicUsage zeroUsage))])]
  | .block (.start index opened) =>
      [(lit "type", .str (lit "content_block_start")), (lit "index", .int index),
        (lit "content_block", .dict opened.data)]
  | .block (.delta index change) =>
      [(lit "type", .str (lit "content_block_delta")), (lit "index", .int index),
        (lit "delta", .dict change.data)]
  | .block (.stop index) =>
      [(lit "type", .str (lit "content_block_stop")), (lit "index", .int index)]
  | .messageDelta stopReason usage =>
      [(lit "type", .str (lit "message_delta")),
        (lit "delta", .dict
          [(lit "stop_reason", match stopReason with
            | some reason => .str reason
            | none => .none),
            (lit "stop_sequence", .none)]),
        (lit "usage", .dict usage)]
  | .messageStop => [(lit "type", .str (lit "message_stop"))]
  | .error e => Errors.payload e

/-- The bytes of the event's frame. -/
def frame (event : MessageEvent) : Bytes := (Sse.frame event.name event.data).getD []

end MessageEvent

/-! ## HTTP -/

def crlf : Bytes := ascii "\r\n"

/-- A status line and headers, ending with the blank line. `responses` are the
reasons that the interpreter's `http.client` knows. -/
def headBytes (responses : Map Nat Bytes) (status : Nat) (headers : List (Bytes × Bytes)) :
    Bytes :=
  let reason := (responses.get? status).getD (ascii "Status")
  ascii "HTTP/1.1 " ++ ascii (toString status) ++ ascii " " ++ reason ++
    headers.flatMap (fun (key, value) => crlf ++ key ++ ascii ": " ++ value) ++ crlf ++ crlf

def lowerByte (byte : UInt8) : UInt8 := if 65 ≤ byte ∧ byte ≤ 90 then byte + 32 else byte

/-- A whole answer with a body, after which the connection is closed. -/
def answerBytes (responses : Map Nat Bytes) (status : Nat) (headers : Map Bytes Bytes)
    (body : Bytes) : Bytes :=
  let kept := headers.filter fun (key, _) =>
    key.map lowerByte ≠ ascii "content-length" ∧ key.map lowerByte ≠ ascii "connection"
  headBytes responses status (kept ++ [(ascii "Content-Length", ascii (toString body.length)),
    (ascii "Connection", ascii "close")]) ++ body

/-! ## The writer -/

/-- The client's end: how many bytes of its n-th write arrive before it fails, none
where the write succeeds. -/
structure Client where
  fails : Nat → Option Nat
  responses : Map Nat Bytes

structure AnthropicStream where
  model : Str
  messageId : Str
  buffered : Bool
  committed : Bool
  finished : Bool
  closed : Bool
  clientGone : Bool
  drainCut : Bool
  events : List MessageEvent
  base : Nat
  next : Nat
  opened : Option Nat
  /-- What the client got. -/
  wire : Bytes
  writes : Nat

namespace AnthropicStream

def new (model messageId : Str) (buffered : Bool) : AnthropicStream :=
  { model, messageId, buffered, committed := false, finished := false, closed := false,
    clientGone := false, drainCut := false, events := [], base := 0, next := 0, opened := none,
    wire := [], writes := 0 }

/-- A write that the client cannot take closes the stream. -/
def send (client : Client) (s : AnthropicStream) (data : Bytes) : AnthropicStream :=
  if s.closed then s
  else
    match client.fails s.writes with
    | none => { s with wire := s.wire ++ data, writes := s.writes + 1 }
    | some arrived =>
        { s with wire := s.wire ++ data.take arrived, writes := s.writes + 1, closed := true,
                 clientGone := true }

def frame (client : Client) (s : AnthropicStream) (event : MessageEvent) : AnthropicStream :=
  let kept := { s with events := s.events ++ [event] }
  if kept.buffered then kept else kept.send client event.frame

def streamHead (client : Client) : Bytes :=
  headBytes client.responses 200
    [(ascii "Content-Type", ascii "text/event-stream; charset=utf-8"),
      (ascii "Cache-Control", ascii "no-cache"), (ascii "Connection", ascii "close")]

/-- The commit point. -/
def commit (client : Client) (s : AnthropicStream) : AnthropicStream :=
  if s.committed || s.closed then s
  else
    let s := { s with committed := true }
    let s := if s.buffered then s else s.send client (streamHead client)
    s.frame client (.messageStart s.messageId s.model)

/-- The next response's first block follows the last one written. -/
def continuation (s : AnthropicStream) : AnthropicStream := { s with base := s.next }

/-- One block event at its index in the message. -/
def block (client : Client) (s : AnthropicStream) (event : BlockEvent) : AnthropicStream :=
  let index := s.base + event.index
  let opened := match event with
    | .start _ _ => some index
    | .stop _ => if s.opened = some index then none else s.opened
    | .delta _ _ => s.opened
  { s with next := max s.next (index + 1), opened }.frame client (.block (event.setIndex index))

def blocks (client : Client) (s : AnthropicStream) (events : List BlockEvent) :
    AnthropicStream :=
  if !s.committed || s.closed then s else events.foldl (block client) s

def ping (client : Client) (s : AnthropicStream) : AnthropicStream :=
  if s.committed && !s.buffered && !s.closed then s.send client Sse.ping else s

def finish (client : Client) (s : AnthropicStream) (stopReason : Option Str) (usage : PyDict) :
    AnthropicStream :=
  if !s.committed || s.closed then s
  else
    { (s.frame client (.messageDelta stopReason usage)).frame client .messageStop with
      finished := true }

def stopOpened (client : Client) (s : AnthropicStream) : AnthropicStream :=
  match s.opened with
  | none => s
  | some index => { s.frame client (.block (.stop index)) with opened := none }

def failLocked (client : Client) (s : AnthropicStream) (e : BridgeError) : AnthropicStream :=
  { (s.stopOpened client).frame client (.error e) with closed := true }

def fail (client : Client) (s : AnthropicStream) (e : BridgeError) : AnthropicStream :=
  if s.closed || !s.committed then s else s.failLocked client e

def answer (client : Client) (s : AnthropicStream) (status : Nat) (headers : Map Bytes Bytes)
    (body : Bytes) : AnthropicStream :=
  { s.send client (answerBytes client.responses status headers body) with closed := true }

def http (client : Client) (s : AnthropicStream) (status : Nat) (headers : Map Bytes Bytes)
    (body : Bytes) : AnthropicStream :=
  if s.closed || (s.committed && !s.buffered) then s else s.answer client status headers body

/-- A failure wherever the stream stands. -/
def error (client : Client) (s : AnthropicStream) (e : BridgeError) : AnthropicStream :=
  if s.committed && !s.buffered then s.fail client e
  else
    let (status, headers, body) := Errors.httpAnswer e
    s.http client status headers body

/-- The drain's act, once it has the lock. -/
def cut (client : Client) (s : AnthropicStream) (e : BridgeError) : AnthropicStream :=
  if s.closed || s.finished then s
  else
    let s := { s with drainCut := true }
    if s.committed && !s.buffered then s.failLocked client e
    else
      let (status, headers, body) := Errors.httpAnswer e
      s.answer client status headers body

end AnthropicStream

/-! ## The folded message -/

structure Folding where
  id : PyJson := .none
  model : PyJson := .none
  stopReason : PyJson := .none
  usage : PyDict := anthropicUsage zeroUsage
  blocks : Map Nat PyDict := []
  partials : Map Nat Str := []

def Folding.append (state : Folding) (index : Nat) : Delta → Folding
  | .text sent =>
      match state.blocks.get? index with
      | none => state
      | some block =>
          let before := ((block.get? (lit "text")).bind PyJson.str?).getD []
          { state with
            blocks := Map.set index (Map.set (lit "text") (.str (before ++ sent)) block)
              state.blocks }
  | .inputJson sent =>
      match state.blocks.get? index with
      | none => state
      | some _ =>
          { state with
            partials := Map.set index ((state.partials.get? index).getD [] ++ sent)
              state.partials }

def Folding.event (state : Folding) : MessageEvent → Folding
  | .messageStart id model => { state with id := .str id, model := .str model }
  | .block (.start index opened) =>
      { state with
        blocks := Map.set index opened.data state.blocks
        partials := match opened with
          | .toolUse _ _ => Map.set index [] state.partials
          | .text => state.partials }
  | .block (.delta index change) => state.append index change
  | .block (.stop _) => state
  | .messageDelta stopReason usage =>
      { state with
        stopReason := match stopReason with
          | some reason => .str reason
          | none => .none
        usage := if usage.length = 0 then anthropicUsage zeroUsage else usage }
  | .messageStop => state
  | .error _ => state

/-- A block of the message; a call's input is its joined argument deltas, read. -/
def foldedBlock (limits : PyLimits) (state : Folding) (index : Nat) : Option PyJson :=
  (state.blocks.get? index).map fun block =>
    if (block.get? (lit "type")).bind PyJson.str? = some (lit "tool_use") then
      let text := (state.partials.get? index).getD []
      let parsed := PyJson.loads limits true (if text = [] then lit "{}" else text)
      .dict (Map.set (lit "input") (.dict ((parsed.bind PyJson.dict?).getD [])) block)
    else .dict block

/-- The message that a stream's events describe. -/
def fold (limits : PyLimits) (events : List MessageEvent) : PyDict :=
  let state := events.foldl Folding.event {}
  let indexes := (state.blocks.map (·.1)).insertionSort (· ≤ ·)
  [(lit "id", state.id), (lit "type", .str (lit "message")), (lit "role", .str (lit "assistant")),
    (lit "model", state.model),
    (lit "content", .list (indexes.filterMap (foldedBlock limits state))),
    (lit "stop_reason", state.stopReason), (lit "stop_sequence", .none),
    (lit "usage", .dict state.usage)]

end Ccrc.CodexBridge
