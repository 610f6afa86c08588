import Ccrc.CodexBridge.Stream

/-! One `/v1/messages` request: the thread that reads the upstream responses of a
message and writes them to the client, and the drain that may cut it. A step makes
one call of the writer at most, so every interleaving is an order of steps. -/

set_option autoImplicit false

namespace Ccrc.CodexBridge

open Library
open Library.Str (lit ascii)

def continueMax : Nat := 3

/-- How an upstream body ended. -/
inductive FeedEnd where
  | eof
  | timeout
  | error
  deriving DecidableEq

/-- What one turn of `_reduce`'s loop takes from the feed and the clock. -/
structure Pass where
  host : Host
  events : List SseEvent
  ended : Option FeedEnd
  /-- `HOLD_S` has passed since the head. -/
  holdOver : Bool
  /-- `IDLE_TIMEOUT_S` has passed since the last event. -/
  idle : Bool
  /-- `PING_S` has passed since the last write. -/
  pingDue : Bool

inductive Thread where
  /-- Reading the request. -/
  | preparing
  /-- The head of `_one_response`. -/
  | posting
  /-- Waiting for the upstream's head, or for a refresh. -/
  | waiting
  /-- The head of `_reduce`'s loop. -/
  | reading (red : Reducer)
  /-- Before the loop's commit. -/
  | released (red : Reducer) (events : List BlockEvent) (pass : Pass)
  /-- Before the loop's `blocks`. -/
  | writing (red : Reducer) (events : List BlockEvent) (pass : Pass)
  /-- Before the loop looks at `closed`. -/
  | checking (red : Reducer) (pass : Pass)
  /-- After the loop, before the last `blocks`. -/
  | drained (red : Reducer) (events : List BlockEvent) (timedOut : Bool)
  /-- Before `_reduce` answers. -/
  | concluding (red : Reducer) (term : Terminal) (timedOut : Bool)
  /-- One response is whole: `messages` goes on or finishes. -/
  | replying (red : Reducer) (term : Terminal)
  | finishing (stop : Option Str) (usage : PyDict)
  /-- A buffered message, committed and then finished. -/
  | folding (stop : Option Str) (usage : PyDict)
  | answering
  | failing (e : BridgeError)
  | ended

/-- What the thread waits for in `_waiting`. -/
inductive Waited where
  | ping
  | opened (nameMap : Map Str Str) (toolsRequired : List Str)
  | again
  | refused (e : BridgeError)

/-- What `_reduce` and `messages` add to an error of the upstream. -/
structure Settling where
  rid : Option Str
  tokens : Nat
  maximum : Nat

inductive Act where
  /-- The drain's cut, once it has the lock. -/
  | cut (e : BridgeError)
  /-- An exception between two calls of the writer, as its handler answers it. -/
  | raised (e : BridgeError)
  | prepare (model : Str) (stream : Bool)
  | wait (waited : Waited)
  | pass (pass : Pass)
  | settle (settling : Settling)
  | answer (limits : PyLimits)

structure World where
  out : AnthropicStream
  thread : Thread
  continued : Nat
  outputSum : Nat
  last : Usage

def World.start (messageId : Str) : World :=
  { out := .new [] messageId false, thread := .preparing, continued := 0, outputSum := 0,
    last := zeroUsage }

def stopped : BridgeError := Errors.unavailable (lit "the bridge stopped") none none

def bridgeFailed : BridgeError := Errors.unavailable (lit "the bridge failed") none none

/-- The events of one batch, up to the first that gives a terminal. -/
def feedAll (host : Host) : List SseEvent → Reducer → Option Reducer
  | [], red => some red
  | ev :: rest, red =>
      match red.feed host ev with
      | none => none
      | some red => if red.terminal.isSome then some red else feedAll host rest red

/-- The error that `messages` answers for one of the upstream's. -/
def settledError (settling : Settling) (e : BridgeError) : BridgeError :=
  let e := if e.requestId.isNone then { e with requestId := settling.rid } else e
  if e.kind = lit "overflow" then
    { Errors.overflow settling.tokens settling.maximum with requestId := e.requestId }
  else e

namespace World

variable (client : Client)

def wait (w : World) : Waited → World
  | .ping =>
      if w.out.committed && !w.out.buffered then { w with out := w.out.ping client } else w
  | .opened nameMap toolsRequired =>
      { w with thread := .reading (.new nameMap toolsRequired true) }
  | .again => { w with thread := .posting }
  | .refused e => { w with thread := .failing e }

/-- The batch is fed and what it released is taken. -/
def read (w : World) (red : Reducer) (pass : Pass) : World :=
  match feedAll pass.host pass.events red with
  | none => { w with thread := .failing bridgeFailed }
  | some red =>
      let (events, red) := red.release
      { w with thread := .released red events pass }

def commitDue (w : World) (red : Reducer) (pass : Pass) : Bool :=
  !w.out.committed && (red.committable || pass.holdOver)

/-- The loop is left: the reducer is finished and drained once more. -/
def leave (w : World) (red : Reducer) (timedOut : Bool) : World :=
  let (events, red) := red.finish.release
  { w with thread := .drained red events timedOut }

/-- After the writes of a turn: the loop is left, or goes on, with a ping where one is due. -/
def check (w : World) (red : Reducer) (pass : Pass) : World :=
  if w.out.closed then { w with thread := .failing stopped }
  else if red.terminal.isSome ∨ pass.ended.isSome then
    w.leave red (red.terminal.isNone && decide (pass.ended = some .timeout))
  else if pass.idle then w.leave red true
  else if w.out.committed && !w.out.buffered && pass.pingDue then
    { w with out := w.out.ping client, thread := .reading red }
  else { w with thread := .reading red }

def conclude (w : World) (red : Reducer) (term : Terminal) (timedOut : Bool)
    (settling : Settling) : World :=
  if timedOut then
    { w with
      thread := .failing (Errors.unavailable (lit "the upstream was silent past the idle bound")
        (some (lit "idle-timeout")) settling.rid) }
  else
    match term.error with
    | some e => { w with thread := .failing (settledError settling e) }
    | none =>
        { w with out := if w.out.committed then w.out else w.out.commit client,
                 thread := .replying red term }

/-- One response of the message is whole. -/
def reply (cap : Nat) (w : World) (red : Reducer) (term : Terminal) : World :=
  let w := { w with outputSum := w.outputSum + term.usage.output, last := term.usage }
  match stopReason term red.emittedToolUse red.refusal with
  | none => { w with thread := .failing bridgeFailed }
  | some stop =>
      let usage := anthropicUsage
        ⟨w.last.input, w.last.cached, w.last.cacheWrite, w.outputSum⟩
      if needsContinuation term red.emittedToolUse red.refusal then
        if cap ≤ w.continued then
          { w with thread := .finishing (some (lit "end_turn")) usage }
        else
          { w with out := w.out.continuation, thread := .posting, continued := w.continued + 1 }
      else { w with thread := .finishing stop usage }

/-- The thread's next step on what it takes from outside. -/
def advance (cap : Nat) (w : World) (act : Act) : World :=
  match w.thread, act with
  | .preparing, .prepare model stream =>
      { w with out := { w.out with model, buffered := !stream }, thread := .posting }
  | .posting, _ =>
      if w.out.closed then { w with thread := .failing stopped } else { w with thread := .waiting }
  | .waiting, .wait waited => w.wait client waited
  | .reading red, .pass pass => w.read red pass
  | .released red events pass, _ =>
      { w with out := if w.commitDue red pass then w.out.commit client else w.out,
               thread := .writing red events pass }
  | .writing red events pass, _ =>
      { w with out := if events = [] then w.out else w.out.blocks client events,
               thread := .checking red pass }
  | .checking red pass, _ => w.check client red pass
  | .drained red events timedOut, _ =>
      match red.terminal with
      | none => { w with thread := .failing bridgeFailed }
      | some term =>
          { w with out := if events = [] then w.out else w.out.blocks client events,
                   thread := .concluding red term timedOut }
  | .concluding red term timedOut, .settle settling =>
      w.conclude client red term timedOut settling
  | .replying red term, _ => w.reply cap red term
  | .finishing stop usage, _ =>
      if w.out.buffered then
        { w with out := w.out.commit client, thread := .folding stop usage }
      else { w with out := w.out.finish client stop usage, thread := .ended }
  | .folding stop usage, _ =>
      { w with out := w.out.finish client stop usage, thread := .answering }
  | .answering, .answer limits =>
      let body := (PyJson.dumps true (.dict (fold limits w.out.events))).flatMap Str.encodePoint
      { w with out := w.out.http client 200
                 [(ascii "content-type", ascii "application/json")] body,
               thread := .ended }
  | .failing e, _ => { w with out := w.out.error client e, thread := .ended }
  | _, _ => w

/-- One step of the request's thread or of the drain. `cap` is `CONTINUE_MAX`. -/
def step (cap : Nat) (w : World) : Act → World
  | .cut e => { w with out := w.out.cut client e }
  | .raised e =>
      match w.thread with
      | .ended => w
      | _ => { w with thread := .failing e }
  | act => w.advance client cap act

end World

end Ccrc.CodexBridge
