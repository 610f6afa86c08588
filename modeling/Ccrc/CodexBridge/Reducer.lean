import Ccrc.CodexBridge.Errors

/-! The upstream's event stream becomes block events, a terminal, and what the
reasoning store keeps. Blocks are numbered within the one response. -/

set_option autoImplicit false

namespace Ccrc.CodexBridge

open Library
open Library.Str (lit)

structure Usage where
  input : Nat
  cached : Nat
  cacheWrite : Nat
  output : Nat
  deriving DecidableEq

def zeroUsage : Usage := ⟨0, 0, 0, 0⟩

/-- The three input fields that the client sums equal the upstream's `input_tokens`. -/
def anthropicUsage (u : Usage) : PyDict :=
  [(lit "input_tokens", .int (u.input - u.cached - u.cacheWrite : Nat)),
    (lit "cache_read_input_tokens", .int u.cached),
    (lit "cache_creation_input_tokens", .int u.cacheWrite),
    (lit "output_tokens", .int u.output)]

inductive TerminalKind where
  | completed
  | incomplete
  | failed
  | truncated
  deriving DecidableEq

structure Terminal where
  kind : TerminalKind
  reason : Option Str
  error : Option BridgeError
  usage : Usage
  endTurn : Option Bool

inductive ContentBlock where
  | text
  | toolUse (id name : Str)
  deriving DecidableEq

inductive Delta where
  | text (text : Str)
  | inputJson (partialJson : Str)
  deriving DecidableEq

inductive BlockEvent where
  | start (index : Nat) (block : ContentBlock)
  | delta (index : Nat) (delta : Delta)
  | stop (index : Nat)
  deriving DecidableEq

/-- The block that text is being sent into while its item is not finished. -/
structure Live where
  oi : Nat
  block : Nat
  sent : Str
  deriving DecidableEq

/-- What a reasoning item is replayed before. -/
inductive ReplayKey where
  | text (text : Str)
  | call (id : Str)
  deriving DecidableEq

structure Counts where
  emptyArguments : Nat := 0
  invalidArguments : Nat := 0
  liveTextMismatch : Nat := 0
  deriving DecidableEq

/-- What a reducer takes from its process: the limits of `json.loads`, and the
seconds to the reset that an error object names. -/
structure Host where
  limits : PyLimits
  resetSeconds : PyDict → Option Nat

structure Reducer where
  nameMap : Map Str Str
  toolsRequired : List Str
  liveText : Bool
  terminal : Option Terminal
  emittedToolUse : Bool
  refusal : Bool
  emittedText : Map Nat Str
  phases : Map Str Str
  responseId : Option Str
  counts : Counts
  warnings : List Str
  names : List (Str × Str)
  out : List BlockEvent
  blocks : Nat
  releasedAny : Bool
  cursor : Nat
  held : Map Nat PyDict
  seen : List Nat
  finished : Map Nat PyDict
  added : Map Str Nat
  live : Option Live
  reasoning : List (PyDict × Option ReplayKey)
  unkeyed : List Nat

def warningsMax : Nat := 64

def knownIncomplete : List Str :=
  [lit "max_output_tokens", lit "content_filter", lit "interrupted"]

def incompleteStop : Map Str Str :=
  [(lit "max_output_tokens", lit "max_tokens"), (lit "content_filter", lit "refusal")]

def incompleteContinue : List Str := [lit "interrupted"]

def toolItems : List Str := [lit "function_call", lit "custom_tool_call"]

def ignoredEvents : List Str :=
  [lit "response.in_progress", lit "response.queued",
    lit "response.content_part.added", lit "response.content_part.done",
    lit "response.output_text.done", lit "response.output_text.annotation.added",
    lit "response.refusal.delta", lit "response.refusal.done",
    lit "response.function_call_arguments.delta", lit "response.function_call_arguments.done",
    lit "response.custom_tool_call_input.delta", lit "response.custom_tool_call_input.done",
    lit "response.reasoning_summary_part.added", lit "response.reasoning_summary_part.done",
    lit "response.reasoning_summary_text.delta", lit "response.reasoning_summary_text.done",
    lit "response.reasoning_text.delta", lit "response.reasoning_text.done"]

def wRepeat : Str := lit "a repeated output_index was dropped"
def wFilled : Str := lit "an item was filled from the final output"
def wUnfinished : Str := lit "an unfinished item was skipped"
def wNoCallId : Str := lit "a tool call with no call_id was skipped"
def wNotObject : Str := lit "a finished item that is not an object was skipped"

def unreadableReasoning : Str := lit "reasoning-without-encrypted-content"

/-- An integer that is not negative. -/
def index? (value : Option PyJson) : Option Nat :=
  match value.bind PyJson.int? with
  | some (.ofNat index) => some index
  | some (.negSucc _) | none => none

def count (value : Option PyJson) : Nat := (index? value).getD 0

def usageOf (response : Option PyDict) : Usage :=
  match (response.bind (·.get? (lit "usage"))).bind PyJson.dict? with
  | none => zeroUsage
  | some u =>
      let details := ((u.get? (lit "input_tokens_details")).bind PyJson.dict?).getD []
      ⟨count (u.get? (lit "input_tokens")), count (details.get? (lit "cached_tokens")),
        count (details.get? (lit "cache_write_tokens")), count (u.get? (lit "output_tokens"))⟩

/-- A reason as a message or a name may carry it. -/
def bounded (value : Option PyJson) : Str :=
  match value.bind PyJson.str? with
  | none | some [] => lit "none"
  | some text =>
      let lowered := Errors.lower text
      if Errors.isCode lowered then lowered else Errors.unrecognisedCode

/-- `raw` read as a JSON object; the names that are no JSON are refused. -/
def jsonObject (limits : PyLimits) (raw : Option PyJson) : Option PyDict :=
  ((raw.bind PyJson.str?).bind (PyJson.loads limits false)).bind PyJson.dict?

/-- A string that is not empty. -/
def nonemptyStr? (value : Option PyJson) : Option Str :=
  (value.bind PyJson.str?).filter fun text => text ≠ []

def isStr (literal : String) (value : Option PyJson) : Bool :=
  decide (value.bind PyJson.str? = some (lit literal))

namespace Reducer

def new (nameMap : Map Str Str) (toolsRequired : List Str) (liveText : Bool) : Reducer :=
  { nameMap, toolsRequired, liveText, terminal := none, emittedToolUse := false, refusal := false,
    emittedText := [], phases := [], responseId := none, counts := {}, warnings := [],
    names := [], out := [], blocks := 0, releasedAny := false, cursor := 0, held := [],
    seen := [], finished := [], added := [], live := none, reasoning := [], unkeyed := [] }

def committable (r : Reducer) : Bool :=
  r.releasedAny || r.terminal.any fun terminal => terminal.error.isNone

/-- The finished items in the order of their indexes. -/
def outputItems (r : Reducer) : List PyDict :=
  ((r.finished.map (·.1)).insertionSort (· ≤ ·)).filterMap (r.finished.get? ·)

/-- What was emitted since the last call, and the reducer without it. -/
def release (r : Reducer) : List BlockEvent × Reducer := (r.out, { r with out := [] })

/-! ## Blocks -/

def name (r : Reducer) (family value : Str) : Reducer :=
  { r with names := r.names ++ [(family, value)] }

def emit (r : Reducer) (event : BlockEvent) : Reducer := { r with out := r.out ++ [event] }

/-- The start of the next block, whose index is the count before it. -/
def openBlock (r : Reducer) (block : ContentBlock) : Reducer :=
  { r with blocks := r.blocks + 1, releasedAny := true,
           out := r.out ++ [.start r.blocks block] }

def textBlock (r : Reducer) (text : Str) : Reducer :=
  let idx := r.blocks
  ((r.openBlock .text).emit (.delta idx (.text text))).emit (.stop idx)

def warn (r : Reducer) (what : Str) : Reducer :=
  if r.warnings.length < warningsMax then { r with warnings := r.warnings ++ [what] }
  else if r.warnings.length = warningsMax then
    { r with warnings := r.warnings ++ [lit "further warnings dropped"] }
  else r

/-- Every reasoning item recorded since the last key is keyed. -/
def key (r : Reducer) (key : ReplayKey) : Reducer :=
  { r with
    reasoning := r.reasoning.zipIdx.map fun ((item, before), at_) =>
      (item, if at_ ∈ r.unkeyed then some key else before)
    unkeyed := [] }

/-! ## Live text -/

/-- The item that a delta or a finished item belongs to. -/
def itemIndex (r : Reducer) (index id : Option PyJson) : Option Nat :=
  match index? index with
  | some oi => some oi
  | none => (id.bind PyJson.str?).bind fun id => r.added.get? id

/-- The block that a delta goes to, opened where none is. -/
def openLive (r : Reducer) (oi : Nat) : Reducer × Live :=
  match r.live with
  | some live => (r, live)
  | none => (r.openBlock .text, { oi, block := r.blocks, sent := [] })

/-- Text sent into the live block. -/
def sendLive (r : Reducer) (live : Live) (text : Str) : Reducer :=
  { r.emit (.delta live.block (.text text)) with
    live := some { live with sent := live.sent ++ text } }

def liveDelta (r : Reducer) (d : PyDict) : Reducer :=
  if !r.liveText then r
  else
    match r.itemIndex (d.get? (lit "output_index")) (d.get? (lit "item_id")) with
    | none => r
    | some oi =>
        if oi ≠ r.cursor ∨ oi ∈ r.seen then r
        else
          match nonemptyStr? (d.get? (lit "delta")) with
          | none => r
          | some delta =>
              -- A later part is sent at the done event; no index is the first part's.
              if index? (some ((d.get? (lit "content_index")).getD (.int 0))) ≠ some 0 then r
              else
                let (r, live) := r.openLive oi
                r.sendLive live delta

def setPhase (r : Reducer) (item : Option PyDict) (texts : List Str) : Reducer :=
  match nonemptyStr? (item.bind (·.get? (lit "phase"))) with
  | none => r
  | some phase =>
      { r with phases := texts.foldl (fun phases text => Map.set text phase phases) r.phases }

/-- The live block is closed, keyed and recorded by what was sent. -/
def closeLive (r : Reducer) (item : Option PyDict) : Reducer :=
  match r.live with
  | none => r
  | some live =>
      let stopped := { r with live := none }.emit (.stop live.block)
      let recorded := { stopped with emittedText := Map.set live.oi live.sent stopped.emittedText }
      (recorded.key (.text live.sent)).setPhase item [live.sent]

/-! ## Finished items -/

/-- Consecutive texts are one group; a refusal is one of its own. -/
def addPart (groups : List (Bool × Str)) (part : PyJson) : List (Bool × Str) :=
  match part.dict? with
  | none => groups
  | some part =>
      match isStr "output_text" (part.get? (lit "type")),
          (part.get? (lit "text")).bind PyJson.str? with
      | true, some text =>
          match groups.getLast? with
          | some (false, before) => groups.dropLast ++ [(false, before ++ text)]
          | some (true, _) | none => groups ++ [(false, text)]
      | _, _ =>
          match isStr "refusal" (part.get? (lit "type")),
              (part.get? (lit "refusal")).bind PyJson.str? with
          | true, some text => groups ++ [(true, text)]
          | _, _ => groups

def groupsOf (item : PyDict) : List (Bool × Str) :=
  ((((item.get? (lit "content")).bind PyJson.list?).getD []).foldl addPart []).filter
    fun group => group.2 ≠ []

/-- A group as a block of its own; the first text of a message that had no live
block is the one it is keyed by. -/
def emitGroup (oi : Nat) (state : Reducer × List Str) (group : Bool × Str) :
    Reducer × List Str :=
  let (r, texts) := state
  let keyed :=
    if texts = [] then
      { r with emittedText := Map.set oi group.2 r.emittedText }.key (.text group.2)
    else r
  let sent := keyed.textBlock group.2
  ({ sent with refusal := sent.refusal || group.1 }, texts ++ [group.2])

def mismatch (r : Reducer) : Reducer :=
  { r with counts := { r.counts with liveTextMismatch := r.counts.liveTextMismatch + 1 } }

/-- What the finished item adds to its live block, and the groups left for blocks
of their own. -/
def extendLive (r : Reducer) (live : Live) : List (Bool × Str) → Reducer × List (Bool × Str)
  | (false, text) :: rest =>
      if text.startsWith live.sent then
        let suffix := text.drop live.sent.length
        (if suffix = [] then r else r.sendLive live suffix, rest)
      else (r.mismatch, rest)
  | groups => (r.mismatch, groups)

/-- What the message's live block leaves: the texts sent so far and the groups to send. -/
def messageLive (r : Reducer) (live : Live) (item : PyDict) (incomplete : Bool)
    (groups : List (Bool × Str)) : Reducer × List Str × List (Bool × Str) :=
  let (r, groups) := if incomplete then (r, []) else r.extendLive live groups
  (r.closeLive (some item), (r.live.map (·.sent)).toList, groups)

def message (r : Reducer) (oi : Nat) (item : PyDict) : Reducer :=
  let groups := groupsOf item
  let incomplete := isStr "incomplete" (item.get? (lit "status"))
  let live := r.live.filter fun live => live.oi == oi
  if incomplete ∧ live.isNone then r.warn wUnfinished
  else
    let (r, texts, groups) :=
      match live with
      | some live => r.messageLive live item incomplete groups
      | none => (r, [], groups)
    let (r, texts) := groups.foldl (emitGroup oi) (r, texts)
    r.setPhase (some item) texts

def countInvalid (r : Reducer) : Reducer :=
  { r with counts := { r.counts with invalidArguments := r.counts.invalidArguments + 1 } }

def countEmpty (r : Reducer) : Reducer :=
  { r with counts := { r.counts with emptyArguments := r.counts.emptyArguments + 1 } }

/-- The one delta of a call, and whether its arguments are the empty object. -/
def toolArguments (host : Host) (r : Reducer) (item : PyDict) : Reducer × Str × Bool :=
  if isStr "custom_tool_call" (item.get? (lit "type")) then
    let raw := ((item.get? (lit "input")).bind PyJson.str?).getD []
    (r, PyJson.dumps false (.dict [(lit "input", .str raw)]), false)
  else
    match jsonObject host.limits (item.get? (lit "arguments")) with
    | none => (r.countInvalid, lit "{}", true)
    | some obj =>
        (r, ((item.get? (lit "arguments")).bind PyJson.str?).getD [], decide (obj.length = 0))

/-- A call's block, its arguments in one delta. -/
def callBlock (r : Reducer) (callId upstream arguments : Str) : Reducer :=
  let idx := r.blocks
  let opened := r.openBlock (.toolUse callId ((r.nameMap.get? upstream).getD upstream))
  let sent := (opened.emit (.delta idx (.inputJson arguments))).emit (.stop idx)
  { sent with emittedToolUse := true }.key (.call callId)

def tool (host : Host) (r : Reducer) (item : PyDict) : Reducer :=
  if isStr "incomplete" (item.get? (lit "status")) then r.warn wUnfinished
  else
    match nonemptyStr? (item.get? (lit "call_id")) with
    | none => r.warn wNoCallId
    | some callId =>
        let upstream := ((item.get? (lit "name")).bind PyJson.str?).getD []
        let (r, arguments, empty) := r.toolArguments host item
        let counted := if empty ∧ upstream ∈ r.toolsRequired then r.countEmpty else r
        counted.callBlock callId upstream arguments

/-- A value that a set can be asked about. -/
def isHashable : Option PyJson → Bool
  | some (.list _) | some (.dict _) => false
  | some .none | some (.bool _) | some (.int _) | some (.float _) | some (.str _) | none => true

def reasoningItem (r : Reducer) (item : PyDict) : Reducer :=
  match nonemptyStr? (item.get? (lit "encrypted_content")) with
  | some _ =>
      { r with unkeyed := r.unkeyed ++ [r.reasoning.length],
               reasoning := r.reasoning ++ [(item, none)] }
  | none => r.name (lit "itemType") unreadableReasoning

/-- One item at the cursor; none is the `TypeError` of a type that cannot be hashed. -/
def releaseItem (host : Host) (r : Reducer) (oi : Nat) (item : PyDict) : Option Reducer :=
  let kind := item.get? (lit "type")
  if isStr "message" kind then some (r.message oi item)
  else
    let r := if r.live.any fun live => live.oi == oi then r.mismatch.closeLive none else r
    if !isHashable kind then none
    else
      match kind.bind PyJson.str? with
      | none => some (r.name (lit "itemType") (lit "untyped"))
      | some kind =>
          if kind ∈ toolItems then some (r.tool host item)
          else if kind = lit "reasoning" then some (r.reasoningItem item)
          else some (r.name (lit "itemType") (if kind = [] then lit "untyped" else kind))

/-- The held items from the cursor on, up to the first gap; each turn takes one. -/
def releaseHeld (host : Host) : Nat → Reducer → Option Reducer
  | 0, r => some r
  | turns + 1, r =>
      match r.held.get? r.cursor with
      | none => some r
      | some item =>
          match { r with held := r.held.erase r.cursor }.releaseItem host r.cursor item with
          | none => none
          | some r => releaseHeld host turns { r with cursor := r.cursor + 1 }

/-- The index of an item that names none and was never announced. -/
def nextIndex (r : Reducer) : Nat :=
  max (if r.seen = [] then 0 else r.seen.foldl max 0 + 1) r.cursor

/-- A finished item waits for the cursor. -/
def hold (r : Reducer) (oi : Nat) (item : PyDict) : Reducer :=
  { r with seen := oi :: r.seen, finished := Map.set oi item r.finished,
           held := Map.set oi item r.held }

def done (host : Host) (r : Reducer) (d : PyDict) : Option Reducer :=
  match (d.get? (lit "item")).bind PyJson.dict? with
  | none => some (r.warn wNotObject)
  | some item =>
      let oi := (r.itemIndex (d.get? (lit "output_index")) (item.get? (lit "id"))).getD r.nextIndex
      if oi ∈ r.seen ∨ oi < r.cursor then some (r.warn wRepeat)
      else
        let held := r.hold oi item
        held.releaseHeld host held.held.length

/-! ## Terminals -/

/-- The open block is closed before the failure is reported, and nothing held is released. -/
def fail (r : Reducer) (err : BridgeError) (response : Option PyDict) (kind : TerminalKind)
    (reason : Option Str) : Reducer :=
  { r.closeLive none with
    held := [], terminal := some ⟨kind, reason, some err, usageOf response, none⟩ }

/-- One item of the final output, where no done event gave it. -/
def fill (r : Reducer) (entry : PyJson × Nat) : Reducer :=
  let (it, pos) := entry
  match it.dict? with
  | none => r
  | some item =>
      if pos ∈ r.seen ∨ pos < r.cursor then r
      else
        let status := item.get? (lit "status")
        let live := isStr "incomplete" status && isStr "message" (item.get? (lit "type")) &&
          r.live.any fun live => live.oi == pos
        let settled := match status with
          | none | some .none => true
          | some _ => isStr "completed" status
        if !settled && !live then r.warn wUnfinished
        else (r.warn wFilled).hold pos item

/-- Every held item in the order of the indexes, past any gap. -/
def releaseAll (host : Host) : List Nat → Reducer → Option Reducer
  | [], r => some r
  | oi :: rest, r =>
      let r := if r.live.any fun live => live.oi != oi then r.closeLive none else r
      match r.held.get? oi with
      | none => none
      | some item =>
          match { r with cursor := oi, held := r.held.erase oi }.releaseItem host oi item with
          | none => none
          | some r => releaseAll host rest r

/-- The terminal that releases what is held. -/
def conclude (host : Host) (r : Reducer) (kind : TerminalKind) (reason : Option Str)
    (resp : PyDict) : Option Reducer :=
  let output := ((resp.get? (lit "output")).bind PyJson.list?).getD []
  let filled := output.zipIdx.foldl fill r
  match filled.releaseAll host ((filled.held.map (·.1)).insertionSort (· ≤ ·)) with
  | none => none
  | some r =>
      let endTurn := match resp.get? (lit "end_turn") with
        | some (.bool value) => some value
        | _ => none
      some { { r with cursor := r.cursor + 1 }.closeLive none with
        terminal := some ⟨kind, reason, none, usageOf (some resp), endTurn⟩ }

def finishCompleted (host : Host) (r : Reducer) (response : Option PyJson) : Option Reducer :=
  r.conclude host .completed none ((response.bind PyJson.dict?).getD [])

def finishIncomplete (host : Host) (r : Reducer) (response : Option PyJson) : Option Reducer :=
  let resp := (response.bind PyJson.dict?).getD []
  let details := (resp.get? (lit "incomplete_details")).bind PyJson.dict?
  let reason := bounded (details.bind (·.get? (lit "reason")))
  let named := r.name (lit "incompleteReason") reason
  if reason ∉ knownIncomplete then
    some (named.fail (Errors.unavailable (lit "an incomplete response: " ++ reason) none none)
      (some resp) .incomplete (some reason))
  else named.conclude host .incomplete (some reason) resp

def finish (r : Reducer) : Reducer :=
  match r.terminal with
  | some _ => r
  | none =>
      r.fail (Errors.unavailable (lit "the stream closed before a terminal event") none none) none
        .truncated none

/-! ## The feed -/

def created (r : Reducer) (d : PyDict) : Reducer :=
  match (((d.get? (lit "response")).bind PyJson.dict?).bind (·.get? (lit "id"))).bind
      PyJson.str? with
  | some rid => { r with responseId := some rid }
  | none => r

def announce (r : Reducer) (d : PyDict) : Reducer :=
  match (((d.get? (lit "item")).bind PyJson.dict?).bind (·.get? (lit "id"))).bind PyJson.str?,
      index? (d.get? (lit "output_index")) with
  | some id, some oi => { r with added := Map.set id oi r.added }
  | _, _ => r

def failed (host : Host) (r : Reducer) (d : PyDict) : Reducer :=
  let resp := (d.get? (lit "response")).bind PyJson.dict?
  let err := (resp.bind (·.get? (lit "error"))).bind PyJson.dict?
  r.fail (Errors.classifyFailed host.resetSeconds err) resp .failed none

/-- One event whose type and data are known. -/
def feedTyped (host : Host) (r : Reducer) (etype : Str) (d : PyDict) : Option Reducer :=
  if etype = lit "response.created" then some (r.created d)
  else if etype = lit "response.output_item.added" then some (r.announce d)
  else if etype = lit "response.output_text.delta" then some (r.liveDelta d)
  else if etype = lit "response.output_item.done" then r.done host d
  else if etype = lit "response.completed" then r.finishCompleted host (d.get? (lit "response"))
  else if etype = lit "response.incomplete" then r.finishIncomplete host (d.get? (lit "response"))
  else if etype = lit "response.failed" then some (r.failed host d)
  else if etype = lit "error" then
    some (r.fail (Errors.classifyFailed host.resetSeconds (some d)) none .failed none)
  else if etype ∉ ignoredEvents then some (r.name (lit "eventType") etype)
  else some r

/-- One event; none is the exception that leaves the reducer unusable. -/
def feed (host : Host) (r : Reducer) (ev : SseEvent) : Option Reducer :=
  if r.terminal.isSome then some r
  else
    match ev.data, ev.type with
    | some d, some etype => r.feedTyped host etype d
    | _, _ => some r

end Reducer

/-- The stop reason of a reply, where none asks to continue; the outer none is the
`ValueError` of a failed terminal. -/
def stopReason (t : Terminal) (emittedToolUse refusal : Bool) : Option (Option Str) :=
  if t.error.isSome then none
  else if emittedToolUse then some (some (lit "tool_use"))
  else if refusal then some (some (lit "refusal"))
  else
    match t.kind, t.reason.bind (incompleteStop.get? ·) with
    | .incomplete, some stop => some (some stop)
    | kind, _ =>
        if kind = .incomplete ∧ t.reason.any (· ∈ incompleteContinue) then some none
        else if t.endTurn = some false then some none
        else some (some (lit "end_turn"))

def needsContinuation (t : Terminal) (emittedToolUse refusal : Bool) : Bool :=
  t.error.isNone && decide (stopReason t emittedToolUse refusal = some none)

end Ccrc.CodexBridge
