import Ccrc.Library.Json
import Ccrc.Library.Utf8

/-! One transcript line, as the chat events that it stands for. How a tool's input is
masked and serialized is a parameter; none of its text is read here. -/

set_option autoImplicit false

namespace Ccrc.Transcript

open Library
open Library.Text (lit unit)

inductive SystemOrigin where
  | resumePrompt | noResponse | limit | idleCompact | idleCompactNudge
  deriving DecidableEq, Repr

inductive ChatEvent where
  | user (uuid ts text : Text) (compaction : Bool)
  | assistant (uuid ts text : Text) (compaction : Bool)
  | toolUse (uuid ts toolId name input : Text) (truncatedBytes : Nat)
  | toolResult (ts toolId text : Text) (isError : Bool) (truncatedBytes : Nat)
  | system (uuid ts text : Text) (origin : Option SystemOrigin) (resetsAt : Option Number)

def idleCompactNoticePrefixes : List Text := [lit "Compacted while idle"]
def idleCompactNudgePrompt : Text :=
  lit "Continue with your open tasks. If you were waiting for the operator's answer, say so in one line and stop."
def resumePromptPrefix : Text := lit "Continue from where you left off."
def noResponseText : Text := lit "No response requested."
def syntheticModel : Text := lit "<synthetic>"
def rateLimitError : Text := lit "rate_limit"

def toolResultMax : Nat := 20000
def toolInputMax : Nat := 4000

/-! ## Texts -/

def lineFeed : UInt16 := 10

/-- What ends a run that could be a key: `[\s"'=:,;&}\]\x60\\]`. -/
def isRunDelim (c : UInt16) : Bool :=
  Text.isWhiteSpace c || (lit "\"'=:,;&\x7d]\\").contains c || c == 0x60

/-- The last delimiter within 256 units before the cap, from `back` units before it on. -/
def cutFrom (s : Text) (max : Nat) : Nat → Nat
  | 0 => max
  | left + 1 =>
      let i := max - (256 - left)
      if i = 0 then max
      else if s[i]?.any isRunDelim then i
      else cutFrom s max left

def cutAt (s : Text) (max : Nat) : Nat := cutFrom s max 257

structure Cut where
  text : Text
  truncatedBytes : Nat

def byteLength (s : Text) : Nat := (Utf8.encode s).length

def truncate (s : Text) (max : Nat) : Cut :=
  if s.length ≤ max then ⟨s, 0⟩
  else
    let text := s.take (cutAt s max)
    ⟨text, byteLength s - byteLength text⟩

/-- `/\x1b\[[0-9;]*m/g` off. -/
def stripSgr : Nat → Text → Text
  | 0, text => text
  | _, [] => []
  | fuel + 1, c :: rest =>
      let after := (rest.drop 1).dropWhile fun d => Text.isDigit d || d == unit ';'
      if c = 0x1B ∧ rest.head? = some (unit '[') ∧ after.head? = some (unit 'm') then
        stripSgr fuel (after.drop 1)
      else c :: stripSgr fuel rest

/-- The text before and after the first occurrence of a mark. -/
def cutText (mark : Text) : Text → Option (Text × Text)
  | [] => if mark = [] then some ([], []) else none
  | c :: rest =>
      if Text.startsWith (c :: rest) mark then some ([], (c :: rest).drop mark.length)
      else (cutText mark rest).map fun (before, after) => (c :: before, after)

/-- `/^<local-command-stdout>([\s\S]*)<\/local-command-stdout>$/` -/
def commandStdout (content : Text) : Option Text :=
  let opening := lit "<local-command-stdout>"
  let closing := lit "</local-command-stdout>"
  if content.startsWith opening ∧ Text.endsWith (content.drop opening.length) closing then
    some ((content.drop opening.length).take
      (content.length - opening.length - closing.length))
  else none

structure EnvelopeMember where
  name : Text
  value : Text

def isLower (c : UInt16) : Bool := unit 'a' ≤ c && c ≤ unit 'z'

def isNameUnit (c : UInt16) : Bool := isLower c || Text.isDigit c || c == unit '-'

/-- `/<([a-z][a-z0-9-]*)>([\s\S]*?)<\/\1>/` at the start of a text. -/
def memberAt (text : Text) : Option (EnvelopeMember × Text) :=
  match text with
  | open_ :: first :: rest =>
      let name := first :: rest.takeWhile isNameUnit
      match rest.dropWhile isNameUnit with
      | close :: body =>
          if open_ = unit '<' ∧ isLower first ∧ close = unit '>' then
            (cutText (lit "</" ++ name ++ lit ">") body).map fun (value, after) =>
              (⟨name, value⟩, after)
          else none
      | [] => none
  | _ => none

/-- The members in arrival order and what stands outside them. -/
def envelopeParts : Nat → Text → List EnvelopeMember × Text
  | 0, text => ([], text)
  | _, [] => ([], [])
  | fuel + 1, c :: rest =>
      match memberAt (c :: rest) with
      | some (member, after) =>
          let (members, outside) := envelopeParts fuel after
          (member :: members, outside)
      | none =>
          let (members, outside) := envelopeParts fuel rest
          (members, c :: outside)

def envelopeMembers (text : Text) : Option (List EnvelopeMember) :=
  let t := text.trim
  if !t.startsWith (lit "<") then none
  else
    let (members, outside) := envelopeParts t.length t
    if members.isEmpty then none
    else if outside.trim = [] then some members
    else none

/-- What an envelope that the harness wrote reads as. -/
def harnessEnvelope (s : Text) : Option Text :=
  (envelopeMembers s).bind fun members =>
    match members.find? fun m => m.name == lit "command-name" with
    | some named => some (if named.value.trim = [] then s.trim else named.value.trim)
    | none => if members.any fun m => m.name == lit "task-notification" then some s.trim else none

/-- `/^\s*(?:\[[^\]]*]\s*)?This session is being continued from a previous conversation/` -/
def isCompaction (text : Text) : Bool :=
  let sentence := lit "This session is being continued from a previous conversation"
  let start := text.trimStart
  start.startsWith sentence ||
    (start.startsWith (lit "[") &&
      (Text.cut (unit ']') (start.drop 1)).any fun (_, after) => after.trimStart.startsWith sentence)

/-! ## Fields -/

def own (value : Json Number) (key : String) : Option (Json Number) := value.field? (lit key)

def textOf : Option (Json Number) → Option Text
  | some (.string text) => some text
  | _ => none

def isTrue : Option (Json Number) → Bool
  | some (.bool true) => true
  | _ => false

def ownText (value : Json Number) (key : String) : Option Text := textOf (own value key)

def isText (value : Option (Json Number)) (text : Text) : Bool := textOf value == some text

/-- A block's content, a string or text blocks, as one text. -/
def flattenContent : Option (Json Number) → Text
  | some (.string text) => text
  | some (.array blocks) =>
      Text.join [lineFeed] ((blocks.map fun b =>
        match b with
        | .string text => text
        | b => (ownText b "text").getD []).filter (· ≠ []))
  | _ => []

/-! ## Records -/

/-- The operator's message of a record that absorbs it mid-turn. -/
def absorbedPrompt (attachment : Option (Json Number)) : Option Text :=
  attachment.bind fun a =>
    if !isText (own a "type") (lit "queued_command") ∨
        !isText (own a "commandMode") (lit "prompt") then none
    else if !isText ((own a "origin").bind fun origin => own origin "kind") (lit "human") then none
    else (ownText a "prompt").filter fun prompt => prompt.trim != []

/-- The text of a text block that says something. -/
def blockText (block : Json Number) : Option Text :=
  if isText (own block "type") (lit "text") then
    (ownText block "text").filter fun text => text.trim != []
  else none

def userBlock (uuid ts : Text) (isMeta : Bool) (block : Json Number) : List ChatEvent :=
  if isText (own block "type") (lit "tool_result") then
    let cut := truncate (flattenContent (own block "content")) toolResultMax
    [.toolResult ts ((ownText block "tool_use_id").getD []) cut.text
      (isTrue (own block "is_error")) cut.truncatedBytes]
  else
    match blockText block with
    | some text =>
        if isMeta then [.system uuid ts text none none] else [.user uuid ts text false]
    | none => []

def userContent (uuid ts : Text) (isMeta : Bool) (content : Text) : List ChatEvent :=
  if content.startsWith (lit "<local-command-caveat>") then []
  else
    match harnessEnvelope content with
    | some envelope => [.system uuid ts envelope none none]
    | none =>
        match commandStdout content with
        | some stdout => [.system uuid ts (stripSgr stdout.length stdout).trim none none]
        | none =>
            if content.trim = [] then []
            else if isMeta then [.system uuid ts content none none]
            else [.user uuid ts content false]

def userEvents (uuid ts : Text) (isMeta : Bool) (content : Option (Json Number)) :
    List ChatEvent :=
  if isMeta ∧ (flattenContent content).trim.startsWith resumePromptPrefix then
    [.system uuid ts resumePromptPrefix (some .resumePrompt) none]
  else if !isMeta ∧ (flattenContent content).trim = idleCompactNudgePrompt then
    [.system uuid ts idleCompactNudgePrompt (some .idleCompactNudge) none]
  else
    match content with
    | some (.string text) => userContent uuid ts isMeta text
    | some (.array blocks) => blocks.flatMap (userBlock uuid ts isMeta)
    | _ => []

section Serialize

variable (serialize : Json Number → Text)

/-- `serialize` is the masked input's `JSON.stringify`, or empty where that throws. -/
def toolUseOf (uuid ts : Text) (block : Json Number) : List ChatEvent :=
  if isText (own block "type") (lit "tool_use") then
    let cut := truncate (serialize ((own block "input").getD .null)) toolInputMax
    [.toolUse uuid ts ((ownText block "id").getD []) ((ownText block "name").getD []) cut.text
      cut.truncatedBytes]
  else []

def assistantEvents (uuid ts : Text) (env : Json Number) (content : Option (Json Number)) :
    List ChatEvent :=
  if isTrue (own env "isApiErrorMessage") ∧ isText (own env "error") rateLimitError then
    let text := (flattenContent content).trim
    let resetsAt := match (own env "quotaLimits").bind fun q => own q "resetsAt" with
      | some (.number resetsAt) => some resetsAt
      | _ => none
    [.system uuid ts (if text = [] then lit "usage limit reached" else text) (some .limit) resetsAt]
  else if isText ((own env "message").bind fun m => own m "model") syntheticModel ∧
      (flattenContent content).trim = noResponseText then
    [.system uuid ts noResponseText (some .noResponse) none]
  else
    match content with
    | some (.array blocks) =>
        let texts := blocks.filterMap blockText
        let tools := blocks.flatMap (toolUseOf serialize uuid ts)
        if texts = [] then tools
        else .assistant uuid ts (Text.join [lineFeed] texts) false :: tools
    | some (.string text) => if text.trim = [] then [] else [.assistant uuid ts text false]
    | _ => []

/-- The events of one parsed record, before the compaction flag. -/
def eventsOfRecord (env : Json Number) : List ChatEvent :=
  if isTrue (own env "isSidechain") then []
  else
    let uuid := (ownText env "uuid").getD []
    let ts := (ownText env "timestamp").getD []
    let type := own env "type"
    if isText type (lit "attachment") then
      match absorbedPrompt (own env "attachment") with
      | none => []
      | some text => [.user uuid ts text false]
    else if isText type (lit "system") then
      let text := ((ownText env "content").getD []).trim
      if isText (own env "subtype") (lit "informational") ∧
          idleCompactNoticePrefixes.any (fun p => text.startsWith p) then
        [.system uuid ts text (some .idleCompact) none]
      else []
    else
      let content := (own env "message").bind fun m => own m "content"
      if isText type (lit "user") then userEvents uuid ts (isTrue (own env "isMeta")) content
      else if isText type (lit "assistant") then assistantEvents serialize uuid ts env content
      else []

def flagCompaction (isCompactSummary : Bool) : ChatEvent → ChatEvent
  | .user uuid ts text compaction =>
      .user uuid ts text (compaction || isCompactSummary || isCompaction text)
  | .assistant uuid ts text compaction =>
      .assistant uuid ts text (compaction || isCompactSummary || isCompaction text)
  | event => event

/-- A line that is no JSON, or no object, stands for nothing. -/
def parseTranscriptLine (line : Text) : List ChatEvent :=
  match Json.parse line with
  | some (.object fields) =>
      (eventsOfRecord serialize (.object fields)).map
        (flagCompaction (isTrue (own (.object fields) "isCompactSummary")))
  | some (.array items) =>
      (eventsOfRecord serialize (.array items)).map
        (flagCompaction (isTrue (own (.array items) "isCompactSummary")))
  | _ => []

end Serialize

end Ccrc.Transcript
