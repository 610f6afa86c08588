import Ccrc.Transcript.Parse
import Ccrc.Transcript.Tail

/-! What one line of a transcript's tail says about where the session continued, and
what a window of it says: its newest line that decides. -/

set_option autoImplicit false

namespace Ccrc.Transcript

open Library
open Library.Text (lit unit)

/-! ## What counts as a turn -/

/-- From where a text starts: units that `inner` admits, and then `close`. -/
def reaches (close : Text) (inner : UInt16 → Bool) : Text → Bool
  | [] => close.isEmpty
  | c :: rest => Text.startsWith (c :: rest) close || (inner c && reaches close inner rest)

/-- `open`, units that `inner` admits, and `close`, anywhere in a text. -/
def encloses (opening close : Text) (inner : UInt16 → Bool) : Text → Bool
  | [] => false
  | c :: rest =>
      (Text.startsWith (c :: rest) opening &&
        reaches close inner ((c :: rest).drop opening.length)) ||
      encloses opening close inner rest

/-- `/<command-name>(.*?)<\/command-name>/` -/
def hasCommandName (text : Text) : Bool :=
  encloses (lit "<command-name>") (lit "</command-name>") Text.isDot text

/-- `/<bash-input>([\s\S]*?)<\/bash-input>/` -/
def hasBashInput (text : Text) : Bool :=
  encloses (lit "<bash-input>") (lit "</bash-input>") (fun _ => true) text

/-- `[\w-]` -/
def isTagUnit (c : UInt16) : Bool :=
  isLower c || (unit 'A' ≤ c && c ≤ unit 'Z') || Text.isDigit c || c == unit '_' || c == unit '-'

/-- `<[a-z][\w-]*[\s>]` -/
def startsTag : Text → Bool
  | c :: d :: rest =>
      c == unit '<' && isLower d &&
        (rest.dropWhile isTagUnit).head?.any fun e => Text.isWhiteSpace e || e == unit '>'
  | _ => false

/-- `/^(?:\s*<[a-z][\w-]*[\s>]|\[Request interrupted by user[^\]]*\])/` -/
def isNotAPrompt (text : Text) : Bool :=
  let notice := lit "[Request interrupted by user"
  startsTag (text.dropWhile Text.isWhiteSpace) ||
    (text.startsWith notice && (text.drop notice.length).contains (unit ']'))

def pastedLiteral : Text := lit "<pasted_content id=\""

/-- Whether one text block makes its record a prompt. -/
def promptText (text : Text) : Bool :=
  if Text.includes pastedLiteral text then true
  else
    let n := Text.trim (text.map fun c => if c = lineFeed then unit ' ' else c)
    if n = [] then false
    else if hasCommandName n then false
    else if hasBashInput n then true
    else !isNotAPrompt n

/-- An object to `typeof`: an array too, which has none of the fields that are read. -/
def isPlainObject : Json Number → Bool
  | .object _ | .array _ => true
  | .null | .bool _ | .number _ | .string _ => false

/-- The texts of a prompt's blocks; none where a tool's result is among them. -/
def blockTexts : List (Json Number) → Option (List Text)
  | [] => some []
  | b :: rest =>
      if !isPlainObject b then blockTexts rest
      else if isText (own b "type") (lit "tool_result") then none
      else if isText (own b "type") (lit "text") then
        (blockTexts rest).map fun texts => (ownText b "text").toList ++ texts
      else blockTexts rest

/-- A user record that Claude Code reads as a prompt. -/
def isPrompt (r : Json Number) : Bool :=
  if isTrue (own r "isMeta") || isTrue (own r "isCompactSummary") then false
  else
    match own r "message" with
    | none => false
    | some m =>
        if !isPlainObject m then false
        else
          match own m "content" with
          | some (.string c) => promptText c
          | some (.array c) => (blockTexts c).any fun texts => texts.any promptText
          | _ => false

/-- An assistant record that Claude Code reads as a finished turn. -/
def isCompleteAssistant (r : Json Number) : Bool :=
  match own r "isApiErrorMessage" with
  | none | some (.bool false) =>
      (own r "message").any fun m => isPlainObject m && (ownText m "stop_reason").isSome
  | some _ => false

/-! ## One line -/

/-- `/^[0-9a-f-]{36}$/` -/
def isUuidText (text : Text) : Bool :=
  text.length == 36 && text.all fun c => Text.isLowerHex c || c == unit '-'

def markerLiteral : Text := lit "\"type\":\"continued-in\""
def userLiteral : Text := lit "\"type\":\"user\""
def assistantLiteral : Text := lit "\"type\":\"assistant\""

inductive TailRecord where
  | successor (uuid : Text)
  | stop
  | skip
  deriving DecidableEq, Repr

/-- What an object's line says, given which of the literals it carries. -/
def verdictOf (r : Json Number) (markerish turnish : Bool) (ofUuid : Text) : TailRecord :=
  let turn :=
    if turnish && isText (own r "type") (lit "assistant") then
      if isCompleteAssistant r then .stop else .skip
    else if turnish && isText (own r "type") (lit "user") then
      if isPrompt r then .stop else .skip
    else .skip
  if markerish && isText (own r "type") (lit "continued-in") then
    match ownText r "continuedInSessionId" with
    | some uuid =>
        let authored := (own r "sessionId").all fun id => isText (some id) ofUuid
        if authored && isUuidText uuid && uuid != ofUuid then .successor uuid else .stop
    | none => turn
  else turn

def tailRecordOf (line ofUuid : Text) : TailRecord :=
  let markerish := Text.includes markerLiteral line
  let turnish := Text.includes userLiteral line || Text.includes assistantLiteral line
  if !markerish && !turnish then .skip
  else
    match Json.parse line with
    | none => .skip
    | some r => if isPlainObject r then verdictOf r markerish turnish ofUuid else .skip

/-! ## A window -/

/-- The loop of `continuationInTail`, over the lines from the newest on. -/
def continuationFrom (ofUuid : Text) : List Text → Option Text
  | [] => none
  | line :: older =>
      match tailRecordOf line ofUuid with
      | .skip => continuationFrom ofUuid older
      | .successor uuid => some uuid
      | .stop => none

/-- The session a transcript continues in, read from its tail window. -/
def continuationInTail (tail ofUuid : Text) : Option Text :=
  continuationFrom ofUuid (splitLines tail).reverse

/-- The loop of `finishedTurnDecides`. -/
def finishedTurnFrom (ofUuid : Text) : List Text → Bool
  | [] => false
  | line :: older =>
      match tailRecordOf line ofUuid with
      | .skip => finishedTurnFrom ofUuid older
      | .successor _ => false
      -- The line parsed where it decided, so it parses here.
      | .stop => (Json.parse line).any fun r => !isText (own r "type") (lit "continued-in")

/-- Whether the newest line that decides is a finished turn. -/
def finishedTurnDecides (tail ofUuid : Text) : Bool :=
  finishedTurnFrom ofUuid (splitLines tail).reverse

end Ccrc.Transcript
