import Ccrc.Library.Lists
import Ccrc.Library.Utf8
import Ccrc.Shared.DelegationEvents

/-! The grammar of a delegation spool line: the reader of one complete raw line, bound
to a spool owner and an incarnation. -/

set_option autoImplicit false

namespace Ccrc.Coord

open Library Shared
open Library.Text (lit unit)

/-! ## Instants -/

def isLeapYear (year : Nat) : Bool := year % 4 == 0 && (year % 100 != 0 || year % 400 == 0)

def daysInMonth (year month : Nat) : Nat :=
  if month = 2 then if isLeapYear year then 29 else 28
  else if month = 4 ∨ month = 6 ∨ month = 9 ∨ month = 11 then 30
  else 31

/-- The days of the years before one, from the year 1970 on. -/
def daysBeforeYear (year : Nat) : Nat :=
  let leaps (before : Nat) := before / 4 - before / 100 + before / 400
  (year - 1970) * 365 + (leaps (year - 1) - leaps 1969)

def daysBeforeMonth (year month : Nat) : Nat :=
  ((List.range (month - 1)).map fun before => daysInMonth year (before + 1)).sum

/-- The number that the digits at a place spell. -/
def digitsAt (text : Text) (start count : Nat) : Option Nat :=
  let digits := (text.drop start).take count
  if digits.length = count ∧ digits.all Text.isDigit then some (Json.digitsValue digits) else none

/-- `YYYY-MM-DDTHH:MM:SS.mmmZ` to epoch milliseconds; none is a refusal. -/
def parseDelegationInstant (iso : Text) : Option Nat := do
  let year ← digitsAt iso 0 4
  let month ← digitsAt iso 5 2
  let day ← digitsAt iso 8 2
  let hour ← digitsAt iso 11 2
  let minute ← digitsAt iso 14 2
  let second ← digitsAt iso 17 2
  let milli ← digitsAt iso 20 3
  let marks := [4, 7, 10, 13, 16, 19, 23].map fun place => iso[place]?
  let inDate := 1970 ≤ year ∧ 1 ≤ month ∧ month ≤ 12 ∧ 1 ≤ day ∧ day ≤ daysInMonth year month
  if iso.length = 24 ∧ marks = (lit "--T::.Z").map some ∧ inDate ∧ hour < 24 ∧ minute < 60 ∧
      second < 60 then
    let days := daysBeforeYear year + daysBeforeMonth year month + (day - 1)
    return ((days * 24 + hour) * 60 + minute) * 60000 + second * 1000 + milli
  else none

example : parseDelegationInstant (lit "2026-10-14T00:15:00.000Z") = some 1791936900000 := by
  decide +kernel

/-! ## Refusals -/

inductive DelegationLineRejection where
  | blankLine | lineTooLong | invalidUtf8 | notAnObject | malformedJson | duplicateKey | badVersion
  | badEventKind | unknownKey | missingKey | badTimestamp | ownerMismatch | incarnationMismatch
  | badField
  deriving DecidableEq, Repr

def DelegationLineRejection.text : DelegationLineRejection → Text
  | .blankLine => lit "blank-line"
  | .lineTooLong => lit "line-too-long"
  | .invalidUtf8 => lit "invalid-utf8"
  | .notAnObject => lit "not-an-object"
  | .malformedJson => lit "malformed-json"
  | .duplicateKey => lit "duplicate-key"
  | .badVersion => lit "bad-version"
  | .badEventKind => lit "bad-event-kind"
  | .unknownKey => lit "unknown-key"
  | .missingKey => lit "missing-key"
  | .badTimestamp => lit "bad-timestamp"
  | .ownerMismatch => lit "owner-mismatch"
  | .incarnationMismatch => lit "incarnation-mismatch"
  | .badField => lit "bad-field"

abbrev LineRead (α : Type) : Type := Except DelegationLineRejection α

/-! ## Values -/

def isIdUnit (c : UInt16) : Bool :=
  Text.isDigit c || (unit 'A' ≤ c && c ≤ unit 'Z') || (unit 'a' ≤ c && c ≤ unit 'z') ||
    c == unit '_' || c == unit '-'

def isListingUnit (c : UInt16) : Bool :=
  isIdUnit c || c == unit '.' || c == unit '@' || c == unit '+'

def isUuid (text : Text) : Bool :=
  let hex (start count : Nat) := ((text.drop start).take count).all Text.isLowerHex
  text.length == 36 && hex 0 8 && text[8]? == some (unit '-') && hex 9 4 &&
    text[13]? == some (unit '-') && hex 14 4 && text[18]? == some (unit '-') && hex 19 4 &&
    text[23]? == some (unit '-') && hex 24 12

namespace SpoolValue

def string? : Json Number → LineRead Text
  | .string text => .ok text
  | .null | .bool _ | .number _ | .array _ | .object _ => .error .badField

/-- A text that UTF-8 can carry, within a bound of bytes. -/
def bounded (maxBytes : Nat) (nonempty : Bool) (value : Json Number) : LineRead Text := do
  let text ← string? value
  if ¬Utf8.isWellFormed text ∨ maxBytes < (Utf8.encode text).length ∨ nonempty ∧ text = [] then
    .error .badField
  else return text

def label : Json Number → LineRead Text := bounded DelegationSpoolBounds.labelBytes false

def requiredLabel : Json Number → LineRead Text := bounded DelegationSpoolBounds.labelBytes true

def path : Json Number → LineRead Text := bounded DelegationSpoolBounds.pathBytes false

def requiredPath : Json Number → LineRead Text := bounded DelegationSpoolBounds.pathBytes true

def id (value : Json Number) : LineRead Text := do
  let text ← string? value
  if text ≠ [] ∧ text.length ≤ DelegationSpoolBounds.idBytes ∧ text.all isIdUnit then return text
  else .error .badField

def nullable {α : Type} (read : Json Number → LineRead α) : Json Number → LineRead (Option α)
  | .null => .ok none
  | value => (read value).map some

/-- One word of a closed list. -/
def word {α : Type} (words : List (String × α)) (value : Json Number) : LineRead α := do
  let text ← string? value
  match words.find? fun entry => lit entry.1 == text with
  | some entry => return entry.2
  | none => .error .badField

def bool : Json Number → LineRead Bool
  | .bool value => .ok value
  | .null | .number _ | .string _ | .array _ | .object _ => .error .badField

def listingName (value : Json Number) : LineRead Text := do
  let text ← string? value
  if text ≠ [] ∧ text.length ≤ DelegationSpoolBounds.listingNameBytes ∧ text.all isListingUnit then
    return text
  else .error .badField

def listing : Json Number → LineRead (List Text)
  | .array items =>
      if DelegationSpoolBounds.listingNames < items.length then .error .badField
      else items.mapM listingName
  | .null | .bool _ | .number _ | .string _ | .object _ => .error .badField

end SpoolValue

open SpoolValue (bounded label requiredLabel path requiredPath nullable word)

/-- The keys are decided before any value is read. -/
def closedKeys (fields : List (Text × Json Number)) (required allowed : List Text) : LineRead Unit :=
  if fields.any fun field => decide (field.1 ∉ required ∧ field.1 ∉ allowed) then .error .unknownKey
  else if required.any fun key => decide (key ∉ fields.map (·.1)) then .error .missingKey
  else .ok ()

/-- A value of an object; an absent one is no value of any type. -/
def spoolField {α : Type} (raw : Json Number) (key : String) (read : Json Number → LineRead α) :
    LineRead α :=
  match raw.field? (lit key) with
  | some value => read value
  | none => .error .badField

/-- A value that is read only where its key is there. -/
def spoolField? {α : Type} (raw : Json Number) (key : String) (read : Json Number → LineRead α) :
    LineRead (Option α) :=
  match raw.field? (lit key) with
  | some value => (read value).map some
  | none => .ok none

def launchStatuses : List (String × DelegationLaunchStatus) :=
  [("async-launched", .asyncLaunched), ("completed", .completed)]

def agentOutcomes : List (String × DelegationAgentOutcome) :=
  [("completed", .completed), ("failed", .failed), ("async-launched", .asyncLaunched),
    ("unknown", .unknown)]

def bashOutcomes : List (String × DelegationBashOutcome) :=
  [("completed", .completed), ("failed", .failed), ("unknown", .unknown)]

def notificationStatuses : List (String × DelegationNotificationStatus) :=
  [("completed", .completed), ("failed", .failed), ("cancelled", .cancelled), ("unknown", .unknown)]

/-- A closed object within a line. -/
def closedObject (value : Json Number) (keys : List String) : LineRead Unit :=
  match value with
  | .object fields => closedKeys fields (keys.map lit) []
  | .null | .bool _ | .number _ | .string _ | .array _ => .error .badField

def readNotification (value : Json Number) : LineRead DelegationNotification := do
  closedObject value ["taskId", "toolUseId", "status"]
  let taskId ← spoolField value "taskId" SpoolValue.id
  let toolUseId ← spoolField value "toolUseId" SpoolValue.id
  let status ← spoolField value "status" (word notificationStatuses)
  return { taskId, toolUseId, status }

def readAgentLaunch (value : Json Number) : LineRead DelegationAgentLaunch := do
  closedObject value ["status", "agentId", "isAsync"]
  let status ← spoolField value "status" (word launchStatuses)
  let agentId ← spoolField value "agentId" SpoolValue.id
  let isAsync ← spoolField value "isAsync" SpoolValue.bool
  return { status, agentId, isAsync }

def readWorkflowLaunch (value : Json Number) : LineRead DelegationWorkflowLaunch := do
  closedObject value
    ["status", "taskId", "taskType", "workflowName", "runId", "transcriptDir", "scriptPath"]
  let status ← spoolField value "status" (word launchStatuses)
  let taskId ← spoolField value "taskId" SpoolValue.id
  let taskType ← spoolField value "taskType" requiredLabel
  let workflowName ← spoolField value "workflowName" requiredLabel
  let runId ← spoolField value "runId" SpoolValue.id
  let transcriptDir ← spoolField value "transcriptDir" requiredPath
  let scriptPath ← spoolField value "scriptPath" requiredPath
  return { status, taskId, taskType, workflowName, runId, transcriptDir, scriptPath }

/-! ## Variants -/

inductive SpoolVariant where
  | sessionStart | sessionEnd | subagentStart | subagentStop | userPromptSubmit
  | preAgentic | preBash | postAgent | postWorkflow | postBash
  deriving DecidableEq, Repr

def commonRequired : List String :=
  ["v", "eventKind", "observedAt", "sessionId", "parentIncarnation", "claudeSessionId"]

def commonOptional : List String :=
  ["claudeVersion", "cwd", "transcriptPath", "agentId", "agentType", "truncated"]

def SpoolVariant.required : SpoolVariant → List String
  | .sessionStart => ["source"]
  | .sessionEnd => ["reason"]
  | .subagentStart => ["agentId", "agentType"]
  | .subagentStop => ["agentId", "agentType", "agentTranscriptPath"]
  | .userPromptSubmit => ["notification"]
  | .preAgentic => ["toolName", "toolUseId", "isolation"]
  | .preBash => ["toolName", "toolUseId"]
  | .postAgent | .postWorkflow => ["toolName", "toolUseId", "outcome", "launch"]
  | .postBash => ["toolName", "toolUseId", "outcome"]

def SpoolVariant.optional : SpoolVariant → List String
  | .preBash | .postBash => ["listing"]
  | .sessionStart | .sessionEnd | .subagentStart | .subagentStop | .userPromptSubmit | .preAgentic
  | .postAgent | .postWorkflow => []

def hasText (value : Option (Json Number)) (text : String) : Bool :=
  match value with
  | some (.string given) => given == lit text
  | _ => false

/-- The variant that a line names by its kind and its tool. -/
def variantOf (raw : Json Number) : LineRead SpoolVariant :=
  let kind := raw.field? (lit "eventKind")
  let tool := raw.field? (lit "toolName")
  if kind.isNone then .error .missingKey
  else if hasText kind "SessionStart" then .ok .sessionStart
  else if hasText kind "SessionEnd" then .ok .sessionEnd
  else if hasText kind "SubagentStart" then .ok .subagentStart
  else if hasText kind "SubagentStop" then .ok .subagentStop
  else if hasText kind "UserPromptSubmit" then .ok .userPromptSubmit
  else if hasText kind "PreToolUse" then
    if tool.isNone then .error .missingKey
    else if hasText tool "Agent" || hasText tool "Task" || hasText tool "Workflow" then
      .ok .preAgentic
    else if hasText tool "Bash" then .ok .preBash
    else .error .badEventKind
  else if hasText kind "PostToolUse" then
    if tool.isNone then .error .missingKey
    else if hasText tool "Agent" || hasText tool "Task" then .ok .postAgent
    else if hasText tool "Workflow" then .ok .postWorkflow
    else if hasText tool "Bash" then .ok .postBash
    else .error .badEventKind
  else .error .badEventKind

def readBody (variant : SpoolVariant) (raw : Json Number) : LineRead DelegationLineBody := do
  match variant with
  | .sessionStart => return .sessionStart (← spoolField raw "source" requiredLabel)
  | .sessionEnd => return .sessionEnd (← spoolField raw "reason" requiredLabel)
  | .subagentStart =>
      let agentId ← spoolField raw "agentId" SpoolValue.id
      return .subagentStart agentId (← spoolField raw "agentType" (nullable label))
  | .subagentStop =>
      let agentId ← spoolField raw "agentId" SpoolValue.id
      let agentType ← spoolField raw "agentType" (nullable label)
      return .subagentStop agentId agentType (← spoolField raw "agentTranscriptPath" (nullable path))
  | .userPromptSubmit => return .userPromptSubmit (← spoolField raw "notification" readNotification)
  | .preAgentic =>
      let toolName ← spoolField raw "toolName"
        (word [("Agent", DelegationAgenticTool.agent), ("Task", .task), ("Workflow", .workflow)])
      let toolUseId ← spoolField raw "toolUseId" SpoolValue.id
      return .preAgentic toolName toolUseId (← spoolField raw "isolation" (nullable label))
  | .preBash =>
      let toolUseId ← spoolField raw "toolUseId" SpoolValue.id
      return .preBash toolUseId (← spoolField? raw "listing" SpoolValue.listing)
  | .postAgent =>
      let toolName ← spoolField raw "toolName"
        (word [("Agent", DelegationAgenticTool.agent), ("Task", .task)])
      let toolUseId ← spoolField raw "toolUseId" SpoolValue.id
      let outcome ← spoolField raw "outcome" (word agentOutcomes)
      return .postAgent toolName toolUseId outcome
        (← spoolField raw "launch" (nullable readAgentLaunch))
  | .postWorkflow =>
      let toolUseId ← spoolField raw "toolUseId" SpoolValue.id
      let outcome ← spoolField raw "outcome" (word agentOutcomes)
      return .postWorkflow toolUseId outcome
        (← spoolField raw "launch" (nullable readWorkflowLaunch))
  | .postBash =>
      let toolUseId ← spoolField raw "toolUseId" SpoolValue.id
      let outcome ← spoolField raw "outcome" (word bashOutcomes)
      return .postBash toolUseId outcome (← spoolField? raw "listing" SpoolValue.listing)

/-! ## The line -/

structure SpoolOwner where
  sessionId : Text
  parentIncarnation : Text
  deriving DecidableEq, Repr

def oneOf (read : Text) (accepts : Text → Bool) (rejection : DelegationLineRejection) :
    LineRead Unit :=
  if accepts read then .ok () else .error rejection

/-- The keys of a variant, and of the common ones those that it does not require. -/
def lineKeys (variant : SpoolVariant) (fields : List (Text × Json Number)) : LineRead Unit :=
  let required := commonRequired ++ variant.required
  closedKeys fields (required.map lit) ((commonOptional ++ variant.optional).map lit)

def readVersion (raw : Json Number) : LineRead Unit :=
  match raw.field? (lit "v") with
  | some (.number version) => if version.toInt? = some 1 then .ok () else .error .badVersion
  | _ => .error .badVersion

/-- The owner that a line names is the one it is read for. -/
def readOwner (raw : Json Number) (owner : SpoolOwner) : LineRead Unit := do
  let sessionId ← spoolField raw "sessionId" SpoolValue.string?
  oneOf sessionId (· == owner.sessionId) .ownerMismatch
  let incarnation ← spoolField raw "parentIncarnation" SpoolValue.string?
  oneOf incarnation isUuid .badField
  oneOf incarnation (· == owner.parentIncarnation) .incarnationMismatch

/-- The mark is there or it is not; it is never false. -/
def readTruncated : Json Number → LineRead Bool
  | .bool true => .ok true
  | .null | .bool false | .number _ | .string _ | .array _ | .object _ => .error .badField

/-- The parsed line, bound to its owner, or the code that refused it. -/
def readLine (raw : Json Number) (fields : List (Text × Json Number)) (owner : SpoolOwner) :
    LineRead DelegationSpoolLine := do
  let variant ← variantOf raw
  lineKeys variant fields
  readVersion raw
  let observedAt ← spoolField raw "observedAt" SpoolValue.string?
  oneOf observedAt (fun text => (parseDelegationInstant text).isSome) .badTimestamp
  readOwner raw owner
  let claudeVersion ← spoolField? raw "claudeVersion" label
  let cwd ← spoolField? raw "cwd" path
  let transcriptPath ← spoolField? raw "transcriptPath" path
  let agentId ← spoolField? raw "agentId" SpoolValue.id
  let agentType ← spoolField? raw "agentType" (nullable label)
  let truncated ← spoolField? raw "truncated" readTruncated
  let claudeSessionId ← spoolField raw "claudeSessionId" SpoolValue.id
  let body ← readBody variant raw
  return { observedAt, sessionId := owner.sessionId, parentIncarnation := owner.parentIncarnation
           claudeSessionId, claudeVersion, cwd, transcriptPath, agentId, agentType
           truncated := truncated.isSome, body }

/-! ## Duplicate keys -/

/-- Where a scan of a JSON text stands. -/
inductive JsonScan where
  | more (rest : Text)
  | duplicateKey
  | malformed
  deriving DecidableEq, Repr

def maxJsonDepth : Nat := 64

/-- A number is looked for in no more than 64 units. -/
def scanNumber (text : Text) : JsonScan :=
  match Json.parseNumber text with
  | some (_, rest) => if text.length - rest.length ≤ 64 then .more rest else .malformed
  | none => .malformed

def scanWord (text : Text) (spelled : String) : JsonScan :=
  if text.startsWith (lit spelled) then .more (text.drop (lit spelled).length) else .malformed

mutual

def scanValue : Nat → Nat → Text → JsonScan
  | 0, _, _ => .malformed
  | fuel + 1, depth, text =>
      if maxJsonDepth < depth then .malformed
      else match Json.skipSpace text with
        | [] => .malformed
        | c :: rest =>
            if c = unit '"' then
              match Json.parseString rest with
              | some (_, rest) => .more rest
              | none => .malformed
            else if c = unit '[' then
              match Json.skipSpace rest with
              | [] => .malformed
              | d :: after => if d = unit ']' then .more after else scanItems fuel depth rest
            else if c = unit '{' then
              match Json.skipSpace rest with
              | [] => .malformed
              | d :: after => if d = unit '}' then .more after else scanFields fuel depth [] rest
            else if c = unit 'n' then scanWord (c :: rest) "null"
            else if c = unit 't' then scanWord (c :: rest) "true"
            else if c = unit 'f' then scanWord (c :: rest) "false"
            else scanNumber (c :: rest)

def scanItems : Nat → Nat → Text → JsonScan
  | 0, _, _ => .malformed
  | fuel + 1, depth, text =>
      match scanValue fuel (depth + 1) text with
      | .more rest =>
          match Json.skipSpace rest with
          | [] => .malformed
          | d :: after =>
              if d = unit ',' then scanItems fuel depth after
              else if d = unit ']' then .more after
              else .malformed
      | stopped => stopped

def scanFields : Nat → Nat → List Text → Text → JsonScan
  | 0, _, _, _ => .malformed
  | fuel + 1, depth, keys, text =>
      match Json.skipSpace text with
      | [] => .malformed
      | c :: rest =>
          if c ≠ unit '"' then .malformed
          else match Json.parseString rest with
            | none => .malformed
            | some (key, rest) =>
                if key ∈ keys then .duplicateKey
                else match Json.skipSpace rest with
                  | [] => .malformed
                  | d :: after =>
                      if d ≠ unit ':' then .malformed
                      else match scanValue fuel (depth + 1) after with
                        | .more rest =>
                            match Json.skipSpace rest with
                            | [] => .malformed
                            | d :: after =>
                                if d = unit ',' then scanFields fuel depth (key :: keys) after
                                else if d = unit '}' then .more after
                                else .malformed
                        | stopped => stopped

end

/-- Whether a key repeats before anything that the scan does not read. -/
def repeatsKey (text : Text) : Bool :=
  scanValue (2 * text.length + 2) 0 text == .duplicateKey

/-- One complete raw line, without its newline. -/
def parseDelegationSpoolLine (rawLine : Bytes) (owner : SpoolOwner) :
    LineRead DelegationSpoolLine :=
  if rawLine = [] then .error .blankLine
  else if DelegationSpoolBounds.lineBytesBelow ≤ rawLine.length + 1 then .error .lineTooLong
  else match Utf8.decode rawLine with
    | none => .error .invalidUtf8
    | some textual =>
        match Json.parse textual with
        | none => .error .malformedJson
        | some (.object fields) =>
            if ¬textual.startsWith [unit '{'] ∨ ¬textual.endsWith [unit '}'] then
              .error .malformedJson
            else if repeatsKey textual then .error .duplicateKey
            else readLine (.object fields) fields owner
        | some _ => .error .notAnObject

end Ccrc.Coord
