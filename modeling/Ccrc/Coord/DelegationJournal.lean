import Ccrc.Coord.DelegationIngest
import Ccrc.Coord.DelegationJson
import Ccrc.Library.JsonSorted
import Ccrc.Library.NumberText

/-! The delegation journal: the closed grammar of its records, the two hashes of a record,
its line, and the chain that its records make. -/

set_option autoImplicit false

namespace Ccrc.Coord

open Library Shared
open Library.Text (lit unit)

/-- What the codec and the chain refuse. -/
inductive DelegationJournalErrorCode where
  | bom | crlf | blankLine | tornTail | missingFinalLf | invalidUtf8 | malformedJson | duplicateKey
  | unknownKey | badField | invalidDomain | noncanonical | sequenceDomain | sequenceStart
  | sequenceDuplicate | sequenceDescent | sequenceGap | previousDigest | journalIdMismatch
  | digestMismatch | anchorSequence | anchorJournalId | anchorDigest | anchorMissing
  deriving DecidableEq, Repr

/-- A `DelegationJournalError` by its code, or the error of the canonical encoding. -/
inductive DelegationJournalThrown where
  | refused (code : DelegationJournalErrorCode)
  | json (error : DelegationJsonError)
  deriving DecidableEq, Repr

abbrev JournalRead (α : Type) : Type := Except DelegationJournalErrorCode α

/-! ## Canonical encoding of what `JSON.parse` reads -/

/-- The canonical text of a number. -/
def canonNumber (place : Text) : Number → Except DelegationJsonError Text
  | .infinite _ => .error (place ++ lit " is not a finite number")
  | .finite negative significand exponent =>
      match (Number.finite negative significand exponent).toInt? with
      | some value =>
          if value.natAbs ≤ Number.maxSafeInteger.toNat then .ok (Text.ofInt value)
          else .error (place ++ lit " is an integer outside the JavaScript safe range")
      | none => .ok (Number.finiteText negative significand exponent)

mutual

/-- `canon`, of a value whose members are in order. -/
def canonValue (place : Text) : Json Number → Except DelegationJsonError Text
  | .null => .ok (lit "null")
  | .bool true => .ok (lit "true")
  | .bool false => .ok (lit "false")
  | .string text => (wellFormed text place).map Json.writeString
  | .number value => canonNumber place value
  | .array items => do
      let written ← canonValueItems place 0 items
      return lit "[" ++ Text.join (lit ",") written ++ lit "]"
  | .object fields => do
      let written ← canonValueFields place fields
      return lit "\x7b" ++ Text.join (lit ",") written ++ lit "\x7d"

def canonValueItems (place : Text) (index : Nat) :
    List (Json Number) → Except DelegationJsonError (List Text)
  | [] => .ok []
  | item :: rest => do
      let first ← canonValue (place ++ lit "[" ++ Text.ofNat index ++ lit "]") item
      return first :: (← canonValueItems place (index + 1) rest)

def canonValueFields (place : Text) :
    List (Text × Json Number) → Except DelegationJsonError (List Text)
  | [] => .ok []
  | (key, value) :: rest => do
      let name ← wellFormed key (place ++ lit " key")
      let member ← canonValue (place ++ lit "." ++ key) value
      return (Json.writeString name ++ lit ":" ++ member) :: (← canonValueFields place rest)

end

/-- `canonicalDelegationJson` of any value that JSON can hold. -/
def canonicalDelegationValue (value : Json Number) : Except DelegationJsonError Text :=
  canonValue (lit "$") value.sorted

def delegationSha256Hex (text : Text) : Except DelegationJsonError Text :=
  (wellFormed text (lit "the hashed text")).map fun text => sha256Hex (Utf8.encode text)

/-! ## The closed grammar -/

abbrev DelegationFields : Type := List (Text × Json Number)

def number (value : Int) : Json Number := .number (Number.ofInt value)

def textOrNull : Option Text → Json Number
  | some text => .string text
  | none => .null

/-- An extra key is unknown, and a missing one a bad field. -/
def exactKeys (fields : DelegationFields) (keys : List Text) : JournalRead Unit :=
  if fields.any fun field => decide (field.1 ∉ keys) then .error .unknownKey
  else if keys.any fun key => decide (key ∉ fields.map (·.1)) then .error .badField
  else .ok ()

/-- What the rebuilt entry takes of a value of the one read. -/
abbrev FieldReader : Type := Json Number → JournalRead (Json Number)

/-- A value that is taken as it is. -/
def kept (holds : Json Number → Bool) : FieldReader := fun value =>
  if holds value then .ok value else .error .badField

/-- A `null` that is taken beside what another reader takes. -/
def orNull (read : FieldReader) : FieldReader := fun value =>
  match value with
  | .null => .ok .null
  | _ => read value

def string? : Json Number → Option Text
  | .string text => some text
  | .null | .bool _ | .number _ | .array _ | .object _ => none

def stringHolds (holds : Text → Bool) : Json Number → Bool
  | .string text => holds text
  | .null | .bool _ | .number _ | .array _ | .object _ => false

def safeIntHolds (holds : Int → Bool) : Json Number → Bool
  | .number value => value.safeInt?.any holds
  | .null | .bool _ | .string _ | .array _ | .object _ => false

def nonEmptyString : FieldReader := kept (stringHolds (· ≠ []))

def hex64 : FieldReader := kept (stringHolds (Text.isHexOf 64))

def instant : FieldReader := kept (stringHolds fun text => (parseDelegationInstant text).isSome)

def positiveInt : FieldReader := kept (safeIntHolds (1 ≤ ·))

def memberOf (words : List Text) : FieldReader := kept (stringHolds (· ∈ words))

def stringValue : FieldReader := kept (stringHolds fun _ => true)

def zero : FieldReader := fun value =>
  if safeIntHolds (· = 0) value then .ok (number 0) else .error .badField

def hexList : FieldReader := kept fun value =>
  match value with
  | .array items => items.all (stringHolds (Text.isHexOf 64))
  | .null | .bool _ | .number _ | .string _ | .object _ => false

def takeField (value : Json Number) (row : Text × FieldReader) : JournalRead (Text × Json Number) :=
  match value.field? row.1 with
  | some held => (row.2 held).map fun taken => (row.1, taken)
  | none => .error .badField

/-- An object with exactly these keys, rebuilt field by field. -/
def rebuilt (table : List (Text × FieldReader)) : FieldReader := fun value =>
  match value with
  | .object fields => do
      exactKeys fields (table.map (·.1))
      return .object (← table.mapM (takeField value))
  | .null | .bool _ | .number _ | .string _ | .array _ => .error .badField

def attemptMarkOrNull : FieldReader :=
  orNull (rebuilt [(lit "attemptedAt", instant), (lit "attemptId", nonEmptyString)])

def delegationEventKinds : List Text :=
  [lit "SessionStart", lit "PreToolUse", lit "PostToolUse", lit "SubagentStart",
    lit "SubagentStop", lit "UserPromptSubmit", lit "SessionEnd"]

/-- The keys that the journal reads from an envelope; the others are kept as they are. -/
def isEventEnvelope (value : Json Number) : Bool :=
  let holds (key : Text) (read : Json Number → Bool) := (value.field? key).any read
  (match value with
    | .object _ => true
    | .null | .bool _ | .number _ | .string _ | .array _ => false) &&
  holds (lit "v") (safeIntHolds (· = 1)) &&
  holds (lit "eventKind") (stringHolds (· ∈ delegationEventKinds)) &&
  ([lit "sessionId", lit "parentIncarnation", lit "claudeSessionId", lit "eventId",
    lit "bucket"].all fun key => holds key (stringHolds (· ≠ []))) &&
  holds (lit "startOffset") (safeIntHolds fun start =>
    decide (0 ≤ start) && holds (lit "endOffset") (safeIntHolds (start < ·))) &&
  holds (lit "observedAt") (stringHolds fun text => (parseDelegationInstant text).isSome) &&
  ((value.field? (lit "agentId")).all (stringHolds fun _ => true))

def delegationLeaseSourceKinds : List Text := [lit "agent", lit "workflow", lit "raw", lit "attached"]

def delegationCarrierStates : List Text :=
  [lit "ephemeral", lit "adopted", lit "retained", lit "promoted", lit "transferring",
    lit "released"]

def delegationLeaseReleaseReasons : List Text :=
  [lit "native-removed", lit "transferred", lit "foreign"]

def delegationLeaseTransitionReasons : List Text :=
  [lit "carrier", lit "adopt", lit "retain", lit "operator-retain", lit "attach", lit "transfer",
    lit "transfer-refused", lit "transfer-recovered", lit "promote"]

def delegationLineageCloseReasons : List Text :=
  [lit "native-removed", lit "transferred", lit "foreign", lit "transfer"]

/-- The fields of an entry, after its kind. -/
def entryFields (kind : Text) : Option (List (Text × FieldReader)) :=
  if kind = lit "evidence-accepted" then some [(lit "event", kept isEventEnvelope)]
  else if kind = lit "lease-created" then
    some [(lit "leaseId", nonEmptyString), (lit "generation", zero), (lit "activityId", hex64),
      (lit "parentId", nonEmptyString), (lit "parentIncarnation", nonEmptyString),
      (lit "project", nonEmptyString), (lit "adminRecord", nonEmptyString),
      (lit "canonicalPath", nonEmptyString), (lit "creationBase", orNull nonEmptyString),
      (lit "sourceKind", memberOf delegationLeaseSourceKinds),
      (lit "correlationJournalIds", hexList), (lit "firstObservedAt", instant),
      (lit "lineageId", hex64)]
  else if kind = lit "lease-transition" then
    some [(lit "leaseId", nonEmptyString), (lit "generation", positiveInt),
      (lit "reason", memberOf delegationLeaseTransitionReasons),
      (lit "to", memberOf delegationCarrierStates), (lit "at", instant),
      (lit "expiresAt", orNull instant), (lit "terminalEvidenceAt", orNull instant),
      (lit "runId", orNull positiveInt), (lit "promotedSession", orNull nonEmptyString),
      (lit "auditEvidence", orNull stringValue),
      (lit "lineageClose", orNull (memberOf delegationLineageCloseReasons)),
      (lit "lineageOpenRun", orNull positiveInt), (lit "resolvesThrough", attemptMarkOrNull)]
  else if kind = lit "lease-released" then
    some [(lit "leaseId", nonEmptyString), (lit "generation", positiveInt),
      (lit "releaseReason", memberOf delegationLeaseReleaseReasons), (lit "at", instant),
      (lit "lastHeadSha", orNull nonEmptyString), (lit "resolvesThrough", attemptMarkOrNull)]
  else if kind = lit "lease-carrier-seen" then
    some [(lit "leaseId", nonEmptyString), (lit "generation", positiveInt), (lit "at", instant)]
  else none

def validateEntry : FieldReader := fun entry =>
  match entry.field? (lit "kind") with
  | some (.string kind) =>
      match entryFields kind with
      | some fields => rebuilt ((lit "kind", memberOf [kind]) :: fields) entry
      | none => .error .badField
  | _ => .error .badField

/-! ## Records -/

/-- What a record is hashed from. -/
structure DelegationJournalRecordFields where
  sequence : Int
  acceptedAt : Text
  previousDigest : Option Text
  entry : Json Number

structure DelegationJournalRecord extends DelegationJournalRecordFields where
  journalId : Text
  digest : Text

namespace DelegationJournalRecordFields

variable (fields : DelegationJournalRecordFields)

def delegationJournalId : Except DelegationJsonError Text := do
  delegationSha256Hex (← canonicalDelegationValue (.object
    [(lit "v", number 1), (lit "sequence", number fields.sequence),
      (lit "acceptedAt", .string fields.acceptedAt),
      (lit "previousDigest", textOrNull fields.previousDigest), (lit "entry", fields.entry)]))

def delegationJournalDigest (journalId : Text) : Except DelegationJsonError Text := do
  delegationSha256Hex (← canonicalDelegationValue (.object
    [(lit "v", number 1), (lit "sequence", number fields.sequence),
      (lit "journalId", .string journalId), (lit "acceptedAt", .string fields.acceptedAt),
      (lit "previousDigest", textOrNull fields.previousDigest), (lit "entry", fields.entry)]))

end DelegationJournalRecordFields

namespace DelegationJournalRecord

def json (record : DelegationJournalRecord) : Json Number :=
  .object [(lit "v", number 1), (lit "sequence", number record.sequence),
    (lit "journalId", .string record.journalId), (lit "acceptedAt", .string record.acceptedAt),
    (lit "previousDigest", textOrNull record.previousDigest), (lit "entry", record.entry),
    (lit "digest", .string record.digest)]

def keys : List Text :=
  [lit "v", lit "sequence", lit "journalId", lit "acceptedAt", lit "previousDigest", lit "entry",
    lit "digest"]

end DelegationJournalRecord

def isSequence (sequence : Int) : Bool := 1 ≤ sequence && sequence ≤ Number.maxSafeInteger

def isPreviousDigest (digest : Option Text) : Bool := digest.all (Text.isHexOf 64)

def thrown {α : Type} : Except DelegationJsonError α → Except DelegationJournalThrown α :=
  Except.mapError .json

def refused {α : Type} : JournalRead α → Except DelegationJournalThrown α := Except.mapError .refused

/-- A record with its two hashes computed. -/
def buildDelegationJournalRecord (fields : DelegationJournalRecordFields) :
    Except DelegationJournalThrown DelegationJournalRecord := do
  if ¬isSequence fields.sequence then .error (.refused .sequenceDomain)
  else if parseDelegationInstant fields.acceptedAt = none then .error (.refused .badField)
  else if ¬isPreviousDigest fields.previousDigest then .error (.refused .badField)
  else
    let entry ← refused (validateEntry fields.entry)
    let fields := { fields with entry }
    let journalId ← thrown fields.delegationJournalId
    let digest ← thrown (fields.delegationJournalDigest journalId)
    return { toDelegationJournalRecordFields := fields, journalId, digest }

/-- One record as it is written; its text and then a line feed. -/
def encodeDelegationJournalRecord (record : DelegationJournalRecord) :
    Except DelegationJsonError Bytes :=
  (canonicalDelegationValue record.json).map fun text => Utf8.encode text ++ [newline]

/-- The fields of a parsed record, in the order in which they are read. -/
def readRecord (value : Json Number) : JournalRead DelegationJournalRecord :=
  match value with
  | .object fields => do
      exactKeys fields DelegationJournalRecord.keys
      let held (key : String) := (value.field? (lit key)).getD .null
      if ¬safeIntHolds (· = 1) (held "v") then .error .badField
      match held "sequence" with
      | .number sequence =>
          match sequence.safeInt? with
          | some sequence =>
              if sequence < 1 then .error .sequenceDomain
              else
                let acceptedAt ← instant (held "acceptedAt")
                let previousDigest ← orNull hex64 (held "previousDigest")
                let journalId ← hex64 (held "journalId")
                let digest ← hex64 (held "digest")
                let entry ← validateEntry (held "entry")
                return {
                  sequence
                  acceptedAt := (string? acceptedAt).getD []
                  previousDigest := string? previousDigest
                  entry
                  journalId := (string? journalId).getD []
                  digest := (string? digest).getD [] }
          | none => .error .sequenceDomain
      | _ => .error .sequenceDomain
  | .null | .bool _ | .number _ | .string _ | .array _ => .error .badField

/-- One line, without its line feed, back into a record. -/
def decodeDelegationJournalLine (line : Bytes) : JournalRead DelegationJournalRecord :=
  if [0xEF, 0xBB, 0xBF].isPrefixOf line then .error .bom
  else if line = [] then .error .blankLine
  else if line.getLast? = some 0x0D then .error .crlf
  else
    match Utf8.decode line with
    | none => .error .invalidUtf8
    | some text =>
        match Json.parse text with
        | none => .error .malformedJson
        | some parsed => do
            let record ← readRecord parsed
            match canonicalDelegationValue record.json with
            | .error _ => .error .invalidDomain
            | .ok canonical =>
                -- The slower scan says which defect a text has that is not its own encoding.
                if canonical ≠ text then
                  .error (if repeatsKey text then .duplicateKey else .noncanonical)
                else if record.delegationJournalId ≠ .ok record.journalId then
                  .error .journalIdMismatch
                else if record.delegationJournalDigest record.journalId ≠ .ok record.digest then
                  .error .digestMismatch
                else return record

end Ccrc.Coord
