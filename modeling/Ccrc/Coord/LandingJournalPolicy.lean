import Ccrc.Coord.LandingWrites
import Ccrc.Coord.JournalKernel

/-! The authority journal's one strict reader, and the line that its writer appends.
The whole text is read or none of it: the first violation in file order answers. -/

set_option autoImplicit false

namespace Ccrc.Coord

open Library Shared

/-! ## The written line -/

def bindingJson : LandingHistoricalBinding → Json Int
  | .noRun => .object [(Text.lit "kind", .string (Text.lit "no-run"))]
  | .run observedRunId =>
      .object [(Text.lit "kind", .string (Text.lit "run")),
        (Text.lit "observedRunId", .number observedRunId)]

def subjectJson (ref : LandingSubjectRef) : Json Int :=
  .object [(Text.lit "id", .number ref.id), (Text.lit "project", .string ref.project),
    (Text.lit "pr", .number ref.pr), (Text.lit "binding", bindingJson ref.binding)]

/-- A record with its keys in the order in which it was built. -/
def recordJson (record : LandingJournalRecord) : Json Int :=
  let head := [(Text.lit "v", Json.number 1), (Text.lit "seq", .number record.seq),
    (Text.lit "at", .number record.atTime), (Text.lit "setBy", .string record.setBy),
    (Text.lit "subject", subjectJson record.subject)]
  match record.body with
  | .entry pinnedSha handoffCommit =>
      .object (head ++ [(Text.lit "kind", .string (Text.lit "entry")),
        (Text.lit "claim", .object [(Text.lit "pinnedSha", .string pinnedSha),
          (Text.lit "handoffCommit", .string handoffCommit)])])
  | .order after fixesMain =>
      .object (head ++ [(Text.lit "kind", .string (Text.lit "order")),
        (Text.lit "after", .array (after.map subjectJson)),
        (Text.lit "fixesMain", .bool fixesMain)])

/-- `JSON.stringify(record)`. -/
def recordLine (record : LandingJournalRecord) : Text := (recordJson record).write Text.ofInt

/-! ## One record -/

def hasExactKeys (value : Json Number) (keys : List Text) : Bool :=
  match value with
  | .object fields => fields.length == keys.length && keys.all fun key => fields.any (·.1 == key)
  | .null | .bool _ | .number _ | .string _ | .array _ => false

def bindingKeys : List Text := ["kind", "observedRunId"].map Text.lit

def subjectKeys : List Text := ["id", "project", "pr", "binding"].map Text.lit

def claimKeys : List Text := ["pinnedSha", "handoffCommit"].map Text.lit

def entryRecordKeys : List Text :=
  ["v", "seq", "at", "setBy", "subject", "kind", "claim"].map Text.lit

def orderRecordKeys : List Text :=
  ["v", "seq", "at", "setBy", "subject", "kind", "after", "fixesMain"].map Text.lit

/-- A text in a field of a record. -/
def textField? (value : Json Number) (key : Text) : Option Text :=
  match value.field? key with
  | some (.string text) => some text
  | _ => none

def positiveField? (value : Json Number) (key : Text) : Option Int :=
  (value.field? key).bind (safeNumberOf · 1)

def readBinding (value : Json Number) : Option LandingHistoricalBinding :=
  let kind := textField? value (Text.lit "kind")
  if kind = some (Text.lit "no-run") then
    if hasExactKeys value [Text.lit "kind"] then some .noRun else none
  else if kind = some (Text.lit "run") then
    if hasExactKeys value bindingKeys then
      (positiveField? value (Text.lit "observedRunId")).map .run
    else none
  else none

def readSubject (value : Json Number) : Option LandingSubjectRef :=
  if hasExactKeys value subjectKeys then do
    let id ← positiveField? value (Text.lit "id")
    let project ← (value.field? (Text.lit "project")).bind nonblankText?
    let pr ← positiveField? value (Text.lit "pr")
    let binding ← (value.field? (Text.lit "binding")).bind readBinding
    return { id, project, pr, binding }
  else none

/-- The targets of an order: of its project, apart from its subject, each once. -/
def readTargets (subject : LandingSubjectRef) : List Int → List (Json Number) →
    Option (List LandingSubjectRef)
  | _, [] => some []
  | seen, raw :: rest => do
      let ref ← readSubject raw
      if ref.project ≠ subject.project ∨ ref.id = subject.id ∨ ref.id ∈ seen then none
      else
        let after ← readTargets subject (ref.id :: seen) rest
        return ref :: after

def readClaim (value : Json Number) : Option LandingRecordBody :=
  if hasExactKeys value claimKeys then do
    let pinnedSha ← (value.field? (Text.lit "pinnedSha")).bind hashText?
    let handoffCommit ← (value.field? (Text.lit "handoffCommit")).bind hashText?
    return .entry pinnedSha handoffCommit
  else none

def readOrder (doc : Json Number) (subject : LandingSubjectRef) : Option LandingRecordBody :=
  match doc.field? (Text.lit "after"), doc.field? (Text.lit "fixesMain") with
  | some (.array items), some (.bool fixesMain) =>
      (readTargets subject [] items).map fun after => .order after fixesMain
  | _, _ => none

/-- The exact field shape of a record of one kind. -/
def readFields (kind : LandingWriteKind) (doc : Json Number) : Option LandingJournalRecord :=
  let keys := match kind with
    | .entry => entryRecordKeys
    | .order => orderRecordKeys
  if hasExactKeys doc keys then do
    let seq ← positiveField? doc (Text.lit "seq")
    let atTime ← (doc.field? (Text.lit "at")).bind (safeNumberOf · 0)
    let setBy ← (doc.field? (Text.lit "setBy")).bind nonblankText?
    let subject ← (doc.field? (Text.lit "subject")).bind readSubject
    let body ← match kind with
      | .entry =>
          ((doc.field? (Text.lit "claim")).bind readClaim).filter fun _ =>
            subject.binding == .noRun
      | .order => readOrder doc subject
    return { seq, atTime, setBy, subject, body }
  else none

def recordKind? (doc : Json Number) : Option LandingWriteKind :=
  match textField? doc (Text.lit "kind") with
  | some kind =>
      if kind = Text.lit "entry" then some .entry
      else if kind = Text.lit "order" then some .order
      else none
  | none => none

/-- One parsed value to a record: version, then kind, then the exact field shape. -/
def shape (doc : Json Number) : Except LandingJournalInvalidReason LandingJournalRecord :=
  match doc with
  | .object _ =>
      if positiveField? doc (Text.lit "v") ≠ some 1 then .error .version
      else match recordKind? doc with
        | none => .error .kind
        | some kind =>
            match readFields kind doc with
            | none => .error .fields
            | some record => .ok record
  | .null | .bool _ | .number _ | .string _ | .array _ => .error .fields

/-! ## The history -/

/-- Every identity the history has named, both ways. -/
structure Identities where
  byId : Map Int Text
  byKey : Map Text Int
  deriving DecidableEq, Repr

namespace Identities

def empty : Identities := ⟨[], []⟩

/-- `JSON.stringify([project, pr])`. -/
def key (project : Text) (pr : Int) : Text :=
  (Json.array [.string project, .number pr]).write Text.ofInt

def has (identities : Identities) (id : Int) : Bool := (identities.byId.get? id).isSome

/-- None where the mention contradicts the history. -/
def mention (identities : Identities) (ref : LandingSubjectRef) : Option Identities :=
  let key := key ref.project ref.pr
  if (identities.byId.get? ref.id).any (· ≠ key) then none
  else if (identities.byKey.get? key).any (· ≠ ref.id) then none
  else some { byId := identities.byId.set ref.id key, byKey := identities.byKey.set key ref.id }

end Identities

structure JournalHistory where
  records : List LandingJournalRecord
  identities : Identities
  deriving DecidableEq, Repr

/-- An entry record is a creation. -/
def introduces (record : LandingJournalRecord) : Bool :=
  match record.body with
  | .entry _ _ => true
  | .order _ _ => false

/-- One line after the records before it. An entry introduces an identity never
mentioned before, and every mention agrees with the history. -/
def readJournalLine (history : JournalHistory) (raw : Text) :
    Except LandingJournalInvalidReason JournalHistory :=
  if raw.trim = [] then .error .blank
  else match Json.parse raw with
    | none => .error .json
    | some doc => do
        let record ← shape doc
        if record.seq ≠ history.records.length + 1 then .error .sequence
        else if introduces record && history.identities.has record.subject.id then .error .identity
        else match record.mentions.foldlM Identities.mention history.identities with
          | none => .error .identity
          | some identities => .ok { records := history.records ++ [record], identities }

structure LandingJournalInvalid where
  reason : LandingJournalInvalidReason
  record : Option Int
  deriving DecidableEq, Repr

def readJournalLines (history : JournalHistory) : List Text →
    Except LandingJournalInvalid JournalHistory
  | [] => .ok history
  | raw :: rest =>
      match readJournalLine history raw with
      | .error reason => .error { reason, record := some (history.records.length + 1) }
      | .ok next => readJournalLines next rest

/-- The journal's one parse: its records, the last of which has their number. -/
def parseLandingJournal (text : Text) :
    Except LandingJournalInvalid (List LandingJournalRecord) :=
  if text = [] then .error { reason := .empty, record := none }
  else
    let framed := splitJournalRecords text
    match readJournalLines ⟨[], Identities.empty⟩ framed.records with
    | .error invalid => .error invalid
    | .ok history =>
        if framed.tail ≠ [] then
          .error { reason := .torn, record := some (framed.records.length + 1) }
        else .ok history.records

end Ccrc.Coord
