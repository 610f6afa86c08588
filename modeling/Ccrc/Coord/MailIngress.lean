import Ccrc.Coord.Envelope
import Ccrc.Library.Double
import Ccrc.Library.Utf8
import Ccrc.Shared.MailEnvelope

/-! A mail at the door: the checks of its shape and its size, the mails that pass them, and the
entry of an inbox. -/

set_option autoImplicit false

namespace Ccrc.Coord

open Library Shared
open Library.Text (lit unit)

def mailBodyMaxBytes : Nat := 8 * 1024
def mailSubjectMaxBytes : Nat := 200
def mailArtifactsMax : Nat := 64
def mailArtifactPathMaxBytes : Nat := 4096
def registryIdMaxChars : Nat := 255

/-- `Buffer.byteLength(text, 'utf8')`. -/
def byteLength (text : Text) : Nat := (Utf8.encode text).length

/-- `path.isAbsolute(path)`, where a path is absolute from its first unit on. -/
def isAbsolute (path : Text) : Bool := path.startsWith (lit "/")

def isSendableMailKind (kind : MailKind) : Bool := kind != .unknown

def isAlphanumeric (c : UInt16) : Bool :=
  (unit 'A' ≤ c && c ≤ unit 'Z') || (unit 'a' ≤ c && c ≤ unit 'z') || Text.isDigit c

/-- `^[A-Za-z0-9._-]+$`. -/
def isSessionIdShape (id : Text) : Bool :=
  !id.isEmpty && id.all fun c => isAlphanumeric c || (lit "._-").contains c

def isRegistryId (id : Text) : Bool :=
  decide (id.length ≤ registryIdMaxChars) && isSessionIdShape id && !id.startsWith (lit ".") &&
    !id.startsWith (lit "-")

/-- `^[A-Za-z0-9_-]+$`. -/
def isProgramSlug (slug : Text) : Bool :=
  !slug.isEmpty && slug.all fun c => isAlphanumeric c || (lit "_-").contains c

/-! ## The checks -/

/-- What a mail asks for, once its shape and its size pass. -/
structure MailDraft where
  fromId : Text
  fromUuid : Text
  toId : Text
  runId : Option Int
  kind : MailKind
  subject : Text
  body : Text
  artifacts : List Text
  deriving DecidableEq, Repr

/-- A refusal, and what its rejection row records of the mail. -/
structure MailRefusal where
  code : MailRejectCode
  detail : Text
  fromId : Option Text
  toId : Option Text
  kind : Option MailKind
  subject : Option Text
  runId : Option Int
  deriving DecidableEq, Repr

def text? : Option (Json Double) → Option Text
  | some (.string text) => some text
  | _ => none

/-- An absent list is the empty one. -/
def absolutePaths : Option (Json Double) → Option (List Text)
  | none => some []
  | some (.array items) => items.mapM fun item => (text? (some item)).filter isAbsolute
  | _ => none

/-- An absent run is none; a run is a positive whole number. -/
def readRunId : Option (Json Double) → Option (Option Int)
  | none => some none
  | some .null => some none
  | some (.number number) => (number.toInt?.filter (1 ≤ ·)).map some
  | _ => none

def sendableKind (kind : Option (Json Double)) : Option MailKind :=
  ((text? kind).bind isMailKind).filter isSendableMailKind

/-- Check 4: the caps, in bytes of UTF-8. -/
def checkSizes (draft : MailDraft) : Except MailRefusal MailDraft :=
  let refuse (detail : Text) : Except MailRefusal MailDraft :=
    .error ⟨.oversize, detail, some draft.fromId, some draft.toId, some draft.kind,
      some draft.subject, draft.runId⟩
  if byteLength draft.body > mailBodyMaxBytes then
    refuse (lit "body exceeds " ++ Text.ofNat mailBodyMaxBytes ++ lit " bytes")
  else if byteLength draft.subject > mailSubjectMaxBytes then
    refuse (lit "subject exceeds " ++ Text.ofNat mailSubjectMaxBytes ++ lit " bytes")
  else if draft.artifacts.length > mailArtifactsMax then
    refuse (lit "artifacts exceeds " ++ Text.ofNat mailArtifactsMax ++ lit " entries")
  else if draft.artifacts.any fun path => decide (byteLength path > mailArtifactPathMaxBytes) then
    refuse (lit "an artifact path exceeds " ++ Text.ofNat mailArtifactPathMaxBytes ++
      lit " bytes")
  else .ok draft

/-- Checks 2 to 4 of `POST /api/mail`; `spelled` is `JSON.stringify` in a message. -/
def checkMail (spelled : Option (Json Double) → Text) (body : Json Double) :
    Except MailRefusal MailDraft :=
  match text? (body.field? (lit "fromId")), text? (body.field? (lit "fromUuid")),
      text? (body.field? (lit "toId")), text? (body.field? (lit "subject")),
      text? (body.field? (lit "body")) with
  | some fromId, some fromUuid, some toId, some subject, some msgBody =>
      match absolutePaths (body.field? (lit "artifacts")) with
      | none =>
          .error ⟨.badKind, lit "artifacts must be an array of absolute paths — paths, never " ++
            lit "payloads (spec:52-53)", some fromId, some toId, none, some subject, none⟩
      | some artifacts =>
          match readRunId (body.field? (lit "runId")) with
          | none =>
              .error ⟨.badKind, lit "runId must be a positive integer when given", some fromId,
                some toId, none, some subject, none⟩
          | some runId =>
              match sendableKind (body.field? (lit "kind")) with
              | none =>
                  .error ⟨.badKind, lit "unrecognised or missing mail kind: " ++
                    spelled (body.field? (lit "kind")), some fromId, some toId, none,
                    some subject, runId⟩
              | some kind =>
                  checkSizes ⟨fromId, fromUuid, toId, runId, kind, subject, msgBody, artifacts⟩
  | fromId, _, toId, _, _ =>
      .error ⟨.badKind, lit "fromId/fromUuid/toId/subject/body must all be strings", fromId, toId,
        none, none, none⟩

/-! ## The mails that pass -/

/-- What a row of runs gives to an envelope. -/
structure RunOfMail where
  id : Nat
  program : Option Text
  wave : Option Nat
  waveOf : Option Nat
  slug : ∀ program' ∈ program, isProgramSlug program' = true
  waved : wave.isSome = true → program.isSome = true
  totalled : waveOf.isSome = true → wave.isSome = true

/-- A mail that passed the checks and whose sender and recipient the registry has. -/
structure AdmittedMail where
  draft : MailDraft
  checked : ∃ spelled body, checkMail spelled body = .ok draft
  sender : isRegistryId draft.fromId = true
  /-- The recipient, where a role stands in the draft. -/
  toId : Text
  recipient : isRegistryId toId = true
  run : Option RunOfMail
  ran : draft.runId = run.map fun row => (row.id : Int)

/-- What the envelope of a delivery is rendered from. -/
def AdmittedMail.input (mail : AdmittedMail) (deliveryId : Nat) : EnvelopeInput where
  id := deliveryId
  fromId := mail.draft.fromId
  toId := mail.toId
  runId := mail.run.map (·.id)
  program := mail.run.bind (·.program)
  wave := (mail.run.bind (·.wave)).map Int.ofNat
  waveOf := (mail.run.bind (·.waveOf)).map Int.ofNat
  kind := mail.draft.kind
  subject := mail.draft.subject
  body := mail.draft.body
  artifacts := mail.draft.artifacts

/-- The same fields, as they are read back. -/
def EnvelopeInput.envelope (input : EnvelopeInput) : MailEnvelope where
  id := input.id
  fromId := input.fromId
  toId := input.toId
  runId := input.runId
  program := input.program
  wave := input.wave
  waveOf := input.waveOf
  kind := input.kind
  subject := input.subject
  artifacts := input.artifacts
  body := input.body

/-! ## The inbox -/

def mailInboxFenceInfo : Text := lit "ccrc-inbox"

def inboxRunLine (envelope : MailEnvelope) : List Text :=
  match envelope.runId with
  | none => []
  | some runId =>
      let wave := match envelope.wave with
        | none => []
        | some wave => lit " wave " ++ Text.ofInt wave ++ match envelope.waveOf with
            | none => []
            | some waveOf => lit "/" ++ Text.ofInt waveOf
      let program := match envelope.program with
        | none => []
        | some program => lit " (program:" ++ program ++ wave ++ lit ")"
      [lit "run: " ++ Text.ofNat runId ++ program]

/-- The print of an envelope: without its acknowledgement, under its delivery's id. -/
def inboxPrint (deliveryId : Nat) (envelope : MailEnvelope) : Text :=
  let lines :=
    [lit "delivery: " ++ Text.ofNat deliveryId, lit "from: " ++ envelope.fromId,
      lit "to: " ++ envelope.toId, lit "kind: " ++ envelope.kind.text,
      lit "subject: " ++ envelope.subject] ++
    inboxRunLine envelope ++ artifactLines envelope.artifacts ++ [lit "--"]
  let newline := lit "\n"
  let head := Text.join newline lines
  let fence := fenceFor (head ++ newline ++ envelope.body)
  fence ++ mailInboxFenceInfo ++ newline ++ head ++ newline ++ envelope.body ++ newline ++ fence

/-- An envelope that does not parse is printed as it is. -/
def renderInboxEntry (deliveryId : Nat) (storedEnvelope : Text) : Text :=
  match parseMailEnvelope storedEnvelope with
  | .ok envelope => inboxPrint deliveryId envelope
  | _ => storedEnvelope

end Ccrc.Coord
