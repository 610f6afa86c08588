import Ccrc.Shared.Mail

/-! The envelope of a delivery: rendered once, when the delivery is queued. -/

set_option autoImplicit false

namespace Ccrc.Coord

open Library Shared

structure EnvelopeInput where
  /-- The delivery's own id, never its mail's. -/
  id : Nat
  fromId : Text
  toId : Text
  runId : Option Nat
  program : Option Text
  wave : Option Int
  waveOf : Option Int
  kind : MailKind
  subject : Text
  body : Text
  artifacts : List Text
  deriving DecidableEq, Repr

def fenceUnit : UInt16 := 96

/-- The longest run of fence units in a text. -/
def longestFence (text : Text) : Nat :=
  (text.foldl (fun (current, longest) character =>
    if character = fenceUnit then (current + 1, max longest (current + 1)) else (0, longest))
    (0, 0)).2

/-- A fence that no run inside the text can close. -/
def fenceFor (text : Text) : Text := List.replicate (max 3 (longestFence text + 1)) fenceUnit

def runLine (input : EnvelopeInput) : List Text :=
  match input.runId with
  | none => []
  | some runId =>
      let wave := match input.wave with
        | none => []
        | some wave => Text.lit " wave " ++ Text.ofInt wave ++ match input.waveOf with
            | none => []
            | some waveOf => Text.lit "/" ++ Text.ofInt waveOf
      let program := match input.program with
        | none => []
        | some program => Text.lit " (program:" ++ program ++ wave ++ Text.lit ")"
      [Text.lit "run: " ++ Text.ofNat runId ++ program]

def artifactLines (artifacts : List Text) : List Text :=
  if artifacts = [] then []
  else Text.lit "artifacts:" :: artifacts.map fun path => Text.lit "  " ++ path

def ackLines (id : Nat) : List Text :=
  [Text.lit "ack: ccrc-api mail ack " ++ Text.ofNat id ++ Text.lit " --json -   (" ++
      Text.ofNat id ++ Text.lit " is this DELIVERY id, not the",
    Text.lit "  mail row's own id) with body \x7b\"fromId\":\"<your ccd id>\",\"fromUuid\":\"<your uuid>\"\x7d.",
    Text.lit "  Until you ack, this message is redelivered on later sweeps, up to a bounded number of",
    Text.lit "  attempts — after that the lane gives up and marks it undeliverable. Ack it promptly.",
    Text.lit "--"]

def renderEnvelope (input : EnvelopeInput) : Text :=
  let lines :=
    [Text.lit "id: " ++ Text.ofNat input.id, Text.lit "from: " ++ input.fromId,
      Text.lit "to: " ++ input.toId] ++
    runLine input ++
    [Text.lit "kind: " ++ input.kind.text, Text.lit "subject: " ++ input.subject] ++
    artifactLines input.artifacts ++ ackLines input.id
  let newline := Text.lit "\n"
  let head := Text.join newline lines
  let fence := fenceFor (head ++ newline ++ input.body)
  fence ++ mailEnvelopeFence ++ newline ++ head ++ newline ++ input.body ++ newline ++ fence

end Ccrc.Coord
