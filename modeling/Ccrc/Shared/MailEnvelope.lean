import Ccrc.Library.Json
import Ccrc.Shared.Mail

/-! A delivered mail, read back out of its envelope. The header is walked in the order in which
it is rendered, and refused at the first line that does not fit. -/

set_option autoImplicit false

namespace Ccrc.Shared

open Library
open Library.Text (lit unit)

structure MailEnvelope where
  id : Nat
  fromId : Text
  toId : Text
  runId : Option Nat
  program : Option Text
  wave : Option Int
  waveOf : Option Int
  kind : MailKind
  subject : Text
  artifacts : List Text
  body : Text
  deriving DecidableEq, Repr

/-- `malformed` names the line that does not fit; line 0 is the opening fence. -/
inductive MailEnvelopeParse where
  | ok (envelope : MailEnvelope)
  | notMail
  | malformed (line : Nat)
  deriving DecidableEq, Repr

namespace MailEnvelope

def newline : UInt16 := 0x0A

def backtick : UInt16 := 0x60

def indent : Text := lit "  "

/-- What a dot of a regular expression does not match. -/
def isLineTerminator (c : UInt16) : Bool :=
  c == newline || c == 0x0D || c == 0x2028 || c == 0x2029

/-- `^.*$`. -/
def isPlain (text : Text) : Bool := text.all fun c => !isLineTerminator c

/-! ## Lines -/

/-- What follows a lead. -/
def afterLead (lead line : Text) : Option Text :=
  if line.startsWith lead then some (line.drop lead.length) else none

/-- `^\d+$`. -/
def readDigits (text : Text) : Option Nat :=
  if text ≠ [] ∧ text.all Text.isDigit then some (Json.digitsValue text) else none

/-- A lead and then `.+`. -/
def readNonempty (lead line : Text) : Option Text :=
  (afterLead lead line).filter fun rest => !rest.isEmpty && isPlain rest

def readId (line : Text) : Option Nat := (afterLead (lit "id: ") line).bind readDigits

def readFrom : Text → Option Text := readNonempty (lit "from: ")

def readTo : Text → Option Text := readNonempty (lit "to: ")

def readKind (line : Text) : Option MailKind := (readNonempty (lit "kind: ") line).bind isMailKind

/-- An empty subject is legal. -/
def readSubject (line : Text) : Option Text := (afterLead (lit "subject: ") line).filter isPlain

/-- `^(?: wave (\d+)(?:\/(\d+))?)?$`. -/
def readWave (text : Text) : Option (Option Int × Option Int) :=
  if text = [] then some (none, none)
  else
    (afterLead (lit " wave ") text).bind fun rest =>
      match readDigits (rest.takeWhile Text.isDigit), rest.dropWhile Text.isDigit with
      | none, _ => none
      | some wave, [] => some (some (Int.ofNat wave), none)
      | some wave, c :: total =>
          if c = unit '/' then
            (readDigits total).map fun waveOf => (some (Int.ofNat wave), some (Int.ofNat waveOf))
          else none

/-- `^(.+?)(?: wave (\d+)(?:\/(\d+))?)?$`: the shortest program that leaves a wave. -/
def readProgram (taken : Text) : Text → Option (Text × Option Int × Option Int)
  | [] => if taken = [] then none else some (taken, none, none)
  | c :: rest =>
      match if taken = [] then none else readWave (c :: rest) with
      | some (wave, waveOf) => some (taken, wave, waveOf)
      | none => if isLineTerminator c then none else readProgram (taken ++ [c]) rest

structure RunFields where
  runId : Option Nat
  program : Option Text
  wave : Option Int
  waveOf : Option Int
  deriving DecidableEq, Repr

def noRun : RunFields := ⟨none, none, none, none⟩

/-- ` \((.+)\)$`. -/
def readParens (text : Text) : Option Text :=
  (afterLead (lit " (") text).bind fun rest =>
    if rest.getLast? = some (unit ')') then
      some rest.dropLast |>.filter fun inner => !inner.isEmpty && isPlain inner
    else none

def readRun (line : Text) : Option RunFields :=
  (afterLead (lit "run: ") line).bind fun rest =>
    match readDigits (rest.takeWhile Text.isDigit), rest.dropWhile Text.isDigit with
    | none, _ => none
    | some runId, [] => some ⟨some runId, none, none, none⟩
    | some runId, after =>
        ((readParens after).bind (afterLead (lit "program:"))).bind fun inner =>
          (readProgram [] inner).map fun (program, wave, waveOf) =>
            ⟨some runId, some program, wave, waveOf⟩

/-! ## The walk -/

/-- The index of a line, and the lines from it to the closing fence. -/
structure Cursor where
  line : Nat
  rest : List Text

/-- The line at the cursor, or the empty text at the closing fence. -/
def Cursor.current (cursor : Cursor) : Text := cursor.rest.headD []

def Cursor.skip (cursor : Cursor) (count : Nat) : Cursor :=
  ⟨cursor.line + count, cursor.rest.drop count⟩

/-- The indented lines at the cursor. -/
def Cursor.indented (cursor : Cursor) : List Text :=
  cursor.rest.takeWhile (·.startsWith indent)

def readLine {α : Type} (read : Text → Option α) (cursor : Cursor) : Except Nat (α × Cursor) :=
  match read cursor.current with
  | none => .error cursor.line
  | some value => .ok (value, cursor.skip 1)

/-- The run line is optional; one that starts as such and does not fit is refused. -/
def readRunLine (cursor : Cursor) : Except Nat (RunFields × Cursor) :=
  if cursor.current.startsWith (lit "run:") then readLine readRun cursor else .ok (noRun, cursor)

/-- The marker stands only before an indented path. -/
def readArtifacts (cursor : Cursor) : Except Nat (List Text × Cursor) :=
  if cursor.current = lit "artifacts:" then
    let paths := (cursor.skip 1).indented
    if paths = [] then .error cursor.line
    else .ok (paths.map (·.drop indent.length), (cursor.skip 1).skip paths.length)
  else .ok ([], cursor)

/-- The acknowledgement and its indented lines, whatever their words, and then the terminator. -/
def readAck (cursor : Cursor) : Except Nat Cursor :=
  if cursor.current.startsWith (lit "ack: ") then
    let closing := (cursor.skip 1).skip (cursor.skip 1).indented.length
    if closing.current = lit "--" then .ok (closing.skip 1) else .error closing.line
  else .error cursor.line

def readHeader (cursor : Cursor) : Except Nat MailEnvelope := do
  let (id, cursor) ← readLine readId cursor
  let (fromId, cursor) ← readLine readFrom cursor
  let (toId, cursor) ← readLine readTo cursor
  let (run, cursor) ← readRunLine cursor
  let (kind, cursor) ← readLine readKind cursor
  let (subject, cursor) ← readLine readSubject cursor
  let (artifacts, cursor) ← readArtifacts cursor
  let cursor ← readAck cursor
  return { id, fromId, toId, runId := run.runId, program := run.program, wave := run.wave,
           waveOf := run.waveOf, kind, subject, artifacts,
           body := Text.join [newline] cursor.rest }

end MailEnvelope

open MailEnvelope in
/-- The fence is the whole text: nothing stands outside it. -/
def parseMailEnvelope (text : Text) : MailEnvelopeParse :=
  let trimmed := text.trim
  if !trimmed.startsWith (List.replicate 3 backtick) then .notMail
  else
    let lines := trimmed.splitOn newline
    let opener := lines.headD []
    let fence := opener.takeWhile (· == backtick)
    if fence.length < 3 || opener.dropWhile (· == backtick) != mailEnvelopeFence then .notMail
    else if lines.length < 2 || lines.getLast? != some fence then .notMail
    else
      match readHeader ⟨1, lines.tail.dropLast⟩ with
      | .error line => .malformed line
      | .ok envelope => .ok envelope

end Ccrc.Shared
