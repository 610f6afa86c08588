import Ccrc.Library.Double
import Ccrc.Library.JsonCopy
import Ccrc.Shared.ModelAdvance

/-! A lane's advance file: for each class the family it follows, its hold, its previous pin and
its last moves, and one intent that is not settled yet. Keys that are not known are kept. -/

set_option autoImplicit false

namespace Ccrc.Shared

open Library
open Library.Text (lit unit)

/-- A JSON value of the file. -/
abbrev Value : Type := Json Double

def ModelClass.text : ModelClass → Text
  | .haiku => lit "haiku"
  | .sonnet => lit "sonnet"
  | .opus => lit "opus"
  | .fable => lit "fable"

def classNamed (word : Text) : Option ModelClass := classes.find? (·.text == word)

def advanceVersion : Int := 1
def historyCap : Nat := 10
def reasonMax : Nat := 200
def hows : List Text := [lit "advance", lit "revert", lit "hand"]
def canaryResults : List Text := [lit "passed", lit "failed", lit "not-run"]
def holdBy : List Text := [lit "hand", lit "revert"]

structure AdvanceInvalid where
  field : Text
  message : Text
  deriving DecidableEq, Repr

/-! ## Values -/

/-- `JSON.parse(JSON.stringify(value))`, and so also what is parsed of a file written from it. -/
def copy : Value → Value := Json.reread Double.reread

def isObj (value : Option Value) : Bool := value.any (·.isObject)

def isNull : Option Value → Bool
  | some .null => true
  | _ => false

def text? : Option Value → Option Text
  | some (.string text) => some text
  | _ => none

/-- A text or null. -/
def readId : Option Value → Option (Option Text)
  | some .null => some none
  | some (.string text) => some (some text)
  | _ => none

def ofId : Option Text → Value
  | none => .null
  | some text => .string text

def isOneOf (words : List Text) (value : Option Value) : Bool := (text? value).any words.contains

/-- A time by its template, in which `d` stands for a digit. -/
def isAtText : Text → Text → Bool
  | [], [] => true
  | form :: forms, c :: rest =>
      (if form = unit 'd' then Text.isDigit c else decide (c = form)) && isAtText forms rest
  | _, _ => false

/-- `^\d{4}-\d{2}-\d{2}T\d{2}:\d{2}:\d{2}Z$`. -/
def isAt (value : Option Value) : Bool :=
  (text? value).any (isAtText (lit "dddd-dd-ddTdd:dd:ddZ"))

def isAlphanumeric (c : UInt16) : Bool :=
  isLower c || (unit 'A' ≤ c && c ≤ unit 'Z') || Text.isDigit c

/-- `^[A-Za-z0-9][-A-Za-z0-9._:/]{0,127}$`. -/
def isModelId : Text → Bool
  | [] => false
  | first :: rest =>
      isAlphanumeric first &&
        rest.all (fun c => isAlphanumeric c || (lit "-._:/").contains c) &&
        decide (rest.length ≤ 127)

def isIdOrNull (value : Option Value) : Bool :=
  match readId value with
  | none => false
  | some none => true
  | some (some id) => isModelId id

def isLevelOrNull (value : Option Value) : Bool :=
  match readId value with
  | none => false
  | some none => true
  | some (some level) => decide (level ≠ [])

def isBoolean : Option Value → Bool
  | some (.bool _) => true
  | _ => false

def isPrintable (c : UInt16) : Bool := 0x20 ≤ c && c ≤ 0x7e

def isReason (value : Option Value) : Bool :=
  (text? value).any fun reason => reason.all isPrintable && decide (reason.length ≤ reasonMax)

/-- A whole number. -/
def integer? : Option Value → Option Int
  | some (.number double) => double.toInt?
  | _ => none

/-! ## The checks -/

/-- Refuses a field that does not hold what it must. -/
def require (holds : Bool) (field what : Text) : Except AdvanceInvalid Unit :=
  if holds then .ok () else .error ⟨field, field ++ lit " " ++ what⟩

def checkAll {α : Type} (check : α → Except AdvanceInvalid Unit) :
    List α → Except AdvanceInvalid Unit
  | [] => .ok ()
  | item :: rest => do
      check item
      checkAll check rest

def timeForm : Text := lit "is not a time of the form YYYY-MM-DDTHH:MM:SSZ."

def notOneOf (words : List Text) : Text :=
  lit "is not one of " ++ Text.join (lit ", ") words ++ lit "."

def isFailedAdvance (e : Value) : Bool :=
  isOneOf [lit "advance"] (e.field? (lit "how")) &&
    (match e.field? (lit "ok") with
    | some (.bool false) => true
    | _ => false)

def isEffort (effort : Option Value) : Bool :=
  isObj effort && isLevelOrNull (effort.bind (·.field? (lit "from"))) &&
    isLevelOrNull (effort.bind (·.field? (lit "to")))

def checkEntry (e : Value) (f : Text) : Except AdvanceInvalid Unit := do
  require e.isObject f (lit "is not an object.")
  require (isAt (e.field? (lit "at"))) (f ++ lit ".at") timeForm
  require (isOneOf hows (e.field? (lit "how"))) (f ++ lit ".how") (notOneOf hows)
  require (isIdOrNull (e.field? (lit "from"))) (f ++ lit ".from") (lit "is not a model id or null.")
  require (isIdOrNull (e.field? (lit "to"))) (f ++ lit ".to") (lit "is not a model id or null.")
  require (isBoolean (e.field? (lit "ok"))) (f ++ lit ".ok") (lit "is not true or false.")
  require (isOneOf canaryResults (e.field? (lit "canary"))) (f ++ lit ".canary")
    (notOneOf canaryResults)
  require ((e.field? (lit "effort")).isNone || isEffort (e.field? (lit "effort")))
    (f ++ lit ".effort") (lit "is not \x7b\"from\": <level|null>, \"to\": <level|null>\x7d.")
  require ((e.field? (lit "reason")).isNone || isReason (e.field? (lit "reason")))
    (f ++ lit ".reason")
    (lit "is not printable ASCII of at most " ++ Text.ofNat reasonMax ++ lit " characters.")
  require ((e.field? (lit "tries")).isNone ||
      (isFailedAdvance e && (integer? (e.field? (lit "tries"))).any (1 ≤ ·)))
    (f ++ lit ".tries") (lit "belongs on a failed advance only, as a whole number from 1.")
  require ((e.field? (lit "lastAt")).isNone ||
      (isFailedAdvance e && isAt (e.field? (lit "lastAt"))))
    (f ++ lit ".lastAt")
    (lit "belongs on a failed advance only, as a time of the form YYYY-MM-DDTHH:MM:SSZ.")
  require ((e.field? (lit "recovered")).isNone || isBoolean (e.field? (lit "recovered")))
    (f ++ lit ".recovered") (lit "is not true or false.")

def classWords : List Text := classes.map ModelClass.text

/-- The other classes that an intent empties, each named once. -/
def isEmptied (cls : Option Value) (emptied : Option Value) : Bool :=
  match emptied with
  | some (.array items) =>
      match items.mapM fun item => (text? (some item)).filter classWords.contains with
      | none => false
      | some words => decide ((text? cls).all (· ∉ words)) && decide words.Nodup
  | _ => false

def emptiesNone : Option Value → Bool
  | some (.array items) => items.isEmpty
  | _ => false

def isHand (p : Value) : Bool := isOneOf [lit "hand"] (p.field? (lit "how"))

def checkHandPending (p : Value) : Except AdvanceInvalid Unit := do
  require (isIdOrNull (p.field? (lit "to"))) (lit "pending.to") (lit "is not a model id or null.")
  require (isEmptied (p.field? (lit "class")) (p.field? (lit "emptied"))) (lit "pending.emptied")
    (lit "is not a list of the OTHER classes this set-class empties, each named once.")
  require (emptiesNone (p.field? (lit "emptied")) || !isNull (p.field? (lit "to")))
    (lit "pending.emptied")
    (lit "names a class, but a set-class to none empties no other class.")

def checkAdvancePending (p : Value) : Except AdvanceInvalid Unit := do
  require ((text? (p.field? (lit "to"))).any isModelId) (lit "pending.to")
    (lit "is not a model id.")
  require (isLevelOrNull (p.field? (lit "effortFrom"))) (lit "pending.effortFrom")
    (lit "is not an effort level or null.")
  require (isLevelOrNull (p.field? (lit "effortTo"))) (lit "pending.effortTo")
    (lit "is not an effort level or null.")

def checkIntent (p : Value) : Except AdvanceInvalid Unit := do
  require ((p.field? (lit "how")).isNone || isHand p) (lit "pending.how")
    (lit "is not \"hand\" (a hand set-class), or absent (an automatic advance).")
  require (isOneOf classWords (p.field? (lit "class"))) (lit "pending.class") (notOneOf classWords)
  require (isIdOrNull (p.field? (lit "from"))) (lit "pending.from")
    (lit "is not a model id or null.")
  require (isAt (p.field? (lit "at"))) (lit "pending.at") timeForm
  if isHand p then checkHandPending p else checkAdvancePending p

/-- The pending intent, in one of its two shapes. -/
def checkPending (p : Option Value) : Except AdvanceInvalid Unit := do
  if isNull p then .ok ()
  else
    require (isObj p) (lit "pending")
      (lit "is not null or an intent: \x7b\"class\", \"from\", \"to\", \"effortFrom\", " ++
        lit "\"effortTo\", \"at\"\x7d for an automatic advance, \x7b\"how\": \"hand\", " ++
        lit "\"class\", \"from\", \"to\", \"emptied\", \"at\"\x7d for a hand set-class.")
    checkIntent (p.getD .null)

def checkHold (f : Text) (hold : Option Value) : Except AdvanceInvalid Unit := do
  if isNull hold then .ok ()
  else
    require (isObj hold) (f ++ lit ".hold")
      (lit "is not null or \x7b\"at\": <time>, \"by\": <act>\x7d.")
    require (isAt (hold.bind (·.field? (lit "at")))) (f ++ lit ".hold.at") timeForm
    require (isOneOf holdBy (hold.bind (·.field? (lit "by")))) (f ++ lit ".hold.by")
      (notOneOf holdBy)

def checkPrevious (f : Text) (previous : Option Value) : Except AdvanceInvalid Unit := do
  if isNull previous then .ok ()
  else
    require (isObj previous) (f ++ lit ".previous")
      (lit "is not null or \x7b\"model\": <id|null>, \"effort\": <level|null>\x7d.")
    require (isIdOrNull (previous.bind (·.field? (lit "model")))) (f ++ lit ".previous.model")
      (lit "is not a model id or null.")
    require (isLevelOrNull (previous.bind (·.field? (lit "effort")))) (f ++ lit ".previous.effort")
      (lit "is not an effort level or null.")

def isFamily (family : Option Value) : Bool :=
  match readId family with
  | none => false
  | some none => true
  | some (some word) => isWord word

/-- The entries of a history, and what it is where it is no list. -/
def entries? : Option Value → Option (List Value)
  | some (.array items) => some items
  | _ => none

def checkHistory (f : Text) (history : Option Value) : Except AdvanceInvalid Unit := do
  require (entries? history).isSome (f ++ lit ".history") (lit "is not a list.")
  let entries := (entries? history).getD []
  require (decide (entries.length ≤ historyCap)) (f ++ lit ".history")
    (lit "holds " ++ Text.ofNat entries.length ++ lit " entries; it keeps at most " ++
      Text.ofNat historyCap ++ lit ".")
  checkAll (fun entry => checkEntry entry.1
    (f ++ lit ".history[" ++ Text.ofNat entry.2 ++ lit "]")) entries.zipIdx

def checkClass (found : Option Value) (c : ModelClass) : Except AdvanceInvalid Unit := do
  let f := lit "classes." ++ c.text
  let x := found.bind (·.field? c.text)
  require (isObj x) f (lit "is missing or is not an object.")
  require (isFamily (x.bind (·.field? (lit "family")))) (f ++ lit ".family")
    (lit "is not a family word (a lowercase letter, then lowercase letters and digits) or null.")
  checkHold f (x.bind (·.field? (lit "hold")))
  checkPrevious f (x.bind (·.field? (lit "previous")))
  checkHistory f (x.bind (·.field? (lit "history")))

/-- The keys of an object, in its own order. -/
def keys : Option Value → List Text
  | some (.object fields) => fields.map (·.1)
  | _ => []

/-- The file is copied, the copy checked and answered; `spelled` is the text of a value in a
message. -/
def parseAdvance (spelled : Option Value → Text) (input : Value) : Except AdvanceInvalid Value := do
  let json := copy input
  if !json.isObject then
    throw ⟨[], lit "an advance file must be a JSON object: \x7b\"v\": 1, \"classes\": " ++
      lit "\x7b…\x7d, \"pending\": null\x7d."⟩
  require (integer? (json.field? (lit "v")) == some advanceVersion) (lit "v")
    (lit "is " ++ spelled (json.field? (lit "v")) ++ lit ": this build reads version " ++
      Text.ofInt advanceVersion ++ lit " only.")
  let found := json.field? (lit "classes")
  require (isObj found) (lit "classes") (lit "is missing or is not an object.")
  checkAll (fun k => require (classWords.contains k) (lit "classes." ++ k)
    (lit "is not a class: the four are " ++ Text.join (lit ", ") classWords ++ lit "."))
    (keys found)
  checkAll (checkClass found) classes
  checkPending (json.field? (lit "pending"))
  return json

/-! ## The operations -/

def classOf (adv : Value) (c : ModelClass) : Option Value :=
  (adv.field? (lit "classes")).bind (·.field? c.text)

def historyOf (adv : Value) (c : ModelClass) : List Value :=
  (entries? ((classOf adv c).bind (·.field? (lit "history")))).getD []

def updateClass (c : ModelClass) (change : Value → Value) (adv : Value) : Value :=
  adv.update (lit "classes") (Json.update c.text change)

/-- The newest entries of a history, as many as it keeps. -/
def capped (entries : List Value) : List Value := entries.drop (entries.length - historyCap)

def changeEntries (change : List Value → List Value) : Value → Value
  | .array entries => .array (change entries)
  | other => other

def updateHistory (c : ModelClass) (change : List Value → List Value) (adv : Value) : Value :=
  updateClass c (Json.update (lit "history") (changeEntries change)) adv

structure Failure where
  atTime : Text
  fromId : Option Text
  toId : Text
  reason : Text
  deriving DecidableEq, Repr

/-- An intent that was written before its move. -/
inductive Intent where
  | hand (cls : ModelClass) (former target : Option Text) (emptied : List ModelClass)
      (atTime : Text)
  | advance (cls : ModelClass) (former : Option Text) (target : Text)
      (effortFrom effortTo : Option Text) (atTime : Text)
  deriving DecidableEq, Repr

def readEmptied (emptied : Option Value) : Option (List ModelClass) :=
  (entries? emptied).bind fun items => items.mapM fun item => (text? (some item)).bind classNamed

/-- What `reconcilePending` reads of a pending intent. -/
def readIntent (p : Value) : Option Intent := do
  let cls ← (text? (p.field? (lit "class"))).bind classNamed
  let former ← readId (p.field? (lit "from"))
  let atTime ← text? (p.field? (lit "at"))
  if isHand p then
    let target ← readId (p.field? (lit "to"))
    let emptied ← readEmptied (p.field? (lit "emptied"))
    return .hand cls former target emptied atTime
  else
    let target ← text? (p.field? (lit "to"))
    let effortFrom ← readId (p.field? (lit "effortFrom"))
    let effortTo ← readId (p.field? (lit "effortTo"))
    return .advance cls former target effortFrom effortTo atTime

end Ccrc.Shared
