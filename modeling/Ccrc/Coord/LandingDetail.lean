import Ccrc.Coord.LandingAdvance
import Ccrc.Library.Json
import Ccrc.Library.Number
import Ccrc.Shared.Landing

/-! The details of a landing episode's journal rows. Each grammar has one writer, which
refuses arguments out of range, and one reader. -/

set_option autoImplicit false

namespace Ccrc.Coord.LandingDetail

open Library Shared

def modeText : ChecksMode → Text
  | .live => Text.lit "live"
  | .shadow => Text.lit "shadow"
  | .off => Text.lit "off"

def checksModes : List ChecksMode := [.live, .shadow, .off]

def whatText : ChecksRowWhat → Text
  | .open => Text.lit "open"
  | .green => Text.lit "green"
  | .red => Text.lit "red"
  | .stuck => Text.lit "stuck"

/-- How a row without a generation ends its episode. -/
inductive ChecksEndWord where
  | moved | left
  deriving DecidableEq, Repr

def ChecksEndWord.text : ChecksEndWord → Text
  | .moved => Text.lit "moved"
  | .left => Text.lit "left"

/-! ## Numbers -/

/-- `/^[1-9][0-9]*$/`. -/
def isPositiveNumeral : Text → Bool
  | [] => false
  | first :: rest => first != Text.unit '0' && (first :: rest).all Text.isDigit

/-- `/^(?:0|[1-9][0-9]*)$/`. -/
def isNonNegativeNumeral (text : Text) : Bool :=
  text == Text.lit "0" || isPositiveNumeral text

def positiveInt (text : Text) : Option Int :=
  if isPositiveNumeral text then (Number.ofDecimal false (Json.digitsValue text) 0).safeInt?
  else none

def nonNegativeInt (text : Text) : Option Int :=
  if isNonNegativeNumeral text then (Number.ofDecimal false (Json.digitsValue text) 0).safeInt?
  else none

def isPositiveSafe (number : Int) : Bool :=
  decide (number ≤ Number.maxSafeInteger) && decide (0 < number)

def isNonNegativeSafe (number : Int) : Bool :=
  decide (number ≤ Number.maxSafeInteger) && decide (0 ≤ number)

/-! ## The transition row -/

def mergingAtPrefix : Text := Text.lit "merging-at:"

/-- A thrown `RangeError` is its message. -/
def mergingAtDetail (head : Text) (pr : Option Int) (mode : ChecksMode) : Except Text Text :=
  if !isHead40 head then .error (Text.lit "mergingAtDetail: head is not 40 hex")
  else
    match pr with
    | none =>
        if mode ≠ .off then
          .error (Text.lit "mergingAtDetail: only an off episode carries no PR")
        else .ok (mergingAtPrefix ++ head ++ Text.lit ":none:" ++ modeText mode)
    | some number =>
        if !isPositiveSafe number then
          .error (Text.lit "mergingAtDetail: pr is not a positive integer")
        else
          .ok (mergingAtPrefix ++ head ++ Text.unit ':' :: Text.ofInt number ++
            Text.unit ':' :: modeText mode)

def readMergingAtDetail (detail : Text) : Option MergingAt :=
  if detail.startsWith mergingAtPrefix then
    match (detail.drop mergingAtPrefix.length).splitOn (Text.unit ':') with
    | [head, prText, word] =>
        if !isHead40 head then none
        else
          match checksModes.find? (modeText · == word) with
          | none => none
          | some mode =>
              if prText = Text.lit "none" then
                if mode = .off then some ⟨head, none, mode⟩ else none
              else (positiveInt prText).map fun pr => ⟨head, some pr, mode⟩
    | _ => none
  else none

/-! ## The rows of an episode -/

def checksRowPrefix : Text := Text.lit "landing:checks:"

def checksShadowRowPrefix : Text := Text.lit "landing-shadow:checks:"

/-- What a `stuck` row records that the lane saw. -/
def stuckReadingWords : List Text :=
  [Text.lit "pending", Text.lit "not-reported", Text.lit "unverifiable", Text.lit "red"]

def isStuckReading (text : Text) : Bool :=
  if text = Text.lit "unread" then true
  else
    match text.cut (Text.unit '@') with
    | none => false
    | some (word, fp) => decide (word ∈ stuckReadingWords) && isFp12 fp

def checksRowLead (shadow : Bool) : Text :=
  if shadow then checksShadowRowPrefix else checksRowPrefix

def checksRowDetail (e gen : Int) (what : ChecksRowWhat) (suffix : Option Text) (shadow : Bool) :
    Except Text Text :=
  if !isPositiveSafe e then .error (Text.lit "checksRowDetail: e is not a positive integer")
  else if !isNonNegativeSafe gen then
    .error (Text.lit "checksRowDetail: gen is not a non-negative integer")
  else
    let head := checksRowLead shadow ++ Text.ofInt e ++ Text.unit ':' :: Text.ofInt gen ++
      Text.unit ':' :: whatText what
    match what, suffix with
    | .open, none => .ok head
    | .open, some _ => .error (Text.lit "checksRowDetail: an open row carries no suffix")
    | .stuck, none => .error (Text.lit "checksRowDetail: a stuck row needs its reading")
    | .stuck, some reading =>
        if isStuckReading reading then .ok (head ++ Text.unit ':' :: reading)
        else .error (Text.lit "checksRowDetail: a stuck row needs its reading")
    | _, none => .error (Text.lit "checksRowDetail: an edge row needs its fingerprint")
    | _, some fp =>
        if isFp12 fp then .ok (head ++ Text.unit '@' :: fp)
        else .error (Text.lit "checksRowDetail: an edge row needs its fingerprint")

def checksEndDetail (e : Int) (word : ChecksEndWord) (shadow : Bool) : Except Text Text :=
  if !isPositiveSafe e then .error (Text.lit "checksEndDetail: e is not a positive integer")
  else .ok (checksRowLead shadow ++ Text.ofInt e ++ Text.unit ':' :: word.text)

/-- The word of a row that was read: of one generation, or of the whole episode. -/
inductive ChecksRowWord where
  | row (what : ChecksRowWhat)
  | ended (word : ChecksEndWord)
  deriving DecidableEq, Repr

structure ChecksRowRead where
  shadow : Bool
  e : Int
  gen : Option Int
  what : ChecksRowWord
  fp : Option Text
  reading : Option Text
  deriving DecidableEq, Repr

def readEndWord (text : Text) : Option ChecksEndWord :=
  if text = Text.lit "moved" then some .moved
  else if text = Text.lit "left" then some .left
  else none

def readEdgeWord (text : Text) : Option ChecksRowWhat :=
  if text = Text.lit "green" then some .green
  else if text = Text.lit "red" then some .red
  else none

/-- A row of one generation, by the parts that follow the generation. -/
def readGenerationRow (shadow : Bool) (e gen : Int) (part : Text) (parts : List Text) :
    Option ChecksRowRead :=
  let tail := Text.join (Text.lit ":") (part :: parts)
  if tail = Text.lit "open" then some ⟨shadow, e, some gen, .row .open, none, none⟩
  else
    match parts with
    | [] =>
        match tail.cut (Text.unit '@') with
        | none => none
        | some (word, fp) =>
            match readEdgeWord word with
            | none => none
            | some what =>
                if isFp12 fp then some ⟨shadow, e, some gen, .row what, some fp, none⟩ else none
    | _ :: _ =>
        if part ≠ Text.lit "stuck" then none
        else
          let reading := Text.join (Text.lit ":") parts
          if isStuckReading reading then
            some ⟨shadow, e, some gen, .row .stuck, none, some reading⟩
          else none

def readChecksRest (shadow : Bool) (rest : Text) : Option ChecksRowRead :=
  match rest.splitOn (Text.unit ':') with
  | [] => none
  | eText :: parts =>
      match positiveInt eText with
      | none => none
      | some e =>
          match parts with
          | [] => none
          | [word] => (readEndWord word).map fun word =>
              ⟨shadow, e, none, .ended word, none, none⟩
          | genText :: part :: parts =>
              match nonNegativeInt genText with
              | none => none
              | some gen => readGenerationRow shadow e gen part parts

def readChecksRowDetail (detail : Text) : Option ChecksRowRead :=
  if detail.startsWith checksRowPrefix then
    readChecksRest false (detail.drop checksRowPrefix.length)
  else if detail.startsWith checksShadowRowPrefix then
    readChecksRest true (detail.drop checksShadowRowPrefix.length)
  else none

end Ccrc.Coord.LandingDetail
