import Ccrc.Library.Text
import Ccrc.Library.Words

/-! The workspace name an operator types, or the Linear ticket they paste, and the
slug made of it. -/

set_option autoImplicit false

namespace Ccrc.Shared.Slug

open Library
open Library.Text (unit isDigit)

/-! ## Words -/

/-- `toLowerCase` of one unit. Outside ASCII only the dotted capital I and the Kelvin sign
have an ASCII letter in their lower case; the others, which nothing here tells from
their lower case, stay. -/
def lowerUnit (character : UInt16) : Text :=
  if 0x41 ≤ character ∧ character ≤ 0x5A then [character + 0x20]
  else if character = 0x0130 then [unit 'i', 0x0307]
  else if character = 0x212A then [unit 'k']
  else [character]

def toLowerCase (text : Text) : Text := text.flatMap lowerUnit

/-- `[a-z0-9]` -/
def isSlugUnit (character : UInt16) : Bool :=
  isDigit character || (unit 'a' ≤ character && character ≤ unit 'z')

def dash : UInt16 := unit '-'

/-- Lowercase, every non-alphanumeric run to one dash, no leading or trailing dash. -/
def slugifyWords (text : Text) : Text :=
  strip dash (collapse isSlugUnit dash false (toLowerCase text))

structure Fitted where
  slug : Text
  shortened : Bool
  deriving DecidableEq, Repr

/-- `slug` cut to fit `max`, at a word boundary where there is one. -/
def fitSlug (slug : Text) (max : Nat) : Fitted :=
  if slug.length ≤ max then ⟨slug, false⟩
  else
    let cut := slug.take max
    let kept :=
      if slug[max]? = some dash then cut
      else
        match lastIndexOf dash cut with
        | none => cut
        | some at' => cut.take at'
    ⟨kept.rdropWhile (· == dash), true⟩

def wsSlugMax : Nat := 31

def wsSlugMin : Nat := 2

/-! ## Linear references -/

structure LinearRef where
  key : Text
  num : Text
  titleSlug : Option Text
  deriving DecidableEq, Repr

/-- What `new URL` gives of a text it can read; both parts are ASCII, as it serialises them. -/
structure Url where
  hostname : Text
  pathname : Text
  hostnameAscii : ∀ c ∈ hostname, c < 128
  pathnameAscii : ∀ c ∈ pathname, c < 128

/-- `[A-Za-z]` -/
def isLetter (character : UInt16) : Bool :=
  (unit 'a' ≤ character && character ≤ unit 'z') || (unit 'A' ≤ character && character ≤ unit 'Z')

/-- `[A-Za-z][A-Za-z0-9]{0,9}` -/
def isKey : Text → Bool
  | [] => false
  | first :: rest =>
      isLetter first && rest.length ≤ 9 && rest.all fun c => isLetter c || isDigit c

/-- `[0-9]{1,7}` -/
def isNum (text : Text) : Bool := 1 ≤ text.length && text.length ≤ 7 && text.all isDigit

/-- `IDENTIFIER.exec`: neither side of the dash can hold one. -/
def identifier (text : Text) : Option (Text × Text) :=
  match Text.cut dash text with
  | some (key, num) => if isKey key && isNum num then some (key, num) else none
  | none => none

/-- `^([A-Za-z][A-Za-z0-9]{0,9})-([0-9]{1,7})(?:-(.+))?$` -/
def branchy (text : Text) : Option (Text × Text × Option Text) :=
  match Text.cut dash text with
  | none => none
  | some (key, tail) =>
      if isKey key then
        match Text.cut dash tail with
        | none => if isNum tail then some (key, tail, none) else none
        | some (num, rest) =>
            if isNum num && rest != [] && rest.all Text.isDot then some (key, num, some rest) else none
      else none

def isLinearHost (host : Text) : Bool :=
  host == Text.lit "linear.app" || Text.endsWith host (Text.lit ".linear.app")

/-- A title slug with nothing usable in it is none. -/
def usable (title : Option Text) : Option Text := title.filter (slugifyWords · != [])

/-- What follows the last `/`. -/
def lastSegment (text : Text) : Text :=
  match lastIndexOf (unit '/') text with
  | none => text
  | some at' => text.drop (at' + 1)

def isUrl (text : Text) : Bool := Text.includes (Text.lit "://") text

variable (parseUrl : Text → Option Url)

def parseLinearRef (input : Text) : Option LinearRef :=
  let trimmed := input.trim
  if trimmed = [] then none
  else if isUrl trimmed then
    match parseUrl trimmed with
    | none => none
    | some url =>
        if !isLinearHost (toLowerCase url.hostname) then none
        else
          let segs := (url.pathname.splitOn (unit '/')).filter (· != [])
          match segs.findIdx? (toLowerCase · == Text.lit "issue") with
          | none => none
          | some at' =>
              match identifier (segs[at' + 1]?.getD []) with
              | none => none
              | some (key, num) => some ⟨key, num, usable segs[at' + 2]?⟩
  else
    match identifier trimmed with
    | some (key, num) => some ⟨key, num, none⟩
    | none =>
        match branchy (lastSegment trimmed) with
        | some (key, num, rest) => some ⟨key, num, usable rest⟩
        | none => none

/-! ## The slug -/

inductive NameRefusal where
  | noUsableCharacters
  | tooShort
  | urlNotRecognised
  deriving DecidableEq, Repr

inductive SlugAsk where
  | auto
  | named (slug : Text) (shortened : Bool) (ticket : Option LinearRef)
  | refused (reason : NameRefusal)
  deriving DecidableEq, Repr

/-- The part of a plain name the slug is made of: what follows its last `/`, unless
that has nothing usable in it. -/
def namePart (trimmed : Text) : Text :=
  if slugifyWords (lastSegment trimmed) = [] then trimmed else lastSegment trimmed

/-- The whole name, before it is cut to fit. -/
def candidateOf (trimmed : Text) : Option LinearRef → Text
  | some ticket =>
      let base := toLowerCase ticket.key ++ dash :: ticket.num
      match ticket.titleSlug with
      | none => base
      | some title => base ++ dash :: slugifyWords title
  | none => slugifyWords (namePart trimmed)

def deriveWorkspaceSlug (input : Text) : SlugAsk :=
  let trimmed := input.trim
  if trimmed = [] then .auto
  else
    let ticket := parseLinearRef parseUrl trimmed
    if isUrl trimmed && ticket.isNone then .refused .urlNotRecognised
    else
      let candidate := candidateOf trimmed ticket
      if candidate = [] then .refused .noUsableCharacters
      else
        let fitted := fitSlug candidate wsSlugMax
        if fitted.slug.length < wsSlugMin then .refused .tooShort
        else .named fitted.slug fitted.shortened ticket

end Ccrc.Shared.Slug
