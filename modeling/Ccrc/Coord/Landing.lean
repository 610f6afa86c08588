import Ccrc.Shared.Landing

/-! The edge fold of the landing lane: what one pass over an episode's rows
writes and mails. The rows are the only memory between passes; a fold reads no
clock and returns the rows to append. -/

set_option autoImplicit false

namespace Ccrc.Coord

open Library Shared

/-- One row of an episode's generations. `fp` is an edge row's fingerprint,
`reading` a `stuck` row's. -/
structure ChecksRow where
  gen : Int
  what : ChecksRowWhat
  fp : Option Text
  reading : Option Text
  atMs : Int
  deriving DecidableEq, Repr

/-- What one pass read of the episode. -/
structure ChecksRead where
  word : RequiredChecksWord
  fp : Text
  deriving DecidableEq, Repr

structure ChecksMailAsk where
  gen : Int
  word : ChecksMailWord
  cause : Option StuckCause
  deriving DecidableEq, Repr

structure ChecksFold where
  write : List ChecksRow
  mail : Option ChecksMailAsk
  dueAtMs : Option Int
  deriving DecidableEq, Repr

def readingOf : Option ChecksRead → Text
  | none => Text.lit "unread"
  | some read =>
      if !isFp12 read.fp then Text.lit "unread"
      else match read.word with
        | .pending | .notReported | .unverifiable | .red =>
            read.word.text ++ Text.lit "@" ++ read.fp
        | .green | .unmeasured => Text.lit "unread"

/-- The word and the fingerprint a `stuck` row recorded, where it recorded them. -/
def parseReading : Option Text → Option (Text × Text)
  | none => none
  | some reading =>
      if reading = Text.lit "unread" then none else Text.cut (Text.unit '@') reading

/-- The state of the current generation. -/
structure CurrentGen where
  gen : Int
  opened : Option ChecksRow
  edge : Option ChecksRow
  stuck : Option ChecksRow
  deriving DecidableEq, Repr

def ChecksRow.isOpen (row : ChecksRow) : Bool := row.what == .open

def ChecksRow.isEdge (row : ChecksRow) : Bool := row.what == .green || row.what == .red

def ChecksRow.isStuck (row : ChecksRow) : Bool := row.what == .stuck

/-- The current generation is the count of `open` rows, minus one. -/
def currentGenNumber (rows : List ChecksRow) : Int := (rows.countP (·.isOpen) : Int) - 1

def currentGen (rows : List ChecksRow) : CurrentGen :=
  let gen := currentGenNumber rows
  let own := rows.filter (·.gen == gen)
  { gen, opened := own.find? (·.isOpen), edge := own.find? (·.isEdge),
    stuck := own.find? (·.isStuck) }

def dueOf (rows : List ChecksRow) : Option Int :=
  let c := currentGen rows
  match c.stuck, c.opened with
  | some _, _ => none
  | none, none => none
  | none, some opened =>
      match c.edge with
      | some edge => if edge.what = .red then some (edge.atMs + landingChecksStuckMs) else none
      | none => some (opened.atMs + landingChecksStuckMs)

/-- What a pass has decided so far: the rows to write, in order, and its mail. -/
structure ChecksDraft where
  write : List ChecksRow
  mail : Option ChecksMailAsk
  deriving DecidableEq, Repr

def ChecksDraft.push (draft : ChecksDraft) (row : ChecksRow) : ChecksDraft :=
  { draft with write := draft.write ++ [row] }

/-- The words that settle a generation, with the row and the mail each becomes. -/
def settledWord : RequiredChecksWord → Option (ChecksRowWhat × ChecksMailWord)
  | .green => some (.green, .green)
  | .red => some (.red, .red)
  | .pending | .notReported | .unverifiable | .unmeasured => none

def runningWord (word : RequiredChecksWord) : Bool :=
  word == .pending || word == .notReported

def openGeneration (draft : ChecksDraft) (gen nowMs : Int) : ChecksDraft :=
  draft.push { gen, what := .open, fp := none, reading := none, atMs := nowMs }

def settleGeneration (draft : ChecksDraft) (gen nowMs : Int) (fp : Text)
    (word : ChecksRowWhat × ChecksMailWord) : ChecksDraft :=
  { draft.push { gen, what := word.1, fp := some fp, reading := none, atMs := nowMs } with
    mail := some { gen, word := word.2, cause := none } }

def stuckGeneration (draft : ChecksDraft) (gen nowMs : Int) (reading : Text)
    (cause : StuckCause) : ChecksDraft :=
  { draft.push { gen, what := .stuck, fp := none, reading := some reading, atMs := nowMs } with
    mail := some { gen, word := .stuck, cause := some cause } }

/-- Generation 0 opens on the first pass that sees the episode, at the
transition row's time. -/
def openEpisode (rows : List ChecksRow) (episodeAtMs : Int) : ChecksDraft :=
  if rows.any (·.isOpen) then { write := [], mail := none }
  else openGeneration { write := [], mail := none } 0 episodeAtMs

/-- What an answered read does to the generations. -/
def foldAnswer (rows : List ChecksRow) (draft : ChecksDraft) (answered : ChecksRead)
    (nowMs : Int) : ChecksDraft :=
  let word := answered.word
  let c := currentGen (rows ++ draft.write)
  let openNext := openGeneration draft (c.gen + 1) nowMs
  match c.edge, c.stuck with
  | none, some stuck =>
      -- After an unsettled `stuck` the same hung wait opens nothing.
      let sr := parseReading stuck.reading
      match settledWord word with
      | some settled => settleGeneration openNext (c.gen + 1) nowMs answered.fp settled
      | none =>
          if (word = .pending ∧ sr.map (·.1) ≠ some (Text.lit "pending")) ∨
              (runningWord word ∧ sr.map (·.2) ≠ some answered.fp) then openNext
          else draft
  | some edge, _ =>
      if runningWord word then openNext
      else match settledWord word with
        | some settled =>
            if settled.1 ≠ edge.what ∨ some answered.fp ≠ edge.fp then
              settleGeneration openNext (c.gen + 1) nowMs answered.fp settled
            else draft
        | none => draft
  | none, none =>
      match settledWord word with
      | some settled => settleGeneration draft c.gen nowMs answered.fp settled
      | none => draft

/-- The first half of a pass: the read, where it answered. -/
def foldRead (rows : List ChecksRow) (draft : ChecksDraft) (answered : Option ChecksRead)
    (nowMs : Int) : ChecksDraft :=
  match answered with
  | some answered => foldAnswer rows draft answered nowMs
  | none => draft

/-- The second half of a pass, when it mails nothing yet: the stuck bound. -/
def foldBound (rows : List ChecksRow) (draft : ChecksDraft) (answered : Option ChecksRead)
    (nowMs : Int) (forced : Option StuckCause) : ChecksDraft :=
  let c := currentGen (rows ++ draft.write)
  match c.opened, c.stuck with
  | some opened, none =>
      if c.edge.any (·.what == .green) then draft
      else
        let unverifiable := c.edge.isNone && answered.any (·.word == .unverifiable)
        let due := (c.edge.getD opened).atMs + landingChecksStuckMs
        if unverifiable ∨ due ≤ nowMs then
          stuckGeneration draft c.gen nowMs (readingOf answered)
            (if unverifiable then .unverifiable
             else forced.getD (if answered.isSome then .timeout else .unmeasured))
        else draft
  | _, _ => draft

/-- The one fold. `read` none is a pass that did not read. -/
def foldChecks (rows : List ChecksRow) (read : Option ChecksRead) (nowMs episodeAtMs : Int)
    (forced : Option StuckCause) : ChecksFold :=
  let answered := read.filter (·.word != .unmeasured)
  let settled := foldRead rows (openEpisode rows episodeAtMs) answered nowMs
  let bounded := match settled.mail with
    | some _ => settled
    | none => foldBound rows settled answered nowMs forced
  { write := bounded.write, mail := bounded.mail, dueAtMs := dueOf (rows ++ bounded.write) }

/-- The edge of one read over an episode's rows. -/
def checksEdge (rows : List ChecksRow) (read : ChecksRead) (nowMs episodeAtMs : Int)
    (_live : Bool) : ChecksFold :=
  foldChecks rows (some read) nowMs episodeAtMs none

/-- The bound alone, for an owed episode the pass does not read. -/
def stuckOnly (rows : List ChecksRow) (nowMs episodeAtMs : Int) (cause : StuckCause) :
    ChecksFold :=
  foldChecks rows none nowMs episodeAtMs (some cause)

end Ccrc.Coord
