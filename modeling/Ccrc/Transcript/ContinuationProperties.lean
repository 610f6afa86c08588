import Ccrc.Transcript.Continuation
import Ccrc.Transcript.TailProperties

/-! A window of a transcript decides by its complete lines alone, and a longer one
differs only where none of them decides: unless the window lies within a half-written
line, at an object nested in it. -/

set_option autoImplicit false

namespace Ccrc.Transcript

open Library
open Library.Text (lit unit)
open Json (AllSpace)

/-! ## Lines -/

/-- One line that is a JSON object, from its opening brace to its closing one. -/
def isObjectLine (line : Text) : Bool :=
  !line.contains lineFeed && line.head? == some (unit '{') && line.getLast? == some (unit '}') &&
    (match Json.parse line with
    | some (.object _) => true
    | _ => false)

/-- The start of an object line that was not written to its end. -/
def IsHalfWritten (line : Text) : Prop :=
  line ≠ [] ∧ ∃ rest, rest ≠ [] ∧ isObjectLine (line ++ rest) = true

structure ObjectLine (line : Text) : Prop where
  oneLine : lineFeed ∉ line
  opens : line.head? = some (unit '{')
  closes : line.getLast? = some (unit '}')
  json : ∃ fields, Json.parse line = some (.object fields)

theorem objectLine {line : Text} (isLine : isObjectLine line = true) : ObjectLine line := by
  simp only [isObjectLine, Bool.and_eq_true, beq_iff_eq, Bool.not_eq_true',
    List.contains_eq_mem, decide_eq_false_iff_not] at isLine
  obtain ⟨⟨⟨oneLine, opens⟩, closes⟩, json⟩ := isLine
  refine ⟨oneLine, opens, closes, ?_⟩
  split at json
  · next fields parsed => exact ⟨fields, parsed⟩
  · cases json

section Verdicts

variable (ofUuid : Text)

def decides (line : Text) : Bool := tailRecordOf line ofUuid != .skip

/-- The lines that decide, in their order. -/
def deciding (lines : List Text) : List Text := lines.filter (decides ofUuid)

/-- Only an object decides. -/
theorem parse_of_decides {line : Text} (isDeciding : decides ofUuid line = true) :
    ∃ fields, Json.parse line = some (.object fields) := by
  rw [decides, bne_iff_ne, tailRecordOf] at isDeciding
  split at isDeciding
  · exact absurd rfl isDeciding
  · split at isDeciding
    · exact absurd rfl isDeciding
    · next r parsed =>
        cases r with
        | object fields => exact ⟨fields, parsed⟩
        | array items =>
            refine absurd ?_ isDeciding
            simp [isPlainObject, verdictOf, own, Json.field?, isText, textOf]
        | null | bool | number | string => exact absurd rfl isDeciding

theorem decides_nil : decides ofUuid [] = false := by
  have noLiteral : (!Text.includes markerLiteral [] &&
      !(Text.includes userLiteral [] || Text.includes assistantLiteral [])) = true := by decide
  rw [decides, tailRecordOf, if_pos noLiteral]
  rfl

/-- What is left of an object line behind a cut decides nothing. -/
theorem not_decides_rest {before after : Text} (isLine : isObjectLine (before ++ after) = true)
    (some' : before ≠ []) : decides ofUuid after = false := by
  rw [← Bool.not_eq_true]
  intro isDeciding
  obtain ⟨fields, parsed⟩ := parse_of_decides ofUuid isDeciding
  obtain ⟨-, opens, -, _, whole⟩ := objectLine isLine
  have space := Json.space_before_object whole parsed
  cases before with
  | nil => exact some' rfl
  | cons c before =>
      rw [List.cons_append, List.head?_cons, Option.some.injEq] at opens
      exact absurd (opens ▸ space c List.mem_cons_self) (by decide)

/-- Nor does what was written of it. -/
theorem not_decides_half {line : Text} (half : IsHalfWritten line) :
    decides ofUuid line = false := by
  obtain ⟨-, rest, some', isLine⟩ := half
  rw [← Bool.not_eq_true]
  intro isDeciding
  obtain ⟨fields, parsed⟩ := parse_of_decides ofUuid isDeciding
  obtain ⟨-, -, closes, _, whole⟩ := objectLine isLine
  have space := Json.space_after_object whole parsed
  rw [List.getLast?_append_of_ne_nil _ some'] at closes
  exact absurd (space _ (List.mem_of_getLast? closes)) (by decide)

/-! ## The newest line that decides -/

def successorOf (line : Text) : Option Text :=
  match tailRecordOf line ofUuid with
  | .successor uuid => some uuid
  | .stop | .skip => none

def isTurn (line : Text) : Bool :=
  tailRecordOf line ofUuid == .stop &&
    (Json.parse line).any fun r => !isText (own r "type") (lit "continued-in")

theorem continuationFrom_eq (lines : List Text) :
    continuationFrom ofUuid lines = (lines.find? (decides ofUuid)).bind (successorOf ofUuid) := by
  induction lines with
  | nil => rfl
  | cons line older ih =>
      rw [continuationFrom]
      cases verdict : tailRecordOf line ofUuid with
      | skip => rw [List.find?_cons_of_neg (by simp [decides, verdict]), ← ih]
      | successor uuid =>
          rw [List.find?_cons_of_pos (by simp [decides, verdict]), Option.bind_some, successorOf,
            verdict]
      | stop =>
          rw [List.find?_cons_of_pos (by simp [decides, verdict]), Option.bind_some, successorOf,
            verdict]

theorem finishedTurnFrom_eq (lines : List Text) :
    finishedTurnFrom ofUuid lines = (lines.find? (decides ofUuid)).any (isTurn ofUuid) := by
  induction lines with
  | nil => rfl
  | cons line older ih =>
      rw [finishedTurnFrom]
      cases verdict : tailRecordOf line ofUuid with
      | skip => rw [List.find?_cons_of_neg (by simp [decides, verdict]), ← ih]
      | successor uuid =>
          rw [List.find?_cons_of_pos (by simp [decides, verdict]), Option.any_some, isTurn, verdict]
          rfl
      | stop =>
          rw [List.find?_cons_of_pos (by simp [decides, verdict]), Option.any_some, isTurn, verdict]
          rfl

/-- The newest line of a text that decides. -/
def newest (lines : List Text) : Option Text := (deciding ofUuid lines).getLast?

theorem continuationInTail_eq (tail : Text) :
    continuationInTail tail ofUuid = (newest ofUuid (splitLines tail)).bind (successorOf ofUuid) := by
  rw [continuationInTail, continuationFrom_eq, ← List.head?_filter, List.filter_reverse,
    List.head?_reverse]
  rfl

theorem finishedTurnDecides_eq (tail : Text) :
    finishedTurnDecides tail ofUuid = (newest ofUuid (splitLines tail)).any (isTurn ofUuid) := by
  rw [finishedTurnDecides, finishedTurnFrom_eq, ← List.head?_filter, List.filter_reverse,
    List.head?_reverse]
  rfl

/-- Older lines change nothing where one of the newer decides. -/
theorem newest_append {older newer : List Text} (some' : deciding ofUuid newer ≠ []) :
    newest ofUuid (older ++ newer) = newest ofUuid newer := by
  unfold newest deciding at *
  rw [List.filter_append, List.getLast?_append_of_ne_nil _ some']

end Verdicts

/-! ## Windows -/

/-- A transcript: object lines, and a last one that may be half-written. -/
structure Written where
  records : List Text
  last : Text
  isRecord : ∀ record ∈ records, isObjectLine record = true
  isLast : last = [] ∨ isObjectLine last = true ∨ IsHalfWritten last

namespace Written

def text (written : Written) : Text := joined lineFeed written.records ++ written.last

end Written

/-- The lines of a window that are there from their start to their end. -/
def completeLines : List Text → Text → Nat → List Text
  | [], last, start => if start = 0 ∧ isObjectLine last = true then [last] else []
  | record :: records, last, start =>
      if start = 0 then record :: completeLines records last 0
      else completeLines records last (start - (record.length + 1))

theorem half_oneLine {line : Text} (half : IsHalfWritten line) : lineFeed ∉ line := by
  obtain ⟨-, rest, -, isLine⟩ := half
  exact fun member => (objectLine isLine).oneLine (List.mem_append_left rest member)

theorem splitLines_cons {line : Text} (oneLine : lineFeed ∉ line) (rest : Text) :
    splitLines (line ++ lineFeed :: rest) = line :: splitLines rest := by
  have framed := @frame_joined_append _ lineFeed _ [line] (by simpa using oneLine) rest
  rw [joined_cons, joined, List.flatMap_nil, List.append_nil, List.append_assoc,
    List.singleton_append] at framed
  rw [splitLines_frame, splitLines_frame, framed]
  rfl

theorem splitLines_of_oneLine {line : Text} (oneLine : lineFeed ∉ line) :
    splitLines line = [line] := by
  induction line with
  | nil => rfl
  | cons c line ih =>
      rw [List.mem_cons, not_or] at oneLine
      rw [splitLines, if_neg (Ne.symm oneLine.1), ih oneLine.2]

section Windows

variable (ofUuid : Text) {records : List Text} {last : Text}

/-- A window that does not start within a half-written line decides by the lines it
holds whole. -/
theorem deciding_window (isRecord : ∀ record ∈ records, isObjectLine record = true)
    (isLast : last = [] ∨ isObjectLine last = true ∨ IsHalfWritten last) (start : Nat)
    (clear : IsHalfWritten last → (joined lineFeed records).length < start →
      decides ofUuid (last.drop (start - (joined lineFeed records).length)) = false) :
    deciding ofUuid (splitLines ((joined lineFeed records ++ last).drop start)) =
      deciding ofUuid (completeLines records last start) := by
  induction records generalizing start with
  | nil =>
      have oneLine : lineFeed ∉ last.drop start := by
        intro member
        have inside := List.mem_of_mem_drop member
        rcases isLast with rfl | isLine | half
        · cases inside
        · exact (objectLine isLine).oneLine inside
        · exact half_oneLine half inside
      have window : (joined lineFeed ([] : List Text) ++ last).drop start = last.drop start := rfl
      rw [window, splitLines_of_oneLine oneLine, completeLines]
      by_cases whole : start = 0 ∧ isObjectLine last = true
      · rw [if_pos whole, whole.1, List.drop_zero]
      · rw [if_neg whole, deciding, deciding, List.filter_nil, List.filter_singleton]
        have skipped : decides ofUuid (last.drop start) = false := by
          rcases isLast with rfl | isLine | half
          · rw [List.drop_nil, decides_nil]
          · have later : start ≠ 0 := fun first => whole ⟨first, isLine⟩
            by_cases inside : last.take start = []
            · rw [List.take_eq_nil_iff] at inside
              rcases inside with first | none
              · exact absurd first later
              · rw [none, List.drop_nil, decides_nil]
            · refine not_decides_rest ofUuid ?_ inside
              rwa [List.take_append_drop]
          · by_cases first : start = 0
            · rw [first, List.drop_zero]
              exact not_decides_half ofUuid half
            · exact clear half (Nat.pos_of_ne_zero first)
        rw [skipped]
        rfl
  | cons record records ih =>
      have isFirst := isRecord record List.mem_cons_self
      have others := fun other member => isRecord other (List.mem_cons_of_mem record member)
      have oneLine := (objectLine isFirst).oneLine
      have length : (joined lineFeed (record :: records)).length =
          record.length + 1 + (joined lineFeed records).length := by
        rw [joined_cons, List.length_append, List.length_append, List.length_singleton]
      have whole : joined lineFeed (record :: records) ++ last =
          record ++ lineFeed :: (joined lineFeed records ++ last) := by
        rw [joined_cons, List.append_assoc, List.append_assoc, List.singleton_append]
      rw [completeLines, whole]
      by_cases first : start = 0
      · have rest := ih others 0 fun _ bad => absurd bad (Nat.not_lt_zero _)
        rw [List.drop_zero] at rest
        rw [if_pos first, first, List.drop_zero, splitLines_cons oneLine, deciding, deciding,
          List.filter_cons, List.filter_cons]
        unfold deciding at rest
        rw [rest]
      · rw [if_neg first]
        by_cases within : start ≤ record.length
        · have rest := ih others 0 fun _ bad => absurd bad (Nat.not_lt_zero _)
          rw [List.drop_zero] at rest
          have cutLine : lineFeed ∉ record.drop start := fun member =>
            oneLine (List.mem_of_mem_drop member)
          have skipped : decides ofUuid (record.drop start) = false := by
            by_cases empty : record.take start = []
            · rw [List.take_eq_nil_iff] at empty
              rcases empty with none | none
              · exact absurd none first
              · rw [none, List.drop_nil, decides_nil]
            · refine not_decides_rest ofUuid ?_ empty
              rwa [List.take_append_drop]
          rw [List.drop_append_of_le_length within, splitLines_cons cutLine, deciding,
            List.filter_cons, skipped, show start - (record.length + 1) = 0 by omega, ← rest]
          rfl
        · obtain ⟨later, rfl⟩ := Nat.exists_eq_add_of_lt (Nat.not_le.mp within)
          have dropped : (record ++ lineFeed :: (joined lineFeed records ++ last)).drop
              (record.length + later + 1) = (joined lineFeed records ++ last).drop later := by
            rw [Nat.add_assoc, ← List.drop_drop, List.drop_left, List.drop_succ_cons]
          rw [dropped, show record.length + later + 1 - (record.length + 1) = later by omega]
          refine ih others later fun half past => ?_
          have same : record.length + later + 1 - (joined lineFeed (record :: records)).length =
              later - (joined lineFeed records).length := by omega
          exact same ▸ clear half (by omega)

theorem mem_completeLines {line : Text}
    (isRecord : ∀ record ∈ records, isObjectLine record = true) {start : Nat}
    (member : line ∈ completeLines records last start) : isObjectLine line = true := by
  induction records generalizing start with
  | nil =>
      rw [completeLines] at member
      split at member
      · next whole => exact List.mem_singleton.mp member ▸ whole.2
      · cases member
  | cons record records ih =>
      have others := fun other member => isRecord other (List.mem_cons_of_mem record member)
      rw [completeLines] at member
      split at member
      · rcases List.mem_cons.mp member with rfl | later
        · exact isRecord _ List.mem_cons_self
        · exact ih others later
      · exact ih others member

/-- A longer window holds the complete lines of a shorter one, behind older ones. -/
theorem completeLines_longer {longer start : Nat} (more : longer ≤ start) :
    ∃ older, completeLines records last longer = older ++ completeLines records last start := by
  induction records generalizing longer start with
  | nil =>
      simp only [completeLines]
      by_cases whole : start = 0 ∧ isObjectLine last = true
      · exact ⟨[], by rw [if_pos whole, if_pos ⟨by omega, whole.2⟩, List.nil_append]⟩
      · exact ⟨_, by rw [if_neg whole, List.append_nil]⟩
  | cons record records ih =>
      simp only [completeLines]
      by_cases first : start = 0
      · exact ⟨[], by rw [if_pos first, if_pos (by omega), List.nil_append]⟩
      · rw [if_neg first]
        by_cases first' : longer = 0
        · obtain ⟨older, split⟩ := @ih 0 (start - (record.length + 1)) (Nat.zero_le _)
          exact ⟨record :: older, by rw [if_pos first', split, List.cons_append]⟩
        · rw [if_neg first']
          exact ih (Nat.sub_le_sub_right more _)

theorem completeLines_past {start : Nat} (past : (joined lineFeed records).length < start) :
    completeLines records last start = [] := by
  induction records generalizing start with
  | nil => rw [completeLines, if_neg fun whole => Nat.not_lt_zero _ (whole.1 ▸ past)]
  | cons record records ih =>
      rw [joined_cons, List.length_append, List.length_append, List.length_singleton] at past
      rw [completeLines, if_neg (by omega), ih (by omega)]

/-- Complete lines decide alike alone, one under the other. -/
theorem deciding_join {lines : List Text} (oneLine : ∀ line ∈ lines, lineFeed ∉ line) :
    deciding ofUuid (splitLines (Text.join [lineFeed] lines)) = deciding ofUuid lines := by
  induction lines with
  | nil => simp [deciding, Text.join, splitLines, decides_nil]
  | cons line lines ih =>
      have first := oneLine line List.mem_cons_self
      cases lines with
      | nil => rw [Text.join, splitLines_of_oneLine first]
      | cons next lines =>
          have rest := ih fun other member => oneLine other (List.mem_cons_of_mem line member)
          have join : Text.join [lineFeed] (line :: next :: lines) =
              line ++ lineFeed :: Text.join [lineFeed] (next :: lines) := by simp [Text.join]
          rw [join, splitLines_cons first]
          unfold deciding at rest ⊢
          rw [List.filter_cons, List.filter_cons, rest]

end Windows

namespace Written

/-- The lines that a window of the text holds whole. -/
def complete (written : Written) (start : Nat) : List Text :=
  completeLines written.records written.last start

/-- A window decides by its complete lines, and no longer one decides otherwise where it
decides at all. -/
structure Steady (written : Written) (ofUuid : Text) (start : Nat) : Prop where
  deciding : deciding ofUuid (splitLines (written.text.drop start)) =
    deciding ofUuid (written.complete start)
  continuation : continuationInTail (written.text.drop start) ofUuid =
    continuationInTail (Text.join [lineFeed] (written.complete start)) ofUuid
  finished : finishedTurnDecides (written.text.drop start) ofUuid =
    finishedTurnDecides (Text.join [lineFeed] (written.complete start)) ofUuid
  longer : ∀ longer ≤ start,
    Transcript.deciding ofUuid (splitLines (written.text.drop start)) ≠ [] →
      continuationInTail (written.text.drop longer) ofUuid =
          continuationInTail (written.text.drop start) ofUuid ∧
        finishedTurnDecides (written.text.drop longer) ofUuid =
          finishedTurnDecides (written.text.drop start) ofUuid

/-- The window starts within a half-written last line, at a part of it that decides. -/
def Nested (written : Written) (ofUuid : Text) (start : Nat) : Prop :=
  IsHalfWritten written.last ∧ (joined lineFeed written.records).length < start ∧
    tailRecordOf (written.text.drop start) ofUuid ≠ .skip

variable (written : Written) (ofUuid : Text) (start : Nat)

theorem drop_last (past : (joined lineFeed written.records).length ≤ start) :
    written.text.drop start =
      written.last.drop (start - (joined lineFeed written.records).length) := by
  rw [text, List.drop_append, List.drop_of_length_le past, List.nil_append]

theorem deciding_of_clear (clear : ¬written.Nested ofUuid start) :
    Transcript.deciding ofUuid (splitLines (written.text.drop start)) =
      Transcript.deciding ofUuid (written.complete start) := by
  refine deciding_window ofUuid written.isRecord written.isLast start fun half past => ?_
  rw [← Bool.not_eq_true, ← written.drop_last start (Nat.le_of_lt past)]
  intro isDeciding
  exact clear ⟨half, past, bne_iff_ne.mp isDeciding⟩

theorem complete_oneLine : ∀ line ∈ written.complete start, lineFeed ∉ line := fun _ member =>
  (objectLine (mem_completeLines written.isRecord member)).oneLine

/-- A window is steady exactly if it does not lie within a half-written line at an object
that decides. -/
theorem steady_iff : written.Steady ofUuid start ↔ ¬written.Nested ofUuid start := by
  constructor
  · rintro steady ⟨half, past, isDeciding⟩
    have window := written.drop_last start (Nat.le_of_lt past)
    have oneLine : lineFeed ∉ written.text.drop start := fun member =>
      half_oneLine half (List.mem_of_mem_drop (window ▸ member))
    have none := steady.deciding
    rw [complete, completeLines_past past, splitLines_of_oneLine oneLine, Transcript.deciding,
      List.filter_singleton, decides, bne_iff_ne.mpr isDeciding] at none
    cases none
  · intro clear
    have here := written.deciding_of_clear ofUuid start clear
    have alone := deciding_join ofUuid (written.complete_oneLine start)
    have same : newest ofUuid (splitLines (written.text.drop start)) =
        newest ofUuid (splitLines (Text.join [lineFeed] (written.complete start))) := by
      rw [newest, newest, here, alone]
    refine ⟨here, ?_, ?_, fun longer more decided => ?_⟩
    · rw [continuationInTail_eq, continuationInTail_eq, same]
    · rw [finishedTurnDecides_eq, finishedTurnDecides_eq, same]
    · have clear' : ¬written.Nested ofUuid longer := by
        rintro ⟨half, past, -⟩
        rw [here, complete, completeLines_past (Nat.lt_of_lt_of_le past more)] at decided
        exact decided rfl
      obtain ⟨older, split⟩ := @completeLines_longer written.records written.last _ _ more
      have same' : newest ofUuid (splitLines (written.text.drop longer)) =
          newest ofUuid (splitLines (written.text.drop start)) := by
        have there := written.deciding_of_clear ofUuid longer clear'
        rw [newest, newest, there, here, complete, split]
        exact newest_append ofUuid (here ▸ decided)
      rw [continuationInTail_eq, continuationInTail_eq, finishedTurnDecides_eq,
        finishedTurnDecides_eq, same']
      exact ⟨rfl, rfl⟩

end Written

/-- A half-written line, the object nested in it written to its end. -/
def nestedLine : Text :=
  lit "\x7b\"a\":\x7b\"type\":\"assistant\",\"message\":\x7b\"stop_reason\":\"x\"\x7d\x7d"

theorem nestedLine_half : IsHalfWritten nestedLine :=
  ⟨by decide, lit "\x7d", by decide, by decide +kernel⟩

/-- The window that starts at the nested object takes it for a finished turn. -/
theorem nestedLine_unsteady :
    ¬(Written.mk [] nestedLine nofun (.inr (.inr nestedLine_half))).Steady [] 5 := by
  intro steady
  have finished := steady.finished
  have there : finishedTurnDecides
      ((Written.mk [] nestedLine nofun (.inr (.inr nestedLine_half))).text.drop 5) [] = true := by
    decide +kernel
  have alone : finishedTurnDecides (Text.join [lineFeed]
      ((Written.mk [] nestedLine nofun (.inr (.inr nestedLine_half))).complete 5)) [] = false := by
    decide +kernel
  rw [there, alone] at finished
  cases finished

end Ccrc.Transcript
