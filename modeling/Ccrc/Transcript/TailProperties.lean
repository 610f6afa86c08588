import Ccrc.Library.Framing
import Ccrc.Library.JsonCuts
import Ccrc.Library.TextProperties
import Ccrc.Library.Utf8Cuts
import Ccrc.Transcript.Tail

/-! What the chat shows of a transcript that grows: the tailer loses nothing, and the
line that the backlog's read cuts is lost unless one side of the cut is blank. -/

set_option autoImplicit false

namespace Ccrc.Transcript

open Library
open Library.Text (lit unit)
open Json (AllSpace)

section Readers

variable (serialize : Json Number → Text)

/-! ## Lines -/

/-- The events of a line of bytes. -/
def lineEvents (line : Bytes) : List ChatEvent :=
  parseTranscriptLine serialize (Utf8.decodeLossy line)

/-- Only an object stands for something. -/
theorem parse_of_events {line : Text} (some : parseTranscriptLine serialize line ≠ []) :
    ∃ fields, Json.parse line = Option.some (.object fields) := by
  unfold parseTranscriptLine at some
  split at some
  next fields parsed => exact ⟨fields, parsed⟩
  next items _ =>
      have nothing : eventsOfRecord serialize (.array items) = [] := by
        simp [eventsOfRecord, own, Json.field?, isTrue, isText, textOf]
      rw [nothing] at some
      exact absurd rfl some
  next => exact absurd rfl some

theorem whitespace_of_trim {text : Text} (blank : text.trim = []) :
    ∀ c ∈ text, Text.isWhiteSpace c = true := by
  unfold Text.trim Text.trimStart at blank
  rw [List.reverse_eq_nil_iff, List.dropWhile_eq_nil_iff] at blank
  cases kept : text.dropWhile Text.isWhiteSpace with
  | nil => exact List.dropWhile_eq_nil_iff.mp kept
  | cons c rest =>
      rw [kept] at blank
      have white := blank c (by simp)
      have stops := List.head?_dropWhile_not Text.isWhiteSpace text
      rw [kept] at stops
      simp [white] at stops

theorem events_of_blank {text : Text} (blank : text.trim = []) :
    parseTranscriptLine serialize text = [] := by
  by_contra some
  obtain ⟨fields, parsed⟩ := parse_of_events serialize some
  obtain ⟨lead, rest, rfl, -⟩ := Json.parse_object_head parsed
  exact absurd (whitespace_of_trim blank (unit '{') (by simp)) (by decide)

theorem splitLines_frame (text : Text) :
    splitLines text = (frame lineFeed text).1 ++ [(frame lineFeed text).2] := by
  induction text with
  | nil => rfl
  | cons c rest ih =>
      rw [splitLines, frame, ih]
      split
      next => rfl
      next => cases (frame lineFeed rest).1 <;> rfl

theorem textEvents_frame (text : Text) :
    textEvents serialize text = (frame lineFeed text).1.flatMap (parseTranscriptLine serialize) ++
      parseTranscriptLine serialize (frame lineFeed text).2 := by
  have all : ∀ lines : List Text, (lines.filter fun line => line.trim != []).flatMap
      (parseTranscriptLine serialize) = lines.flatMap (parseTranscriptLine serialize) := by
    intro lines
    induction lines with
    | nil => rfl
    | cons line lines ih =>
        by_cases blank : line.trim = []
        · rw [List.filter_cons_of_neg (by simp [blank]), ih, List.flatMap_cons,
            events_of_blank serialize blank, List.nil_append]
        · rw [List.filter_cons_of_pos (by simpa using blank), List.flatMap_cons, ih,
            List.flatMap_cons]
  rw [textEvents, all, splitLines_frame, List.flatMap_append, List.flatMap_singleton]

theorem feed_free (bytes : Bytes) :
    (∀ line ∈ (frame feedByte bytes).1, feedByte ∉ line) ∧ feedByte ∉ (frame feedByte bytes).2 :=
  frame_free bytes

/-- Bytes are framed as their text is. -/
theorem frame_decodeLossy {lines : List Bytes} {rest : Bytes}
    (free : ∀ line ∈ lines, feedByte ∉ line) (restFree : feedByte ∉ rest) :
    frame lineFeed (Utf8.decodeLossy (joined feedByte lines ++ rest)) =
      (lines.map Utf8.decodeLossy, Utf8.decodeLossy rest) := by
  have textFree : ∀ {line : Bytes}, feedByte ∉ line → lineFeed ∉ Utf8.decodeLossy line :=
    fun lineFree member => lineFree (Utf8.ascii_of_decodeLossy member (by decide))
  have decoded : Utf8.decodeLossy (joined feedByte lines ++ rest) =
      joined lineFeed (lines.map Utf8.decodeLossy) ++ Utf8.decodeLossy rest := by
    induction lines with
    | nil => rfl
    | cons line lines ih =>
        have later := ih fun other member => free other (List.mem_cons_of_mem _ member)
        rw [joined_cons, List.append_assoc, List.append_assoc, List.singleton_append,
          Utf8.decodeLossy_ascii (by decide), later, List.map_cons, joined_cons]
        simp [feedByte, lineFeed]
  have linesFree : ∀ line ∈ lines.map Utf8.decodeLossy, lineFeed ∉ line := by
    intro line member
    obtain ⟨bytes, among, rfl⟩ := List.mem_map.mp member
    exact textFree (free bytes among)
  rw [decoded, frame_joined_append linesFree, frame_none (textFree restFree), List.append_nil]

/-- The events of a text that was read: those of its complete lines, and of what it has
of the next one. -/
theorem textEvents_decodeLossy (bytes : Bytes) :
    textEvents serialize (Utf8.decodeLossy bytes) =
      (frame feedByte bytes).1.flatMap (lineEvents serialize) ++
        lineEvents serialize (frame feedByte bytes).2 := by
  obtain ⟨linesFree, restFree⟩ := feed_free bytes
  have framed := frame_decodeLossy linesFree restFree
  rw [frame_joined] at framed
  rw [textEvents_frame, framed, List.flatMap_map]
  rfl

/-! ## The tailer -/

theorem lastIndexOf_none {byte : UInt8} {bytes : Bytes} (absent : byte ∉ bytes) :
    lastIndexOf byte bytes = none := by
  induction bytes with
  | nil => rfl
  | cons b rest ih =>
      rw [List.mem_cons, not_or] at absent
      rw [lastIndexOf, ih absent.2]
      exact if_neg (Ne.symm absent.1)

theorem lastIndexOf_some {byte : UInt8} (front : Bytes) {rest : Bytes} (absent : byte ∉ rest) :
    lastIndexOf byte (front ++ byte :: rest) = some front.length := by
  induction front with
  | nil =>
      rw [List.nil_append, lastIndexOf, lastIndexOf_none absent]
      exact if_pos rfl
  | cons b front ih =>
      rw [List.cons_append, lastIndexOf, ih]
      rfl


/-- What the tailer emitted and holds back of the bytes it was given. -/
def Tailed (bytes : Bytes) (tailer : Tailer) (emits : List TailEmit) : Prop :=
  tailer.stopped = false ∧ tailer.carry = (frame feedByte bytes).2 ∧
    emits.flatMap TailEmit.emitted = (frame feedByte bytes).1.flatMap (lineEvents serialize)

/-- One chunk: what is held back is framed together with it. -/
theorem onChunk_frame {tailer : Tailer} (running : tailer.stopped = false) (chunk : Bytes) :
    Tailed serialize (tailer.carry ++ chunk) (onChunk serialize tailer chunk).1
      (onChunk serialize tailer chunk).2 := by
  unfold onChunk
  rw [running, if_neg Bool.false_ne_true]
  dsimp only
  obtain ⟨linesFree, restFree⟩ := feed_free (tailer.carry ++ chunk)
  have whole := @frame_joined _ feedByte _ (tailer.carry ++ chunk)
  rcases List.eq_nil_or_concat (frame feedByte (tailer.carry ++ chunk)).1 with none | ⟨lines, last, some⟩
  · rw [none] at whole
    have absent : feedByte ∉ tailer.carry ++ chunk := by
      rw [← whole]
      exact restFree
    rw [lastIndexOf_none absent]
    refine ⟨rfl, ?_, ?_⟩
    · exact whole.symm
    · rw [none]
      rfl
  · rw [List.concat_eq_append] at some
    rw [some] at whole linesFree
    have cut : tailer.carry ++ chunk = (joined feedByte lines ++ last) ++
        feedByte :: (frame feedByte (tailer.carry ++ chunk)).2 := by
      conv_lhs => rw [← whole]
      simp [joined]
    have found := lastIndexOf_some (joined feedByte lines ++ last) restFree
    rw [← cut] at found
    rw [found]
    have taken : (tailer.carry ++ chunk).take (joined feedByte lines ++ last).length =
        joined feedByte lines ++ last := by
      rw [cut, List.take_left]
    have dropped : (tailer.carry ++ chunk).drop ((joined feedByte lines ++ last).length + 1) =
        (frame feedByte (tailer.carry ++ chunk)).2 := by
      conv_lhs => rw [cut]
      rw [← List.drop_drop, List.drop_left, List.drop_one, List.tail_cons]
    have events : textEvents serialize (Utf8.decodeLossy (joined feedByte lines ++ last)) =
        (frame feedByte (tailer.carry ++ chunk)).1.flatMap (lineEvents serialize) := by
      obtain ⟨earlierFree, lastFree⟩ := List.forall_mem_append.mp linesFree
      have framed := frame_joined_append earlierFree last
      rw [frame_none (lastFree last (List.mem_singleton_self _)), List.append_nil] at framed
      rw [textEvents_decodeLossy, framed, some, List.flatMap_append, List.flatMap_singleton]
    refine ⟨rfl, dropped, ?_⟩
    dsimp only
    rw [taken, ← events]
    split
    next empty => simp [List.isEmpty_iff.mp empty]
    next => simp [TailEmit.emitted]

theorem onChunk_carry {tailer : Tailer} (running : tailer.stopped = false) (bytes chunk : Bytes)
    (carried : tailer.carry = (frame feedByte bytes).2) :
    (onChunk serialize tailer chunk).1.stopped = false ∧
      (onChunk serialize tailer chunk).1.carry = (frame feedByte (bytes ++ chunk)).2 ∧
      (frame feedByte bytes).1.flatMap (lineEvents serialize) ++
          (onChunk serialize tailer chunk).2.flatMap TailEmit.emitted =
        (frame feedByte (bytes ++ chunk)).1.flatMap (lineEvents serialize) := by
  obtain ⟨stopped, carry, emitted⟩ := onChunk_frame serialize running chunk
  obtain ⟨linesFree, -⟩ := feed_free bytes
  have framed := frame_joined_append linesFree ((frame feedByte bytes).2 ++ chunk)
  rw [← List.append_assoc, frame_joined] at framed
  rw [framed, List.flatMap_append, ← carried, ← emitted]
  exact ⟨stopped, carry, rfl⟩

/-- A run over chunks emits what their whole holds of complete lines. -/
theorem run_chunks (chunks : List Bytes) {tailer : Tailer} (running : tailer.stopped = false)
    (bytes : Bytes) (carried : tailer.carry = (frame feedByte bytes).2) :
    (frame feedByte bytes).1.flatMap (lineEvents serialize) ++
        (tailer.run serialize (chunks.map .chunk)).2.flatMap TailEmit.emitted =
      (frame feedByte (bytes ++ chunks.flatten)).1.flatMap (lineEvents serialize) := by
  induction chunks generalizing tailer bytes with
  | nil => simp [Tailer.run]
  | cons chunk chunks ih =>
      obtain ⟨stopped, carry, emitted⟩ := onChunk_carry serialize running bytes chunk carried
      have later := ih stopped (bytes ++ chunk) carry
      rw [List.map_cons, Tailer.run, Tailer.receive, List.flatMap_append, ← List.append_assoc,
        emitted, later, List.flatten_cons, List.append_assoc]

theorem start_run (fromOffset : Nat) (chunks : List Bytes) :
    ((Tailer.start fromOffset).run serialize (chunks.map .chunk)).2.flatMap TailEmit.emitted =
      (frame feedByte chunks.flatten).1.flatMap (lineEvents serialize) :=
  @run_chunks serialize chunks (Tailer.start fromOffset) rfl [] rfl

/-! ## The backlog -/

theorem lastOf_all {α : Type} {count : Nat} {items : List α} (enough : items.length ≤ count) :
    lastOf count items = items := by
  unfold lastOf
  split
  next => rfl
  next => rw [Nat.sub_eq_zero_of_le enough, List.drop_zero]

/-- The bytes that the backlog read: none of a file that was still empty. -/
def seen (atStat atRead : Bytes) : Bytes := if atStat = [] then [] else atRead

/-- Under its window the backlog answers the events of what it read and that length. -/
theorem readBacklog_seen {atStat atRead : Bytes} (grew : atStat <+: atRead)
    (small : atStat.length ≤ backlogTailBytes) {lastN : Nat}
    (enough : (textEvents serialize (Utf8.decodeLossy (seen atStat atRead))).length ≤ lastN) :
    readBacklog serialize (.ok atStat.length)
        (fun offset => .ok (readFileFromMeasured atRead offset)) lastN =
      ⟨textEvents serialize (Utf8.decodeLossy (seen atStat atRead)), (seen atStat atRead).length,
        false, true⟩ := by
  cases atStat with
  | nil => rfl
  | cons b rest =>
      have some : atRead ≠ [] := by
        rintro rfl
        simp at grew
      rw [seen, if_neg (List.cons_ne_nil _ _)] at enough ⊢
      have start : (b :: rest).length - backlogTailBytes = 0 := Nat.sub_eq_zero_of_le small
      have length := List.length_pos_iff.mpr some
      have read : readFileFromMeasured atRead 0 = ⟨Utf8.decodeLossy atRead, atRead.length⟩ := by
        rw [readFileFromMeasured, Nat.zero_min, if_neg (by omega), List.drop_zero]
      unfold readBacklog
      dsimp only [List.length_cons] at start ⊢
      simp only [start, read]
      simp [lastOf_all enough]

/-! ## The line that the read cuts -/

/-- Bytes that read as nothing but JSON's white space. -/
def Blank (bytes : Bytes) : Prop := AllSpace (Utf8.decodeLossy bytes)

/-- One line that reads as a JSON value. -/
structure IsRecord (record : Bytes) : Prop where
  oneLine : feedByte ∉ record
  json : ∃ value, Json.parse (Utf8.decodeLossy record) = some value

theorem replacement_not_space : Json.isSpace Utf8.replacement = false := by decide

theorem blank_events {bytes : Bytes} (blank : Blank bytes) : lineEvents serialize bytes = [] := by
  unfold lineEvents parseTranscriptLine
  rw [Json.parse_blank blank]

/-- A blank side of a cut cuts no character. -/
theorem decodeLossy_blank {before after : Bytes} (blank : Blank before ∨ Blank after) :
    Utf8.decodeLossy (before ++ after) = Utf8.decodeLossy before ++ Utf8.decodeLossy after := by
  rcases Utf8.decodeLossy_cut before after with split | ⟨⟨front, isFront⟩, behind, isBehind⟩
  · exact split
  · have space : Json.isSpace Utf8.replacement = true := by
      rcases blank with blank | blank
      · exact blank _ (by simp [isFront])
      · exact blank _ (by simp [isBehind])
    exact absurd space (by decide)

theorem events_after_blank {before after : Bytes} (record : IsRecord (before ++ after))
    (blank : Blank before) : lineEvents serialize (before ++ after) = lineEvents serialize after := by
  obtain ⟨value, read⟩ := record.json
  have alone := read
  rw [decodeLossy_blank (.inl blank)] at alone
  unfold lineEvents parseTranscriptLine
  rw [read, Json.parse_lead blank alone]

theorem events_before_blank {before after : Bytes} (record : IsRecord (before ++ after))
    (blank : Blank after) : lineEvents serialize (before ++ after) = lineEvents serialize before := by
  obtain ⟨value, read⟩ := record.json
  have alone := read
  rw [decodeLossy_blank (.inr blank)] at alone
  unfold lineEvents parseTranscriptLine
  rw [read, Json.parse_trail blank alone]

/-- Neither side of a cut inside a record stands for anything. -/
theorem events_of_cut {before after : Bytes} (record : IsRecord (before ++ after))
    (notBlank : ¬Blank before) (notBlank' : ¬Blank after) :
    lineEvents serialize before = [] ∧ lineEvents serialize after = [] := by
  obtain ⟨value, read⟩ := record.json
  rcases Utf8.decodeLossy_cut before after with split | ⟨⟨front, isFront⟩, behind, isBehind⟩
  · rw [split] at read
    constructor
    · by_contra some
      obtain ⟨fields, parsed⟩ := parse_of_events serialize some
      exact notBlank' (Json.space_after_object read parsed)
    · by_contra some
      obtain ⟨fields, parsed⟩ := parse_of_events serialize some
      exact notBlank (Json.space_before_object read parsed)
  · constructor
    · by_contra some
      obtain ⟨fields, parsed⟩ := parse_of_events serialize some
      have done := Json.parse_object_done parsed
      rw [isFront, Json.scan_append, Option.bind_eq_some_iff] at done
      obtain ⟨state, -, last⟩ := done
      rw [Json.scan_cons] at last
      cases state <;> cases last
    · by_contra some
      obtain ⟨fields, parsed⟩ := parse_of_events serialize some
      obtain ⟨lead, rest, split, space⟩ := Json.parse_object_head parsed
      rw [isBehind] at split
      cases lead with
      | nil =>
          rw [List.nil_append, List.cons.injEq] at split
          exact absurd split.1 (by decide)
      | cons c lead =>
          rw [List.cons_append, List.cons.injEq] at split
          have first := space c List.mem_cons_self
          rw [← split.1] at first
          exact absurd first (by decide)

/-- The line that is cut between `before` and `after` is not lost: it stands for nothing,
or nothing of it was read, or all of it was and its end has come. -/
def CutSafely (before after : Bytes) (ended : Prop) : Prop :=
  lineEvents serialize (before ++ after) = [] ∨ Blank before ∨ (Blank after ↔ ended)

/-- What follows in the line that a place of a file is in. -/
def restOfLine (file : Bytes) (place : Nat) : Bytes := (file.drop place).takeWhile (· ≠ feedByte)

theorem cut_line {before after : Bytes} (record : before = [] ∨ IsRecord (before ++ after)) :
    (lineEvents serialize before ++ lineEvents serialize after =
        lineEvents serialize (before ++ after) ↔ CutSafely serialize before after True) ∧
      (lineEvents serialize before = [] ↔ CutSafely serialize before after False) := by
  by_cases blank : Blank before
  · have nothing := blank_events serialize blank
    have same : lineEvents serialize (before ++ after) = lineEvents serialize after := by
      rcases record with rfl | record
      · rfl
      · exact events_after_blank serialize record blank
    rw [nothing, List.nil_append]
    exact ⟨⟨fun _ => .inr (.inl blank), fun _ => same.symm⟩, ⟨fun _ => .inr (.inl blank), fun _ => rfl⟩⟩
  · have isRecord : IsRecord (before ++ after) := by
      rcases record with rfl | record
      · exact absurd (fun c member => nomatch member) blank
      · exact record
    by_cases blankAfter : Blank after
    · have nothing := blank_events serialize blankAfter
      have same := events_before_blank serialize isRecord blankAfter
      rw [nothing, List.append_nil, CutSafely, CutSafely, same]
      simp [blank, blankAfter]
    · obtain ⟨noneBefore, noneAfter⟩ := events_of_cut serialize isRecord blank blankAfter
      rw [noneBefore, noneAfter, List.append_nil]
      refine ⟨⟨fun same => .inl same.symm, ?_⟩, ⟨fun _ => .inr (.inr (by simp [blankAfter])), ?_⟩⟩
      · rintro (none | isBlank | isEnd)
        · exact none.symm
        · exact absurd isBlank blank
        · exact absurd (isEnd.mpr trivial) blankAfter
      · exact fun _ => rfl

/-- The first line of what follows a place. -/
theorem takeWhile_frame {bytes line : Bytes} {lines : List Bytes}
    (framed : (frame feedByte bytes).1 = line :: lines) :
    bytes.takeWhile (· ≠ feedByte) = line := by
  obtain ⟨linesFree, -⟩ := feed_free bytes
  have whole := @frame_joined _ feedByte _ bytes
  rw [framed] at whole linesFree
  rw [← whole, joined_cons, List.append_assoc, List.append_assoc, List.singleton_append,
    List.takeWhile_append_of_pos, List.takeWhile_cons_of_neg (by simp), List.append_nil]
  intro b member
  have other : b ≠ feedByte := by
    rintro rfl
    exact linesFree line List.mem_cons_self member
  simpa using other

theorem frame_eq_nil {bytes : Bytes} : (frame feedByte bytes).1 = [] ↔ feedByte ∉ bytes := by
  constructor
  · intro none
    have whole := @frame_joined _ feedByte _ bytes
    rw [none] at whole
    rw [← whole]
    exact (feed_free bytes).2
  · intro absent
    rw [frame_none absent]

/-- A piece of a file of lines, and the line that its end is in. -/
theorem line_at {records : List Bytes} (free : ∀ record ∈ records, feedByte ∉ record)
    {piece : Bytes} (within : piece <+: joined feedByte records) :
    (frame feedByte piece).2 = [] ∨
      (frame feedByte piece).2 ++ restOfLine (joined feedByte records) piece.length ∈ records := by
  obtain ⟨later, whole⟩ := within
  have framed := frame_joined_append free ([] : Bytes)
  rw [restOfLine, ← whole, List.drop_left]
  rw [List.append_nil, ← whole, frame_append] at framed
  cases lines : (frame feedByte later).1 with
  | nil =>
      rw [lines] at framed
      have nothing := (Prod.ext_iff.mp framed).2
      exact .inl (List.append_eq_nil_iff.mp nothing).1
  | cons line rest =>
      rw [lines] at framed
      have records' := (Prod.ext_iff.mp framed).1
      dsimp only [frame] at records'
      rw [List.append_nil] at records'
      right
      rw [takeWhile_frame lines, ← records']
      simp

/-! ## The chat -/

section Chat

variable {records : List Bytes} {atStat atRead final : Bytes} {chunks : List Bytes} {lastN : Nat}

/-- What the chat shows is what the backlog read, line by line and the cut one too, and
then the complete lines of the rest. -/
theorem chatEvents_seen (grew : atStat <+: atRead) (small : atStat.length ≤ backlogTailBytes)
    (enough : (textEvents serialize (Utf8.decodeLossy (seen atStat atRead))).length ≤ lastN) :
    chatEvents serialize atStat atRead lastN chunks =
      (frame feedByte (seen atStat atRead)).1.flatMap (lineEvents serialize) ++
        (lineEvents serialize (frame feedByte (seen atStat atRead)).2 ++
          (frame feedByte chunks.flatten).1.flatMap (lineEvents serialize)) := by
  rw [chatEvents, readBacklog_seen serialize grew small enough]
  dsimp only
  rw [start_run, textEvents_decodeLossy, List.append_assoc]

/-- The chat shows exactly the events of the file's complete lines, each once and in
order, exactly where the line that the backlog's read cuts is not lost. -/
theorem chatEvents_iff (isRecord : ∀ record ∈ records, IsRecord record)
    (written : final <+: joined feedByte records) (grew : atStat <+: atRead)
    (grewLater : atRead <+: final) (small : atStat.length ≤ backlogTailBytes)
    (grown : chunks.flatten = final.drop (seen atStat atRead).length)
    (enough : (textEvents serialize (Utf8.decodeLossy (seen atStat atRead))).length ≤ lastN) :
    chatEvents serialize atStat atRead lastN chunks =
        (frame feedByte final).1.flatMap (lineEvents serialize) ↔
      CutSafely serialize (frame feedByte (seen atStat atRead)).2
        (restOfLine (joined feedByte records) (seen atStat atRead).length)
        (feedByte ∈ final.drop (seen atStat atRead).length) := by
  rw [chatEvents_seen serialize grew small enough, grown]
  have within : seen atStat atRead <+: final := by
    unfold seen
    split
    · exact List.nil_prefix
    · exact grewLater
  generalize seen atStat atRead = piece at *
  obtain ⟨later, rfl⟩ := within
  have recordFree := fun record member => (isRecord record member).oneLine
  have record : (frame feedByte piece).2 = [] ∨ IsRecord ((frame feedByte piece).2 ++
      restOfLine (joined feedByte records) piece.length) :=
    (line_at recordFree ((List.prefix_append _ _).trans written)).imp_right (isRecord _)
  obtain ⟨whenEnded, whenOpen⟩ := cut_line serialize record
  rw [List.drop_left, frame_append]
  cases lines : (frame feedByte later).1 with
  | nil =>
      have absent := frame_eq_nil.mp lines
      simp only [List.flatMap_nil, List.append_nil, absent]
      rw [← whenOpen, List.append_right_eq_self]
  | cons line rest =>
      have present : feedByte ∈ later := by
        by_contra absent
        rw [frame_eq_nil.mpr absent] at lines
        cases lines
      have isLine : restOfLine (joined feedByte records) piece.length = line := by
        obtain ⟨behind, whole⟩ := written
        rw [restOfLine, ← whole, List.append_assoc, List.drop_left]
        have framed := @frame_append _ feedByte _ later behind
        cases behindLines : (frame feedByte behind).1 <;>
          · rw [behindLines, lines] at framed
            exact takeWhile_frame (Prod.ext_iff.mp framed).1
      rw [isLine] at whenEnded ⊢
      simp only [present, List.flatMap_append, List.flatMap_cons]
      rw [← whenEnded, List.append_right_inj, ← List.append_assoc, List.append_left_inj]

end Chat

end Readers

/-- A user record, of which the backlog reads the first byte. -/
def userRecord : Bytes :=
  Utf8.encode (lit "\x7b\"type\":\"user\",\"message\":\x7b\"content\":\"a\"\x7d\x7d")

def userFile : Bytes := userRecord ++ [feedByte]

theorem userRecord_isRecord : IsRecord userRecord :=
  ⟨by decide +kernel, Option.isSome_iff_exists.mp (by decide +kernel)⟩

/-- The message is in the file and in none of the two readers' events. -/
theorem chatEvents_lost : chatEvents (fun _ => []) (userFile.take 1) (userFile.take 1) 1
    [userFile.drop 1] ≠ (frame feedByte userFile).1.flatMap (lineEvents fun _ => []) := by
  intro same
  have none : (chatEvents (fun _ => []) (userFile.take 1) (userFile.take 1) 1
      [userFile.drop 1]).length = 0 := by
    decide +kernel
  have one : ((frame feedByte userFile).1.flatMap (lineEvents fun _ => [])).length = 1 := by
    decide +kernel
  rw [same, one] at none
  cases none

theorem chatEvents_iff_userFile :
    chatEvents (fun _ => []) (userFile.take 1) (userFile.take 1) 1 [userFile.drop 1] =
        (frame feedByte userFile).1.flatMap (lineEvents fun _ => []) ↔
      CutSafely (fun _ => []) (frame feedByte (seen (userFile.take 1) (userFile.take 1))).2
        (restOfLine (joined feedByte [userRecord]) (seen (userFile.take 1) (userFile.take 1)).length)
        (feedByte ∈ userFile.drop (seen (userFile.take 1) (userFile.take 1)).length) :=
  chatEvents_iff (fun _ => [])
    (fun record member => List.mem_singleton.mp member ▸ userRecord_isRecord)
    (List.prefix_refl _) (List.prefix_refl _) (List.take_prefix _ _)
    (by decide +kernel) (by decide +kernel) (by decide +kernel)

end Ccrc.Transcript
