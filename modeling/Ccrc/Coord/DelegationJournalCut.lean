import Ccrc.Coord.DelegationJournalReaderProperties

/-! A journal that is cut anywhere and read in pieces of any length: which records are
read, where their lines stand, what the tail is, and that the journal without it is whole. -/

set_option autoImplicit false

namespace Ccrc.Coord

open Library
open Library.Text (lit unit)

/-- Records in chain order, each of them built from fields of the declared types. -/
structure DelegationJournal (complete : Bool) where
  records : List DelegationJournalRecord
  built : ∀ record ∈ records, ∃ fields : DelegationJournalRecordFields,
    IsTyped fields.entry ∧ buildDelegationJournalRecord fields = .ok record
  chained : Leads complete none records

/-- Lines that stand side by side from a place on. -/
def Tiles : Nat → List DelegationJournalLine → Prop
  | _, [] => True
  | start, line :: rest => line.offset = start ∧ Tiles (start + line.length) rest

/-- The bytes of the records whose line feed is inside. -/
def wholeBytes (parts : List Bytes) (whole : Nat) : Bytes := (parts.take whole).flatten

/-- What is read of a journal of these records, written as these parts, when so many of its
bytes are left. -/
structure ReadsCut (complete : Bool) (records : List DelegationJournalRecord)
    (parts : List Bytes) (count : Nat) (onTail : Bool) (reading : DelegationJournalReading)
    (whole : Nat) : Prop where
  inside : ∀ place < parts.length,
    place < whole ↔ (wholeBytes parts (place + 1)).length ≤ count
  records : List.Forall₂ DelegationJournalRecord.Same (reading.lines.map (·.record))
    (records.take whole)
  bytes : reading.lines.map (fun line => line.bytes ++ [newline]) = parts.take whole
  lengths : ∀ line ∈ reading.lines, line.length = line.bytes.length + 1
  tiles : Tiles 0 reading.lines
  opens : wholeBytes parts whole <+: parts.flatten.take count
  ended :
    let offset := (wholeBytes parts whole).length
    let bytes := (parts.flatten.take count).drop offset
    let code : DelegationJournalErrorCode :=
      if parts[whole]? = some (bytes ++ [newline]) then .missingFinalLf else .tornTail
    reading.ended =
      if bytes = [] then .ok none
      else if onTail then .ok (some { offset, bytes, sha256 := sha256Hex bytes, code })
      else .error code
  parsed : parseDelegationJournal
    ((parts.flatten.take count).take (wholeBytes parts whole).length)
    { completeFromStart := complete } = .ok (reading.lines.map (·.record))

section Parts

variable {records again : List DelegationJournalRecord} {lines : List Bytes}

theorem flatten_parts (lines : List Bytes) :
    (lines.map (· ++ [newline])).flatten = joined newline lines := List.flatMap_def.symm

theorem wholeBytes_parts (lines : List Bytes) (whole : Nat) :
    wholeBytes (lines.map (· ++ [newline])) whole = joined newline (lines.take whole) := by
  rw [wholeBytes, ← List.map_take, flatten_parts]

theorem encode_lines (each : List.Forall₂ DelegationJournalRecord.HasLine records lines) :
    records.mapM encodeDelegationJournalRecord = .ok (lines.map (· ++ [newline])) := by
  rw [mapM_eq_ok_iff, List.forall₂_map_right_iff]
  exact each.imp fun _ _ => hasLine_encode

theorem tiles_placed {start : Nat} {yielded : List DelegationJournalLine}
    (places : yielded.map (fun line => (line.offset, line.bytes)) = placed start lines)
    (lengths : ∀ line ∈ yielded, line.length = line.bytes.length + 1) :
    Tiles start yielded := by
  induction yielded generalizing start lines with
  | nil => exact trivial
  | cons line yielded ih =>
      cases lines with
      | nil => cases places
      | cons first lines =>
          rw [List.map_cons, placed, List.cons.injEq, Prod.mk.injEq] at places
          obtain ⟨⟨offset, bytes⟩, later⟩ := places
          obtain ⟨length, rest⟩ := List.forall_mem_cons.mp lengths
          rw [Tiles, length, bytes, ← Nat.add_assoc]
          exact ⟨offset, ih later rest⟩

/-- Bytes behind the last line feed are the next record without its line feed, or torn. -/
theorem tornTail_code (built : ∀ record ∈ records, record.Built)
    (each : List.Forall₂ DelegationJournalRecord.HasLine records lines) {whole : Nat}
    {tail line : Bytes} (isLine : lines[whole]? = some line) (starts : tail <+: line) :
    delegationTornTailError tail =
      if (lines.map (· ++ [newline]))[whole]? = some (tail ++ [newline]) then .missingFinalLf
      else .tornTail := by
  have same_iff : (lines.map (· ++ [newline]))[whole]? = some (tail ++ [newline]) ↔ tail = line := by
    rw [List.getElem?_map, isLine, Option.map_some, Option.some.injEq, List.append_left_inj,
      eq_comm]
  obtain ⟨record, isRecord, text, hasText, rfl⟩ :=
    forall₂_mem_right each (List.mem_of_getElem? isLine)
  rw [delegationTornTailError]
  by_cases same : tail = Utf8.encode text
  · obtain ⟨again, decoded, -⟩ := decode_line (built record isRecord) hasText
    rw [if_pos (same_iff.mpr same), same, decoded]
  · obtain ⟨after, cut⟩ := starts
    have short : after ≠ [] := by
      rintro rfl
      rw [List.append_nil] at cut
      exact same cut
    rw [if_neg (mt same_iff.mp same)]
    cases decoded : decodeDelegationJournalLine tail with
    | ok again => exact absurd decoded (decode_cut hasText cut short again)
    | error code => rfl

/-- Whole lines are parsed as the records that they hold. -/
theorem parse_lines {complete : Bool} (free : ∀ line ∈ lines, newline ∉ line)
    (sequences : ∀ record ∈ again, isSequence record.sequence = true)
    (decoded : List.Forall₂ (fun line record => decodeDelegationJournalLine line = .ok record)
      lines again)
    (leads : Leads complete none again) :
    parseDelegationJournal (joined newline lines) { completeFromStart := complete } = .ok again := by
  have framed := frame_joined_append free []
  rw [List.append_nil] at framed
  obtain ⟨last, accepted⟩ := @acceptLines_records _ _ complete {} sequences decoded leads
  simp only [parseDelegationJournal, push_frame, List.nil_append, framed, frame, List.append_nil,
    DelegationJournalLineSplitter.leftover, accepted, DelegationJournalChain.finish, bind,
    Except.bind, pure, Except.pure]
  rfl

end Parts

/-- Every cut of a journal is read exactly: the records whose line feed is inside, the
places of their lines, the tail with its code, and the journal without it. -/
theorem readDelegationJournalLines_exact {complete : Bool} (journal : DelegationJournal complete) :
    ∃ parts, journal.records.mapM encodeDelegationJournalRecord = .ok parts ∧
      ∀ (count : Nat) (handle : DelegationReadHandle) (chunkBytes : Nat) (onTail : Bool),
        0 < chunkBytes → handle.bytes = parts.flatten.take count →
        ∃ whole ≤ parts.length, ReadsCut complete journal.records parts count onTail
          (readDelegationJournalLines handle chunkBytes onTail) whole := by
  have built : ∀ record ∈ journal.records, record.Built := by
    intro record member
    obtain ⟨fields, typed, isBuilt⟩ := journal.built record member
    exact (build_built typed isBuilt).1
  obtain ⟨lines, each⟩ := exists_lines built
  refine ⟨_, encode_lines each, fun count handle chunkBytes onTail positive bytes => ?_⟩
  have free := lines_free each
  obtain ⟨whole, bound, framed, opens, next⟩ := frame_take free count
  obtain ⟨again, decoded, same⟩ := exists_again
    (fun record member => built record (List.mem_of_mem_take member)) (List.forall₂_take whole each)
  obtain ⟨yielded, isYielded, isAgain, places, lengths⟩ := yieldLines_records 0 decoded
  rw [flatten_parts] at bytes
  have read := @readDelegationJournalLines_whole handle chunkBytes positive onTail
  rw [bytes, framed] at read
  dsimp only at read
  rw [isYielded] at read
  refine ⟨whole, by rwa [List.length_map], ?_⟩
  rw [read]
  have sequences : ∀ record ∈ again, isSequence record.sequence = true := by
    intro record member
    obtain ⟨held, isHeld, areSame⟩ := forall₂_mem_left same member
    rw [areSame.sequence]
    exact (built held (List.mem_of_mem_take isHeld)).sequence
  have leads := leads_same same (leads_take journal.chained whole)
  have cutLength : ((joined newline lines).take count).take (joined newline (lines.take whole)).length =
      joined newline (lines.take whole) := List.prefix_iff_eq_take.mp opens |>.symm
  constructor
  case inside =>
    intro place inside
    rw [List.length_map] at inside
    rw [wholeBytes_parts]
    exact lt_whole_iff opens next inside
  case records => rw [isAgain]; exact same
  case bytes =>
    have held := congrArg (List.map (·.2)) places
    rw [List.map_map, placed_lines] at held
    rw [← List.map_take, ← held, List.map_map]
    rfl
  case lengths => exact lengths
  case tiles => exact tiles_placed places lengths
  case opens =>
    rw [wholeBytes_parts, flatten_parts]
    exact opens
  case ended =>
    dsimp only
    rw [wholeBytes_parts, flatten_parts]
    generalize isTail : ((joined newline lines).take count).drop
      (joined newline (lines.take whole)).length = tail at next ⊢
    have length := congrArg List.length isTail
    rw [List.length_drop] at length
    by_cases nothing : tail = []
    · simp only [nothing, if_true, bind, Except.bind, pure, Except.pure]
    · have isLine : ∃ line, lines[whole]? = some line := by
        refine ⟨_, List.getElem?_eq_getElem (Nat.lt_of_not_le fun all => nothing ?_)⟩
        rw [List.take_of_length_le all] at isTail
        rw [← isTail]
        exact List.drop_of_length_le (by rw [List.length_take]; exact Nat.min_le_right _ _)
      obtain ⟨line, isLine⟩ := isLine
      have offset : ((joined newline lines).take count).length - tail.length =
          (joined newline (lines.take whole)).length := by
        have fits := opens.length_le
        omega
      rw [← tornTail_code built each isLine (next line isLine)]
      simp only [nothing, offset, if_false, bind, Except.bind, pure, Except.pure]
  case parsed =>
    rw [wholeBytes_parts, flatten_parts, cutLength, isAgain]
    exact parse_lines (fun line member => free line (List.mem_of_mem_take member)) sequences decoded
      leads

/-- A handle that serves all that is asked for. -/
def DelegationReadHandle.full (bytes : Bytes) : DelegationReadHandle :=
  { bytes
    served := fun _ length => length
    some_ := fun _ asked => asked
    within := fun _ _ => Nat.le_refl _ }

def seenFields : DelegationJournalRecordFields :=
  { sequence := 1
    acceptedAt := lit "2026-10-14T00:15:00.000Z"
    previousDigest := none
    entry := .object [(lit "kind", .string (lit "lease-carrier-seen")),
      (lit "leaseId", .string (lit "lease")), (lit "generation", number 1),
      (lit "at", .string (lit "2026-10-14T00:15:00.000Z"))] }

theorem readDelegationJournalLines_seen :
    ∃ record parts, buildDelegationJournalRecord seenFields = .ok record ∧
      [record].mapM encodeDelegationJournalRecord = .ok parts ∧
      ∃ whole ≤ parts.length, ReadsCut true [record] parts 40 true
        (readDelegationJournalLines (.full (parts.flatten.take 40)) 7 true) whole := by
  have some_ : (buildDelegationJournalRecord seenFields).toOption.isSome = true := by
    decide +kernel
  have typed : IsTyped seenFields.entry := by
    refine isTyped_object.mpr ⟨by decide, ?_⟩
    simp only [List.forall_mem_cons, List.not_mem_nil, false_implies, implies_true, and_true]
    exact ⟨isTyped_string _, isTyped_string _, isTyped_number 1, isTyped_string _⟩
  cases built : buildDelegationJournalRecord seenFields with
  | error thrown =>
      rw [built] at some_
      cases some_
  | ok record =>
      obtain ⟨-, sequence, previous⟩ := build_built typed built
      obtain ⟨parts, encoded, reads⟩ := @readDelegationJournalLines_exact true {
        records := [record]
        built := by
          intro held member
          obtain rfl := List.mem_singleton.mp member
          exact ⟨seenFields, typed, built⟩
        chained := ⟨fun _ => ⟨sequence, previous⟩, trivial⟩ }
      exact ⟨record, parts, rfl, encoded, reads 40 _ 7 true (by decide) rfl⟩

end Ccrc.Coord
