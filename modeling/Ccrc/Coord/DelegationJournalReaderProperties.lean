import Ccrc.Coord.DelegationJournalCodec
import Ccrc.Coord.DelegationJournalReader
import Ccrc.Library.Framing

/-! The reader of the delegation journal under every cut of its file and every length of its
reads: the records whose line feed is inside, the places of their lines, and the tail. -/

set_option autoImplicit false

namespace Ccrc.Coord

open Library
open Library.Text (lit unit)

/-! ## The splitter -/

theorem splitLoop_frame (lines : List Bytes) {line : Bytes} (free : newline ∉ line)
    (rest : Bytes) :
    splitLoop lines line rest =
      (lines ++ (frame newline (line ++ rest)).1, (frame newline (line ++ rest)).2) := by
  induction rest generalizing lines line with
  | nil => rw [splitLoop, List.append_nil, frame_none free, List.append_nil]
  | cons byte rest ih =>
      rw [splitLoop]
      split
      next isEnd =>
          rw [isEnd, frame_line free, ih _ List.not_mem_nil, List.nil_append, List.append_assoc,
            List.singleton_append]
      next other =>
          have longer : newline ∉ line ++ [byte] := by
            rw [List.mem_append, List.mem_singleton, not_or]
            exact ⟨free, Ne.symm other⟩
          rw [ih _ longer, List.append_assoc, List.singleton_append]

theorem push_frame (splitter : DelegationJournalLineSplitter) (chunk : Bytes) :
    splitter.push chunk = ({ pending := (frame newline (splitter.pending ++ chunk)).2 },
      (frame newline (splitter.pending ++ chunk)).1) := by
  rw [DelegationJournalLineSplitter.push, splitLoop_frame [] List.not_mem_nil, List.nil_append,
    List.nil_append]

/-! ## Chunks -/

/-- A reading goes on where another one ended, if it ended without an error. -/
def continued {State Next : Type} (taken : List DelegationJournalLine × JournalRead State)
    (next : State → List DelegationJournalLine × JournalRead Next) :
    List DelegationJournalLine × JournalRead Next :=
  match taken with
  | (lines, .error code) => (lines, .error code)
  | (lines, .ok state) => (lines ++ (next state).1, (next state).2)

theorem yieldLines_append (start : Nat) (first second : List Bytes) :
    yieldLines start (first ++ second) =
      continued (yieldLines start first) fun start => yieldLines start second := by
  induction first generalizing start with
  | nil => rfl
  | cons line first ih =>
      rw [List.cons_append, yieldLines, yieldLines]
      cases decodeDelegationJournalLine line with
      | error code => rfl
      | ok record =>
          dsimp only
          rw [ih]
          rcases yieldLines (start + line.length + 1) first with ⟨lines, code | state⟩ <;> rfl

section Loop

variable {handle : DelegationReadHandle} {chunkBytes : Nat}

/-- Every read moves on, and answers the bytes at its place. -/
theorem read_piece (positive : 0 < chunkBytes) {position : Nat}
    (inside : position < handle.bytes.length) :
    let chunk := handle.read position (min chunkBytes (handle.bytes.length - position))
    chunk ≠ [] ∧ position + chunk.length ≤ handle.bytes.length ∧
      chunk ++ handle.bytes.drop (position + chunk.length) = handle.bytes.drop position := by
  intro chunk
  have asked : 0 < min chunkBytes (handle.bytes.length - position) := by omega
  have served := handle.some_ inside asked
  have length : chunk.length =
      min (handle.served position (min chunkBytes (handle.bytes.length - position)))
        (handle.bytes.length - position) := by
    simp only [chunk, DelegationReadHandle.read, List.length_take, List.length_drop]
  refine ⟨List.ne_nil_of_length_pos (by omega), by omega, ?_⟩
  have whole := List.take_append_drop
    (handle.served position (min chunkBytes (handle.bytes.length - position)))
    (handle.bytes.drop position)
  rw [← List.drop_drop]
  have same : (handle.bytes.drop position).drop chunk.length =
      (handle.bytes.drop position).drop
        (handle.served position (min chunkBytes (handle.bytes.length - position))) := by
    rw [length]
    by_cases more : handle.served position (min chunkBytes (handle.bytes.length - position)) ≤
        handle.bytes.length - position
    · rw [Nat.min_eq_left more]
    · rw [Nat.min_eq_right (by omega), List.drop_of_length_le (by rw [List.length_drop]),
        List.drop_of_length_le (by rw [List.length_drop]; omega)]
  rw [same]
  exact whole

/-- The lines that a reading goes through are those of the bytes that are left, behind what
it holds of a line. -/
theorem readLoop_reads (positive : 0 < chunkBytes) {fuel : Nat} {cursor : DelegationJournalCursor}
    (free : newline ∉ cursor.splitter.pending) (inside : cursor.position ≤ handle.bytes.length)
    (enough : handle.bytes.length - cursor.position < fuel) :
    let framed := frame newline (cursor.splitter.pending ++ handle.bytes.drop cursor.position)
    readLoop handle chunkBytes fuel cursor =
      continued (yieldLines cursor.lineStart framed.1) fun lineStart =>
        ([], .ok {
          splitter := { pending := framed.2 }, position := handle.bytes.length, lineStart }) := by
  induction fuel generalizing cursor with
  | zero => omega
  | succ fuel ih =>
      intro framed
      unfold readLoop
      dsimp only
      split
      next more =>
          obtain ⟨some_, within, piece⟩ := @read_piece handle _ positive _ more
          generalize handle.read cursor.position
            (min chunkBytes (handle.bytes.length - cursor.position)) = chunk at some_ within piece
          have long := List.length_pos_iff.mpr some_
          rw [if_neg some_, push_frame]
          dsimp only
          have pieces := @frame_pieces _ newline _ cursor.splitter.pending chunk
            (handle.bytes.drop (cursor.position + chunk.length))
          rw [piece] at pieces
          have whole : framed = _ := pieces
          rw [whole]
          dsimp only
          rw [yieldLines_append]
          cases yieldLines cursor.lineStart (frame newline (cursor.splitter.pending ++ chunk)).1 with
          | mk taken ended =>
              cases ended with
              | error code => rfl
              | ok lineStart =>
                  have later := @ih { splitter := { pending := (frame newline
                    (cursor.splitter.pending ++ chunk)).2 }
                                      position := cursor.position + chunk.length, lineStart }
                    (frame_free _).2 within (by dsimp only; omega)
                  dsimp only at later ⊢
                  rw [later]
                  simp only [continued]
                  rcases yieldLines lineStart _ with ⟨lines, code | state⟩ <;> simp
      next all =>
          have nothing : handle.bytes.drop cursor.position = [] :=
            List.drop_of_length_le (by omega)
          have same : cursor.position = handle.bytes.length := by omega
          have framed_eq : framed = ([], cursor.splitter.pending) := by
            rw [← frame_none free]
            simp only [framed, nothing, List.append_nil]
          rw [framed_eq]
          obtain ⟨⟨pending⟩, position, lineStart⟩ := cursor
          dsimp only at same
          rw [same]
          rfl

/-- However long the reads are, the file is read as if it were one. -/
theorem readDelegationJournalLines_whole (positive : 0 < chunkBytes) (onTail : Bool) :
    readDelegationJournalLines handle chunkBytes onTail =
      { lines := (yieldLines 0 (frame newline handle.bytes).1).1
        ended := do
          let _ ← (yieldLines 0 (frame newline handle.bytes).1).2
          let tail := (frame newline handle.bytes).2
          if tail = [] then return none
          else
            let code := delegationTornTailError tail
            if onTail then
              return some {
                offset := handle.bytes.length - tail.length, bytes := tail, sha256 := sha256Hex tail
                code }
            else .error code } := by
  have read := @readLoop_reads handle chunkBytes positive (handle.bytes.length + 1) {}
    List.not_mem_nil (Nat.zero_le _) (by dsimp only; omega)
  dsimp only at read
  rw [List.nil_append, List.drop_zero] at read
  rw [readDelegationJournalLines, read]
  rcases yieldLines 0 (frame newline handle.bytes).1 with ⟨lines, code | state⟩
  · rfl
  · simp only [continued, List.append_nil]
    rfl

end Loop

/-! ## Records -/

/-- The bytes of a record's line, without its line feed. -/
def DelegationJournalRecord.HasLine (record : DelegationJournalRecord) (line : Bytes) : Prop :=
  ∃ text, record.Line text ∧ line = Utf8.encode text

section Records

variable {record : DelegationJournalRecord} {line : Bytes}
variable {records again : List DelegationJournalRecord} {lines : List Bytes}

theorem hasLine_encode (hasLine : record.HasLine line) :
    encodeDelegationJournalRecord record = .ok (line ++ [newline]) := by
  obtain ⟨text, isLine, rfl⟩ := hasLine
  rw [encodeDelegationJournalRecord, isLine.canonical]
  rfl

theorem hasLine_free (hasLine : record.HasLine line) : newline ∉ line := by
  obtain ⟨text, isLine, rfl⟩ := hasLine
  exact Utf8.not_mem_encode isLine.formed (by decide) fun member => isLine.plain _ member (by decide)

theorem hasLine_ne (hasLine : record.HasLine line) : line ≠ [] := by
  obtain ⟨text, isLine, rfl⟩ := hasLine
  obtain ⟨inside, rfl⟩ := isLine.braces
  rw [Utf8.encode_cons (by decide)]
  exact List.cons_ne_nil _ _

/-- Every record that was built has a line. -/
theorem exists_lines (built : ∀ record ∈ records, record.Built) :
    ∃ lines, List.Forall₂ DelegationJournalRecord.HasLine records lines := by
  induction records with
  | nil => exact ⟨[], .nil⟩
  | cons record records ih =>
      obtain ⟨first, rest⟩ := List.forall_mem_cons.mp built
      obtain ⟨text, isLine⟩ := first.line
      obtain ⟨lines, each⟩ := ih rest
      exact ⟨_ :: lines, .cons ⟨text, isLine, rfl⟩ each⟩

theorem lines_free (each : List.Forall₂ DelegationJournalRecord.HasLine records lines) :
    ∀ line ∈ lines, newline ∉ line := by
  intro line member
  obtain ⟨record, -, hasLine⟩ := forall₂_mem_right each member
  exact hasLine_free hasLine

/-- The lines are read back as the records. -/
theorem exists_again (built : ∀ record ∈ records, record.Built)
    (each : List.Forall₂ DelegationJournalRecord.HasLine records lines) :
    ∃ again, List.Forall₂ (fun line record => decodeDelegationJournalLine line = .ok record)
        lines again ∧ List.Forall₂ DelegationJournalRecord.Same again records := by
  induction each with
  | nil => exact ⟨[], .nil, .nil⟩
  | cons hasLine each ih =>
      obtain ⟨first, rest⟩ := List.forall_mem_cons.mp built
      obtain ⟨text, isLine, rfl⟩ := hasLine
      obtain ⟨record, decoded, same⟩ := decode_line first isLine
      obtain ⟨again, isAgain, areSame⟩ := ih rest
      exact ⟨record :: again, .cons decoded isAgain, .cons same areSame⟩

theorem yieldLines_records (start : Nat)
    (decoded : List.Forall₂ (fun line record => decodeDelegationJournalLine line = .ok record)
      lines again) :
    ∃ yielded, yieldLines start lines =
        (yielded, .ok (start + (joined newline lines).length)) ∧
      yielded.map (·.record) = again ∧
      yielded.map (fun line => (line.offset, line.bytes)) = placed start lines ∧
      ∀ line ∈ yielded, line.length = line.bytes.length + 1 := by
  induction decoded generalizing start with
  | nil => exact ⟨[], rfl, rfl, rfl, by simp⟩
  | @cons line record lines again isRecord _ ih =>
      obtain ⟨yielded, isYielded, records, places, lengths⟩ := ih (start + line.length + 1)
      refine ⟨{ record, offset := start, length := line.length + 1, bytes := line } :: yielded, ?_,
        by rw [List.map_cons, records], by rw [List.map_cons, places, placed],
        List.forall_mem_cons.mpr ⟨rfl, lengths⟩⟩
      rw [yieldLines, isRecord]
      dsimp only
      rw [isYielded, joined_cons, List.length_append, List.length_append, List.length_singleton]
      simp only [Prod.mk.injEq, true_and, Except.ok.injEq]
      omega

/-- Records each of which follows the one before it; the first one of a complete journal is
its first. -/
def Leads (complete : Bool) :
    Option DelegationJournalPosition → List DelegationJournalRecord → Prop
  | _, [] => True
  | last, record :: rest =>
      (match last with
        | none => complete = true → record.sequence = 1 ∧ record.previousDigest = none
        | some last =>
            record.sequence = last.sequence + 1 ∧ record.previousDigest = some last.digest) ∧
      Leads complete (some record.position) rest

theorem leads_same {complete : Bool} {last : Option DelegationJournalPosition}
    (same : List.Forall₂ DelegationJournalRecord.Same again records)
    (leads : Leads complete last records) : Leads complete last again := by
  induction same generalizing last with
  | nil => exact trivial
  | @cons first second again records isSame _ ih =>
      have position : first.position = second.position := by
        rw [DelegationJournalRecord.position, DelegationJournalRecord.position, isSame.sequence,
          isSame.journalId, isSame.digest]
      obtain ⟨follows, rest⟩ := leads
      refine ⟨?_, position ▸ ih rest⟩
      rw [isSame.sequence, isSame.previousDigest]
      exact follows

theorem leads_take {complete : Bool} {last : Option DelegationJournalPosition}
    (leads : Leads complete last records) (count : Nat) :
    Leads complete last (records.take count) := by
  induction records generalizing last count with
  | nil => rw [List.take_nil]; exact trivial
  | cons record records ih =>
      cases count with
      | zero => exact trivial
      | succ count => exact ⟨leads.1, ih leads.2 count⟩

theorem acceptLines_records {complete : Bool} {chain : DelegationJournalChain}
    (sequences : ∀ record ∈ again, isSequence record.sequence = true)
    (decoded : List.Forall₂ (fun line record => decodeDelegationJournalLine line = .ok record)
      lines again)
    (leads : Leads complete chain.last again) :
    ∃ last, acceptLines { completeFromStart := complete } chain lines = .ok (last, again) := by
  induction decoded generalizing chain with
  | nil => exact ⟨chain, rfl⟩
  | @cons line record lines again isRecord _ ih =>
      obtain ⟨isSequence', laterSequences⟩ := List.forall_mem_cons.mp sequences
      have follows : chain.follows { completeFromStart := complete } record = .ok () := by
        have first := leads.1
        unfold DelegationJournalChain.follows
        cases held : chain.last with
        | none =>
            rw [held] at first
            cases complete with
            | false => rfl
            | true => simp [first rfl]
        | some last =>
            rw [held] at first
            obtain ⟨next, previous⟩ := first
            simp only [next, previous]
            rw [if_neg (by omega), if_neg (by omega), if_neg (by simp), if_neg (by simp)]
      obtain ⟨last, accepted⟩ := @ih {
        count := chain.count + 1
        first := chain.first.or (some (record.sequence, record.previousDigest))
        last := some record.position
        anchorSeen := chain.anchorSeen || false } laterSequences leads.2
      refine ⟨last, ?_⟩
      have accept : chain.accept { completeFromStart := complete } record = .ok {
          count := chain.count + 1
          first := chain.first.or (some (record.sequence, record.previousDigest))
          last := some record.position
          anchorSeen := chain.anchorSeen || false } := by
        rw [DelegationJournalChain.accept, if_neg (not_not.mpr isSequence'), follows]
        rfl
      rw [acceptLines, isRecord]
      simp only [bind, Except.bind, accept, accepted]
      rfl

end Records

end Ccrc.Coord
