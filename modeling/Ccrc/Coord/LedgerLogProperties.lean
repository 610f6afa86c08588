import Ccrc.Coord.LedgerLog
import Ccrc.Library.Framing

/-! A line of its own in the log, whatever stands around it, is read back; and which
lines of an append stand on their own. -/

set_option autoImplicit false

namespace Ccrc.Coord

open Library

theorem decodeLossy_feed (before rest : Bytes) :
    Utf8.decodeLossy (before ++ feedByte :: rest) =
      Utf8.decodeLossy before ++ lineFeed :: Utf8.decodeLossy rest :=
  Utf8.decodeLossy_ascii (by decide) before rest

theorem LedgerLogEntry.bytes_plain (entry : LedgerLogEntry) :
    feedByte ∉ Utf8.encode entry.line := by
  intro member
  obtain ⟨before, rest, split⟩ := List.append_of_mem member
  have read := congrArg Utf8.decodeLossy split
  rw [decodeLossy_feed, Utf8.decodeLossy_encode entry.line_wellFormed] at read
  exact entry.line_plain (read ▸ List.mem_append_right _ List.mem_cons_self)

/-- A line of the bytes is a line of the text. -/
theorem mem_splitOn_of_isLine {bytes raw : Bytes} {start : Nat} {text : Text}
    (isLine : IsLine feedByte bytes start raw) (read : Utf8.decodeLossy raw = text)
    (plain : lineFeed ∉ text) : text ∈ (Utf8.decodeLossy bytes).splitOn lineFeed := by
  obtain ⟨before, after, rfl, boundary⟩ := isLine.split
  rw [decodeLossy_feed, List.splitOn_append_cons_self]
  refine List.mem_append_left _ ?_
  rcases boundary with rfl | ⟨front, rfl⟩
  · rw [List.nil_append, read, List.splitOn_eq_singleton plain]
    exact List.mem_singleton.mpr rfl
  · rw [List.append_assoc, List.singleton_append, decodeLossy_feed, List.splitOn_append_cons_self,
      read, List.splitOn_eq_singleton plain]
    exact List.mem_append_right _ (List.mem_singleton.mpr rfl)

/-- A line of the log that an entry was written as, and nothing else. -/
def OwnLine (bytes : Bytes) (entry : LedgerLogEntry) : Prop :=
  ∃ start, IsLine feedByte bytes start (Utf8.encode entry.line)

theorem OwnLine.extend {bytes more : Bytes} {entry : LedgerLogEntry} (own : OwnLine bytes entry)
    (grown : bytes <+: more) : OwnLine more entry := by
  obtain ⟨start, isLine⟩ := own
  exact ⟨start, isLine.extend grown⟩

theorem le_foldl_max? (items : List Int) {n : Int} (start : Option Int)
    (member : n ∈ items ∨ start = some n) :
    ∃ greatest, items.foldl (fun max n => some (max.elim n fun max => if max < n then n else max))
      start = some greatest ∧ n ≤ greatest := by
  induction items generalizing start n with
  | nil =>
      rcases member with inside | isStart
      · cases inside
      · exact ⟨n, isStart, Int.le_refl n⟩
  | cons head rest ih =>
      rw [List.foldl_cons]
      rcases member with inside | isStart
      · rcases List.mem_cons.mp inside with rfl | later
        · cases start with
          | none => exact ih _ (Or.inr rfl)
          | some before =>
              obtain ⟨greatest, found, above⟩ := ih _ (Or.inr rfl)
              refine ⟨greatest, found, Int.le_trans ?_ above⟩
              simp only [Option.elim_some]
              split <;> omega
        · exact ih _ (Or.inl later)
      · obtain ⟨greatest, found, above⟩ := ih _ (Or.inr rfl)
        refine ⟨greatest, found, Int.le_trans ?_ above⟩
        rw [isStart]
        simp only [Option.elim_some]
        split <;> omega

/-- The file's half counts a line of its own. -/
theorem maxAllocated_ownLine {bytes : Bytes} {entry : LedgerLogEntry} (own : OwnLine bytes entry)
    (small : entry.n.natAbs < 2 ^ 53) :
    ∃ greatest, maxAllocated (some bytes) entry.project = some greatest ∧ entry.n ≤ greatest := by
  obtain ⟨start, isLine⟩ := own
  have member := mem_splitOn_of_isLine isLine (Utf8.decodeLossy_encode entry.line_wellFormed)
    entry.line_plain
  have counted := List.mem_filterMap.mpr ⟨entry.line, member, lineAllocated_line small⟩
  exact le_foldl_max? _ none (Or.inl counted)

/-! ## What an append writes -/

theorem appendedBytes_joined (entries : List LedgerLogEntry) :
    appendedBytes entries = joined feedByte (entries.map fun entry => Utf8.encode entry.line) := by
  induction entries with
  | nil => rfl
  | cons entry rest ih =>
      have formed : Utf8.isWellFormed (entry.line ++ [lineFeed]) = true :=
        Utf8.isWellFormed_append entry.line_wellFormed (by decide)
      have feed : Utf8.encode [lineFeed] = [feedByte] := by decide
      rw [List.map_cons, joined_cons, ← ih, appendedBytes, List.flatMap_cons,
        Utf8.encode_append formed, Utf8.encode_append entry.line_wellFormed, feed]
      rfl

theorem atLineStart_boundary {bytes : Bytes} (starts : atLineStart bytes = true) :
    Boundary feedByte bytes bytes.length := by
  simp only [atLineStart, Bool.or_eq_true, beq_iff_eq, List.isEmpty_iff] at starts
  rcases starts with rfl | last
  · exact Or.inl rfl
  · have some : bytes ≠ [] := by
      rintro rfl
      cases last
    have positive := List.length_pos_iff.mpr some
    exact Or.inr ⟨bytes.length - 1, by omega, by rwa [← List.getLast?_eq_getElem?]⟩

theorem ownLine_of_joined {bytes rest : Bytes} {start : Nat} {entries : List LedgerLogEntry}
    (held : bytes.drop start =
      joined feedByte (entries.map fun entry => Utf8.encode entry.line) ++ rest)
    (boundary : Boundary feedByte bytes start) {entry : LedgerLogEntry} (member : entry ∈ entries) :
    OwnLine bytes entry := by
  induction entries generalizing start with
  | nil => cases member
  | cons first entries ih =>
      rw [List.map_cons, joined_cons, List.append_assoc] at held
      rcases List.mem_cons.mp member with rfl | later
      · exact ⟨start, entry.bytes_plain, boundary, held ▸ List.prefix_append _ _⟩
      · obtain ⟨next, dropped⟩ := boundary_next held
        exact ih dropped next later

/-- Appended at the start of a line, every entry has a line of its own; behind a torn
line, every entry but the first. -/
theorem ownLine_append {bytes : Bytes} {entries : List LedgerLogEntry} {entry : LedgerLogEntry}
    (member : (atLineStart bytes = true ∧ entry ∈ entries) ∨ entry ∈ entries.tail) :
    OwnLine (bytes ++ appendedBytes entries) entry := by
  rw [appendedBytes_joined]
  rcases member with ⟨starts, member⟩ | member
  · refine ownLine_of_joined (by rw [List.drop_left, List.append_nil]) ?_ member
    rcases atLineStart_boundary starts with empty | ⟨before, isLength, isFeed⟩
    · exact Or.inl empty
    · exact Or.inr ⟨before, isLength, by rw [List.getElem?_append_left (by omega), isFeed]⟩
  · cases entries with
    | nil => cases member
    | cons first entries =>
        have held : (bytes ++ joined feedByte ((first :: entries).map fun entry =>
            Utf8.encode entry.line)).drop bytes.length = Utf8.encode first.line ++ [feedByte] ++
              joined feedByte (entries.map fun entry => Utf8.encode entry.line) := by
          rw [List.drop_left, List.map_cons, joined_cons]
        obtain ⟨next, dropped⟩ := boundary_next held
        exact ownLine_of_joined (dropped.trans (List.append_nil _).symm) next member

end Ccrc.Coord
