import Ccrc.Library.Text

/-! The log-first journals' shared pieces: the framing of a text into its lines, and
the floor that a writer issues past. -/

set_option autoImplicit false

namespace Ccrc.Coord

open Library

def lineFeed : UInt16 := 10

structure JournalRecords where
  complete : Text
  records : List Text
  tail : Text
  deriving DecidableEq, Repr

/-- The complete lines of a text and the tail after its last newline. -/
def splitJournalRecords (text : Text) : JournalRecords :=
  if lineFeed ∉ text then { complete := [], records := [], tail := text }
  else
    let complete := (text.reverse.dropWhile (· ≠ lineFeed)).reverse
    { complete, records := (complete.splitOn lineFeed).dropLast
      tail := (text.reverse.takeWhile (· ≠ lineFeed)).reverse }

/-- MAX(file, db); a side with nothing recorded does not count. -/
def journalFloor : Option Int → Option Int → Option Int
  | none, file => file
  | some db, none => some db
  | some db, some file => some (max db file)

theorem splitJournalRecords_line_end (front : Text) :
    splitJournalRecords (front ++ [lineFeed]) =
      { complete := front ++ [lineFeed], records := front.splitOn lineFeed, tail := [] } := by
  have split : (front ++ [lineFeed]).splitOn lineFeed = front.splitOn lineFeed ++ [[]] :=
    List.splitOn_append_cons_self front []
  simp [splitJournalRecords, split]

/-- A text that is all complete lines ends with a newline. -/
theorem line_end_of_tail_nil {text : Text} (nonempty : text ≠ [])
    (complete : (splitJournalRecords text).tail = []) : ∃ front, text = front ++ [lineFeed] := by
  refine ⟨text.dropLast, ?_⟩
  have parts := List.dropLast_append_getLast nonempty
  have isFeed : text.getLast nonempty = lineFeed := by
    by_contra other
    unfold splitJournalRecords at complete
    split at complete
    next => exact nonempty complete
    next =>
        rw [List.reverse_eq_nil_iff, ← parts, List.reverse_append, List.reverse_singleton,
          List.singleton_append, List.takeWhile_cons] at complete
        simp [other] at complete
  rw [isFeed] at parts
  exact parts.symm

/-- A line appended to complete lines is the last of them. -/
theorem splitJournalRecords_append {text line : Text} (nonempty : text ≠ [])
    (complete : (splitJournalRecords text).tail = []) (oneLine : lineFeed ∉ line) :
    splitJournalRecords (text ++ line ++ [lineFeed]) =
      { complete := text ++ line ++ [lineFeed]
        records := (splitJournalRecords text).records ++ [line], tail := [] } := by
  obtain ⟨front, rfl⟩ := line_end_of_tail_nil nonempty complete
  rw [splitJournalRecords_line_end, splitJournalRecords_line_end, List.append_assoc front,
    List.singleton_append, List.splitOn_append_cons_self, List.splitOn_eq_singleton oneLine]

end Ccrc.Coord
