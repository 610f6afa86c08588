import Ccrc.Coord.JournalKernel
import Ccrc.Library.JsonUtf8
import Ccrc.Library.Map

/-! The flat-file ground truth under the allocations: what is appended of one, what the
file says was allocated, and the allocator's decision. -/

set_option autoImplicit false

namespace Ccrc.Coord

open Library
open Library.Text (lit unit)

structure LedgerLogEntry where
  project : Text
  n : Int
  title : Text
  allocatedTo : Text
  recordedAt : Int
  deriving DecidableEq, Repr

def LedgerLogEntry.json (entry : LedgerLogEntry) : Json Int :=
  .object [(lit "project", .string entry.project), (lit "n", .number entry.n),
    (lit "title", .string entry.title), (lit "allocatedTo", .string entry.allocatedTo),
    (lit "at", .number entry.recordedAt)]

def LedgerLogEntry.line (entry : LedgerLogEntry) : Text := Json.write Text.ofInt entry.json

/-- The bytes of one append: a line for each entry. -/
def appendedBytes (entries : List LedgerLogEntry) : Bytes :=
  Utf8.encode (entries.flatMap fun entry => entry.line ++ [lineFeed])

/-- The newline as the file has it. -/
def feedByte : UInt8 := 10

/-- A log that ends where a line may start, and so in no torn one. -/
def atLineStart (bytes : Bytes) : Bool := bytes.isEmpty || bytes.getLast? == some feedByte

/-! ## The salvage arm -/

/-- The first place of a text where a pattern matches, and what it captures there. -/
def firstMatch {α : Type} (matches? : Text → Option α) : Text → Option α
  | [] => matches? []
  | c :: rest => (matches? (c :: rest)).or (firstMatch matches? rest)

/-- What follows a lead. -/
def afterLead? (lead text : Text) : Option Text :=
  if text.startsWith lead then some (text.drop lead.length) else none

/-- `/"n":(\d+)/`, as the number that it captures. -/
def salvagedNumber (line : Text) : Option Number :=
  firstMatch (fun text => (afterLead? (lit "\"n\":") text).bind fun rest =>
    let digits := rest.takeWhile Text.isDigit
    if digits = [] then none else some (.ofDecimal false (Json.digitsValue digits) 0)) line

/-- `/"project":"([^"]*)"/` -/
def salvagedProject (line : Text) : Option Text :=
  firstMatch (fun text => (afterLead? (lit "\"project\":\"") text).bind fun rest =>
    if unit '"' ∈ rest then some (rest.takeWhile (· ≠ unit '"')) else none) line

def numberField (value : Json Number) (key : String) : Option Number :=
  match value.field? (lit key) with
  | some (.number number) => some number
  | _ => none

def textField (value : Json Number) (key : String) : Option Text :=
  match value.field? (lit key) with
  | some (.string text) => some text
  | _ => none

/-- What a line says was allocated to a project. A number that is no integer is none
that was ever written. -/
def lineAllocated (project line : Text) : Option Int :=
  match (Json.parse line).bind fun parsed => (numberField parsed "n").map (parsed, ·) with
  | some (parsed, n) => if textField parsed "project" = some project then n.toInt? else none
  | none =>
      match salvagedNumber line with
      | none => none
      | some n => if (salvagedProject line).all (· = project) then n.toInt? else none

/-- The file's half of MAX(file, db); a missing file allocated nothing. -/
def maxAllocated (log : Option Bytes) (project : Text) : Option Int :=
  log.bind fun bytes =>
    (((Utf8.decodeLossy bytes).splitOn lineFeed).filterMap (lineAllocated project)).foldl
      (fun max n => some (max.elim n fun max => if max < n then n else max)) none

/-! ## The decision -/

def LEDGER_ALLOC_MAX : Int := 100

inductive AllocationRefusal where
  | notSeeded | badCount
  deriving DecidableEq, Repr

inductive AllocationDecision where
  | ok (numbers : List Int) (floor : Int)
  | refused (why : AllocationRefusal)
  deriving DecidableEq, Repr

def numbersFrom (start : Int) (count : Nat) : List Int :=
  (List.range count).map fun (i : Nat) => start + i

def decideAllocation (floorRow maxLanded : Option Int) (count : Number) : AllocationDecision :=
  match count.toInt? with
  | none => .refused .badCount
  | some count =>
      if count < 1 ∨ LEDGER_ALLOC_MAX < count then .refused .badCount
      else match floorRow with
        | none => .refused .notSeeded
        | some floor => .ok (numbersFrom (max floor (maxLanded.getD 0 + 1)) count.toNat) floor

theorem decideAllocation_ok {floorRow maxLanded : Option Int} {count : Number}
    {numbers : List Int} {floor : Int}
    (decided : decideAllocation floorRow maxLanded count = .ok numbers floor) :
    floorRow = some floor ∧ ∃ size : Nat, 0 < size ∧
      numbers = numbersFrom (max floor (maxLanded.getD 0 + 1)) size := by
  unfold decideAllocation at decided
  split at decided
  next => cases decided
  next size isSize =>
      split at decided
      next => cases decided
      next bounded =>
          split at decided
          next => cases decided
          next row =>
              cases decided
              exact ⟨rfl, size.toNat, by omega, rfl⟩

theorem mem_numbersFrom {start n : Int} {count : Nat} :
    n ∈ numbersFrom start count ↔ start ≤ n ∧ n < start + count := by
  simp only [numbersFrom, List.mem_map, List.mem_range]
  constructor
  · rintro ⟨i, small, rfl⟩
    omega
  · rintro ⟨atLeast, below⟩
    exact ⟨(n - start).toNat, by omega, by omega⟩

/-! ## What a written line says -/

theorem LedgerLogEntry.line_plain (entry : LedgerLogEntry) : lineFeed ∉ entry.line := by
  intro member
  exact Json.write_plain entry.json lineFeed member (by decide)

theorem LedgerLogEntry.line_wellFormed (entry : LedgerLogEntry) :
    Utf8.isWellFormed entry.line = true :=
  Json.write_wellFormed entry.json

theorem lineAllocated_line {entry : LedgerLogEntry} (small : entry.n.natAbs < 2 ^ 53) :
    lineAllocated entry.project entry.line = some entry.n := by
  have distinct : entry.json.Distinct := by
    have keys : ([lit "project", lit "n", lit "title", lit "allocatedTo", lit "at"] :
        List Text).Nodup := by decide
    exact ⟨keys, trivial, trivial, trivial, trivial, trivial, trivial⟩
  have read := Json.parse_write entry.json distinct
  have isNumber : numberField (entry.json.map Number.ofInt) "n" = some (Number.ofInt entry.n) := rfl
  have isProject : textField (entry.json.map Number.ofInt) "project" = some entry.project := rfl
  simp only [lineAllocated, LedgerLogEntry.line, read, Option.bind_some, isNumber, isProject,
    Option.map_some, if_true, Number.ofInt_toInt? small]

end Ccrc.Coord
