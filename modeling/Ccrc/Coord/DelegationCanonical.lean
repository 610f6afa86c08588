import Ccrc.Coord.DelegationJournal
import Ccrc.Library.JsonUtf8
import Ccrc.Library.Rounding

/-! Canonical encoding and reading back: what is encoded, and that its text is read as the
same value with the members of every object in order. -/

set_option autoImplicit false

namespace Ccrc.Coord

open Library
open Library.Text (lit unit)

/-! ## What is encoded -/

mutual

/-- Texts that UTF-8 can carry, and integers that a double holds. -/
def IsCanonical : Json Int → Prop
  | .null | .bool _ => True
  | .number value => value.natAbs ≤ Number.maxSafeInteger.toNat
  | .string text => Utf8.isWellFormed text = true
  | .array items => IsCanonicalItems items
  | .object fields => IsCanonicalFields fields

def IsCanonicalItems : List (Json Int) → Prop
  | [] => True
  | item :: rest => IsCanonical item ∧ IsCanonicalItems rest

def IsCanonicalFields : List (Text × Json Int) → Prop
  | [] => True
  | (key, value) :: rest =>
      Utf8.isWellFormed key = true ∧ IsCanonical value ∧ IsCanonicalFields rest

end

theorem wellFormed_ok {text place read : Text} :
    wellFormed text place = .ok read ↔ Utf8.isWellFormed text = true ∧ read = text := by
  unfold wellFormed
  split
  next formed =>
      rw [Except.ok.injEq]
      exact ⟨fun same => ⟨formed, same.symm⟩, fun same => same.2.symm⟩
  next broken =>
      constructor
      · intro same
        cases same
      · intro same
        exact absurd same.1 broken

theorem except_bind_ok {ε α β : Type} {read : Except ε α} {next : α → Except ε β} {answer : β} :
    (read >>= next) = .ok answer ↔ ∃ value, read = .ok value ∧ next value = .ok answer := by
  cases read with
  | error code => simp [bind, Except.bind]
  | ok value => simp [bind, Except.bind]

theorem canonNumber_ofInt (place : Text) {value : Int}
    (safe : value.natAbs ≤ Number.maxSafeInteger.toNat) :
    canonNumber place (Number.ofInt value) = .ok (Text.ofInt value) := by
  have read : (Number.ofInt value).toInt? = some value := Number.ofInt_toInt? (by
    rw [Number.maxSafeInteger] at safe
    omega)
  cases double : Number.ofInt value with
  | infinite negative =>
      rw [double] at read
      cases read
  | finite negative significand exponent =>
      rw [double] at read
      rw [canonNumber, read]
      exact if_pos safe

theorem canonNumber_safe {place text : Text} {value : Int}
    (encoded : canonNumber place (Number.ofInt value) = .ok text) :
    value.natAbs ≤ Number.maxSafeInteger.toNat := by
  by_contra unsafe_
  have large : 2 ^ 53 ≤ value.natAbs := by
    rw [Number.maxSafeInteger] at unsafe_
    omega
  rcases Number.ofInt_unsafe large with ⟨negative, double⟩ | ⟨read, isRead, beyond⟩
  · rw [double] at encoded
    cases encoded
  · cases double : Number.ofInt value with
    | infinite negative =>
        rw [double] at isRead
        cases isRead
    | finite negative significand exponent =>
        rw [double] at encoded isRead
        rw [canonNumber, isRead] at encoded
        have tooLarge : ¬read.natAbs ≤ Number.maxSafeInteger.toNat := by
          rw [Number.maxSafeInteger]
          omega
        simp only [if_neg tooLarge] at encoded
        cases encoded

/-! ## The text -/

/-- Members between commas, as the plain writer has them. -/
theorem join_items (item : Json Int) (items : List (Json Int)) :
    Text.join (lit ",") ((item :: items).map (Json.write Text.ofInt)) =
      Json.write Text.ofInt item ++ Json.writeItems Text.ofInt items := by
  induction items generalizing item with
  | nil => simp [Text.join, Json.writeItems]
  | cons next items ih =>
      have later := ih next
      rw [List.map_cons] at later ⊢
      rw [List.map_cons, Text.join, later, Json.writeItems]
      · simp [lit, unit]
      · exact List.cons_ne_nil _ _

def writeMember (field : Text × Json Int) : Text :=
  Json.writeString field.1 ++ lit ":" ++ Json.write Text.ofInt field.2

theorem join_fields (field : Text × Json Int) (fields : List (Text × Json Int)) :
    Text.join (lit ",") ((field :: fields).map writeMember) =
      writeMember field ++ Json.writeFields Text.ofInt fields := by
  induction fields generalizing field with
  | nil => simp [Text.join, Json.writeFields]
  | cons next fields ih =>
      have later := ih next
      obtain ⟨key, value⟩ := next
      rw [List.map_cons] at later ⊢
      rw [List.map_cons, Text.join, later, Json.writeFields]
      · simp [writeMember, lit, unit]
      · exact List.cons_ne_nil _ _

mutual

/-- What is canonical is encoded as the plain writer writes it. -/
theorem canonValue_ofInt (place : Text) {value : Json Int} (canonical : IsCanonical value) :
    canonValue place (value.map Number.ofInt) = .ok (Json.write Text.ofInt value) := by
  cases value with
  | null => rfl
  | bool value => cases value <;> rfl
  | number value => exact canonNumber_ofInt place canonical
  | string text => rw [Json.map, canonValue, wellFormed_ok.mpr ⟨canonical, rfl⟩]; rfl
  | array items =>
      rw [Json.map, canonValue, canonValueItems_ofInt place 0 canonical]
      cases items with
      | nil => rfl
      | cons item items =>
          have joined := join_items item items
          simp only [bind, Except.bind, pure, Except.pure, joined, Json.write]
          simp [lit, unit]
  | object fields =>
      rw [Json.map, canonValue, canonValueFields_ofInt place canonical]
      cases fields with
      | nil => rfl
      | cons field fields =>
          have joined := join_fields field fields
          obtain ⟨key, value⟩ := field
          simp only [bind, Except.bind, pure, Except.pure, joined, Json.write, writeMember]
          simp [lit, unit]

theorem canonValueItems_ofInt (place : Text) (index : Nat) {items : List (Json Int)}
    (canonical : IsCanonicalItems items) :
    canonValueItems place index (Json.mapItems Number.ofInt items) =
      .ok (items.map (Json.write Text.ofInt)) := by
  cases items with
  | nil => rfl
  | cons item items =>
      rw [Json.mapItems, canonValueItems, canonValue_ofInt _ canonical.1,
        canonValueItems_ofInt place (index + 1) canonical.2]
      rfl

theorem canonValueFields_ofInt (place : Text) {fields : List (Text × Json Int)}
    (canonical : IsCanonicalFields fields) :
    canonValueFields place (Json.mapFields Number.ofInt fields) =
      .ok (fields.map writeMember) := by
  cases fields with
  | nil => rfl
  | cons field fields =>
      obtain ⟨key, value⟩ := field
      rw [Json.mapFields, canonValueFields, wellFormed_ok.mpr ⟨canonical.1, rfl⟩,
        canonValue_ofInt _ canonical.2.1, canonValueFields_ofInt place canonical.2.2]
      rfl

end

mutual

/-- Nothing else is encoded. -/
theorem canonValue_canonical {place text : Text} {value : Json Int}
    (encoded : canonValue place (value.map Number.ofInt) = .ok text) : IsCanonical value := by
  cases value with
  | null | bool _ => exact trivial
  | number value => exact canonNumber_safe encoded
  | string content =>
      rw [Json.map, canonValue] at encoded
      cases formed : wellFormed content place with
      | error message =>
          rw [formed] at encoded
          cases encoded
      | ok read => exact (wellFormed_ok.mp formed).1
  | array items =>
      rw [Json.map, canonValue, except_bind_ok] at encoded
      obtain ⟨written, isWritten, -⟩ := encoded
      exact canonValueItems_canonical isWritten
  | object fields =>
      rw [Json.map, canonValue, except_bind_ok] at encoded
      obtain ⟨written, isWritten, -⟩ := encoded
      exact canonValueFields_canonical isWritten

theorem canonValueItems_canonical {place : Text} {index : Nat} {written : List Text}
    {items : List (Json Int)}
    (encoded : canonValueItems place index (Json.mapItems Number.ofInt items) = .ok written) :
    IsCanonicalItems items := by
  cases items with
  | nil => exact trivial
  | cons item items =>
      simp only [Json.mapItems, canonValueItems, except_bind_ok] at encoded
      obtain ⟨first, isFirst, rest, isRest, -⟩ := encoded
      exact ⟨canonValue_canonical isFirst, canonValueItems_canonical isRest⟩

theorem canonValueFields_canonical {place : Text} {written : List Text}
    {fields : List (Text × Json Int)}
    (encoded : canonValueFields place (Json.mapFields Number.ofInt fields) = .ok written) :
    IsCanonicalFields fields := by
  cases fields with
  | nil => exact trivial
  | cons field fields =>
      obtain ⟨key, value⟩ := field
      simp only [Json.mapFields, canonValueFields, except_bind_ok] at encoded
      obtain ⟨name, isName, member, isMember, rest, isRest, -⟩ := encoded
      exact ⟨(wellFormed_ok.mp isName).1, canonValue_canonical isMember,
        canonValueFields_canonical isRest⟩

end

/-! ## The order of members -/

theorem isCanonicalItems_iff {items : List (Json Int)} :
    IsCanonicalItems items ↔ ∀ item ∈ items, IsCanonical item := by
  induction items with
  | nil => simp [IsCanonicalItems]
  | cons item items ih => rw [IsCanonicalItems, ih, List.forall_mem_cons]

theorem isCanonicalFields_iff {fields : List (Text × Json Int)} :
    IsCanonicalFields fields ↔
      ∀ field ∈ fields, Utf8.isWellFormed field.1 = true ∧ IsCanonical field.2 := by
  induction fields with
  | nil => simp [IsCanonicalFields]
  | cons field fields ih =>
      obtain ⟨key, value⟩ := field
      rw [IsCanonicalFields, ih, List.forall_mem_cons, and_assoc]

mutual

theorem isCanonical_sorted (value : Json Int) : IsCanonical value.sorted ↔ IsCanonical value := by
  cases value with
  | null | bool _ | number _ | string _ => exact Iff.rfl
  | array items => exact isCanonicalItems_sorted items
  | object fields =>
      have perm := List.perm_insertionSort Json.NotAfter (Json.sortedFields fields)
      rw [Json.sorted, IsCanonical, IsCanonical, ← isCanonicalFields_sorted fields,
        isCanonicalFields_iff, isCanonicalFields_iff]
      simp only [perm.mem_iff]

theorem isCanonicalItems_sorted (items : List (Json Int)) :
    IsCanonicalItems (Json.sortedItems items) ↔ IsCanonicalItems items := by
  cases items with
  | nil => exact Iff.rfl
  | cons item items =>
      rw [Json.sortedItems, IsCanonicalItems, IsCanonicalItems, isCanonical_sorted item,
        isCanonicalItems_sorted items]

theorem isCanonicalFields_sorted (fields : List (Text × Json Int)) :
    IsCanonicalFields (Json.sortedFields fields) ↔ IsCanonicalFields fields := by
  cases fields with
  | nil => exact Iff.rfl
  | cons field fields =>
      obtain ⟨key, value⟩ := field
      rw [Json.sortedFields, IsCanonicalFields, IsCanonicalFields, isCanonical_sorted value,
        isCanonicalFields_sorted fields]

end

/-! ## Values of integers alone -/

mutual

theorem sortedMembers_eq (value : Json Int) : sortedMembers value = value.sorted := by
  cases value with
  | null | bool _ | number _ | string _ => rfl
  | array items => rw [sortedMembers, Json.sorted, sortedItems_eq' items]
  | object fields => rw [sortedMembers, Json.sorted, sortedFields_eq' fields]; rfl

theorem sortedItems_eq' (items : List (Json Int)) : sortedItems items = Json.sortedItems items := by
  cases items with
  | nil => rfl
  | cons item items =>
      rw [sortedItems, Json.sortedItems, sortedMembers_eq item, sortedItems_eq' items]

theorem sortedFields_eq' (fields : List (Text × Json Int)) :
    sortedFields fields = Json.sortedFields fields := by
  cases fields with
  | nil => rfl
  | cons field fields =>
      obtain ⟨key, value⟩ := field
      rw [sortedFields, Json.sortedFields, sortedMembers_eq value, sortedFields_eq' fields]

end

mutual

theorem canon_eq (place : Text) {value : Json Int} (canonical : IsCanonical value) :
    canon place value = canonValue place (value.map Number.ofInt) := by
  cases value with
  | null => rfl
  | bool value => cases value <;> rfl
  | number value =>
      rw [canon, Json.map, canonValue, canonNumber_ofInt place canonical]
      exact if_pos canonical
  | string text => rfl
  | array items => rw [canon, Json.map, canonValue, canonItems_eq place 0 canonical]
  | object fields => rw [canon, Json.map, canonValue, canonFields_eq place canonical]

theorem canonItems_eq (place : Text) (index : Nat) {items : List (Json Int)}
    (canonical : IsCanonicalItems items) :
    canonItems place index items =
      canonValueItems place index (Json.mapItems Number.ofInt items) := by
  cases items with
  | nil => rfl
  | cons item items =>
      rw [canonItems, Json.mapItems, canonValueItems, canon_eq _ canonical.1,
        canonItems_eq place (index + 1) canonical.2]

theorem canonFields_eq (place : Text) {fields : List (Text × Json Int)}
    (canonical : IsCanonicalFields fields) :
    canonFields place fields = canonValueFields place (Json.mapFields Number.ofInt fields) := by
  cases fields with
  | nil => rfl
  | cons field fields =>
      obtain ⟨key, value⟩ := field
      rw [canonFields, Json.mapFields, canonValueFields, canon_eq _ canonical.2.1,
        canonFields_eq place canonical.2.2]

end

/-- Of integers alone, the two readings of `canonicalDelegationJson` are one. -/
theorem canonicalDelegationValue_ofInt {value : Json Int} (canonical : IsCanonical value) :
    canonicalDelegationValue (value.map Number.ofInt) = canonicalDelegationJson value := by
  rw [canonicalDelegationValue, canonicalDelegationJson, Json.sorted_map, sortedMembers_eq,
    canon_eq _ ((isCanonical_sorted value).mpr canonical)]

/-- What is encoded is read back with its members in order. -/
theorem canonicalDelegationValue_ok {value : Json Int} {text : Text}
    (encoded : canonicalDelegationValue (value.map Number.ofInt) = .ok text) :
    IsCanonical value ∧ text = Json.write Text.ofInt value.sorted := by
  rw [canonicalDelegationValue, Json.sorted_map] at encoded
  have canonical := canonValue_canonical encoded
  rw [canonValue_ofInt _ canonical] at encoded
  exact ⟨(isCanonical_sorted value).mp canonical, (Except.ok.inj encoded).symm⟩

end Ccrc.Coord
