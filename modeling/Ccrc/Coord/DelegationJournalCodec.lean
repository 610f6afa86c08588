import Ccrc.Coord.DelegationCanonical
import Ccrc.Coord.DelegationEventId
import Ccrc.Library.JsonCuts
import Ccrc.Library.Lists
import Ccrc.Library.Utf8Cuts

/-! The line of a record that was built: it is read back as the same record, and no shorter
piece of it is read at all. -/

set_option autoImplicit false

namespace Ccrc.Coord

open Library
open Library.Text (lit unit)

/-! ## Typed values -/

/-- A value as the declared types have it: every key once, and no number but integers. -/
def IsTyped (value : Json Number) : Prop :=
  ∃ typed : Json Int, typed.Distinct ∧ value = typed.map Number.ofInt

section Typed

variable {value : Json Number} {fields : DelegationFields}

theorem isTyped_string (text : Text) : IsTyped (.string text) := ⟨.string text, trivial, rfl⟩

theorem isTyped_number (value : Int) : IsTyped (number value) := ⟨.number value, trivial, rfl⟩

theorem isTyped_textOrNull (text : Option Text) : IsTyped (textOrNull text) := by
  cases text with
  | none => exact ⟨.null, trivial, rfl⟩
  | some text => exact isTyped_string text

theorem isTyped_sorted (typed : IsTyped value) : IsTyped value.sorted := by
  obtain ⟨whole, distinct, rfl⟩ := typed
  exact ⟨whole.sorted, Json.sorted_distinct distinct, Json.sorted_map _ _⟩

theorem mapFields_eq (fields : List (Text × Json Int)) :
    Json.mapFields Number.ofInt fields =
      fields.map fun field => (field.1, field.2.map Number.ofInt) := by
  induction fields with
  | nil => rfl
  | cons field fields ih => rw [Json.mapFields, ih, List.map_cons]

theorem isTyped_object : IsTyped (.object fields) ↔
    (fields.map (·.1)).Nodup ∧ ∀ field ∈ fields, IsTyped field.2 := by
  constructor
  · rintro ⟨typed, distinct, same⟩
    cases typed with
    | null | bool _ | number _ | string _ | array _ => cases same
    | object whole =>
        obtain rfl := Json.object.inj same
        refine ⟨?_, fun field member => ?_⟩
        · rw [Json.mapFields_keys]
          exact distinct.1
        · rw [mapFields_eq, List.mem_map] at member
          obtain ⟨held, isHeld, rfl⟩ := member
          exact ⟨held.2, Json.distinctFields_iff.mp distinct.2 held isHeld, rfl⟩
  · rintro ⟨nodup, all⟩
    obtain ⟨whole, distinct, same⟩ : ∃ whole : List (Text × Json Int),
        Json.DistinctFields whole ∧ fields = Json.mapFields Number.ofInt whole := by
      clear nodup
      induction fields with
      | nil => exact ⟨[], trivial, rfl⟩
      | cons field fields ih =>
          obtain ⟨first, rest⟩ := List.forall_mem_cons.mp all
          obtain ⟨typed, isDistinct, same⟩ := first
          obtain ⟨whole, distinct, later⟩ := ih rest
          exact ⟨(field.1, typed) :: whole, ⟨isDistinct, distinct⟩, by
            rw [Json.mapFields, ← later, ← same]⟩
    refine ⟨.object whole, ⟨?_, distinct⟩, by rw [Json.map, same]⟩
    rwa [same, Json.mapFields_keys] at nodup

theorem isTyped_field (typed : IsTyped value) {key : Text} {held : Json Number}
    (found : value.field? key = some held) : IsTyped held := by
  cases value with
  | null | bool _ | number _ | string _ | array _ => cases found
  | object fields =>
      rw [Json.field?, Option.map_eq_some_iff] at found
      obtain ⟨field, isField, rfl⟩ := found
      exact (isTyped_object.mp typed).2 field (List.mem_of_find?_eq_some isField)

theorem field?_sorted_typed (typed : IsTyped value) (key : Text) :
    value.sorted.field? key = (value.field? key).map Json.sorted := by
  cases value with
  | null | bool _ | number _ | string _ | array _ => rfl
  | object fields => exact Json.field?_sorted (isTyped_object.mp typed).1 key

end Typed

/-! ## Readers -/

/-- What a reader takes of a typed value, it takes again when the members are in order. -/
structure Steady (read : FieldReader) : Prop where
  typed : ∀ {value taken}, IsTyped value → read value = .ok taken → IsTyped taken
  again : ∀ {value taken}, IsTyped value → read value = .ok taken →
    ∃ later, read taken.sorted = .ok later ∧ later.SameMembers taken

theorem kept_ok {holds : Json Number → Bool} {value taken : Json Number} :
    kept holds value = .ok taken ↔ holds value = true ∧ taken = value := by
  unfold kept
  split
  next yes =>
      rw [Except.ok.injEq]
      exact ⟨fun same => ⟨yes, same.symm⟩, fun same => same.2.symm⟩
  next no =>
      constructor
      · intro same
        cases same
      · intro same
        exact absurd same.1 no

theorem kept_steady {holds : Json Number → Bool}
    (sorted : ∀ {value}, IsTyped value → holds value = true → holds value.sorted = true) :
    Steady (kept holds) := by
  refine ⟨fun typed read => ?_, fun typed read => ?_⟩
  · rw [(kept_ok.mp read).2]
    exact typed
  · obtain ⟨yes, rfl⟩ := kept_ok.mp read
    exact ⟨_, kept_ok.mpr ⟨sorted typed yes, rfl⟩, Json.sorted_idem _⟩

theorem stringHolds_steady (holds : Text → Bool) : Steady (kept (stringHolds holds)) := by
  refine kept_steady fun {value} _ yes => ?_
  cases value with
  | string text => exact yes
  | null | bool _ | number _ | array _ | object _ => cases yes

theorem safeIntHolds_steady (holds : Int → Bool) : Steady (kept (safeIntHolds holds)) := by
  refine kept_steady fun {value} _ yes => ?_
  cases value with
  | number value => exact yes
  | null | bool _ | string _ | array _ | object _ => cases yes

theorem zero_steady : Steady zero := by
  have taken_eq {value taken : Json Number} (read : zero value = .ok taken) : taken = number 0 := by
    unfold zero at read
    split at read
    · exact (Except.ok.inj read).symm
    · cases read
  refine ⟨fun _ read => ?_, fun _ read => ?_⟩
  · rw [taken_eq read]
    exact isTyped_number 0
  · rw [taken_eq read]
    exact ⟨number 0, if_pos (by decide), rfl⟩

theorem hexList_steady : Steady hexList := by
  refine kept_steady fun {value} _ yes => ?_
  cases value with
  | null | bool _ | number _ | string _ | object _ => cases yes
  | array items =>
      have same : Json.sortedItems items = items := by
        rw [Json.sortedItems_eq]
        refine List.map_congr_left (fun item member => ?_) |>.trans (List.map_id' _)
        have isString := List.all_eq_true.mp yes item member
        cases item with
        | string text => rfl
        | null | bool _ | number _ | array _ | object _ => cases isString
      rw [Json.sorted, same]
      exact yes

theorem orNull_steady {read : FieldReader} (steady : Steady read) : Steady (orNull read) := by
  have sorted_null {value : Json Number} (same : value.sorted = .null) : value = .null := by
    cases value with
    | null => rfl
    | bool _ | number _ | string _ | array _ | object _ => cases same
  have other {value : Json Number} (notNull : value ≠ .null) : orNull read value = read value := by
    cases value with
    | null => exact absurd rfl notNull
    | bool _ | number _ | string _ | array _ | object _ => rfl
  refine ⟨fun {value taken} typed isRead => ?_, fun {value taken} typed isRead => ?_⟩
  · by_cases isNull : value = .null
    · subst isNull
      cases isRead
      exact typed
    · exact steady.typed typed ((other isNull).symm.trans isRead)
  · by_cases isNull : value = .null
    · subst isNull
      cases isRead
      exact ⟨.null, rfl, rfl⟩
    · obtain ⟨later, isLater, same⟩ := steady.again typed ((other isNull).symm.trans isRead)
      by_cases takenNull : taken = .null
      · subst takenNull
        exact ⟨.null, rfl, rfl⟩
      · exact ⟨later, (other (mt sorted_null takenNull)).trans isLater, same⟩

/-! ## Entries -/

theorem exactKeys_ok {fields : DelegationFields} {keys : List Text} {answer : Unit} :
    exactKeys fields keys = .ok answer ↔ ∀ key, key ∈ fields.map (·.1) ↔ key ∈ keys := by
  unfold exactKeys
  by_cases extra : (fields.any fun field => decide (field.1 ∉ keys)) = true
  · rw [if_pos extra]
    obtain ⟨field, member, outside⟩ := List.any_eq_true.mp extra
    refine ⟨nofun, fun same => ?_⟩
    exact absurd ((same field.1).mp (List.mem_map_of_mem member)) (of_decide_eq_true outside)
  rw [if_neg extra]
  by_cases missing : (keys.any fun key => decide (key ∉ fields.map (·.1))) = true
  · rw [if_pos missing]
    obtain ⟨key, member, outside⟩ := List.any_eq_true.mp missing
    refine ⟨nofun, fun same => ?_⟩
    exact absurd ((same key).mpr member) (of_decide_eq_true outside)
  rw [if_neg missing]
  refine ⟨fun _ key => ⟨fun member => ?_, fun member => ?_⟩, fun _ => rfl⟩
  · obtain ⟨field, isField, rfl⟩ := List.mem_map.mp member
    by_contra outside
    exact extra (List.any_eq_true.mpr ⟨field, isField, decide_eq_true outside⟩)
  · by_contra outside
    exact missing (List.any_eq_true.mpr ⟨key, member, decide_eq_true outside⟩)

/-- The rows of a rebuilt object are those of its table, each as its reader took it. -/
def Takes (value : Json Number) (row : Text × FieldReader) (taken : Text × Json Number) : Prop :=
  taken.1 = row.1 ∧ ∃ held, value.field? row.1 = some held ∧ row.2 held = .ok taken.2

theorem takeField_ok {value : Json Number} {row : Text × FieldReader}
    {taken : Text × Json Number} : takeField value row = .ok taken ↔ Takes value row taken := by
  obtain ⟨key, kept⟩ := taken
  unfold takeField Takes
  cases value.field? row.1 with
  | none =>
      refine ⟨nofun, ?_⟩
      rintro ⟨-, held, none, -⟩
      cases none
  | some held =>
      cases read : row.2 held with
      | error code => simp [Except.map, read]
      | ok result =>
          simp only [Except.map, Except.ok.injEq, Prod.mk.injEq, Option.some.injEq,
            exists_eq_left', read]
          exact and_congr_left' eq_comm

theorem rebuilt_ok {table : List (Text × FieldReader)} {value result : Json Number} :
    rebuilt table value = .ok result ↔ ∃ fields taken, value = .object fields ∧
      (∀ key, key ∈ fields.map (·.1) ↔ key ∈ table.map (·.1)) ∧
      List.Forall₂ (Takes value) table taken ∧ result = .object taken := by
  cases value with
  | null | bool _ | number _ | string _ | array _ =>
      refine ⟨nofun, ?_⟩
      rintro ⟨fields, taken, same, -⟩
      cases same
  | object fields =>
      simp only [rebuilt, except_bind_ok, mapM_eq_ok_iff, takeField_ok, exactKeys_ok]
      constructor
      · rintro ⟨-, keys, taken, rows, same⟩
        exact ⟨fields, taken, rfl, keys, rows, (Except.ok.inj same).symm⟩
      · rintro ⟨held, taken, same, keys, rows, rfl⟩
        obtain rfl := Json.object.inj same
        exact ⟨(), keys, taken, rows, rfl⟩

section Rebuilt

variable {table : List (Text × FieldReader)} {value : Json Number} {taken : DelegationFields}

theorem takes_keys (rows : List.Forall₂ (Takes value) table taken) :
    taken.map (·.1) = table.map (·.1) := by
  induction rows with
  | nil => rfl
  | cons row _ ih => rw [List.map_cons, List.map_cons, ih, row.1]

/-- A field of distinct ones is found by its key. -/
theorem field?_mem {fields : DelegationFields} (nodup : (fields.map (·.1)).Nodup)
    {field : Text × Json Number} (member : field ∈ fields) :
    (Json.object fields).field? field.1 = some field.2 := by
  induction fields with
  | nil => cases member
  | cons first fields ih =>
      rw [List.map_cons, List.nodup_cons] at nodup
      rw [Json.field?, List.find?_cons]
      rcases List.mem_cons.mp member with rfl | later
      · rw [beq_self_eq_true]
        rfl
      · have apart : (first.1 == field.1) = false := by
          rw [beq_eq_false_iff_ne]
          intro same
          exact nodup.1 (same ▸ List.mem_map_of_mem later)
        rw [apart]
        exact ih nodup.2 later

/-- The rows again, of the rebuilt object with its members in order. -/
theorem takes_again (steady : ∀ row ∈ table, Steady row.2) (typed : IsTyped value)
    (rows : List.Forall₂ (Takes value) table taken) {whole : DelegationFields}
    (nodup : (whole.map (·.1)).Nodup) (inside : taken ⊆ whole) :
    ∃ later, List.Forall₂ (Takes (Json.object whole).sorted) table later ∧
      Json.sortedFields later = Json.sortedFields taken := by
  induction rows with
  | nil => exact ⟨[], .nil, rfl⟩
  | @cons row field table taken takes rows ih =>
      obtain ⟨isSteady, rest⟩ := List.forall_mem_cons.mp steady
      obtain ⟨isFirst, insideRest⟩ := List.cons_subset.mp inside
      obtain ⟨later, isLater, same⟩ := ih rest insideRest
      obtain ⟨key, held, isHeld, isRead⟩ := takes
      obtain ⟨again, isAgain, sameValue⟩ := isSteady.again (isTyped_field typed isHeld) isRead
      refine ⟨(row.1, again) :: later, .cons ⟨rfl, field.2.sorted, ?_, isAgain⟩ isLater, ?_⟩
      · rw [Json.field?_sorted nodup, ← key, field?_mem nodup isFirst, Option.map_some]
      · rw [Json.sortedFields, Json.sortedFields, same, sameValue, key]

theorem rebuilt_steady (steady : ∀ row ∈ table, Steady row.2)
    (nodup : (table.map (·.1)).Nodup) : Steady (rebuilt table) := by
  refine ⟨fun {value result} typed read => ?_, fun {value result} typed read => ?_⟩
  · obtain ⟨fields, taken, -, -, rows, rfl⟩ := rebuilt_ok.mp read
    refine isTyped_object.mpr ⟨by rwa [takes_keys rows], fun field member => ?_⟩
    obtain ⟨row, isRow, -, held, isHeld, isRead⟩ := forall₂_mem_right rows member
    exact (steady row isRow).typed (isTyped_field typed isHeld) isRead
  · obtain ⟨fields, taken, -, -, rows, rfl⟩ := rebuilt_ok.mp read
    have distinct : (taken.map (·.1)).Nodup := by rwa [takes_keys rows]
    obtain ⟨later, isLater, same⟩ := takes_again steady typed rows distinct (List.Subset.refl _)
    refine ⟨.object later, rebuilt_ok.mpr ⟨_, later, rfl, fun key => ?_, isLater, rfl⟩, ?_⟩
    · have perm := List.perm_insertionSort Json.NotAfter (Json.sortedFields taken)
      rw [(perm.map _).mem_iff, Json.sortedFields_keys, takes_keys rows]
    · rw [Json.SameMembers, Json.sorted, Json.sorted, same]

end Rebuilt

theorem stringHolds_sorted (holds : Text → Bool) (value : Json Number) :
    stringHolds holds value.sorted = stringHolds holds value := by
  cases value <;> rfl

theorem safeIntHolds_sorted (holds : Int → Bool) (value : Json Number) :
    safeIntHolds holds value.sorted = safeIntHolds holds value := by
  cases value <;> rfl

theorem isEventEnvelope_sorted {value : Json Number} (typed : IsTyped value) :
    isEventEnvelope value.sorted = isEventEnvelope value := by
  have field (key : Text) (read : Json Number → Bool)
      (same : ∀ held, read held.sorted = read held) :
      (value.sorted.field? key).any read = (value.field? key).any read := by
    rw [field?_sorted_typed typed, Option.any_map]
    exact congrArg (Option.any · _) (funext same)
  have last : (value.sorted.field? (lit "agentId")).all (stringHolds fun _ => true) =
      (value.field? (lit "agentId")).all (stringHolds fun _ => true) := by
    rw [field?_sorted_typed typed]
    cases value.field? (lit "agentId") with
    | none => rfl
    | some held => exact stringHolds_sorted _ held
  unfold isEventEnvelope
  simp only [field _ _ (stringHolds_sorted _), field _ _ (safeIntHolds_sorted _), last]
  cases value <;> rfl

theorem envelope_steady : Steady (kept isEventEnvelope) :=
  kept_steady fun typed yes => (isEventEnvelope_sorted typed).trans yes

theorem attemptMark_steady : Steady attemptMarkOrNull := by
  refine orNull_steady (rebuilt_steady ?_ (by decide))
  intro row member
  simp only [List.mem_cons, List.not_mem_nil, or_false] at member
  rcases member with rfl | rfl
  · exact stringHolds_steady _
  · exact stringHolds_steady _

/-- Every row of an entry's table reads steadily, and no two rows have one key. -/
theorem entryFields_steady {kind : Text} {table : List (Text × FieldReader)}
    (isKind : entryFields kind = some table) :
    (∀ row ∈ table, Steady row.2) ∧ ((lit "kind" :: table.map (·.1)).Nodup) := by
  unfold entryFields at isKind
  split at isKind
  next =>
      obtain rfl := Option.some.inj isKind
      simp [envelope_steady, show lit "kind" ≠ lit "event" by decide]
  next =>
  split at isKind
  next =>
      obtain rfl := Option.some.inj isKind
      refine ⟨?_, by decide⟩
      simp only [List.forall_mem_cons, List.not_mem_nil, false_implies, implies_true, and_true]
      exact ⟨stringHolds_steady _, zero_steady, stringHolds_steady _, stringHolds_steady _,
        stringHolds_steady _, stringHolds_steady _, stringHolds_steady _, stringHolds_steady _,
        orNull_steady (stringHolds_steady _), stringHolds_steady _, hexList_steady,
        stringHolds_steady _, stringHolds_steady _⟩
  next =>
  split at isKind
  next =>
      obtain rfl := Option.some.inj isKind
      refine ⟨?_, by decide⟩
      simp only [List.forall_mem_cons, List.not_mem_nil, false_implies, implies_true, and_true]
      exact ⟨stringHolds_steady _, safeIntHolds_steady _, stringHolds_steady _,
        stringHolds_steady _, stringHolds_steady _, orNull_steady (stringHolds_steady _),
        orNull_steady (stringHolds_steady _), orNull_steady (safeIntHolds_steady _),
        orNull_steady (stringHolds_steady _), orNull_steady (stringHolds_steady _),
        orNull_steady (stringHolds_steady _), orNull_steady (safeIntHolds_steady _),
        attemptMark_steady⟩
  next =>
  split at isKind
  next =>
      obtain rfl := Option.some.inj isKind
      refine ⟨?_, by decide⟩
      simp only [List.forall_mem_cons, List.not_mem_nil, false_implies, implies_true, and_true]
      exact ⟨stringHolds_steady _, safeIntHolds_steady _, stringHolds_steady _,
        stringHolds_steady _, orNull_steady (stringHolds_steady _), attemptMark_steady⟩
  next =>
  split at isKind
  next =>
      obtain rfl := Option.some.inj isKind
      refine ⟨?_, by decide⟩
      simp only [List.forall_mem_cons, List.not_mem_nil, false_implies, implies_true, and_true]
      exact ⟨stringHolds_steady _, safeIntHolds_steady _, stringHolds_steady _⟩
  next => cases isKind

theorem validateEntry_ok {entry taken : Json Number} : validateEntry entry = .ok taken ↔
    ∃ kind table, entry.field? (lit "kind") = some (.string kind) ∧
      entryFields kind = some table ∧
      rebuilt ((lit "kind", memberOf [kind]) :: table) entry = .ok taken := by
  unfold validateEntry
  cases held : entry.field? (lit "kind") with
  | none => simp
  | some value =>
      cases value with
      | string kind =>
          cases isKind : entryFields kind with
          | none => simp [isKind]
          | some table => simp [isKind]
      | null | bool _ | number _ | array _ | object _ => simp

theorem validateEntry_steady : Steady validateEntry := by
  have table_steady {kind : Text} {table : List (Text × FieldReader)}
      (isKind : entryFields kind = some table) :
      Steady (rebuilt ((lit "kind", memberOf [kind]) :: table)) := by
    obtain ⟨steady, nodup⟩ := entryFields_steady isKind
    exact rebuilt_steady (List.forall_mem_cons.mpr ⟨stringHolds_steady _, steady⟩) nodup
  refine ⟨fun typed read => ?_, fun {entry taken} typed read => ?_⟩
  · obtain ⟨kind, table, -, isKind, isRead⟩ := validateEntry_ok.mp read
    exact (table_steady isKind).typed typed isRead
  · obtain ⟨kind, table, held, isKind, isRead⟩ := validateEntry_ok.mp read
    obtain ⟨later, isLater, same⟩ := (table_steady isKind).again typed isRead
    refine ⟨later, validateEntry_ok.mpr ⟨kind, table, ?_, isKind, isLater⟩, same⟩
    -- The first row takes the kind as it is.
    have isTyped := (table_steady isKind).typed typed isRead
    obtain ⟨fields, rows, -, -, takes, rfl⟩ := rebuilt_ok.mp isRead
    cases takes with
    | @cons _ first _ rest isFirst _ =>
        obtain ⟨key, value, isValue, isTaken⟩ := isFirst
        rw [held] at isValue
        obtain rfl := Option.some.inj isValue
        have same := (kept_ok.mp isTaken).2
        rw [field?_sorted_typed isTyped, Json.field?, List.find?_cons, key, beq_self_eq_true]
        simp [same, Json.sorted]

/-! ## Records -/

theorem isHexOf_sha256Hex (bytes : Bytes) : Text.isHexOf 64 (sha256Hex bytes) = true := by
  have hex : ∀ value, value < 16 → Text.isLowerHex (Json.hexDigit value) = true := by decide
  have length : (hexText (sha256 bytes)).length = 2 * (sha256 bytes).length := by
    unfold hexText
    induction sha256 bytes with
    | nil => rfl
    | cons byte rest ih =>
        rw [List.flatMap_cons, List.length_append, ih]
        simp only [List.length_cons, List.length_nil]
        omega
  rw [sha256Hex, Text.isHexOf, length, sha256_length, Bool.and_eq_true]
  refine ⟨rfl, List.all_eq_true.mpr fun c member => ?_⟩
  obtain ⟨byte, -, inside⟩ := List.mem_flatMap.mp member
  have bound := byte.toNat_lt
  simp only [List.mem_cons, List.not_mem_nil, or_false] at inside
  rcases inside with rfl | rfl
  · exact hex _ (by omega)
  · exact hex _ (by omega)

/-- What `buildDelegationJournalRecord` answers. -/
structure DelegationJournalRecord.Built (record : DelegationJournalRecord) : Prop where
  sequence : isSequence record.sequence = true
  acceptedAt : (parseDelegationInstant record.acceptedAt).isSome = true
  previousDigest : isPreviousDigest record.previousDigest = true
  entry : ∃ raw, IsTyped raw ∧ validateEntry raw = .ok record.entry
  journalId : record.delegationJournalId = .ok record.journalId
  digest : record.delegationJournalDigest record.journalId = .ok record.digest

theorem mapError_ok {ε δ α : Type} {change : ε → δ} {read : Except ε α} {answer : α} :
    Except.mapError change read = .ok answer ↔ read = .ok answer := by
  cases read <;> simp [Except.mapError]

theorem build_built {fields : DelegationJournalRecordFields} (typed : IsTyped fields.entry)
    {record : DelegationJournalRecord} (built : buildDelegationJournalRecord fields = .ok record) :
    record.Built ∧ record.sequence = fields.sequence ∧
      record.previousDigest = fields.previousDigest := by
  unfold buildDelegationJournalRecord at built
  split at built
  next => cases built
  next sequence =>
      split at built
      next => cases built
      next acceptedAt =>
          split at built
          next => cases built
          next previous =>
              simp only [except_bind_ok, refused, thrown, mapError_ok] at built
              obtain ⟨entry, isEntry, journalId, isId, digest, isDigest, same⟩ := built
              obtain rfl := Except.ok.inj same
              refine ⟨⟨not_not.mp sequence, ?_, not_not.mp previous, ⟨_, typed, isEntry⟩, isId,
                isDigest⟩, rfl, rfl⟩
              exact Option.isSome_iff_ne_none.mpr acceptedAt

/-- The same record, but for the order of the members in its entry. -/
structure DelegationJournalRecord.Same (first second : DelegationJournalRecord) : Prop where
  sequence : first.sequence = second.sequence
  acceptedAt : first.acceptedAt = second.acceptedAt
  previousDigest : first.previousDigest = second.previousDigest
  journalId : first.journalId = second.journalId
  digest : first.digest = second.digest
  entry : first.entry.SameMembers second.entry

theorem canonicalDelegationValue_congr {first second : Json Number}
    (same : first.SameMembers second) :
    canonicalDelegationValue first = canonicalDelegationValue second := by
  rw [canonicalDelegationValue, canonicalDelegationValue, same]

namespace DelegationJournalRecord.Same

variable {first second : DelegationJournalRecord}

theorem json (same : first.Same second) : first.json.SameMembers second.json := by
  obtain ⟨sequence, acceptedAt, previousDigest, journalId, digest, entry⟩ := same
  rw [Json.SameMembers] at entry ⊢
  simp only [DelegationJournalRecord.json, Json.sorted, Json.sortedFields, sequence, acceptedAt,
    previousDigest, journalId, digest, entry]

theorem delegationJournalId (same : first.Same second) :
    first.delegationJournalId = second.delegationJournalId := by
  obtain ⟨sequence, acceptedAt, previousDigest, -, -, entry⟩ := same
  rw [Json.SameMembers] at entry
  simp only [DelegationJournalRecordFields.delegationJournalId, canonicalDelegationValue,
    Json.sorted, Json.sortedFields, sequence, acceptedAt, previousDigest, entry]

theorem delegationJournalDigest (same : first.Same second) (journalId : Text) :
    first.delegationJournalDigest journalId = second.delegationJournalDigest journalId := by
  obtain ⟨sequence, acceptedAt, previousDigest, -, -, entry⟩ := same
  rw [Json.SameMembers] at entry
  simp only [DelegationJournalRecordFields.delegationJournalDigest, canonicalDelegationValue,
    Json.sorted, Json.sortedFields, sequence, acceptedAt, previousDigest, entry]

end DelegationJournalRecord.Same

/-! ## Lines -/

def wholeTextOrNull : Option Text → Json Int
  | some text => .string text
  | none => .null

/-- The members of a record over the entry whose numbers are integers. -/
def wholeRecord (record : DelegationJournalRecord) (entry : Json Int) : Json Int :=
  .object [(lit "v", .number 1), (lit "sequence", .number record.sequence),
    (lit "journalId", .string record.journalId), (lit "acceptedAt", .string record.acceptedAt),
    (lit "previousDigest", wholeTextOrNull record.previousDigest), (lit "entry", entry),
    (lit "digest", .string record.digest)]

theorem map_wholeTextOrNull (text : Option Text) :
    (wholeTextOrNull text).map Number.ofInt = textOrNull text := by
  cases text <;> rfl

theorem wholeRecord_map (record : DelegationJournalRecord) {entry : Json Int}
    (same : record.entry = entry.map Number.ofInt) :
    (wholeRecord record entry).map Number.ofInt = record.json := by
  simp only [wholeRecord, Json.map, Json.mapFields, map_wholeTextOrNull, DelegationJournalRecord.json,
    same, number]

/-- The text of a record's line, and what is read of it. -/
structure DelegationJournalRecord.Line (record : DelegationJournalRecord) (text : Text) : Prop where
  canonical : canonicalDelegationValue record.json = .ok text
  formed : Utf8.isWellFormed text = true
  plain : ∀ c ∈ text, ¬c < 0x20
  braces : ∃ inside, text = unit '\x7b' :: (inside ++ [unit '\x7d'])
  parsed : Json.parse text = some record.json.sorted

theorem isWellFormed_hex {text : Text} (hex : Text.isHexOf 64 text = true) :
    Utf8.isWellFormed text = true := by
  refine Utf8.isWellFormed_alone fun c member => ?_
  rw [Text.isHexOf, Bool.and_eq_true] at hex
  have digit := List.all_eq_true.mp hex.2 c member
  simp only [Text.isLowerHex, Text.isDigit, Bool.or_eq_true, Bool.and_eq_true, decide_eq_true_eq,
    UInt16.le_iff_toNat_le] at digit
  have nine : (unit '9').toNat = 57 := rfl
  have last : (unit 'f').toNat = 102 := rfl
  exact Bool.eq_false_iff.mpr (mt Utf8.surrogate_bounds.2.2.mp (by omega))

theorem sha256Hex_ok {text digest : Text} (hashed : delegationSha256Hex text = .ok digest) :
    Text.isHexOf 64 digest = true := by
  unfold delegationSha256Hex at hashed
  cases formed : wellFormed text (lit "the hashed text") with
  | error message =>
      rw [formed] at hashed
      cases hashed
  | ok text =>
      rw [formed] at hashed
      obtain rfl := Except.ok.inj hashed
      exact isHexOf_sha256Hex _

section Line

variable {record : DelegationJournalRecord} {text : Text}

theorem DelegationJournalRecord.Built.hex (built : record.Built) :
    Text.isHexOf 64 record.journalId = true ∧ Text.isHexOf 64 record.digest = true := by
  have named := built.journalId
  have digested := built.digest
  simp only [DelegationJournalRecordFields.delegationJournalId, except_bind_ok] at named
  simp only [DelegationJournalRecordFields.delegationJournalDigest, except_bind_ok] at digested
  obtain ⟨_, -, isId⟩ := named
  obtain ⟨_, -, isDigest⟩ := digested
  exact ⟨sha256Hex_ok isId, sha256Hex_ok isDigest⟩

theorem DelegationJournalRecord.Built.line (built : record.Built) :
    ∃ text, record.Line text := by
  obtain ⟨raw, typed, validated⟩ := built.entry
  obtain ⟨entry, distinct, isEntry⟩ := validateEntry_steady.typed typed validated
  have digested := built.digest
  simp only [DelegationJournalRecordFields.delegationJournalDigest, except_bind_ok] at digested
  obtain ⟨preimage, encoded, -⟩ := digested
  -- The preimage of the digest holds all of the record but the digest itself.
  have whole : canonicalDelegationValue ((Json.object
      [(lit "v", .number 1), (lit "sequence", .number record.sequence),
        (lit "journalId", .string record.journalId), (lit "acceptedAt", .string record.acceptedAt),
        (lit "previousDigest", wholeTextOrNull record.previousDigest),
        (lit "entry", entry)]).map Number.ofInt) = .ok preimage := by
    rw [← encoded]
    simp only [Json.map, Json.mapFields, map_wholeTextOrNull, isEntry, number]
  have canonical : IsCanonical (wholeRecord record entry) := by
    have parts := isCanonicalFields_iff.mp (canonicalDelegationValue_ok whole).1
    refine isCanonicalFields_iff.mpr fun field member => ?_
    rw [List.forall_mem_cons, List.forall_mem_cons, List.forall_mem_cons, List.forall_mem_cons,
      List.forall_mem_cons, List.forall_mem_cons] at parts
    obtain ⟨v, sequence, journalId, acceptedAt, previousDigest, isEntry, -⟩ := parts
    simp only [List.mem_cons, List.not_mem_nil, or_false] at member
    rcases member with rfl | rfl | rfl | rfl | rfl | rfl | rfl
    · exact v
    · exact sequence
    · exact journalId
    · exact acceptedAt
    · exact previousDigest
    · exact isEntry
    · exact ⟨(by decide : Utf8.isWellFormed (lit "digest") = true), isWellFormed_hex built.hex.2⟩
  have keysOnce : (wholeRecord record entry).Distinct := by
    refine ⟨(by decide : DelegationJournalRecord.keys.Nodup), trivial, trivial, trivial, trivial,
      ?_, distinct, trivial, trivial⟩
    cases record.previousDigest <;> exact trivial
  have same := wholeRecord_map record isEntry
  refine ⟨Json.write Text.ofInt (wholeRecord record entry).sorted, ?_, Json.write_wellFormed _,
    Json.write_plain _, ?_, ?_⟩
  · rw [← same, canonicalDelegationValue, Json.sorted_map,
      canonValue_ofInt _ ((isCanonical_sorted _).mpr canonical)]
  · cases held : (wholeRecord record entry).sorted with
    | null | bool _ | number _ | string _ | array _ => cases held
    | object fields =>
        cases fields with
        | nil =>
            have length := congrArg List.length (Json.object.inj held)
            rw [List.length_insertionSort] at length
            cases length
        | cons field fields =>
            obtain ⟨key, value⟩ := field
            refine ⟨Json.writeString key ++ unit ':' :: (Json.write Text.ofInt value ++
              Json.writeFields Text.ofInt fields), ?_⟩
            rw [Json.write]
            simp only [List.append_assoc, List.cons_append]
  · rw [Json.parse_write _ (Json.sorted_distinct keysOnce), ← Json.sorted_map, same]

theorem DelegationJournalRecord.Built.typed (built : record.Built) : IsTyped record.json := by
  obtain ⟨raw, typed, validated⟩ := built.entry
  refine isTyped_object.mpr ⟨(by decide : DelegationJournalRecord.keys.Nodup), ?_⟩
  simp only [List.forall_mem_cons, List.not_mem_nil, false_implies, implies_true, and_true]
  exact ⟨isTyped_number 1, isTyped_number _, isTyped_string _, isTyped_string _,
    isTyped_textOrNull _, validateEntry_steady.typed typed validated, isTyped_string _⟩

/-- The members of a record's line, in the order of their names. -/
theorem json_field (built : record.Built) {key : Text} {value : Json Number}
    (held : record.json.field? key = some value) :
    (record.json.sorted.field? key).getD .null = value.sorted := by
  rw [field?_sorted_typed built.typed, held, Option.map_some, Option.getD_some]

theorem kept_again {holds : Json Number → Bool} {value : Json Number}
    (yes : holds value = true) : kept holds value = .ok value := if_pos yes

theorem string?_string (text : Text) : string? (.string text) = some text := rfl

/-- The parsed line is read as the record that was written. -/
theorem readRecord_sorted (built : record.Built) :
    ∃ again, readRecord record.json.sorted = .ok again ∧ again.Same record := by
  obtain ⟨raw, typed, validated⟩ := built.entry
  obtain ⟨entry, isEntry, same⟩ := validateEntry_steady.again typed validated
  obtain ⟨hexId, hexDigest⟩ := built.hex
  have bounds := built.sequence
  rw [isSequence, Bool.and_eq_true, decide_eq_true_eq, decide_eq_true_eq] at bounds
  have safe : (Number.ofInt record.sequence).safeInt? = some record.sequence := by
    refine Number.ofInt_safeInt? ⟨?_, bounds.2⟩
    rw [Number.maxSafeInteger]
    omega
  have keys : exactKeys ((Json.sortedFields [(lit "v", number 1),
      (lit "sequence", number record.sequence), (lit "journalId", .string record.journalId),
      (lit "acceptedAt", .string record.acceptedAt),
      (lit "previousDigest", textOrNull record.previousDigest), (lit "entry", record.entry),
      (lit "digest", .string record.digest)]).insertionSort Json.NotAfter)
      DelegationJournalRecord.keys = .ok () := by
    refine exactKeys_ok.mpr fun key => ?_
    rw [((List.perm_insertionSort _ _).map _).mem_iff, Json.sortedFields_keys]
    rfl
  have v := @json_field _ built (lit "v") (number 1) rfl
  have sequence := @json_field _ built (lit "sequence") (number record.sequence) rfl
  have journalId := @json_field _ built (lit "journalId") (.string record.journalId) rfl
  have acceptedAt := @json_field _ built (lit "acceptedAt") (.string record.acceptedAt) rfl
  have previous := @json_field _ built (lit "previousDigest") (textOrNull record.previousDigest) rfl
  have held := @json_field _ built (lit "entry") record.entry rfl
  have digest := @json_field _ built (lit "digest") (.string record.digest) rfl
  have one : safeIntHolds (· = 1) (number 1) = true := by decide
  have isInstant : instant (.string record.acceptedAt) = .ok (.string record.acceptedAt) :=
    kept_again built.acceptedAt
  have isId : hex64 (.string record.journalId) = .ok (.string record.journalId) := kept_again hexId
  have isDigest : hex64 (.string record.digest) = .ok (.string record.digest) := kept_again hexDigest
  have isPrevious : orNull hex64 (textOrNull record.previousDigest) =
      .ok (textOrNull record.previousDigest) := by
    have hex := built.previousDigest
    cases isNone : record.previousDigest with
    | none => rfl
    | some text =>
        rw [isNone] at hex
        exact kept_again hex
  have named : string? (textOrNull record.previousDigest) = record.previousDigest := by
    cases record.previousDigest <;> rfl
  have sorted : (textOrNull record.previousDigest).sorted = textOrNull record.previousDigest := by
    cases record.previousDigest <;> rfl
  refine ⟨{ record with entry }, ?_, rfl, rfl, rfl, rfl, rfl, same⟩
  rw [sorted] at previous
  simp only [DelegationJournalRecord.json, Json.sorted, number] at *
  simp only [readRecord, keys, v, sequence, journalId, acceptedAt, previous, held, digest, one,
    safe, isInstant, isId, isDigest, isPrevious, isEntry, named, string?_string, Option.getD_some,
    bind, Except.bind, pure, Except.pure, not_true, if_false, if_neg (Int.not_lt.mpr bounds.1)]

/-- The line of a record that was built is read back as that record. -/
theorem decode_line (built : record.Built) (line : record.Line text) :
    ∃ again, decodeDelegationJournalLine (Utf8.encode text) = .ok again ∧ again.Same record := by
  obtain ⟨again, isAgain, same⟩ := readRecord_sorted built
  obtain ⟨inside, braces⟩ := line.braces
  have head : ∃ rest, Utf8.encode text = 0x7B :: rest := by
    rw [braces, Utf8.encode_cons (by decide)]
    exact ⟨_, rfl⟩
  obtain ⟨rest, bytes⟩ := head
  have notBom : ¬[0xEF, 0xBB, 0xBF].isPrefixOf (Utf8.encode text) = true := by
    rw [bytes]
    simp
  have notBlank : Utf8.encode text ≠ [] := by simp [bytes]
  have noCr : (0x0D : UInt8) ∉ Utf8.encode text :=
    Utf8.not_mem_encode line.formed (by decide) fun member => line.plain _ member (by decide)
  have notCrlf : ¬(Utf8.encode text).getLast? = some 0x0D := fun last =>
    noCr (List.mem_of_getLast? last)
  have canonical : canonicalDelegationValue again.json = .ok text := by
    rw [canonicalDelegationValue_congr same.json, line.canonical]
  have id : again.delegationJournalId = .ok again.journalId := by
    rw [same.delegationJournalId, same.journalId, built.journalId]
  have digest : again.delegationJournalDigest again.journalId = .ok again.digest := by
    rw [same.delegationJournalDigest, same.journalId, same.digest, built.digest]
  refine ⟨again, ?_, same⟩
  rw [decodeDelegationJournalLine, if_neg notBom, if_neg notBlank, if_neg notCrlf,
    Utf8.decode_encode line.formed]
  simp only [line.parsed, isAgain, canonical, id, digest, ne_eq, not_true, if_false, bind,
    Except.bind, pure, Except.pure]

/-- No shorter piece of a line is one. -/
theorem decode_cut (line : record.Line text) {before after : Bytes}
    (cut : before ++ after = Utf8.encode text) (short : after ≠ []) :
    ∀ again, decodeDelegationJournalLine before ≠ .ok again := by
  intro again decoded
  unfold decodeDelegationJournalLine at decoded
  split at decoded
  next => cases decoded
  next =>
  split at decoded
  next => cases decoded
  next =>
  split at decoded
  next => cases decoded
  next =>
  split at decoded
  next => cases decoded
  next piece isPiece =>
  split at decoded
  next => cases decoded
  next parsed isParsed =>
  -- What the piece holds is an object, and so nothing but white space follows it.
  have whole := Utf8.decode_append isPiece after
  rw [cut, Utf8.decode_encode line.formed] at whole
  obtain ⟨behind, isBehind, text_eq⟩ := Option.map_eq_some_iff.mp whole.symm
  simp only [except_bind_ok] at decoded
  obtain ⟨record', isRecord, -⟩ := decoded
  obtain ⟨fields, rfl⟩ : ∃ fields, parsed = .object fields := by
    cases parsed with
    | object fields => exact ⟨fields, rfl⟩
    | null | bool _ | number _ | string _ | array _ => cases isRecord
  have space := Json.space_after_object (text_eq ▸ line.parsed) isParsed
  have nothing : behind = [] := by
    by_contra some_
    obtain ⟨inside, braces⟩ := line.braces
    have last := congrArg List.getLast? (text_eq.trans braces)
    rw [List.getLast?_append_of_ne_nil _ some_, ← List.cons_append, List.getLast?_concat] at last
    exact absurd (space _ (List.mem_of_getLast? last)) (by decide)
  subst nothing
  exact short (Utf8.decode_nil isBehind)

end Line

end Ccrc.Coord
