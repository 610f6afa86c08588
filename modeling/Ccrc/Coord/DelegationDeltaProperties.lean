import Ccrc.Coord.DelegationDelta
import Ccrc.Library.JsonProperties

/-! Writing the delta of two checkpoints into the projection of the earlier one leaves the
projection of the later one: every listed prior row is stored, every key to add is free,
and the counts are the sizes of the tables. -/

set_option autoImplicit false

namespace Ccrc.Coord

open Library Shared
open Library.Text (lit unit)

/-! ## Keys -/

theorem heldTwice_none {seen keys : List Text} (once : heldTwice seen keys = none) :
    keys.Nodup ∧ ∀ key ∈ keys, key ∉ seen := by
  induction keys generalizing seen with
  | nil => exact ⟨List.nodup_nil, fun key member => absurd member List.not_mem_nil⟩
  | cons key rest ih =>
      rw [heldTwice] at once
      split at once
      next => cases once
      next fresh =>
        obtain ⟨distinct, unseen⟩ := ih once
        refine ⟨List.nodup_cons.mpr ⟨fun member => unseen key member List.mem_cons_self, distinct⟩,
          fun other member => ?_⟩
        cases List.mem_cons.mp member with
        | inl here => exact here ▸ fresh
        | inr later => exact fun inSeen => unseen other later (List.mem_cons_of_mem _ inSeen)

private theorem distinctItems_strings (parts : List Text) :
    Json.DistinctItems (parts.map (Json.string (ν := Int))) := by
  induction parts with
  | nil => exact trivial
  | cons part rest ih => exact ⟨trivial, ih⟩

private theorem mapItems_strings (parts : List Text) :
    Json.mapItems Number.ofInt (parts.map .string) = parts.map .string := by
  induction parts with
  | nil => rfl
  | cons part rest ih => rw [List.map_cons, Json.mapItems, ih, Json.map, List.map_cons]

private theorem write_strings_inj {first second : List Text}
    (same : Json.write Text.ofInt (.array (first.map .string)) =
      Json.write Text.ofInt (.array (second.map .string))) : first = second := by
  have readFirst := Json.parse_write (.array (first.map .string)) (distinctItems_strings first)
  have readSecond := Json.parse_write (.array (second.map .string)) (distinctItems_strings second)
  rw [same, readSecond] at readFirst
  have items := Json.array.inj (Option.some.inj readFirst)
  rw [mapItems_strings, mapItems_strings] at items
  exact (List.map_injective_iff.mpr (fun _ _ => Json.string.inj) items).symm

/-- Keys of as many parts are one key where their parts are the same. -/
theorem keyOf_inj {first second : List Text} (sameLength : first.length = second.length)
    (same : keyOf first = keyOf second) : first = second := by
  match first, second, sameLength with
  | [], [], _ => rfl
  | [one], [other], _ => exact congrArg (fun part => [part]) same
  | _ :: _ :: _, _ :: _ :: _, _ => exact write_strings_inj same

/-! ## Records -/

/-- Two records that name the same columns, once each, are equal where their values are. -/
theorem values_ext {first second : DelegationProjectionValues}
    (named : first.map (·.1) = second.map (·.1)) (distinct : (first.map (·.1)).Nodup)
    (same : ∀ column ∈ first.map (·.1), first.get? column = second.get? column) :
    first = second := by
  induction first generalizing second with
  | nil => exact (List.map_eq_nil_iff.mp named.symm).symm
  | cons entry rest ih =>
      match second, named with
      | [], named => cases named
      | (column, other) :: others, named =>
          obtain ⟨name, value⟩ := entry
          simp only [List.map_cons, List.cons.injEq] at named
          obtain ⟨rfl, named⟩ := named
          rw [List.map_cons, List.nodup_cons] at distinct
          have here := same name (by simp)
          simp only [Map.get?, if_true, Option.some.injEq] at here
          rw [here, ih named distinct.2 fun column member => ?_]
          have there := same column (by rw [List.map_cons]; exact List.mem_cons_of_mem _ member)
          have differ : name ≠ column := fun same => distinct.1 (same ▸ member)
          rwa [Map.get?, Map.get?, if_neg differ, if_neg differ] at there

theorem get?_map_values (row : DelegationProjectionValues) (column : Text)
    (change : Text → DelegationSqlValue → DelegationSqlValue) :
    Map.get? column (row.map fun entry => (entry.1, change entry.1 entry.2)) =
      (row.get? column).map (change column) := by
  induction row with
  | nil => rfl
  | cons entry rest ih =>
      obtain ⟨name, value⟩ := entry
      rw [List.map_cons, Map.get?, Map.get?]
      split
      next here => rw [here, Option.map_some]
      next => exact ih

section Codec

variable {Row : Type} {codec : DelegationRowCodec Row} {key : DelegationKey codec}

theorem toDb_columns {row : Row} {values : DelegationProjectionValues}
    (encoded : codec.toDb row = .ok values) : values.map (·.1) = codec.columns :=
  (EncodedColumn.record_columns encoded).trans (codec.named row)

private theorem stored_values {columns : List Text} {parts : List Text}
    {encoded : List EncodedColumn} {values : DelegationProjectionValues}
    (recorded : EncodedColumn.record encoded = .ok values)
    (stored : columns.map (fun column => Map.get? column encoded) =
      parts.map fun part => some (.ok (.text part))) :
    keyValues columns values = parts.map fun part => some (.text part) := by
  induction columns generalizing parts with
  | nil =>
      rw [List.map_nil] at stored
      rw [List.map_eq_nil_iff.mp stored.symm]
      rfl
  | cons column rest ih =>
      match parts, stored with
      | [], stored => cases stored
      | part :: others, stored =>
          simp only [List.map_cons, List.cons.injEq] at stored
          rw [keyValues, List.map_cons, List.map_cons, EncodedColumn.record_get? recorded stored.1]
          exact congrArg _ (ih stored.2)

/-- A stored key is the row's own. -/
theorem keyValues_toDb {row : Row} {values : DelegationProjectionValues}
    (encoded : codec.toDb row = .ok values) :
    keyValues key.columns values = (key.parts row).map fun part => some (.text part) :=
  stored_values encoded (key.stored row)

theorem parts_length (row : Row) : (key.parts row).length = key.columns.length := by
  simpa using (congrArg List.length (key.stored row)).symm

/-- Two stored rows have one key where their rows do. -/
theorem keyValues_eq_iff {first second : Row} {stored other : DelegationProjectionValues}
    (encoded : codec.toDb first = .ok stored) (encodedOther : codec.toDb second = .ok other) :
    keyValues key.columns stored = keyValues key.columns other ↔
      keyOf (key.parts first) = keyOf (key.parts second) := by
  rw [keyValues_toDb encoded, keyValues_toDb encodedOther]
  constructor
  · intro same
    rw [List.map_injective_iff.mpr (fun _ _ same =>
      DelegationSqlValue.text.inj (Option.some.inj same)) same]
  · intro same
    rw [keyOf_inj ((parts_length first).trans (parts_length second).symm) same]

end Codec

/-! ## One table -/

/-- What a part lists to write. -/
def lists : Except DelegationThrown DelegationTableDiff →
    List DelegationProjectionUpdate × List DelegationProjectionInsert
  | .ok (.writes updates inserts) => (updates, inserts)
  | .ok (.reason _) | .error _ => ([], [])

/-- Joined parts that list what they write: every one of them does. -/
theorem joinDiffs_writes {parts : List (Except DelegationThrown DelegationTableDiff)}
    {updates : List DelegationProjectionUpdate} {inserts : List DelegationProjectionInsert}
    (written : joinDiffs parts = .ok (.writes updates inserts)) :
    (∀ part ∈ parts, part = .ok (.writes (lists part).1 (lists part).2)) ∧
      updates = parts.flatMap (fun part => (lists part).1) ∧
      inserts = parts.flatMap (fun part => (lists part).2) := by
  induction parts generalizing updates inserts with
  | nil =>
      cases written
      exact ⟨fun part member => absurd member List.not_mem_nil, rfl, rfl⟩
  | cons part rest ih =>
      match part with
      | .error thrown => cases written
      | .ok (.reason why) => cases written
      | .ok (.writes first firstInserts) =>
          cases others : joinDiffs rest with
          | error thrown => simp [joinDiffs, others] at written
          | ok diff =>
              cases diff with
              | reason why => simp [joinDiffs, others] at written
              | writes more moreInserts =>
                  simp only [joinDiffs, others, Except.ok.injEq,
                    DelegationTableDiff.writes.injEq] at written
                  obtain ⟨each, sameUpdates, sameInserts⟩ := ih others
                  refine ⟨fun part member => ?_, ?_, ?_⟩
                  · cases List.mem_cons.mp member with
                    | inl here => rw [here]; rfl
                    | inr later => exact each part later
                  · rw [← written.1, sameUpdates, List.flatMap_cons]; rfl
                  · rw [← written.2, sameInserts, List.flatMap_cons]; rfl

/-- What one row of the later checkpoint adds to a diff. -/
inductive RowDelta {Row : Type} (codec : DelegationRowCodec Row) (key : DelegationKey codec)
    (frozen : Option Row → Row → Bool) : Option Row → Row →
      List DelegationProjectionUpdate → List DelegationProjectionInsert → Prop where
  | added {next : Row} {values : DelegationProjectionValues}
      (allowed : frozen none next = false) (encoded : codec.toDb next = .ok values) :
      RowDelta codec key frozen none next [] [⟨codec.table, values⟩]
  | sameObject {row : Row} : RowDelta codec key frozen (some row) row [] []
  | sameValues {prior next : Row} {values : DelegationProjectionValues}
      (encodedPrior : codec.toDb prior = .ok values) (encoded : codec.toDb next = .ok values) :
      RowDelta codec key frozen (some prior) next [] []
  | changed {prior next : Row} {before after : DelegationProjectionValues}
      (encodedPrior : codec.toDb prior = .ok before) (encoded : codec.toDb next = .ok after) :
      RowDelta codec key frozen (some prior) next [⟨codec.table, key.columns, before, after⟩] []

section Table

variable {Row : Type} {codec : DelegationRowCodec Row} {key : DelegationKey codec}
  {objects : SameObject Row} {frozen : Option Row → Row → Bool}

theorem diffProjectionRow_writes {prior : Option Row} {next : Row}
    {updates : List DelegationProjectionUpdate} {inserts : List DelegationProjectionInsert}
    (written : diffProjectionRow codec key objects frozen prior next =
      .ok (.writes updates inserts)) :
    RowDelta codec key frozen prior next updates inserts := by
  cases prior with
  | none =>
      rw [diffProjectionRow] at written
      split at written
      next => cases written
      next allowed =>
        cases encoded : codec.toDb next with
        | error thrown => simp [encoded, bind, Except.bind] at written
        | ok values =>
            rw [encoded] at written
            cases written
            exact .added (by simpa using allowed) encoded
  | some prior =>
      rw [diffProjectionRow] at written
      split at written
      next same =>
        cases written
        exact objects.equal prior next same ▸ .sameObject
      next =>
        cases encoded : codec.toDb next with
        | error thrown => simp [encoded, bind, Except.bind] at written
        | ok after =>
            cases encodedPrior : codec.toDb prior with
            | error thrown => simp [encoded, encodedPrior, bind, Except.bind] at written
            | ok before =>
                rw [encoded, encodedPrior] at written
                simp only [bind, Except.bind, pure, Except.pure] at written
                split at written
                next equal =>
                  cases written
                  have named := (toDb_columns encodedPrior).trans (toDb_columns encoded).symm
                  have same : before = after := by
                    refine values_ext named (toDb_columns encodedPrior ▸ codec.distinct) ?_
                    intro column member
                    rw [toDb_columns encodedPrior] at member
                    exact eq_of_beq (List.all_eq_true.mp equal column member)
                  exact .sameValues (same ▸ encodedPrior) encoded
                next =>
                  split at written
                  next => cases written
                  next =>
                    cases written
                    exact .changed encodedPrior encoded

/-- A diff of a table that lists writes: keys are held once on both sides, none leaves, and
each row of the later checkpoint adds its part. -/
theorem diffProjectionTable_writes {prior next : List Row}
    {updates : List DelegationProjectionUpdate} {inserts : List DelegationProjectionInsert}
    (written : diffProjectionTable codec key objects frozen prior next =
      .ok (.writes updates inserts)) :
    (prior.map fun row => keyOf (key.parts row)).Nodup ∧
      (next.map fun row => keyOf (key.parts row)).Nodup ∧
      (∀ old ∈ prior, ∃ row ∈ next, keyOf (key.parts row) = keyOf (key.parts old)) ∧
      ∃ each : Row → List DelegationProjectionUpdate × List DelegationProjectionInsert,
        updates = next.flatMap (fun row => (each row).1) ∧
        inserts = next.flatMap (fun row => (each row).2) ∧
        ∀ row ∈ next, RowDelta codec key frozen
          (rowOf (fun row => keyOf (key.parts row)) prior (keyOf (key.parts row))) row
          (each row).1 (each row).2 := by
  unfold diffProjectionTable at written
  simp only at written
  split at written
  next => cases written
  next once =>
    split at written
    next => cases written
    next onceNext =>
      split at written
      next => cases written
      next stay =>
        refine ⟨(heldTwice_none once).1, (heldTwice_none onceNext).1, fun old member => ?_, ?_⟩
        · have among := List.find?_eq_none.mp stay _ (List.mem_map_of_mem member)
          simp only [decide_eq_true_eq, not_not] at among
          obtain ⟨row, isNext, same⟩ := List.mem_map.mp among
          exact ⟨row, isNext, same⟩
        · obtain ⟨parts, rfl, rfl⟩ := joinDiffs_writes written
          refine ⟨fun row => lists (diffProjectionRow codec key objects frozen
            (rowOf (fun row => keyOf (key.parts row)) prior (keyOf (key.parts row))) row),
            by rw [List.flatMap_map], by rw [List.flatMap_map], fun row member => ?_⟩
          exact diffProjectionRow_writes (parts _ (List.mem_map_of_mem member))

end Table

/-- The writes of one table, between the stored rows of two checkpoints. -/
structure TableWrites (table : Text) (columns keyColumns : List Text)
    (before after : List DelegationProjectionValues)
    (updates : List DelegationProjectionUpdate) (inserts : List DelegationProjectionInsert) :
    Prop where
  updateShape : ∀ update ∈ updates, update.table = table ∧ update.keyColumns = keyColumns
  insertShape : ∀ insert ∈ inserts, insert.table = table
  shaped : ∀ row ∈ before, row.map (·.1) = columns
  shapedAfter : ∀ row ∈ after, row.map (·.1) = columns
  distinct : (before.map (keyValues keyColumns)).Nodup
  distinctAfter : (after.map (keyValues keyColumns)).Nodup
  delta : TableDelta (keyValues keyColumns) before after
    (updates.map fun update => (update.prior, update.next)) (inserts.map (·.values))

section Stored

variable {Row : Type} {codec : DelegationRowCodec Row} {key : DelegationKey codec}
  {rows : List Row} {stored : List DelegationProjectionValues}

theorem mapM_toDb_ok : (∃ stored, rows.mapM codec.toDb = .ok stored) ↔
    ∀ row ∈ rows, ∃ values, codec.toDb row = .ok values := by
  constructor
  · rintro ⟨stored, encoded⟩ row member
    obtain ⟨values, -, here⟩ := forall₂_mem_left (mapM_eq_ok_iff.mp encoded) member
    exact ⟨values, here⟩
  · intro each
    induction rows with
    | nil => exact ⟨[], rfl⟩
    | cons row rest ih =>
        obtain ⟨values, here⟩ := each row List.mem_cons_self
        obtain ⟨others, more⟩ := ih fun row member => each row (List.mem_cons_of_mem _ member)
        exact ⟨values :: others, mapM_eq_ok_iff.mpr (.cons here (mapM_eq_ok_iff.mp more))⟩

theorem stored_of_row (encoded : rows.mapM codec.toDb = .ok stored) {row : Row}
    (member : row ∈ rows) {values : DelegationProjectionValues}
    (here : codec.toDb row = .ok values) : values ∈ stored := by
  obtain ⟨other, among, same⟩ := forall₂_mem_left (mapM_eq_ok_iff.mp encoded) member
  rw [here] at same
  exact Except.ok.inj same ▸ among

theorem row_of_stored (encoded : rows.mapM codec.toDb = .ok stored)
    {values : DelegationProjectionValues} (member : values ∈ stored) :
    ∃ row ∈ rows, codec.toDb row = .ok values :=
  forall₂_mem_right (mapM_eq_ok_iff.mp encoded) member

theorem stored_shaped (encoded : rows.mapM codec.toDb = .ok stored) :
    ∀ values ∈ stored, values.map (·.1) = codec.columns := by
  intro values member
  obtain ⟨row, -, here⟩ := row_of_stored encoded member
  exact toDb_columns here

theorem stored_distinct (encoded : rows.mapM codec.toDb = .ok stored)
    (distinct : (rows.map fun row => keyOf (key.parts row)).Nodup) :
    (stored.map (keyValues key.columns)).Nodup := by
  have each := mapM_eq_ok_iff.mp encoded
  have keys : stored.map (keyValues key.columns) =
      rows.map fun row => (key.parts row).map fun part => some (DelegationSqlValue.text part) := by
    clear encoded distinct
    induction each with
    | nil => rfl
    | cons here _ ih => rw [List.map_cons, List.map_cons, keyValues_toDb here, ih]
  rw [keys]
  refine distinct.of_map.map_on fun first member second other same => ?_
  refine List.inj_on_of_nodup_map distinct member other ?_
  exact congrArg keyOf (List.map_injective_iff.mpr (fun _ _ same =>
    DelegationSqlValue.text.inj (Option.some.inj same)) same)

end Stored

theorem nodup_map_flatMap {α β γ δ : Type} {items : List α} {parts : α → List β} {value : β → γ}
    {key : α → δ} (distinct : (items.map key).Nodup)
    (small : ∀ item ∈ items, ((parts item).map value).Nodup)
    (apart : ∀ first ∈ items, ∀ second ∈ items, ∀ one ∈ parts first, ∀ other ∈ parts second,
      value one = value other → key first = key second) :
    ((items.flatMap parts).map value).Nodup := by
  rw [List.map_flatMap, List.nodup_flatMap]
  refine ⟨small, distinct.of_map.imp_of_mem fun {first second} member other differ => ?_⟩
  intro shared inFirst inSecond
  obtain ⟨one, isOne, rfl⟩ := List.mem_map.mp inFirst
  obtain ⟨two, isTwo, same⟩ := List.mem_map.mp inSecond
  exact differ (List.inj_on_of_nodup_map distinct member other
    (apart first member second other one isOne two isTwo same.symm))

section Table

variable {Row : Type} {codec : DelegationRowCodec Row} {key : DelegationKey codec}
  {objects : SameObject Row} {frozen : Option Row → Row → Bool} {prior next : List Row}
  {updates : List DelegationProjectionUpdate} {inserts : List DelegationProjectionInsert}

/-- A row of the later checkpoint under a key that the earlier one has. -/
private theorem rowDelta_of_some {old row : Row}
    (delta : RowDelta codec key frozen (some old) row updates inserts) :
    old = row ∨ (∃ values, codec.toDb old = .ok values) ∧ ∃ values, codec.toDb row = .ok values := by
  cases delta with
  | sameObject => exact .inl rfl
  | sameValues encodedPrior encoded => exact .inr ⟨⟨_, encodedPrior⟩, _, encoded⟩
  | changed encodedPrior encoded => exact .inr ⟨⟨_, encodedPrior⟩, _, encoded⟩

/-- Between two such checkpoints a table can be encoded on both sides or on neither. -/
theorem diffProjectionTable_encodes
    (written : diffProjectionTable codec key objects frozen prior next =
      .ok (.writes updates inserts)) :
    (∃ stored, prior.mapM codec.toDb = .ok stored) ↔
      ∃ stored, next.mapM codec.toDb = .ok stored := by
  obtain ⟨distinct, -, stay, each, -, -, rows⟩ := diffProjectionTable_writes written
  rw [mapM_toDb_ok, mapM_toDb_ok]
  constructor
  · intro encodes row member
    have delta := rows row member
    cases found : rowOf (fun row => keyOf (key.parts row)) prior (keyOf (key.parts row)) with
    | none =>
        rw [found] at delta
        generalize (each row).1 = ownUpdates, (each row).2 = ownInserts at delta
        cases delta with
        | added allowed encoded => exact ⟨_, encoded⟩
    | some old =>
        rw [found] at delta
        cases rowDelta_of_some delta with
        | inl same => exact same ▸ encodes old (rowOf_some found).1
        | inr both => exact both.2
  · intro encodes old member
    obtain ⟨row, isNext, same⟩ := stay old member
    have delta := rows row isNext
    rw [same, rowOf_mem distinct member] at delta
    cases rowDelta_of_some delta with
    | inl isRow => exact isRow ▸ encodes row isNext
    | inr both => exact both.1

/-- The row of its key that a row of the later checkpoint is held against. -/
private abbrev matched (key : DelegationKey codec) (prior : List Row) (row : Row) : Option Row :=
  rowOf (fun row => keyOf (key.parts row)) prior (keyOf (key.parts row))

private theorem rowDelta_update {row : Row}
    (delta : RowDelta codec key frozen (matched key prior row) row updates inserts)
    {update : DelegationProjectionUpdate} (member : update ∈ updates) :
    ∃ old ∈ prior, keyOf (key.parts old) = keyOf (key.parts row) ∧ update.table = codec.table ∧
      update.keyColumns = key.columns ∧ codec.toDb old = .ok update.prior ∧
      codec.toDb row = .ok update.next := by
  generalize found : matched key prior row = held at delta
  cases delta with
  | added => cases member
  | sameObject => cases member
  | sameValues => cases member
  | @changed old _ before after encodedPrior encoded =>
      cases List.mem_singleton.mp member
      obtain ⟨isPrior, sameKey⟩ := rowOf_some found
      exact ⟨old, isPrior, sameKey, rfl, rfl, encodedPrior, encoded⟩

private theorem rowDelta_insert {row : Row}
    (delta : RowDelta codec key frozen (matched key prior row) row updates inserts)
    {insert : DelegationProjectionInsert} (member : insert ∈ inserts) :
    insert.table = codec.table ∧ codec.toDb row = .ok insert.values ∧
      frozen none row = false ∧ ∀ old ∈ prior, keyOf (key.parts old) ≠ keyOf (key.parts row) := by
  generalize found : matched key prior row = held at delta
  cases delta with
  | @added _ values allowed encoded =>
      cases List.mem_singleton.mp member
      exact ⟨rfl, encoded, allowed, rowOf_none.mp found⟩
  | sameObject => cases member
  | sameValues => cases member
  | changed => cases member

private theorem rowDelta_covers {row : Row}
    (delta : RowDelta codec key frozen (matched key prior row) row updates inserts)
    {values : DelegationProjectionValues} (here : codec.toDb row = .ok values) :
    (∃ insert ∈ inserts, insert.values = values) ∨ (∃ update ∈ updates, update.next = values) ∨
      ∃ old ∈ prior, codec.toDb old = .ok values := by
  generalize found : matched key prior row = held at delta
  cases delta with
  | added allowed encoded =>
      exact .inl ⟨_, List.mem_singleton_self _, Except.ok.inj (encoded.symm.trans here)⟩
  | sameObject => exact .inr (.inr ⟨row, (rowOf_some found).1, here⟩)
  | sameValues encodedPrior encoded =>
      exact .inr (.inr ⟨_, (rowOf_some found).1,
        encodedPrior.trans (encoded.symm.trans here)⟩)
  | changed encodedPrior encoded =>
      exact .inr (.inl ⟨_, List.mem_singleton_self _, Except.ok.inj (encoded.symm.trans here)⟩)

private theorem rowDelta_small {held : Option Row} {row : Row}
    (delta : RowDelta codec key frozen held row updates inserts) :
    updates.length ≤ 1 ∧ inserts.length ≤ 1 := by
  cases delta <;> simp

private theorem nodup_of_small {β γ : Type} {items : List β} (value : β → γ)
    (small : items.length ≤ 1) : (items.map value).Nodup := by
  match items, small with
  | [], _ => exact List.nodup_nil
  | [_], _ => exact List.nodup_singleton _

/-- What a diff of a table lists is what turns its stored rows into those of the later
checkpoint. -/
theorem diffProjectionTable_delta
    (written : diffProjectionTable codec key objects frozen prior next =
      .ok (.writes updates inserts)) {before after : List DelegationProjectionValues}
    (encodedPrior : prior.mapM codec.toDb = .ok before)
    (encodedNext : next.mapM codec.toDb = .ok after) :
    TableWrites codec.table codec.columns key.columns before after updates inserts := by
  obtain ⟨distinct, distinctNext, stay, each, rfl, rfl, rows⟩ := diffProjectionTable_writes written
  have update {row : Row} (member : row ∈ next) {update : DelegationProjectionUpdate}
      (listed : update ∈ (each row).1) := rowDelta_update (rows row member) listed
  have insert {row : Row} (member : row ∈ next) {insert : DelegationProjectionInsert}
      (listed : insert ∈ (each row).2) := rowDelta_insert (rows row member) listed
  refine ⟨?_, ?_, stored_shaped encodedPrior, stored_shaped encodedNext,
    stored_distinct encodedPrior distinct, stored_distinct encodedNext distinctNext,
    ⟨?updated, ?updatedOnce, ?inserted, ?insertedOnce, ?covered, ?kept⟩⟩
  · intro one member
    obtain ⟨row, isNext, listed⟩ := List.mem_flatMap.mp member
    obtain ⟨-, -, -, table, columns, -, -⟩ := update isNext listed
    exact ⟨table, columns⟩
  · intro one member
    obtain ⟨row, isNext, listed⟩ := List.mem_flatMap.mp member
    exact (insert isNext listed).1
  case updated =>
    intro pair member
    obtain ⟨one, isUpdate, rfl⟩ := List.mem_map.mp member
    obtain ⟨row, isNext, listed⟩ := List.mem_flatMap.mp isUpdate
    obtain ⟨old, isPrior, sameKey, -, -, encodedOld, encoded⟩ := update isNext listed
    exact ⟨stored_of_row encodedPrior isPrior encodedOld,
      stored_of_row encodedNext isNext encoded,
      (keyValues_eq_iff encodedOld encoded).mpr sameKey⟩
  case updatedOnce =>
    rw [List.map_map]
    refine nodup_map_flatMap distinctNext
      (fun row member => nodup_of_small _ (rowDelta_small (rows row member)).1) ?_
    intro first isFirst second isSecond one inFirst other inSecond same
    obtain ⟨old, -, sameKey, -, -, encodedOld, -⟩ := update isFirst inFirst
    obtain ⟨held, -, sameHeld, -, -, encodedHeld, -⟩ := update isSecond inSecond
    rw [← sameKey, ← sameHeld]
    exact (keyValues_eq_iff encodedOld encodedHeld).mp same
  case inserted =>
    intro values member
    obtain ⟨one, isInsert, rfl⟩ := List.mem_map.mp member
    obtain ⟨row, isNext, listed⟩ := List.mem_flatMap.mp isInsert
    obtain ⟨-, encoded, -, free⟩ := insert isNext listed
    refine ⟨stored_of_row encodedNext isNext encoded, fun old isStored same => ?_⟩
    obtain ⟨row', isPrior, encodedOld⟩ := row_of_stored encodedPrior isStored
    exact free row' isPrior ((keyValues_eq_iff encodedOld encoded).mp same)
  case insertedOnce =>
    rw [List.map_map]
    refine nodup_map_flatMap distinctNext
      (fun row member => nodup_of_small _ (rowDelta_small (rows row member)).2) ?_
    intro first isFirst second isSecond one inFirst other inSecond same
    exact (keyValues_eq_iff (insert isFirst inFirst).2.1 (insert isSecond inSecond).2.1).mp same
  case covered =>
    intro values member
    obtain ⟨row, isNext, encoded⟩ := row_of_stored encodedNext member
    rcases rowDelta_covers (rows row isNext) encoded with
      ⟨one, listed, rfl⟩ | ⟨one, listed, rfl⟩ | ⟨old, isPrior, encodedOld⟩
    · exact .inl (List.mem_map_of_mem (List.mem_flatMap.mpr ⟨row, isNext, listed⟩))
    · exact .inr (.inl ⟨(one.prior, one.next), List.mem_map.mpr
        ⟨one, List.mem_flatMap.mpr ⟨row, isNext, listed⟩, rfl⟩, rfl⟩)
    · exact .inr (.inr (stored_of_row encodedPrior isPrior encodedOld))
  case kept =>
    intro old member
    obtain ⟨row, isPrior, encodedOld⟩ := row_of_stored encodedPrior member
    obtain ⟨later, isNext, sameKey⟩ := stay row isPrior
    obtain ⟨values, isStored, encoded⟩ := forall₂_mem_left (mapM_eq_ok_iff.mp encodedNext) isNext
    exact ⟨values, isStored, (keyValues_eq_iff encoded encodedOld).mpr sameKey⟩

/-- A table whose new rows are all frozen has none in a delta. -/
theorem diffProjectionTable_frozen
    (written : diffProjectionTable codec key objects frozen prior next =
      .ok (.writes updates inserts)) (never : ∀ row, frozen none row = true) : inserts = [] := by
  obtain ⟨-, -, -, each, -, rfl, rows⟩ := diffProjectionTable_writes written
  refine List.flatMap_eq_nil_iff.mpr fun row member => ?_
  refine List.eq_nil_iff_forall_not_mem.mpr fun insert listed => ?_
  obtain ⟨-, -, allowed, -⟩ := rowDelta_insert (rows row member) listed
  rw [never] at allowed
  cases allowed

end Table

end Ccrc.Coord
