import Ccrc.Coord.DelegationDeltaProperties

/-! The transaction that writes a delta: on stored rows of the tables' shapes its statements
are swaps and additions of whole rows, so that it leaves what a full projection would. -/

set_option autoImplicit false

namespace Ccrc.Coord

open Library Shared
open Library.Text (lit unit)

/-! ## Statements -/

/-- The swaps of whole rows that the updates of one table are. -/
def swapsAt (name : Text) (updates : List DelegationProjectionUpdate) :
    List (DelegationProjectionValues × DelegationProjectionValues) :=
  (updates.filter fun update => decide (update.table = name)).map fun update =>
    (update.prior, update.next)

/-- The rows that the inserts of one table add. -/
def rowsAt (name : Text) (inserts : List DelegationProjectionInsert) :
    List DelegationProjectionValues :=
  (inserts.filter fun insert => decide (insert.table = name)).map (·.values)

/-- The stored rows name the columns of their tables. -/
def StoreShaped (store : DelegationStore) : Prop :=
  ∀ name table, delegationTable? name = some table →
    ∀ row ∈ store name, row.map (·.1) = table.columns

/-- An update between two rows of one key, in the shape of its table. -/
structure UpdateShaped (update : DelegationProjectionUpdate) (table : DelegationTable) : Prop where
  known : delegationTable? update.table = some table
  once : table.columns.Nodup
  prior : update.prior.map (·.1) = table.columns
  next : update.next.map (·.1) = table.columns
  sameKey : keyValues update.keyColumns update.prior = keyValues update.keyColumns update.next

section Update

variable {store : DelegationStore} {update : DelegationProjectionUpdate} {table : DelegationTable}

theorem guard_iff (shape : UpdateShaped update table) {row : DelegationProjectionValues}
    (named : row.map (·.1) = table.columns) :
    (table.columns.all fun column => row.get? column == update.prior.get? column) =
      decide (row = update.prior) := by
  rw [Bool.eq_iff_iff, decide_eq_true_eq, List.all_eq_true]
  constructor
  · intro equal
    refine values_ext (named.trans shape.prior.symm) (named ▸ shape.once) fun column member => ?_
    exact eq_of_beq (equal column (named ▸ member))
  · rintro rfl column _
    exact beq_self_eq_true _

private theorem get?_isSome {values : DelegationProjectionValues} {column : Text}
    (member : column ∈ values.map (·.1)) : ∃ value, values.get? column = some value := by
  induction values with
  | nil => cases member
  | cons entry rest ih =>
      obtain ⟨name, value⟩ := entry
      rw [Map.get?]
      split
      next => exact ⟨value, rfl⟩
      next other =>
        rw [List.map_cons, List.mem_cons] at member
        exact ih (member.resolve_left fun same => other same.symm)

/-- Setting every column outside the key makes the prior row the next one. -/
theorem set_prior (shape : UpdateShaped update table) :
    (update.prior.map fun (column, held) =>
      if column ∈ update.keyColumns then (column, held)
      else (column, (update.next.get? column).getD held)) = update.next := by
  have split : (fun (entry : Text × DelegationSqlValue) =>
      if entry.1 ∈ update.keyColumns then (entry.1, entry.2)
      else (entry.1, (update.next.get? entry.1).getD entry.2)) =
      fun entry => (entry.1, if entry.1 ∈ update.keyColumns then entry.2
        else (update.next.get? entry.1).getD entry.2) := by
    funext entry
    split <;> rfl
  have named : ((update.prior.map fun (column, held) =>
      if column ∈ update.keyColumns then (column, held)
      else (column, (update.next.get? column).getD held))).map (·.1) = table.columns := by
    rw [← shape.prior, split, List.map_map]
    rfl
  refine values_ext (named.trans shape.next.symm) (named ▸ shape.once) fun column member => ?_
  rw [split, get?_map_values update.prior column fun column held =>
    if column ∈ update.keyColumns then held else (update.next.get? column).getD held]
  rw [named, ← shape.prior] at member
  obtain ⟨held, isHeld⟩ := get?_isSome member
  rw [isHeld, Option.map_some]
  by_cases inKey : column ∈ update.keyColumns
  · rw [if_pos inKey, ← isHeld]
    exact List.map_inj_left.mp shape.sameKey column inKey
  · rw [shape.prior, ← shape.next] at member
    obtain ⟨value, isNext⟩ := get?_isSome member
    rw [if_neg inKey, isNext, Option.getD_some]

/-- On rows of the table's shape the statement swaps the prior row for the next one. -/
theorem updateRow_eq (shape : UpdateShaped update table) (shaped : StoreShaped store) :
    updateRow store update =
      if (store update.table).countP (fun row => decide (row = update.prior)) = 1 then
        some (Function.update store update.table ((store update.table).map fun row =>
          if decide (row = update.prior) then update.next else row))
      else none := by
  have guards : ∀ row ∈ store update.table,
      (table.columns.all fun column => row.get? column == update.prior.get? column) =
        decide (row = update.prior) := fun row member =>
    guard_iff shape (shaped _ _ shape.known row member)
  have count : (store update.table).countP
      (fun row => table.columns.all fun column => row.get? column == update.prior.get? column) =
      (store update.table).countP fun row => decide (row = update.prior) :=
    List.countP_congr fun row member => by rw [guards row member]
  unfold updateRow
  rw [shape.known]
  simp only [updateRows]
  rw [count, List.map_congr_left
    (g := fun row => if decide (row = update.prior) then update.next else row)]
  intro row member
  rw [guards row member]
  by_cases isPrior : row = update.prior
  · rw [isPrior, decide_eq_true rfl, if_pos rfl, if_pos rfl]
    exact set_prior shape
  · rw [decide_eq_false isPrior, if_neg Bool.false_ne_true, if_neg Bool.false_ne_true]

end Update

/-- The updates of a delta, table by table, are its swaps. -/
theorem foldlM_updateRow {updates : List DelegationProjectionUpdate} {store result : DelegationStore}
    (each : ∀ update ∈ updates, ∃ table, UpdateShaped update table) (shaped : StoreShaped store)
    (swaps : ∀ name, swapRows (store name) (swapsAt name updates) = some (result name)) :
    updates.foldlM updateRow store = some result := by
  induction updates generalizing store with
  | nil =>
      refine congrArg some (funext fun name => ?_)
      exact Option.some.inj (swaps name)
  | cons update rest ih =>
      obtain ⟨table, shape⟩ := each update List.mem_cons_self
      have here := swaps update.table
      have first : swapsAt update.table (update :: rest) =
          (update.prior, update.next) :: swapsAt update.table rest := by
        simp [swapsAt]
      rw [first, swapRows] at here
      simp only [updateRows] at here
      split at here
      next one =>
        rw [List.foldlM_cons, updateRow_eq shape shaped, if_pos one]
        refine ih (fun update member => each update (List.mem_cons_of_mem _ member)) ?_ ?_
        · intro name other known row member
          by_cases same : name = update.table
          · subst same
            rw [Function.update_self] at member
            obtain ⟨held, among, rfl⟩ := List.mem_map.mp member
            have isTable := Option.some.inj (shape.known.symm.trans known)
            split
            next => exact isTable ▸ shape.next
            next => exact shaped _ _ known held among
          · rw [Function.update_of_ne same] at member
            exact shaped _ _ known row member
        · intro name
          by_cases same : name = update.table
          · subst same
            rw [Function.update_self]
            exact here
          · rw [Function.update_of_ne same, ← swaps name]
            simp [swapsAt, Ne.symm same]
      next => cases here

/-- The inserts of a delta add their rows, where every key is free at its turn. -/
theorem foldlM_insertRow {inserts : List DelegationProjectionInsert} {store : DelegationStore}
    (each : ∀ insert ∈ inserts, ∃ table,
      delegationTable? insert.table = some table ∧ table.grows = true)
    (free : ∀ name table, delegationTable? name = some table →
      ((store name ++ rowsAt name inserts).map (keyValues table.primaryKey)).Nodup) :
    inserts.foldlM insertRow store = some fun name => store name ++ rowsAt name inserts := by
  induction inserts generalizing store with
  | nil =>
      refine congrArg some (funext fun name => ?_)
      exact (List.append_nil _).symm
  | cons insert rest ih =>
      obtain ⟨table, known, grows⟩ := each insert List.mem_cons_self
      have added : ∀ name,
          (Function.update store insert.table (store insert.table ++ [insert.values])) name ++
            rowsAt name rest = store name ++ rowsAt name (insert :: rest) := by
        intro name
        by_cases same : name = insert.table
        · subst same
          rw [Function.update_self, List.append_assoc]
          simp [rowsAt]
        · rw [Function.update_of_ne same]
          simp [rowsAt, Ne.symm same]
      have vacant : rowsOfKey store insert.table table.primaryKey insert.values = [] := by
        have distinct := free insert.table table known
        rw [← added, Function.update_self, List.map_append, List.map_append,
          List.append_assoc, List.nodup_append] at distinct
        refine List.filter_eq_nil_iff.mpr fun row member same => ?_
        exact distinct.2.2 _ (List.mem_map_of_mem member) _
          (List.mem_append_left _ (List.mem_singleton_self _)) (of_decide_eq_true same)
      have ran : insertRow store insert =
          some (Function.update store insert.table (store insert.table ++ [insert.values])) := by
        unfold insertRow
        rw [known]
        exact if_pos ⟨grows, vacant⟩
      rw [List.foldlM_cons, ran]
      refine (ih (fun insert member => each insert (List.mem_cons_of_mem _ member)) ?_).trans
        (congrArg some (funext added))
      intro name other isTable
      rw [added]
      exact free name other isTable

/-! ## The five tables together -/

/-- One table's part of a delta. -/
structure ProjectedPart where
  table : DelegationTable
  before : List DelegationProjectionValues
  after : List DelegationProjectionValues
  updates : List DelegationProjectionUpdate
  inserts : List DelegationProjectionInsert

/-- What a part writes, in the shape of its table; a table that does not grow gets no row. -/
structure ProjectedPart.Writes (part : ProjectedPart) : Prop where
  writes : TableWrites part.table.table part.table.columns part.table.primaryKey part.before
    part.after part.updates part.inserts
  grows : part.table.grows = true ∨ part.inserts = []

theorem filter_flatMap_key {π β : Type} {parts : List π} {items : π → List β} {name : β → Text}
    {key : π → Text} (own : ∀ part ∈ parts, ∀ item ∈ items part, name item = key part)
    {sought : Text} (absent : sought ∉ parts.map key) :
    (parts.flatMap items).filter (fun item => decide (name item = sought)) = [] := by
  refine List.filter_eq_nil_iff.mpr fun item member same => absent ?_
  obtain ⟨part, isPart, isItem⟩ := List.mem_flatMap.mp member
  exact List.mem_map.mpr ⟨part, isPart, (own part isPart item isItem).symm.trans
    (of_decide_eq_true same)⟩

/-- Of parts under different names, the items of one name are those of its part. -/
theorem filter_flatMap_own {π β : Type} {parts : List π} {items : π → List β} {name : β → Text}
    {key : π → Text} (distinct : (parts.map key).Nodup)
    (own : ∀ part ∈ parts, ∀ item ∈ items part, name item = key part) {part : π}
    (member : part ∈ parts) :
    (parts.flatMap items).filter (fun item => decide (name item = key part)) = items part := by
  induction parts with
  | nil => cases member
  | cons first rest ih =>
      rw [List.map_cons, List.nodup_cons] at distinct
      have ownRest : ∀ part ∈ rest, ∀ item ∈ items part, name item = key part :=
        fun part isRest => own part (List.mem_cons_of_mem _ isRest)
      rw [List.flatMap_cons, List.filter_append]
      cases List.mem_cons.mp member with
      | inl here =>
          subst here
          rw [filter_flatMap_key ownRest distinct.1, List.append_nil]
          exact List.filter_eq_self.mpr fun item isItem =>
            decide_eq_true (own part List.mem_cons_self item isItem)
      | inr later =>
          rw [ih distinct.2 ownRest later, List.filter_eq_nil_iff.mpr, List.nil_append]
          intro item isItem same
          refine distinct.1 (List.mem_map.mpr ⟨part, later, ?_⟩)
          exact (of_decide_eq_true same).symm.trans (own first List.mem_cons_self item isItem)

theorem delegationTables_distinct : (delegationTables.map (·.table)).Nodup := by
  decide +kernel

theorem delegationTable?_of_mem {table : DelegationTable} (member : table ∈ delegationTables) :
    delegationTable? table.table = some table :=
  rowOf_mem delegationTables_distinct member

theorem delegationColumns_distinct : ∀ table ∈ delegationTables, table.columns.Nodup := by
  decide +kernel

section Parts

variable {parts : List ProjectedPart} {before after : DelegationStore}

/-- The parts of a delta, one for each table, over the store of the earlier checkpoint and
that of the later one. -/
structure DeltaParts (parts : List ProjectedPart) (before after : DelegationStore) : Prop where
  tables : parts.map (·.table) = delegationTables
  each : ∀ part ∈ parts, part.Writes
  stored : ∀ part ∈ parts, before part.table.table = part.before ∧ after part.table.table = part.after
  others : ∀ name ∉ delegationTables.map (·.table), before name = [] ∧ after name = []

namespace DeltaParts

variable (delta : DeltaParts parts before after)
include delta

theorem member_table {part : ProjectedPart} (member : part ∈ parts) :
    part.table ∈ delegationTables :=
  delta.tables ▸ List.mem_map_of_mem member

theorem names : parts.map (·.table.table) = delegationTables.map (·.table) := by
  rw [← delta.tables, List.map_map]
  rfl

theorem distinct : (parts.map (·.table.table)).Nodup :=
  delta.names ▸ delegationTables_distinct

theorem part_of_name {name : Text} (known : name ∈ delegationTables.map (·.table)) :
    ∃ part ∈ parts, part.table.table = name := by
  rw [← delta.names] at known
  exact List.mem_map.mp known

theorem swapsAt_part {part : ProjectedPart} (member : part ∈ parts) :
    swapsAt part.table.table (parts.flatMap (·.updates)) =
      part.updates.map fun update => (update.prior, update.next) := by
  rw [swapsAt, filter_flatMap_own delta.distinct (fun part isPart update isUpdate =>
    ((delta.each part isPart).writes.updateShape update isUpdate).1) member]

theorem rowsAt_part {part : ProjectedPart} (member : part ∈ parts) :
    rowsAt part.table.table (parts.flatMap (·.inserts)) = part.inserts.map (·.values) := by
  rw [rowsAt, filter_flatMap_own delta.distinct (fun part isPart insert isInsert =>
    (delta.each part isPart).writes.insertShape insert isInsert) member]

theorem none_elsewhere {name : Text} (unknown : name ∉ delegationTables.map (·.table)) :
    swapsAt name (parts.flatMap (·.updates)) = [] ∧
      rowsAt name (parts.flatMap (·.inserts)) = [] := by
  rw [← delta.names] at unknown
  constructor
  · rw [swapsAt, filter_flatMap_key (fun part isPart update isUpdate =>
      ((delta.each part isPart).writes.updateShape update isUpdate).1) unknown]
    rfl
  · rw [rowsAt, filter_flatMap_key (fun part isPart insert isInsert =>
      (delta.each part isPart).writes.insertShape insert isInsert) unknown]
    rfl

theorem part_of_table {name : Text} {table : DelegationTable}
    (known : delegationTable? name = some table) :
    ∃ part ∈ parts, part.table = table ∧ part.table.table = name := by
  obtain ⟨isTable, isName⟩ := rowOf_some known
  rw [← delta.tables] at isTable
  obtain ⟨part, isPart, rfl⟩ := List.mem_map.mp isTable
  exact ⟨part, isPart, rfl, isName⟩

/-- What the inserts leave: the earlier rows and the added ones. -/
theorem grown_part {part : ProjectedPart} (member : part ∈ parts) :
    before part.table.table ++ rowsAt part.table.table (parts.flatMap (·.inserts)) =
      part.before ++ part.inserts.map (·.values) := by
  rw [delta.rowsAt_part member, (delta.stored part member).1]

theorem grown_shaped :
    StoreShaped fun name => before name ++ rowsAt name (parts.flatMap (·.inserts)) := by
  intro name table known row member
  obtain ⟨part, isPart, rfl, rfl⟩ := delta.part_of_table known
  simp only [delta.grown_part isPart] at member
  have writes := (delta.each part isPart).writes
  cases List.mem_append.mp member with
  | inl old => exact writes.shaped row old
  | inr added => exact writes.shapedAfter row (writes.delta.inserted row added).1

theorem inserted : (parts.flatMap (·.inserts)).foldlM insertRow before =
    some fun name => before name ++ rowsAt name (parts.flatMap (·.inserts)) := by
  refine foldlM_insertRow (fun insert member => ?_) fun name table known => ?_
  · obtain ⟨part, isPart, listed⟩ := List.mem_flatMap.mp member
    have facts := delta.each part isPart
    refine ⟨part.table, ?_, facts.grows.resolve_right fun none => ?_⟩
    · rw [facts.writes.insertShape insert listed]
      exact delegationTable?_of_mem (delta.member_table isPart)
    · rw [none] at listed
      cases listed
  · obtain ⟨part, isPart, rfl, rfl⟩ := delta.part_of_table known
    have writes := (delta.each part isPart).writes
    rw [delta.grown_part isPart]
    exact writes.delta.inserts_free writes.distinct

theorem update_shaped {update : DelegationProjectionUpdate}
    (member : update ∈ parts.flatMap (·.updates)) : ∃ table, UpdateShaped update table := by
  obtain ⟨part, isPart, listed⟩ := List.mem_flatMap.mp member
  have writes := (delta.each part isPart).writes
  obtain ⟨isTable, isKey⟩ := writes.updateShape update listed
  obtain ⟨isBefore, isAfter, sameKey⟩ :=
    writes.delta.updated (update.prior, update.next) (List.mem_map.mpr ⟨update, listed, rfl⟩)
  exact ⟨part.table,
    { known := isTable ▸ delegationTable?_of_mem (delta.member_table isPart)
      once := delegationColumns_distinct _ (delta.member_table isPart)
      prior := writes.shaped _ isBefore
      next := writes.shapedAfter _ isAfter
      sameKey := isKey ▸ sameKey }⟩

/-- Table by table, the swaps succeed and leave the rows of the later store. -/
theorem swapped (name : Text) : ∃ rows,
    swapRows (before name ++ rowsAt name (parts.flatMap (·.inserts)))
      (swapsAt name (parts.flatMap (·.updates))) = some rows ∧ rows.Perm (after name) := by
  by_cases known : name ∈ delegationTables.map (·.table)
  · obtain ⟨part, isPart, rfl⟩ := delta.part_of_name known
    have writes := (delta.each part isPart).writes
    rw [delta.grown_part isPart, delta.swapsAt_part isPart, (delta.stored part isPart).2]
    exact writes.delta.written writes.distinct writes.distinctAfter
  · obtain ⟨noSwaps, noRows⟩ := delta.none_elsewhere known
    obtain ⟨noBefore, noAfter⟩ := delta.others name known
    rw [noSwaps, noRows, noBefore, noAfter]
    exact ⟨[], rfl, List.Perm.refl _⟩

/-- Writing the delta succeeds and leaves, in every table, the rows of the later one. -/
theorem written : ∃ store, writeDelta before (parts.flatMap (·.updates))
      (parts.flatMap (·.inserts))
      (parts.map fun part => (part.table.table, part.after.length)) = some store ∧
    ∀ name, (store name).Perm (after name) := by
  choose result ran same using delta.swapped
  refine ⟨result, ?_, same⟩
  have swaps := foldlM_updateRow (fun update member => delta.update_shaped member)
    delta.grown_shaped ran
  unfold writeDelta
  rw [delta.inserted, Option.bind_eq_bind, Option.bind_some, swaps, Option.bind_some]
  refine if_pos (List.all_eq_true.mpr fun count member => ?_)
  obtain ⟨part, isPart, rfl⟩ := List.mem_map.mp member
  rw [beq_iff_eq, (same part.table.table).length_eq, (delta.stored part isPart).2]

end DeltaParts

end Parts

/-! ## The projection -/

theorem bind_eq_ok {ε α β : Type} {first : Except ε α} {more : α → Except ε β} {result : β} :
    (first >>= more) = .ok result ↔ ∃ value, first = .ok value ∧ more value = .ok result := by
  constructor
  · intro same
    cases first with
    | error error => cases same
    | ok value => exact ⟨value, rfl, same⟩
  · rintro ⟨value, rfl, same⟩
    exact same

/-- The stored rows of each table, one encoding after another. -/
theorem projectedTables_ok {rows : DelegationProjectionRows} {store : DelegationStore} :
    projectedTables rows = .ok store ↔ ∃ sessions activities attempts leases lineage,
      rows.sessions.mapM delegationSessionCodec.toDb = .ok sessions ∧
      rows.activities.mapM delegationActivityCodec.toDb = .ok activities ∧
      rows.attempts.mapM delegationAttemptCodec.toDb = .ok attempts ∧
      rows.leases.mapM delegationLeaseCodec.toDb = .ok leases ∧
      rows.lineage.mapM delegationLineageCodec.toDb = .ok lineage ∧
      store = fun table => (Map.get? table [(delegationSessionCodec.table, sessions),
        (delegationActivityCodec.table, activities), (delegationAttemptCodec.table, attempts),
        (delegationLeaseCodec.table, leases), (delegationLineageCodec.table, lineage)]).getD [] := by
  unfold projectedTables
  simp only [bind_eq_ok, pure, Except.pure, Except.ok.injEq]
  constructor
  · rintro ⟨sessions, one, activities, two, attempts, three, leases, four, lineage, five, rfl⟩
    exact ⟨sessions, activities, attempts, leases, lineage, one, two, three, four, five, rfl⟩
  · rintro ⟨sessions, activities, attempts, leases, lineage, one, two, three, four, five, rfl⟩
    exact ⟨sessions, one, activities, two, attempts, three, leases, four, lineage, five, rfl⟩

section Diff

variable {objects : SameObjects} {prior next : DelegationProjectionRows}
  {updates : List DelegationProjectionUpdate} {inserts : List DelegationProjectionInsert}
  {counts : List (Text × Nat)}

/-- An applicable diff is made of the writes of its five tables. -/
theorem diff_tables
    (applicable : diffDelegationProjection objects prior next =
      .ok (.applicable updates inserts counts)) :
    (∀ part ∈ diffDelegationTables objects prior next,
        part = .ok (.writes (lists part).1 (lists part).2)) ∧
      updates = (diffDelegationTables objects prior next).flatMap (fun part => (lists part).1) ∧
      inserts = (diffDelegationTables objects prior next).flatMap (fun part => (lists part).2) ∧
      counts = [(delegationSessionCodec.table, next.sessions.length),
        (delegationActivityCodec.table, next.activities.length),
        (delegationAttemptCodec.table, next.attempts.length),
        (delegationLeaseCodec.table, next.leases.length),
        (delegationLineageCodec.table, next.lineage.length)] := by
  unfold diffDelegationProjection at applicable
  split at applicable
  next => cases applicable
  next => cases applicable
  next written =>
    cases applicable
    obtain ⟨each, isUpdates, isInserts⟩ := joinDiffs_writes written
    exact ⟨each, isUpdates, isInserts, rfl⟩

/-- Either both checkpoints can be encoded or neither. -/
theorem diff_encodes
    (applicable : diffDelegationProjection objects prior next =
      .ok (.applicable updates inserts counts)) :
    (∃ store, projectedTables prior = .ok store) ↔ ∃ store, projectedTables next = .ok store := by
  obtain ⟨each, -⟩ := diff_tables applicable
  simp only [diffDelegationTables, List.forall_mem_cons] at each
  obtain ⟨sessions, activities, attempts, leases, lineage, -⟩ := each
  have one := diffProjectionTable_encodes sessions
  have two := diffProjectionTable_encodes activities
  have three := diffProjectionTable_encodes attempts
  have four := diffProjectionTable_encodes leases
  have five := diffProjectionTable_encodes lineage
  simp only [projectedTables_ok]
  constructor
  · rintro ⟨_, s, a, t, l, n, isS, isA, isT, isL, isN, -⟩
    obtain ⟨s', isS'⟩ := one.mp ⟨s, isS⟩
    obtain ⟨a', isA'⟩ := two.mp ⟨a, isA⟩
    obtain ⟨t', isT'⟩ := three.mp ⟨t, isT⟩
    obtain ⟨l', isL'⟩ := four.mp ⟨l, isL⟩
    obtain ⟨n', isN'⟩ := five.mp ⟨n, isN⟩
    exact ⟨_, s', a', t', l', n', isS', isA', isT', isL', isN', rfl⟩
  · rintro ⟨_, s, a, t, l, n, isS, isA, isT, isL, isN, -⟩
    obtain ⟨s', isS'⟩ := one.mpr ⟨s, isS⟩
    obtain ⟨a', isA'⟩ := two.mpr ⟨a, isA⟩
    obtain ⟨t', isT'⟩ := three.mpr ⟨t, isT⟩
    obtain ⟨l', isL'⟩ := four.mpr ⟨l, isL⟩
    obtain ⟨n', isN'⟩ := five.mpr ⟨n, isN⟩
    exact ⟨_, s', a', t', l', n', isS', isA', isT', isL', isN', rfl⟩

/-- An applicable diff, over the stores of its two checkpoints, in parts. -/
theorem diff_parts
    (applicable : diffDelegationProjection objects prior next =
      .ok (.applicable updates inserts counts)) {before after : DelegationStore}
    (isBefore : projectedTables prior = .ok before) (isAfter : projectedTables next = .ok after) :
    ∃ parts, DeltaParts parts before after ∧ updates = parts.flatMap (·.updates) ∧
      inserts = parts.flatMap (·.inserts) ∧
      counts = parts.map fun part => (part.table.table, part.after.length) := by
  obtain ⟨each, rfl, rfl, rfl⟩ := diff_tables applicable
  simp only [diffDelegationTables, List.forall_mem_cons] at each
  obtain ⟨sessions, activities, attempts, leases, lineage, -⟩ := each
  obtain ⟨s, a, t, l, n, isS, isA, isT, isL, isN, rfl⟩ := projectedTables_ok.mp isBefore
  obtain ⟨s', a', t', l', n', isS', isA', isT', isL', isN', rfl⟩ := projectedTables_ok.mp isAfter
  let part (table : DelegationTable) (before after : List DelegationProjectionValues)
      (diff : Except DelegationThrown DelegationTableDiff) : ProjectedPart :=
    ⟨table, before, after, (lists diff).1, (lists diff).2⟩
  refine ⟨[part ⟨delegationSessionCodec.table, sessionColumns, sessionKey.columns, true⟩ s s' _,
    part ⟨delegationActivityCodec.table, activityColumns, activityKey.columns, true⟩ a a' _,
    part ⟨delegationAttemptCodec.table, attemptColumns, attemptKey.columns, true⟩ t t' _,
    part ⟨delegationLeaseCodec.table, leaseColumns, leaseKey.columns, false⟩ l l' _,
    part ⟨delegationLineageCodec.table, lineageColumns, lineageKey.columns, true⟩ n n' _],
    ⟨rfl, ?_, ?_, ?_⟩, rfl, rfl, ?_⟩
  · simp only [List.forall_mem_cons]
    refine ⟨⟨diffProjectionTable_delta sessions isS isS', .inl rfl⟩,
      ⟨diffProjectionTable_delta activities isA isA', .inl rfl⟩,
      ⟨diffProjectionTable_delta attempts isT isT', .inl rfl⟩,
      ⟨diffProjectionTable_delta leases isL isL', .inr ?_⟩,
      ⟨diffProjectionTable_delta lineage isN isN', .inl rfl⟩,
      fun part member => absurd member List.not_mem_nil⟩
    exact diffProjectionTable_frozen leases fun _ => rfl
  · simp only [List.forall_mem_cons]
    exact ⟨⟨rfl, rfl⟩, ⟨rfl, rfl⟩, ⟨rfl, rfl⟩, ⟨rfl, rfl⟩, ⟨rfl, rfl⟩,
      fun part member => absurd member List.not_mem_nil⟩
  · intro name unknown
    simp only [delegationTables, List.map_cons, List.map_nil, List.mem_cons, not_or] at unknown
    obtain ⟨notSessions, notActivities, notAttempts, notLeases, notLineage, -⟩ := unknown
    simp only [Map.get?, if_neg (Ne.symm notSessions), if_neg (Ne.symm notActivities),
      if_neg (Ne.symm notAttempts), if_neg (Ne.symm notLeases), if_neg (Ne.symm notLineage),
      Option.getD_none, and_self]
  · simp only [List.map_cons, List.map_nil, part]
    rw [(mapM_eq_ok_iff.mp isS').length_eq, (mapM_eq_ok_iff.mp isA').length_eq,
      (mapM_eq_ok_iff.mp isT').length_eq, (mapM_eq_ok_iff.mp isL').length_eq,
      (mapM_eq_ok_iff.mp isN').length_eq]

/-- A delta stands for the full projection: where two checkpoints have one, both of them can
be encoded or neither, and writing it into the stored rows of the earlier one leaves those
of the later one. Each update names the row stored under its key, each insert a free key,
and each count a table's size; a diff that does not apply lists nothing to write. -/
theorem delta_projects_next (objects : SameObjects) (prior next : DelegationProjectionRows) :
    (∀ updates inserts counts, diffDelegationProjection objects prior next =
        .ok (.applicable updates inserts counts) →
      ((∃ store, projectedTables prior = .ok store) ↔ ∃ store, projectedTables next = .ok store) ∧
      ∀ before after, projectedTables prior = .ok before → projectedTables next = .ok after →
        (∃ store, writeDelta before updates inserts counts = some store ∧
          ∀ table, (store table).Perm (after table)) ∧
        (∀ update ∈ updates,
          rowsOfKey before update.table update.keyColumns update.prior = [update.prior]) ∧
        (∀ insert ∈ inserts, ∃ table, delegationTable? insert.table = some table ∧
          rowsOfKey before insert.table table.primaryKey insert.values = []) ∧
        counts = delegationTables.map fun table => (table.table, (after table.table).length)) ∧
    ∀ reason, diffDelegationProjection objects prior next = .ok (.inapplicable reason) →
      (DelegationProjectionDiff.inapplicable reason).listed = ([], []) := by
  refine ⟨fun updates inserts counts applicable => ⟨diff_encodes applicable, ?_⟩,
    fun reason _ => rfl⟩
  intro before after isBefore isAfter
  obtain ⟨parts, delta, rfl, rfl, rfl⟩ := diff_parts applicable isBefore isAfter
  refine ⟨delta.written, fun update member => ?_, fun insert member => ?_, ?_⟩
  · obtain ⟨part, isPart, listed⟩ := List.mem_flatMap.mp member
    have writes := (delta.each part isPart).writes
    obtain ⟨isTable, isKey⟩ := writes.updateShape update listed
    have stored := (writes.delta.updated _ (List.mem_map.mpr ⟨update, listed, rfl⟩)).1
    rw [rowsOfKey, isTable, isKey, (delta.stored part isPart).1]
    exact filter_key_eq writes.distinct stored
  · obtain ⟨part, isPart, listed⟩ := List.mem_flatMap.mp member
    have writes := (delta.each part isPart).writes
    have isTable := writes.insertShape insert listed
    refine ⟨part.table, isTable ▸ delegationTable?_of_mem (delta.member_table isPart), ?_⟩
    rw [rowsOfKey, isTable, (delta.stored part isPart).1]
    refine List.filter_eq_nil_iff.mpr fun row isStored same => ?_
    exact (writes.delta.inserted _ (List.mem_map_of_mem listed)).2 row isStored
      (of_decide_eq_true same)
  · rw [← delta.tables, List.map_map]
    exact List.map_congr_left fun part isPart =>
      congrArg (fun rows => (part.table.table, rows.length)) (delta.stored part isPart).2.symm

end Diff

section Released

/-- No row of one checkpoint is a row of the other one. -/
def rebuiltRows {Row : Type} : SameObject Row where
  same _ _ := false
  equal _ _ same := by cases same

private def heldSession : DelegationSessionRow where
  sessionId := lit "s"
  parentIncarnation := lit "i"
  explicitIntentAt := none
  effective := true
  effectiveBasis := [.delegationInferred]
  claudeSessionIds := [lit "c"]
  firstObservedAt := lit "2026-10-14T00:15:00.000Z"
  lastObservedAt := lit "2026-10-14T00:15:00.000Z"

private def heldLease : DelegationProjectedLeaseRow where
  leaseId := lit "l"
  generation := 0
  creatingJournalSequence := 1
  currentJournalSequence := 1
  parentId := lit "s"
  parentIncarnation := lit "i"
  project := lit "p"
  adminRecord := lit "w"
  disposition := .ephemeral
  firstObservedAt := lit "2026-10-14T00:15:00.000Z"
  terminalEvidenceAt := none
  adoptedAt := none
  retainedAt := none
  promotedAt := none
  cleanupDueAt := none
  carrierGenerationSeen := none
  releasedAt := none
  activityId := lit "a"
  canonicalPath := lit "/w"
  creationBase := none
  sourceKind := .agent
  parentageState := .linked
  workspaceState := .present
  cleanupState := .notDue
  cleanupPopulation := .ephemeralLease
  lastObservedAt := lit "2026-10-14T00:15:00.000Z"
  cleanupStartedAt := none
  cleanupFinishedAt := none
  cleanupEvidenceJson := none

private def heldLineage : DelegationLineageRow where
  lineageId := lit "n"
  parentId := lit "s"
  parentIncarnation := lit "i"
  activityId := none
  leaseId := some (lit "l")
  runId := none
  openedAt := lit "2026-10-14T00:15:00.000Z"
  closedAt := none
  closeReason := none

private def heldRows : DelegationProjectionRows :=
  ⟨[heldSession], [], [], [heldLease], [heldLineage]⟩

/-- The lease is released, its lineage closed, and an attempt is new. -/
private def releasedRows : DelegationProjectionRows where
  sessions := [heldSession]
  activities := []
  attempts := [⟨lit "t", lit "s", lit "i", lit "p", lit "w", none,
    lit "2026-10-14T00:15:01.000Z", some 1, .unresolved, [lit "j"], none⟩]
  leases := [{ heldLease with
    generation := 1, currentJournalSequence := 2
    releasedAt := some (lit "2026-10-14T00:15:01.000Z") }]
  lineage := [{ heldLineage with
    closedAt := some (lit "2026-10-14T00:15:01.000Z"), closeReason := some (lit "foreign") }]

private theorem projected_of_isOk {rows : DelegationProjectionRows}
    (encodes : (projectedTables rows).isOk = true) :
    ∃ store, projectedTables rows = .ok store := by
  cases isStore : projectedTables rows with
  | error thrown => rw [isStore] at encodes; cases encodes
  | ok store => exact ⟨store, rfl⟩

theorem delta_projects_next_released : ∃ updates inserts counts before after store,
    diffDelegationProjection ⟨rebuiltRows, rebuiltRows, rebuiltRows, rebuiltRows, rebuiltRows⟩
        heldRows releasedRows = .ok (.applicable updates inserts counts) ∧
      updates.length = 2 ∧ inserts.length = 1 ∧ projectedTables heldRows = .ok before ∧
      projectedTables releasedRows = .ok after ∧
      writeDelta before updates inserts counts = some store ∧
      ∀ table, (store table).Perm (after table) := by
  obtain ⟨before, isBefore⟩ := @projected_of_isOk heldRows (by decide +kernel)
  obtain ⟨after, isAfter⟩ := @projected_of_isOk releasedRows (by decide +kernel)
  have diffed : (match diffDelegationProjection
      ⟨rebuiltRows, rebuiltRows, rebuiltRows, rebuiltRows, rebuiltRows⟩ heldRows releasedRows with
      | .ok (.applicable updates inserts _) => updates.length == 2 && inserts.length == 1
      | .ok (.inapplicable _) | .error _ => false) = true := by
    decide +kernel
  split at diffed
  next updates inserts counts applicable =>
    rw [Bool.and_eq_true, beq_iff_eq, beq_iff_eq] at diffed
    obtain ⟨store, isStore, same⟩ := (((delta_projects_next _ _ _).1 _ _ _ applicable).2
      before after isBefore isAfter).1
    exact ⟨updates, inserts, counts, before, after, store, applicable, diffed.1, diffed.2,
      isBefore, isAfter, isStore, same⟩
  next => cases diffed
  next => cases diffed

end Released

end Ccrc.Coord
