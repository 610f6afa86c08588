import Ccrc.Coord.LandingStoreProperties

/-! The dependency graph of a project's landing entries. An accepted order replaces
the edges of its source by edges from which the walk found no way back, a creation
adds a node without edges, and nothing else moves an edge. -/

set_option autoImplicit false

namespace Ccrc.Coord

open Library Shared

def LandingDependencies.ids : LandingDependencies → List Int
  | .readable afterIds => afterIds
  | .unreadable => []

/-- An edge from an entry to each id that its order names, as the store reads it. -/
def Depends (project : Text) (store : LandingStore) (one two : Int) : Prop :=
  ∃ facts, landingFactsInner store.1 project = some facts ∧
    ∃ after, (one, LandingDependencies.readable after) ∈ facts.dependencies ∧ two ∈ after

instance (project : Text) (store : LandingStore) (one two : Int) :
    Decidable (Depends project store one two) :=
  match read : landingFactsInner store.1 project with
  | none => .isFalse fun ⟨_, same, _⟩ => Option.some_ne_none _ (same.symm.trans read)
  | some facts =>
      decidable_of_iff (∃ pair ∈ facts.dependencies, pair.1 = one ∧ two ∈ pair.2.ids) <| by
        constructor
        · rintro ⟨⟨_, deps⟩, member, rfl, isAfter⟩
          cases deps with
          | readable after => exact ⟨facts, read, after, member, isAfter⟩
          | unreadable => cases isAfter
        · rintro ⟨others, same, after, member, isAfter⟩
          cases read.symm.trans same
          exact ⟨_, member, rfl, isAfter⟩

/-- The entries of a project. -/
def IsEntry (project : Text) (store : LandingStore) (id : Int) : Prop :=
  ∃ row ∈ store.1.entries, row.project = project ∧ row.id = id

instance (project : Text) (store : LandingStore) (id : Int) :
    Decidable (IsEntry project store id) :=
  inferInstanceAs (Decidable (∃ row ∈ store.1.entries, _))

/-- What any project's read of the tables answers from. -/
structure Reads (tables : LandingTables) (subjects : List LandingRecoverySubjectFact) : Prop where
  recovered : tables.subjects.mapM (landingSubjectOf tables.authorities) = some subjects
  keyed : ∀ row ∈ tables.entries, row.keyed = true

theorem dependencies_readable (subjects : List LandingRecoverySubjectFact) (row : LandingEntryRow)
    {after : List Int} : (landingEntryFactsOf subjects row).dependencies = .readable after ↔
      storedAfter subjects row = some after := by
  unfold storedAfter
  simp only [landingEntryFactsOf, landingEntryFactsOfRow]
  cases afterIdsOf (row.overlay (landingAuthorityOfEntry subjects row)).afterIds with
  | none => simp
  | some ids => simp

theorem depends_iff {store : LandingStore} {subjects : List LandingRecoverySubjectFact}
    (reads : Reads store.1 subjects) {project : Text} {one two : Int} :
    Depends project store one two ↔ ∃ row ∈ store.1.entries, row.project = project ∧
      row.id = one ∧ ∃ after, storedAfter subjects row = some after ∧ two ∈ after := by
  constructor
  · rintro ⟨facts, read, after, member, isAfter⟩
    obtain ⟨others, recovered, _, rfl⟩ := landingFactsInner_eq_some.mp read
    cases reads.recovered.symm.trans recovered
    obtain ⟨row, among, same⟩ := List.mem_map.mp member
    obtain ⟨isRow, ofProject⟩ := List.mem_filter.mp among
    obtain ⟨sameId, sameAfter⟩ := Prod.mk.injEq .. ▸ same
    refine ⟨row, (List.mem_insertionSort _).mp isRow, beq_iff_eq.mp ofProject, ?_, after,
      (dependencies_readable subjects row).mp sameAfter, isAfter⟩
    rw [← sameId, landingEntryFactsOf_id]
  · rintro ⟨row, isRow, ofProject, rfl, after, ordered, isAfter⟩
    refine ⟨_, landingFactsInner_eq_some.mpr ⟨subjects, reads.recovered, reads.keyed, rfl⟩, after,
      List.mem_map.mpr ⟨row, List.mem_filter.mpr ⟨(List.mem_insertionSort _).mpr isRow,
        beq_iff_eq.mpr ofProject⟩, ?_⟩, isAfter⟩
    rw [landingEntryFactsOf_id, (dependencies_readable subjects row).mpr ordered]

theorem writeLandingAuthority_some {store after : LandingStore}
    {command : LandingAuthorityCommand} {seq atTime : Int}
    (written : writeLandingAuthority store command seq atTime = some after) :
    ∃ subjects rereads mutation, Reads store.1 subjects ∧ Reads after.1 rereads ∧
      decideLandingMutation command (landingFactsUnder command.project
        (store.1.rows command.project) subjects) = .ok (.mutate mutation) ∧
      after.1 = applyLandingMutation store.1 command mutation seq atTime := by
  simp only [writeLandingAuthority, Option.bind_eq_bind, Option.bind_eq_some_iff] at written
  obtain ⟨facts, read, written⟩ := written
  obtain ⟨subjects, recovered, keyed, rfl⟩ := landingFactsInner_eq_some.mp read
  split at written
  next => cases written
  next => cases written
  next mutation decided =>
      obtain ⟨again, reread, committed⟩ := Option.bind_eq_some_iff.mp written
      obtain ⟨rereads, recoveredAgain, keyedAgain, _⟩ := landingFactsInner_eq_some.mp reread
      split at committed
      next => cases committed
      next =>
          unfold LandingTables.commit at committed
          split at committed
          next =>
              cases committed
              exact ⟨subjects, rereads, mutation, ⟨recovered, keyed⟩,
                ⟨recoveredAgain, keyedAgain⟩, decided, rfl⟩
          next => cases committed

/-! ## An accepted order -/

section Order

variable {store : LandingStore} {subjects : List LandingRecoverySubjectFact} {project : Text}
  {pr : Int} {sent : Option (List Int)} {source : LandingEntry} {effective met : List Int}
  {coordinator : LandingCoordinator} {after : List LandingSubjectRef}

theorem known_row {id : Int} {entry : LandingEntry}
    (known : (landingFactsUnder project (store.1.rows project) subjects).known id = some entry) :
    ∃ row ∈ store.1.entries, row.project = project ∧ row.id = id ∧
      row.identity = entry.identity := by
  obtain ⟨member, sameId⟩ := LandingMutationFacts.known_some known
  obtain ⟨row, isRow, ofProject, rfl⟩ := factsEntry_row member
  exact ⟨row, isRow, ofProject, (landingEntryFactsOf_id subjects row).symm.trans sameId,
    (landingEntryFactsOf_identity subjects row).symm⟩

variable (reads : Reads store.1 subjects)
  (accepted : OrderAccepted (landingFactsUnder project (store.1.rows project) subjects) project pr
    sent source effective met coordinator after)

include accepted

theorem OrderAccepted.sourceRow : ∃ row ∈ store.1.entries, row.project = project ∧
    row.identity = source.identity ∧ row.id = source.id := by
  obtain ⟨row, isRow, ofProject, rfl⟩ :=
    factsEntry_row (List.mem_of_find?_eq_some accepted.found)
  exact ⟨row, isRow, ofProject, (landingEntryFactsOf_identity subjects row).symm,
    (landingEntryFactsOf_id subjects row).symm⟩

theorem OrderAccepted.targetRow {ref : LandingSubjectRef} (member : ref ∈ after) :
    ∃ row ∈ store.1.entries, row.project = project ∧ row.identity = ref.toLandingIdentity := by
  obtain ⟨id, _, named⟩ := forall₂_mem_right (mapM_eq_ok_iff.mp accepted.targets) member
  obtain ⟨entry, _, known, _, rfl⟩ := LandingMutationFacts.targetRef_ok named
  obtain ⟨row, isRow, ofProject, _, identity⟩ := known_row known
  exact ⟨row, isRow, ofProject, identity⟩

theorem OrderAccepted.afterIds : after.map (·.id) = effective := by
  have each := mapM_eq_ok_iff.mp accepted.targets
  have same : List.Forall₂ (fun id (ref : LandingSubjectRef) => id = ref.id) effective after :=
    each.imp fun id ref named => by
      obtain ⟨entry, _, known, _, rfl⟩ := LandingMutationFacts.targetRef_ok named
      exact (LandingMutationFacts.known_some known).2.symm
  rw [← List.forall₂_map_right_iff, List.forall₂_eq_eq_eq] at same
  exact same.symm

include reads

/-- The ids an order leaves are distinct, positive and safe: they can be stored. -/
theorem OrderAccepted.storable : effective.Nodup ∧
    ∀ id ∈ effective, 1 ≤ id ∧ id ≤ Number.maxSafeInteger := by
  constructor
  · have edges := accepted.edges
    unfold LandingMutationFacts.effectiveAfter at edges
    split at edges
    next ids =>
        cases edges
        simpa using firstBy_nodup (id : Int → Int) [] ids
    next =>
        split at edges
        next deps =>
            cases edges
            obtain ⟨row, isRow, ofProject, _, sameId⟩ := accepted.sourceRow
            rw [← sameId, depsOf_row store.2 isRow ofProject] at deps
            exact (afterIdsOf_some ((dependencies_readable subjects row).mp deps)).1
        next => cases edges
  · intro id member
    obtain ⟨ref, isRef, named⟩ := forall₂_mem_left (mapM_eq_ok_iff.mp accepted.targets) member
    obtain ⟨entry, _, known, _, _⟩ := LandingMutationFacts.targetRef_ok named
    obtain ⟨row, isRow, _, rfl, _⟩ := known_row known
    exact (safeIntOf_eq_some.mp (LandingEntryRow.keyed_safe (reads.keyed row isRow)).1).2

end Order

/-! ## What one write does to the edges -/

section Effect

variable {store next : LandingStore} {subjects rereads : List LandingRecoverySubjectFact}
  (reads : Reads store.1 subjects) (reread : Reads next.1 rereads)

include reads reread

/-- An order replaces its source's edges by those it sends, and no other's. -/
theorem order_depends {command : LandingAuthorityCommand} {pr seq atTime : Int}
    {sent : Option (List Int)} {source : LandingEntry} {effective met : List Int}
    {coordinator : LandingCoordinator} {after : List LandingSubjectRef} {fixes : Bool}
    (accepted : OrderAccepted (landingFactsUnder command.project (store.1.rows command.project)
      subjects) command.project pr sent source effective met coordinator after)
    (applied : next.1 = applyLandingMutation store.1 command (.order source coordinator
      (landingBindingOf coordinator) after fixes) seq atTime)
    {project : Text} {one two : Int} :
    Depends project next one two ↔
      (one = source.id ∧ project = command.project ∧ two ∈ effective) ∨
        (one ≠ source.id ∧ Depends project store one two) := by
  have record : next.1 = applyLandingRecord store.1 (landingRecordOf command (.order source
      coordinator (landingBindingOf coordinator) after fixes) seq atTime) := applied
  have again := reread.recovered
  rw [record] at again
  have entries : next.1.entries = store.1.entries := by rw [record]; rfl
  obtain ⟨row, isRow, ofProject, identity, sameId⟩ := accepted.sourceRow
  obtain ⟨distinct, safe⟩ := accepted.storable reads
  have ordered : afterIdsOf (writeIds (after.map (·.id))) = some effective := by
    rw [accepted.afterIds]
    exact afterIdsOf_writeIds distinct safe
  have atSource : storedAfter rereads row = some effective :=
    storedAfter_source again identity
      (LandingEntryRow.keyed_safe (reads.keyed row isRow)).1
      (fun subject isSubject same =>
        subject_agrees reads.recovered accepted.resolved isRow ofProject isSubject same) ordered
  have elsewhere : ∀ other ∈ store.1.entries, other.id ≠ source.id →
      storedAfter rereads other = storedAfter subjects other := by
    intro other isOther different
    refine storedAfter_other store.2 reads.recovered accepted.resolved again isOther different ?_
    intro ref isRef exact
    cases List.mem_cons.mp isRef with
    | inl isSource =>
        rw [isSource] at exact
        exact absurd (congrArg LandingIdentity.id exact).symm different
    | inr isTarget =>
        obtain ⟨target, _, ofTarget, same⟩ := accepted.targetRow isTarget
        exact (congrArg LandingIdentity.project (same.trans exact)).symm.trans ofTarget
  have unique : ∀ other ∈ store.1.entries, other.id = source.id → other = row :=
    fun other isOther same =>
      List.inj_on_of_nodup_map store.2.entryIds isOther isRow (same.trans sameId.symm)
  rw [depends_iff reread, entries]
  constructor
  · rintro ⟨other, isOther, inProject, rfl, ids, stored, member⟩
    by_cases here : other.id = source.id
    · cases unique other isOther here
      cases atSource.symm.trans stored
      exact Or.inl ⟨here, inProject.symm.trans ofProject, member⟩
    · rw [elsewhere other isOther here] at stored
      exact Or.inr ⟨here, (depends_iff reads).mpr
        ⟨other, isOther, inProject, rfl, ids, stored, member⟩⟩
  · rintro (⟨rfl, rfl, member⟩ | ⟨different, old⟩)
    · exact ⟨row, isRow, ofProject, sameId, effective, atSource, member⟩
    · obtain ⟨other, isOther, inProject, rfl, ids, stored, member⟩ := (depends_iff reads).mp old
      exact ⟨other, isOther, inProject, rfl, ids,
        (elsewhere other isOther different).trans stored, member⟩

/-- A creation adds no edge and moves none. -/
theorem entry_depends {command : LandingAuthorityCommand} {id pr seq atTime : Int}
    {pinnedSha handoffCommit setBy : Text}
    (resolved : (landingFactsUnder command.project (store.1.rows command.project)
      subjects).recovery.subjects = [])
    (allocated : (landingFactsUnder command.project (store.1.rows command.project)
      subjects).nextId = some id)
    (applied : next.1 = applyLandingMutation store.1 command
      (.entry id command.project pr pinnedSha handoffCommit setBy) seq atTime)
    {project : Text} {one two : Int} :
    Depends project next one two ↔ Depends project store one two := by
  have again := reread.recovered
  rw [applied] at again
  obtain ⟨positive, small, past⟩ := landingNextId_some allocated
  have fresh : ∀ row ∈ store.1.entries, row.id ≠ id := fun row isRow =>
    Int.ne_of_lt (past row.id (List.mem_append_right _
      (List.mem_map_of_mem ((List.mem_insertionSort _).mpr isRow))))
  have freshSubject : ∀ subject ∈ store.1.subjects, subject.id ≠ id := by
    intro subject isSubject
    obtain ⟨fact, isFact, identity⟩ := recovered_of_row reads.recovered isSubject
    rw [show subject.id = fact.id from (congrArg LandingIdentity.id identity).symm]
    exact Int.ne_of_lt (past fact.id (List.mem_append_left _ (List.mem_map_of_mem isFact)))
  have entries : next.1.entries = store.1.entries ++
      [landingEntryRowOf id command.project pr pinnedSha handoffCommit setBy atTime] := by
    rw [applied]
    rfl
  have elsewhere : ∀ row ∈ store.1.entries, storedAfter rereads row = storedAfter subjects row := by
    intro row isRow
    refine storedAfter_other store.2 reads.recovered resolved again isRow (fresh row isRow) ?_
    intro ref isRef exact
    rw [List.mem_singleton.mp isRef] at exact
    exact absurd (congrArg LandingIdentity.id exact).symm (fresh row isRow)
  have created : storedAfter rereads
      (landingEntryRowOf id command.project pr pinnedSha handoffCommit setBy atTime) = some [] :=
    storedAfter_source again rfl (safeIntOf_eq_some.mpr ⟨rfl, positive, small⟩)
      (fun subject isSubject same => absurd same (freshSubject subject isSubject))
      (afterIdsOf_writeIds List.nodup_nil fun _ member => absurd member List.not_mem_nil)
  rw [depends_iff reread, depends_iff reads, entries]
  constructor
  · rintro ⟨row, isRow, inProject, rfl, ids, stored, member⟩
    cases List.mem_append.mp isRow with
    | inl old =>
        exact ⟨row, old, inProject, rfl, ids, (elsewhere row old).symm.trans stored, member⟩
    | inr new =>
        rw [List.mem_singleton.mp new, created] at stored
        cases stored
        cases member
  · rintro ⟨row, isRow, inProject, rfl, ids, stored, member⟩
    exact ⟨row, List.mem_append_left _ isRow, inProject, rfl, ids,
      (elsewhere row isRow).trans stored, member⟩

end Effect

/-! ## Runs -/

/-- The graph has no cycle, and an edge out of the project's entries is one it
started with. -/
structure GraphHeld (project : Text) (start store : LandingStore) : Prop where
  acyclic : Acyclic (Depends project store)
  entries : ∀ id, IsEntry project start id → IsEntry project store id
  edges : ∀ one two, Depends project store one two →
    IsEntry project store two ∨ Depends project start one two

theorem OrderAccepted.acyclic {store : LandingStore} {subjects : List LandingRecoverySubjectFact}
    (reads : Reads store.1 subjects) {project : Text} {pr : Int} {sent : Option (List Int)}
    {source : LandingEntry} {effective met : List Int} {coordinator : LandingCoordinator}
    {after : List LandingSubjectRef}
    (accepted : OrderAccepted (landingFactsUnder project (store.1.rows project) subjects) project
      pr sent source effective met coordinator after)
    (acyclic : Acyclic (Depends project store)) {edge : Int → Int → Prop}
    (replaced : ∀ one two, edge one two →
      (one = source.id ∧ two ∈ effective) ∨ (one ≠ source.id ∧ Depends project store one two)) :
    Acyclic edge := by
  obtain ⟨covered, closed⟩ := LandingMutationFacts.walk_ok accepted.walked
  have kept : ∀ one two, one ≠ source.id → edge one two → Depends project store one two :=
    fun one two different step =>
      ((replaced one two step).resolve_left fun here => different here.1).2
  have proposed : ∀ two, edge source.id two → two ∈ met := fun two step =>
    covered two ((replaced _ two step).resolve_right fun other => other.1 rfl).2
  refine acyclic.replace kept proposed ?_ ?_
  · intro one two isMet step
    obtain ⟨_, follows, deps, contained⟩ := closed one isMet
    obtain ⟨row, isRow, ofProject, rfl, ids, stored, member⟩ := (depends_iff reads).mp step
    rw [depsOf_row store.2 isRow ofProject] at deps
    have read : (landingEntryFactsOf subjects row).dependencies = .readable ids :=
      (dependencies_readable subjects row).mpr stored
    cases deps.symm.trans read
    exact contained two member
  · intro isMet
    exact (closed source.id isMet).1 rfl

theorem GraphHeld.step {project : Text} {start store : LandingStore}
    (held : GraphHeld project start store) (call : LandingWriteCall) :
    GraphHeld project start (landingWriteStep store call) := by
  unfold landingWriteStep
  cases written : writeLandingAuthority store call.command call.seq call.atTime with
  | none => exact held
  | some next =>
      obtain ⟨subjects, rereads, mutation, reads, reread, decided, applied⟩ :=
        writeLandingAuthority_some written
      rw [Option.getD_some]
      rcases decideLandingMutation_mutate decided with
        ⟨pinnedSha, handoffCommit, id, _, rfl, allocated, resolved, _⟩ |
        ⟨sent, source, effective, met, coordinator, after, fixes, rfl, accepted⟩
      · have same : ∀ {one two}, Depends project next one two ↔ Depends project store one two :=
          entry_depends reads reread resolved allocated applied
        have kept : ∀ row ∈ store.1.entries, row ∈ next.1.entries := by
          intro row isRow
          rw [applied]
          exact List.mem_append_left _ isRow
        refine ⟨held.acyclic.mono fun one two => same.mp, ?_, ?_⟩
        · rintro other isEntry
          obtain ⟨row, isRow, ofProject, sameId⟩ := held.entries other isEntry
          exact ⟨row, kept row isRow, ofProject, sameId⟩
        · intro one two step
          refine (held.edges one two (same.mp step)).imp_left ?_
          rintro ⟨row, isRow, ofProject, sameId⟩
          exact ⟨row, kept row isRow, ofProject, sameId⟩
      · have same : ∀ {one two}, Depends project next one two ↔
            (one = source.id ∧ project = call.command.project ∧ two ∈ effective) ∨
              (one ≠ source.id ∧ Depends project store one two) :=
          order_depends reads reread accepted applied
        have entries : next.1.entries = store.1.entries := by
          rw [applied]
          rfl
        have kept : ∀ id, IsEntry project store id → IsEntry project next id := by
          intro id isEntry
          rwa [IsEntry, entries]
        refine ⟨?_, fun id isEntry => kept id (held.entries id isEntry), ?_⟩
        · by_cases here : project = call.command.project
          · subst here
            exact accepted.acyclic reads held.acyclic fun one two step =>
              (same.mp step).imp_left fun new => ⟨new.1, new.2.2⟩
          · exact held.acyclic.mono fun one two step =>
              ((same.mp step).resolve_left fun new => here new.2.1).2
        · intro one two step
          rcases same.mp step with ⟨_, rfl, member⟩ | ⟨_, old⟩
          · obtain ⟨ref, _, named⟩ := forall₂_mem_left (mapM_eq_ok_iff.mp accepted.targets) member
            obtain ⟨_, _, known, _, _⟩ := LandingMutationFacts.targetRef_ok named
            obtain ⟨row, isRow, ofProject, sameId, _⟩ := known_row known
            exact Or.inl (kept two ⟨row, isRow, ofProject, sameId⟩)
          · exact (held.edges one two old).imp_left (kept two)

/-- Over every run of landing writes a project's graph stays without a cycle, and its
edges name its entries, but for an edge that it started with. -/
theorem landingRun_acyclic {project : Text} {start : LandingStore}
    (acyclic : Acyclic (Depends project start)) (calls : List LandingWriteCall) :
    GraphHeld project start (runFrom landingWriteStep start calls) := by
  have held : GraphHeld project start start :=
    ⟨acyclic, fun _ isEntry => isEntry, fun _ _ step => Or.inr step⟩
  have step : ∀ store call, GraphHeld project start store →
      GraphHeld project start (landingWriteStep store call) := fun _ call held => held.step call
  exact runFrom_invariant step held calls

/-! ## Two lines -/

namespace LineExample

def hash (digit : Char) : Text := List.replicate 40 (Text.unit digit)

def project : Text := Text.lit "ccrc"

def create (pr : Int) : LandingAuthorityCommand :=
  .entry project pr (hash 'a') (hash 'b') (Text.lit "ada")

def after (pr : Int) (ids : List Int) : LandingAuthorityCommand :=
  .order project pr (some ids) none (Text.lit "ada")

def empty : LandingStore := ⟨⟨[], [], [], [], [], []⟩, by decide⟩

/-- Two entries, the second ordered after the first; the way back is refused. -/
def calls : List LandingWriteCall :=
  [⟨create 7, 1, 10⟩, ⟨create 8, 2, 20⟩, ⟨after 8 [1], 3, 30⟩, ⟨after 7 [2], 4, 40⟩]

/-- A stored entry whose order names an id that no entry has. -/
def danglingRow : LandingEntryRow :=
  { landingEntryRowOf 1 project 7 (hash 'a') (hash 'b') (Text.lit "ada") 10 with
    afterIds := writeIds [5] }

def dangling : LandingStore := ⟨⟨[danglingRow], [], [], [], [], []⟩, by decide⟩

theorem empty_acyclic : Acyclic (Depends project empty) := by
  intro node cycle
  obtain ⟨next, step, _⟩ := Relation.TransGen.head'_iff.mp cycle
  have reads : Reads empty.1 [] := ⟨rfl, fun _ member => absurd member List.not_mem_nil⟩
  obtain ⟨row, isRow, _⟩ := (depends_iff reads).mp step
  cases isRow

theorem dangling_acyclic : Acyclic (Depends project dangling) := by
  have reads : Reads dangling.1 [] := ⟨rfl, by decide +kernel⟩
  have only : ∀ one two, Depends project dangling one two → one = 1 ∧ two = 5 := by
    intro one two step
    obtain ⟨row, isRow, _, rfl, ids, stored, member⟩ := (depends_iff reads).mp step
    cases List.mem_singleton.mp isRow
    have ordered : storedAfter [] danglingRow = some [5] := by decide +kernel
    cases ordered.symm.trans stored
    exact ⟨rfl, List.mem_singleton.mp member⟩
  intro node cycle
  obtain ⟨_, out, _⟩ := Relation.TransGen.head'_iff.mp cycle
  obtain ⟨_, _, back⟩ := Relation.TransGen.tail'_iff.mp cycle
  have isOne := (only _ _ out).1
  have isFive := (only _ _ back).2
  omega

end LineExample

open LineExample in
theorem landingRun_acyclic_ordered :
    GraphHeld project empty (runFrom landingWriteStep empty calls) ∧
      Depends project (runFrom landingWriteStep empty calls) 2 1 ∧
      ¬Depends project (runFrom landingWriteStep empty calls) 1 2 :=
  ⟨landingRun_acyclic empty_acyclic calls, by decide +kernel, by decide +kernel⟩

open LineExample in
/-- A creation is accepted beside an order that names no entry, and leaves it so. -/
theorem landingRun_dangles : Acyclic (Depends project dangling) ∧
    IsEntry project (landingWriteStep dangling ⟨create 8, 1, 20⟩) 2 ∧
    Depends project (landingWriteStep dangling ⟨create 8, 1, 20⟩) 1 5 ∧
    ¬IsEntry project (landingWriteStep dangling ⟨create 8, 1, 20⟩) 5 :=
  ⟨dangling_acyclic, by decide +kernel, by decide +kernel, by decide +kernel⟩

end Ccrc.Coord
