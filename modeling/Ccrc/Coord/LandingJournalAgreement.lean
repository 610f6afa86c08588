import Ccrc.Coord.LandingJournalPolicyProperties
import Ccrc.Coord.LandingGraph

/-! The writer and the reader of the landing journal agree: the line of an accepted
write follows every history that the store's recovered subjects know. -/

set_option autoImplicit false

namespace Ccrc.Coord

open Library Shared

/-! ## The request -/

/-- What a read request promises of its command. -/
structure SoundCommand (command : LandingAuthorityCommand) : Prop where
  project : command.project.isNonblank = true
  setBy : command.setBy.isNonblank = true
  pr : 1 ≤ command.pr ∧ command.pr ≤ Number.maxSafeInteger
  claim : ∀ pinnedSha handoffCommit,
    command = .entry command.project command.pr pinnedSha handoffCommit command.setBy →
    pinnedSha.isHexOf 40 = true ∧ handoffCommit.isHexOf 40 = true

theorem requestText?_nonblank {value : Json Number} {text : Text}
    (read : requestText? value = some text) : text.isNonblank = true := by
  cases value with
  | string given =>
      simp only [requestText?] at read
      split at read
      next => cases read
      next some =>
          cases read
          exact Text.isNonblank_trim some
  | null | bool | number | array | object => cases read

theorem hashText?_hex {value : Json Number} {text : Text} (read : hashText? value = some text) :
    text.isHexOf 40 = true := by
  cases value with
  | string given =>
      simp only [hashText?] at read
      split at read
      next hex =>
          cases read
          exact hex
      next => cases read
  | null | bool | number | array | object => cases read

theorem landingCallerOf_some {body : Json Number} {caller : LandingCaller}
    (read : landingCallerOf body = some caller) :
    caller.byId.isNonblank = true ∧ caller.project.isNonblank = true ∧
      1 ≤ caller.pr ∧ caller.pr ≤ Number.maxSafeInteger := by
  simp only [landingCallerOf, Option.bind_eq_bind, Option.bind_eq_some_iff] at read
  obtain ⟨byId, ⟨_, _, isId⟩, byUuid, _, project, ⟨_, _, isProject⟩, pr, ⟨_, _, isPr⟩, same⟩ :=
    read
  cases same
  exact ⟨requestText?_nonblank isId, requestText?_nonblank isProject, safeNumberOf_bounds isPr⟩

theorem parseLandingWrite_sound {kind : LandingWriteKind} {body : Json Number}
    {request : LandingRequest} (asked : parseLandingWrite kind body = some request) :
    SoundCommand (landingCommandOf request) := by
  cases body with
  | null | bool | number | string | array => cases asked
  | object fields =>
      simp only [parseLandingWrite] at asked
      split at asked
      next => cases asked
      next =>
          obtain ⟨caller, isCaller, asked⟩ := Option.bind_eq_some_iff.mp asked
          obtain ⟨byId, project, pr⟩ := landingCallerOf_some isCaller
          cases kind with
          | entry =>
              obtain ⟨pinned, isPinned, asked⟩ := Option.bind_eq_some_iff.mp asked
              obtain ⟨handoff, isHandoff, asked⟩ := Option.bind_eq_some_iff.mp asked
              cases asked
              refine ⟨project, byId, pr, ?_⟩
              rintro _ _ same
              cases same
              obtain ⟨_, _, pinnedHex⟩ := Option.bind_eq_some_iff.mp isPinned
              obtain ⟨_, _, handoffHex⟩ := Option.bind_eq_some_iff.mp isHandoff
              exact ⟨hashText?_hex pinnedHex, hashText?_hex handoffHex⟩
          | order =>
              obtain ⟨after, _, asked⟩ := Option.bind_eq_some_iff.mp asked
              obtain ⟨fixes, _, asked⟩ := Option.bind_eq_some_iff.mp asked
              split at asked
              next => cases asked
              next =>
                  cases asked
                  refine ⟨project, byId, pr, ?_⟩
                  rintro _ _ same
                  cases same

/-! ## The accepted write -/

/-- Every identity that the journal mentions is among the recovered subjects. -/
def Consistent (records : List LandingJournalRecord) (store : LandingStore) : Prop :=
  ∀ subjects, store.1.subjects.mapM (landingSubjectOf store.1.authorities) = some subjects →
    ∀ ref ∈ mentionsOf records, ∃ subject ∈ subjects,
      subject.toLandingIdentity = ref.toLandingIdentity

section Write

variable {store : LandingStore} {subjects : List LandingRecoverySubjectFact}
  {records : List LandingJournalRecord} (reads : Reads store.1 subjects)
  (consistent : Consistent records store)

/-- An association that was read has a storable run. -/
theorem coordinatorOf_binding {project : Text} {entry : LandingEntry}
    {coordinator : LandingCoordinator}
    (associated : (landingFactsUnder project (store.1.rows project) subjects).coordinatorOf entry =
      some coordinator) (observed : Int) (isRun : landingBindingOf coordinator = .run observed) :
    1 ≤ observed ∧ observed ≤ Number.maxSafeInteger := by
  rw [LandingMutationFacts.coordinatorOf, Option.join_eq_some_iff] at associated
  obtain ⟨row, _, same⟩ := List.mem_map.mp (Map.mem_of_get? associated)
  have read : landingCoordinatorOf _ row = some coordinator := (Prod.mk.injEq .. ▸ same).2
  unfold landingCoordinatorOf at read
  split at read
  next =>
      cases read
      cases isRun
  next stored _ =>
      obtain ⟨runId, safe, read⟩ := Option.bind_eq_some_iff.mp read
      obtain ⟨run, _, read⟩ := Option.bind_eq_some_iff.mp read
      cases read
      cases isRun
      exact (safeIntOf_eq_some.mp safe).1 ▸ (safeIntOf_eq_some.mp safe).2

/-- A row of the entries is found by its key. -/
theorem entryOfKey_row {project : Text} {row : LandingEntryRow} (isRow : row ∈ store.1.entries)
    (ofProject : row.project = project) :
    (landingFactsUnder project (store.1.rows project) subjects).entryOfKey project row.pr ≠
      none := by
  rw [LandingMutationFacts.entryOfKey, Ne, List.find?_eq_none]
  intro unfound
  refine unfound (landingEntryFactsOf subjects row).entry (List.mem_map.mpr ⟨row, ?_, rfl⟩) ?_
  · exact List.mem_filter.mpr
      ⟨(List.mem_insertionSort _).mpr isRow, beq_iff_eq.mpr ofProject⟩
  · simp [ofProject]

include reads

theorem recovered_pr {subject : LandingRecoverySubjectFact} (member : subject ∈ subjects) :
    1 ≤ subject.pr ∧ subject.pr ≤ Number.maxSafeInteger := by
  obtain ⟨row, _, read⟩ := forall₂_mem_right (mapM_eq_some_iff.mp reads.recovered) member
  simp only [landingSubjectOf, Option.bind_eq_bind, Option.bind_eq_some_iff] at read
  obtain ⟨id, _, pr, isPr, seq, _, read⟩ := read
  split at read
  next => cases read
  next =>
      simp only [Option.bind_eq_some_iff] at read
      obtain ⟨_, _, _, _, _, _, same⟩ := read
      cases same
      exact (safeIntOf_eq_some.mp isPr).1 ▸ (safeIntOf_eq_some.mp isPr).2

/-- The mention of an entry of the project, with its current association. -/
theorem rowRef_sound {project : Text} (named : project.isNonblank = true)
    {row : LandingEntryRow} (isRow : row ∈ store.1.entries) (ofProject : row.project = project)
    {entry : LandingEntry} (identity : row.identity = entry.identity)
    {coordinator : LandingCoordinator}
    (associated : (landingFactsUnder project (store.1.rows project) subjects).coordinatorOf entry =
      some coordinator) :
    SoundRef { toLandingIdentity := entry.identity, binding := landingBindingOf coordinator } := by
  obtain ⟨idSafe, prSafe⟩ := LandingEntryRow.keyed_safe (reads.keyed row isRow)
  have sameId : row.id = entry.id := congrArg LandingIdentity.id identity
  have samePr : row.pr = entry.pr := congrArg LandingIdentity.pr identity
  have sameProject : row.project = entry.project := congrArg LandingIdentity.project identity
  have entryProject : entry.project = project := sameProject.symm.trans ofProject
  refine ⟨?_, ?_, ?_, coordinatorOf_binding associated⟩
  · exact (sameId ▸ (safeIntOf_eq_some.mp idSafe).2 : 1 ≤ entry.id ∧ entry.id ≤ _)
  · exact (entryProject ▸ named : entry.project.isNonblank = true)
  · exact (samePr ▸ (safeIntOf_eq_some.mp prSafe).2 : 1 ≤ entry.pr ∧ entry.pr ≤ _)

include consistent

theorem mentioned_pr {ref : LandingSubjectRef} (member : ref ∈ mentionsOf records) :
    1 ≤ ref.pr ∧ ref.pr ≤ Number.maxSafeInteger := by
  obtain ⟨subject, isSubject, same⟩ := consistent subjects reads.recovered ref member
  exact congrArg LandingIdentity.pr same ▸ recovered_pr reads isSubject

/-- A mention of the history agrees with every entry of a project in which there is
nothing to recover. -/
theorem mentioned_agrees {project : Text}
    (resolved : (landingFactsUnder project (store.1.rows project) subjects).recovery.subjects = [])
    {other ref : LandingSubjectRef} (member : other ∈ mentionsOf records)
    {row : LandingEntryRow} (isRow : row ∈ store.1.entries) (ofProject : row.project = project)
    (identity : row.identity = ref.toLandingIdentity) : Identities.Agree other ref := by
  intro shared
  obtain ⟨subject, isSubject, same⟩ := consistent subjects reads.recovered other member
  have agreed := (landingRecovery_empty resolved isSubject).1 row
    ((List.mem_insertionSort _).mpr isRow) ofProject
  refine same.symm.trans ((agreed ?_).symm.trans identity)
  have sameId : row.id = ref.id := congrArg LandingIdentity.id identity
  have sameProject : row.project = ref.project := congrArg LandingIdentity.project identity
  have samePr : row.pr = ref.pr := congrArg LandingIdentity.pr identity
  have otherId : subject.id = other.id := congrArg LandingIdentity.id same
  have otherProject : subject.project = other.project := congrArg LandingIdentity.project same
  have otherPr : subject.pr = other.pr := congrArg LandingIdentity.pr same
  rw [sameId, sameProject, samePr, otherId, otherProject, otherPr]
  exact shared.imp Eq.symm fun key => ⟨key.1.symm, key.2.symm⟩

theorem entry_follows {command : LandingAuthorityCommand} (sound : SoundCommand command)
    {id atTime : Int} {pinnedSha handoffCommit : Text}
    (isEntry : command =
      .entry command.project command.pr pinnedSha handoffCommit command.setBy)
    (allocated : (landingFactsUnder command.project (store.1.rows command.project)
      subjects).nextId = some id)
    (resolved : (landingFactsUnder command.project (store.1.rows command.project)
      subjects).recovery.subjects = [])
    (unknown : (landingFactsUnder command.project (store.1.rows command.project)
      subjects).entryOfKey command.project command.pr = none)
    (clock : 0 ≤ atTime ∧ atTime ≤ Number.maxSafeInteger)
    (room : (records.length : Int) < Number.maxSafeInteger) :
    Follows records (landingRecordOf command (.entry id command.project command.pr pinnedSha
      handoffCommit command.setBy) (records.length + 1) atTime) := by
  obtain ⟨positive, small, past⟩ := landingNextId_some allocated
  have fresh : ∀ ref ∈ mentionsOf records, ref.id ≠ id := by
    intro ref member
    obtain ⟨subject, isSubject, same⟩ := consistent subjects reads.recovered ref member
    rw [← show subject.id = ref.id from congrArg LandingIdentity.id same]
    exact Int.ne_of_lt (past subject.id (List.mem_append_left _ (List.mem_map_of_mem isSubject)))
  have subjectSound : SoundRef ⟨⟨id, command.project, command.pr⟩, .noRun⟩ :=
    ⟨⟨positive, small⟩, sound.project, sound.pr, by
      intro observed isRun
      cases isRun⟩
  refine ⟨⟨⟨?_, ?_⟩, clock, sound.setBy, subjectSound, rfl, sound.claim _ _ isEntry⟩, rfl, ?_,
    fun _ => fresh, ?_, List.pairwise_singleton _ _⟩
  · change (1 : Int) ≤ records.length + 1
    omega
  · change (records.length : Int) + 1 ≤ Number.maxSafeInteger
    omega
  · intro ref member
    cases List.mem_append.mp member with
    | inl old => exact mentioned_pr reads consistent old
    | inr new =>
        rw [List.mem_singleton.mp new]
        exact sound.pr
  · intro other member ref isRef shared
    rw [List.mem_singleton.mp isRef] at shared
    cases shared with
    | inl sameId => exact absurd sameId (fresh other member)
    | inr sameKey =>
        obtain ⟨subject, isSubject, same⟩ := consistent subjects reads.recovered other member
        have ofProject : subject.project = command.project :=
          (congrArg LandingIdentity.project same).trans sameKey.1
        obtain ⟨row, isRow, identity⟩ := (landingRecovery_empty resolved isSubject).2 ofProject
        have rowProject : row.project = command.project :=
          (congrArg LandingIdentity.project identity).trans ofProject
        have rowPr : row.pr = command.pr := (congrArg LandingIdentity.pr identity).trans
          ((congrArg LandingIdentity.pr same).trans sameKey.2)
        exact absurd (rowPr ▸ unknown)
          (entryOfKey_row ((List.mem_insertionSort _).mp isRow) rowProject)

omit reads consistent in
/-- Two mentions of rows agree: a row has its id and its key to itself. -/
theorem rows_agree {first second : LandingSubjectRef}
    (isFirst : ∃ row ∈ store.1.entries, row.identity = first.toLandingIdentity)
    (isSecond : ∃ row ∈ store.1.entries, row.identity = second.toLandingIdentity) :
    Identities.Agree first second := by
  obtain ⟨row, isRow, identity⟩ := isFirst
  obtain ⟨other, isOther, otherIdentity⟩ := isSecond
  have id : row.id = first.id := congrArg LandingIdentity.id identity
  have otherId : other.id = second.id := congrArg LandingIdentity.id otherIdentity
  have key : (row.project, row.pr) = (first.project, first.pr) :=
    Prod.ext (congrArg LandingIdentity.project identity) (congrArg LandingIdentity.pr identity)
  have otherKey : (other.project, other.pr) = (second.project, second.pr) :=
    Prod.ext (congrArg LandingIdentity.project otherIdentity)
      (congrArg LandingIdentity.pr otherIdentity)
  intro shared
  have same : row = other := by
    cases shared with
    | inl sameId =>
        exact List.inj_on_of_nodup_map store.2.entryIds isRow isOther
          (id.trans (sameId.trans otherId.symm))
    | inr sameKey =>
        exact List.inj_on_of_nodup_map store.2.entryKeys isRow isOther
          (key.trans ((Prod.ext sameKey.1 sameKey.2).trans otherKey.symm))
  exact identity.symm.trans ((congrArg LandingEntryRow.identity same).trans otherIdentity)

theorem order_follows {command : LandingAuthorityCommand} (sound : SoundCommand command)
    {pr atTime : Int} {sent : Option (List Int)} {source : LandingEntry}
    {effective met : List Int} {coordinator : LandingCoordinator}
    {after : List LandingSubjectRef} {fixes : Bool}
    (accepted : OrderAccepted (landingFactsUnder command.project (store.1.rows command.project)
      subjects) command.project pr sent source effective met coordinator after)
    (clock : 0 ≤ atTime ∧ atTime ≤ Number.maxSafeInteger)
    (room : (records.length : Int) < Number.maxSafeInteger) :
    Follows records (landingRecordOf command (.order source coordinator
      (landingBindingOf coordinator) after fixes) (records.length + 1) atTime) := by
  obtain ⟨row, isRow, ofProject, identity, _⟩ := accepted.sourceRow
  have subjectSound := rowRef_sound reads sound.project isRow ofProject identity
    accepted.association
  have sourceProject : source.project = command.project :=
    (congrArg LandingIdentity.project identity).symm.trans ofProject
  have target : ∀ ref ∈ after, SoundRef ref ∧ ref.project = source.project ∧
      ref.id ≠ source.id := by
    intro ref member
    obtain ⟨id, isId, named⟩ := forall₂_mem_right (mapM_eq_ok_iff.mp accepted.targets) member
    obtain ⟨entry, associated, known, association, rfl⟩ := LandingMutationFacts.targetRef_ok named
    obtain ⟨row, isRow, ofProject, sameId, identity⟩ := known_row known
    obtain ⟨covered, closed⟩ := LandingMutationFacts.walk_ok accepted.walked
    refine ⟨rowRef_sound reads sound.project isRow ofProject identity association, ?_, ?_⟩
    · exact ((congrArg LandingIdentity.project identity).symm.trans ofProject).trans
        sourceProject.symm
    · intro same
      have isEntry : id = entry.id :=
        sameId.symm.trans (congrArg LandingIdentity.id identity)
      exact (closed id (covered id isId)).1 (isEntry.trans same)
  have mentionRow : ∀ ref ∈ (landingRecordOf command (.order source coordinator
      (landingBindingOf coordinator) after fixes) (records.length + 1) atTime).mentions,
      ∃ row ∈ store.1.entries, row.project = command.project ∧
        row.identity = ref.toLandingIdentity := by
    intro ref member
    cases List.mem_cons.mp member with
    | inl isSource => exact isSource ▸ ⟨row, isRow, ofProject, identity⟩
    | inr isTarget => exact accepted.targetRow isTarget
  have distinct : (after.map (·.id)).Nodup := accepted.afterIds ▸ (accepted.storable reads).1
  refine ⟨⟨⟨?_, ?_⟩, clock, sound.setBy, subjectSound, distinct, target⟩, rfl, ?_, ?_, ?_, ?_⟩
  · change (1 : Int) ≤ records.length + 1
    omega
  · change (records.length : Int) + 1 ≤ Number.maxSafeInteger
    omega
  · intro ref member
    cases List.mem_append.mp member with
    | inl old => exact mentioned_pr reads consistent old
    | inr new =>
        cases List.mem_cons.mp new with
        | inl isSource => exact isSource ▸ subjectSound.pr
        | inr isTarget => exact (target ref isTarget).1.pr
  · intro creates
    cases creates
  · intro other member ref isRef
    obtain ⟨row, isRow, ofProject, identity⟩ := mentionRow ref isRef
    exact mentioned_agrees reads consistent accepted.resolved member isRow ofProject identity
  · refine List.pairwise_of_forall_mem_list fun first isFirst second isSecond => ?_
    obtain ⟨row, isRow, _, identity⟩ := mentionRow first isFirst
    obtain ⟨other, isOther, _, otherIdentity⟩ := mentionRow second isSecond
    exact rows_agree ⟨row, isRow, identity⟩ ⟨other, isOther, otherIdentity⟩

end Write

/-- The record of an accepted write follows the history that the store knows. -/
theorem mutation_follows {records : List LandingJournalRecord} {kind : LandingWriteKind}
    {body : Json Number} {request : LandingRequest}
    (asked : parseLandingWrite kind body = some request) {store : LandingStore}
    (consistent : Consistent records store) {facts : LandingMutationFacts}
    (read : landingFactsInner store.1 (landingCommandOf request).project = some facts)
    {mutation : LandingMutation}
    (decided : decideLandingMutation (landingCommandOf request) facts = .ok (.mutate mutation))
    {atTime : Int} (clock : 0 ≤ atTime ∧ atTime ≤ Number.maxSafeInteger)
    (room : (records.length : Int) < Number.maxSafeInteger) :
    Follows records (landingRecordOf (landingCommandOf request) mutation (records.length + 1)
      atTime) := by
  obtain ⟨subjects, recovered, keyed, rfl⟩ := landingFactsInner_eq_some.mp read
  have reads : Reads store.1 subjects := ⟨recovered, keyed⟩
  have sound := parseLandingWrite_sound asked
  rcases decideLandingMutation_mutate decided with
    ⟨pinnedSha, handoffCommit, id, isEntry, rfl, allocated, resolved, unknown⟩ |
    ⟨sent, source, effective, met, coordinator, after, fixes, rfl, order⟩
  · exact entry_follows reads consistent sound isEntry allocated resolved unknown clock room
  · exact order_follows reads consistent sound order clock room

/-- What an accepted write appends to a readable journal is read back as the records
before it and exactly the write's own. -/
theorem landingJournal_appends {text : Text} {records : List LandingJournalRecord}
    (accepted : parseLandingJournal text = .ok records) {kind : LandingWriteKind}
    {body : Json Number} {request : LandingRequest}
    (asked : parseLandingWrite kind body = some request) {store : LandingStore}
    (consistent : Consistent records store) {facts : LandingMutationFacts}
    (read : landingFactsInner store.1 (landingCommandOf request).project = some facts)
    {mutation : LandingMutation}
    (decided : decideLandingMutation (landingCommandOf request) facts = .ok (.mutate mutation))
    {atTime : Int} (clock : 0 ≤ atTime ∧ atTime ≤ Number.maxSafeInteger)
    (room : (records.length : Int) < Number.maxSafeInteger) :
    parseLandingJournal (text ++ recordLine (landingRecordOf (landingCommandOf request) mutation
        (records.length + 1) atTime) ++ [lineFeed]) =
      .ok (records ++ [landingRecordOf (landingCommandOf request) mutation
        (records.length + 1) atTime]) :=
  parseLandingJournal_append accepted
    (mutation_follows asked consistent read decided clock room)

namespace LineExample

def first : LandingJournalRecord :=
  ⟨1, 10, Text.lit "ada", ⟨⟨1, project, 7⟩, .noRun⟩, .entry (hash 'a') (hash 'b')⟩

def second : LandingJournalRecord :=
  ⟨2, 20, Text.lit "ada", ⟨⟨2, project, 8⟩, .noRun⟩, .entry (hash 'a') (hash 'b')⟩

/-- The journal and the store after the first creation. -/
def journal : Text := recordLine first ++ [lineFeed]

def created : LandingStore := landingWriteStep empty ⟨create 7, 1, 10⟩

/-- The request of the second one, its names not trimmed. -/
def body : Json Number :=
  .object [(Text.lit "byId", .string (Text.lit " ada")),
    (Text.lit "byUuid", .string (Text.lit "u")), (Text.lit "project", .string (Text.lit "ccrc ")),
    (Text.lit "pr", .number (Number.ofInt 8)), (Text.lit "pinnedSha", .string (hash 'a')),
    (Text.lit "handoffCommit", .string (hash 'b'))]

def request : LandingRequest :=
  .entry ⟨Text.lit "ada", Text.lit "u", project, 8⟩ (hash 'a') (hash 'b')

def recovered : List LandingRecoverySubjectFact :=
  [{ id := 1, project, pr := 7, binding := .noRun, observedSeq := 1
     creation := .recorded ⟨10, Text.lit "ada", hash 'a', hash 'b'⟩ 1
     authority := some ⟨[], false, Text.lit "ada", 1⟩ }]

theorem created_recovered : created.1.subjects.mapM (landingSubjectOf created.1.authorities) =
    some recovered := by
  decide +kernel

theorem created_consistent : Consistent [first] created := by
  intro subjects read ref member
  cases created_recovered.symm.trans read
  cases List.mem_singleton.mp member
  exact ⟨_, List.mem_singleton_self _, rfl⟩

end LineExample

open LineExample in
theorem landingJournal_appends_second :
    parseLandingJournal (journal ++ recordLine second ++ [lineFeed]) = .ok [first, second] := by
  have accepted : parseLandingJournal journal = .ok [first] := by decide +kernel
  have asked : parseLandingWrite .entry body = some request := by decide +kernel
  have read : landingFactsInner created.1 project =
      some (landingFactsUnder project (created.1.rows project) recovered) :=
    landingFactsInner_eq_some.mpr ⟨recovered, created_recovered, by decide +kernel, rfl⟩
  have decided : decideLandingMutation (landingCommandOf request)
      (landingFactsUnder project (created.1.rows project) recovered) =
        .ok (.mutate (.entry 2 project 8 (hash 'a') (hash 'b') (Text.lit "ada"))) := by
    decide +kernel
  have clock : (0 : Int) ≤ 20 ∧ (20 : Int) ≤ Number.maxSafeInteger := by decide
  exact landingJournal_appends accepted asked created_consistent read decided clock (by decide)

end Ccrc.Coord
