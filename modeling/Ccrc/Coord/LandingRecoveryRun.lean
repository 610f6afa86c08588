import Ccrc.Coord.LandingAdvanceProperties
import Ccrc.Coord.LandingRecoveryProperties

/-! The runs of the landing line with its crashes. Every step keeps the invariant and
every identity, and the laws of the line are read off it. -/

set_option autoImplicit false

namespace Ccrc.Coord

open Library Shared

/-! ## The invariant -/

/-- The journal is read in full. -/
def JournalReads (journal : Option Text) (records : List LandingJournalRecord) : Prop :=
  match journal with
  | none => records = []
  | some text => parseLandingJournal text = .ok records

def LandingWorld.overlay (world : LandingWorld) : LandingTables × Int :=
  (world.db.store.1, world.db.cursor)

/-- Every identity that was ever given: the entries', and those that records mention. -/
def givenIdentities (world : LandingWorld) (records : List LandingJournalRecord) :
    List LandingIdentity :=
  world.db.store.1.identities ++ mentionIdentities records

/-- The overlay is the fold of the records up to the cursor, all of them where the
fence is open. -/
structure LandingSound (world : LandingWorld) (records : List LandingJournalRecord) : Prop where
  reads : JournalReads world.journal records
  numbered : Numbered records
  applied : ∃ count ≤ records.length,
    SameOverlay world.overlay (journalOverlay (records.take count))
  whole : world.fence = none → world.db.cursor = records.length
  agree : IdsAgree (givenIdentities world records)

theorem JournalReads.unique {journal : Option Text} {first second : List LandingJournalRecord}
    (reads : JournalReads journal first) (again : JournalReads journal second) : first = second := by
  cases journal with
  | none => exact reads.trans again.symm
  | some text => exact Except.ok.inj (reads.symm.trans again)

theorem JournalReads.append {journal : Option Text} {records : List LandingJournalRecord}
    (reads : JournalReads journal records) {record : LandingJournalRecord}
    (follows : Follows records record) :
    JournalReads (some (appendLine journal record)) (records ++ [record]) := by
  cases journal with
  | none =>
      cases reads
      exact parseLandingJournal_first follows
  | some text => exact parseLandingJournal_append reads follows

namespace LandingSound

variable {world : LandingWorld} {records : List LandingJournalRecord}
  (sound : LandingSound world records)

include sound

theorem cursor_le : ∃ count : Nat, count ≤ records.length ∧ world.db.cursor = count ∧
    SameOverlay world.overlay (journalOverlay (records.take count)) := by
  obtain ⟨count, within, same⟩ := sound.applied
  refine ⟨count, within, same.cursor.trans ?_, same⟩
  rw [journalOverlay_cursor (sound.numbered.take count), List.length_take, min_eq_left within]

theorem overlay_whole (whole : world.db.cursor = records.length) :
    SameOverlay world.overlay (journalOverlay records) := by
  obtain ⟨count, _, cursor, same⟩ := sound.cursor_le
  have all : count = records.length := by omega
  rwa [all, List.take_length] at same

/-- The history of a sound line is its records. -/
theorem history : landingHistory world = some records := by
  obtain ⟨count, within, cursor, same⟩ := sound.cursor_le
  have reads := sound.reads
  unfold landingHistory
  cases isJournal : world.journal with
  | none =>
      rw [isJournal] at reads
      cases reads
      rw [List.take_nil] at same
      exact if_pos ⟨same.cursor, same.subjects, same.authorities⟩
  | some text =>
      rw [isJournal] at reads
      simp only [show parseLandingJournal text = .ok records from reads]
      exact if_neg (by omega)

/-- Every mentioned identity is a subject's, where nothing is missing. -/
theorem covers (whole : world.db.cursor = records.length) {ref : LandingSubjectRef}
    (member : ref ∈ mentionsOf records) :
    ∃ subject ∈ world.db.store.1.subjects, subject.identity = ref.toLandingIdentity := by
  have agree : IdsAgree (mentionIdentities records) :=
    sound.agree.of_subset (List.subset_append_right _ _)
  have subjects : world.db.store.1.subjects = (journalOverlay records).1.subjects :=
    (sound.overlay_whole whole).subjects
  rw [subjects]
  exact journalOverlay_covers agree member

theorem consistent (whole : world.db.cursor = records.length) :
    Consistent records world.db.store := by
  intro facts recovered ref member
  obtain ⟨subject, isSubject, same⟩ := sound.covers whole member
  obtain ⟨fact, isFact, identity⟩ := recovered_of_row recovered isSubject
  exact ⟨fact, isFact, identity.trans same⟩

/-- A subject of the overlay is one that some record mentions. -/
theorem subject_mentioned {subject : LandingSubjectRow}
    (member : subject ∈ world.db.store.1.subjects) :
    subject.identity ∈ mentionIdentities records := by
  obtain ⟨count, _, same⟩ := sound.applied
  have subjects : world.db.store.1.subjects =
      (journalOverlay (records.take count)).1.subjects := same.subjects
  rw [subjects] at member
  obtain ⟨ref, isRef, identity⟩ := journalOverlay_mentions member
  refine identity ▸ List.mem_map_of_mem ?_
  rw [← List.take_append_drop count records, mentionsOf_append]
  exact List.mem_append_left _ isRef

end LandingSound

/-- A step from a sound line leaves a sound one, and keeps every identity given. -/
def LineKept (world after : LandingWorld) : Prop :=
  ∀ records, LandingSound world records → ∃ later, LandingSound after later ∧
    givenIdentities world records ⊆ givenIdentities after later

theorem LineKept.refl (world : LandingWorld) : LineKept world world :=
  fun records sound => ⟨records, sound, List.Subset.refl _⟩

theorem LineKept.trans {first second third : LandingWorld} (early : LineKept first second)
    (late : LineKept second third) : LineKept first third := by
  intro records sound
  obtain ⟨middle, isMiddle, kept⟩ := early records sound
  obtain ⟨last, isLast, still⟩ := late middle isMiddle
  exact ⟨last, isLast, List.Subset.trans kept still⟩

/-- A fence closes at will, and opens by no such change. -/
theorem LineKept.fenced (world : LandingWorld) {fence : Option LandingFence}
    (closed : fence = none → world.fence = none) : LineKept world { world with fence } :=
  fun records sound => ⟨records, ⟨sound.reads, sound.numbered, sound.applied,
    fun opened => sound.whole (closed opened), sound.agree⟩, List.Subset.refl _⟩

theorem LineKept.closed (world : LandingWorld) (fence : LandingFence) :
    LineKept world { world with fence := some fence } :=
  LineKept.fenced world fun opened => nomatch opened

theorem LandingEnding.fence_open {ending : LandingEnding} {uncertain : Bool}
    {fence : Option LandingFence} (opened : ending.fence uncertain fence = none) :
    fence = none ∧ uncertain = false := by
  unfold LandingEnding.fence at opened
  split at opened
  next => cases opened
  next =>
      split at opened
      next => cases opened
      next certain =>
          rw [Bool.or_eq_true, not_or, Bool.not_eq_true] at certain
          exact ⟨opened, certain.1⟩

theorem LandingEnding.lineFence_open {ending : LandingEnding} {line : Bool}
    {fence : Option LandingFence} (opened : ending.lineFence line fence = none) :
    fence = none := by
  unfold LandingEnding.lineFence at opened
  split at opened
  next => exact (LandingEnding.fence_open opened).1
  next =>
      split at opened
      next => cases opened
      next => exact opened

theorem LineKept.unwritten (world : LandingWorld) (ending : LandingEnding) :
    LineKept world (unwritten world ending) := by
  unfold Coord.unwritten
  split
  next => exact LineKept.refl world
  next => exact LineKept.fenced world fun opened => (LandingEnding.fence_open opened).1

/-! ## The attributed write -/

theorem applyLandingMutation_overlay (tables : LandingTables) (command : LandingAuthorityCommand)
    (mutation : LandingMutation) (seq atTime cursor : Int) :
    SameOverlay (applyLandingMutation tables command mutation seq atTime, seq)
      (applyRecord (tables, cursor) (landingRecordOf command mutation seq atTime)) := by
  cases mutation with
  | entry id project pr pinnedSha handoffCommit setBy => exact ⟨rfl, rfl, rfl⟩
  | order entry coordinator binding after fixes => exact ⟨rfl, rfl, rfl⟩

/-- The entry that a mutation creates is the one its record mentions. -/
theorem applyLandingMutation_identities (tables : LandingTables)
    (command : LandingAuthorityCommand) (mutation : LandingMutation) (seq atTime : Int) :
    (applyLandingMutation tables command mutation seq atTime).identities ⊆
      tables.identities ++
        mentionIdentities [landingRecordOf command mutation seq atTime] ∧
    tables.identities ⊆ (applyLandingMutation tables command mutation seq atTime).identities := by
  cases mutation with
  | entry id project pr pinnedSha handoffCommit setBy =>
      have created : (applyLandingMutation tables command
          (.entry id project pr pinnedSha handoffCommit setBy) seq atTime).identities =
            tables.identities ++ [⟨id, project, pr⟩] := List.map_append
      rw [created]
      exact ⟨List.Subset.refl _, List.subset_append_left _ _⟩
  | order entry coordinator binding after fixes =>
      exact ⟨List.subset_append_left _ _, List.Subset.refl _⟩

theorem decideAuthority_some {store : LandingStore} {command : LandingAuthorityCommand}
    {mutation : LandingMutation} (decided : decideAuthority store command = some mutation) :
    ∃ facts, landingFactsInner store.1 command.project = some facts ∧
      decideLandingMutation command facts = .ok (.mutate mutation) := by
  unfold decideAuthority at decided
  split at decided
  next => cases decided
  next facts read =>
      split at decided
      next => cases decided
      next => cases decided
      next accepted =>
          cases decided
          exact ⟨facts, read, accepted⟩

section Write

variable {world : LandingWorld} {records : List LandingJournalRecord}
  (sound : LandingSound world records) (whole : world.db.cursor = records.length)

include sound whole

/-- An unused id is no identity's. -/
theorem LandingSound.unused {id : Int} (unused : Unused world.db.store.1 id)
    {other : LandingIdentity} (given : other ∈ givenIdentities world records) : other.id ≠ id := by
  cases List.mem_append.mp given with
  | inl ofEntry =>
      obtain ⟨row, isRow, rfl⟩ := List.mem_map.mp ofEntry
      exact unused.1 row isRow
  | inr mentioned =>
      obtain ⟨ref, isRef, rfl⟩ := List.mem_map.mp mentioned
      obtain ⟨subject, isSubject, same⟩ := sound.covers whole isRef
      exact same ▸ unused.2 subject isSubject

/-- The record of an accepted write contradicts no identity that was given. -/
theorem LandingSound.record_agrees {command : LandingAuthorityCommand}
    {mutation : LandingMutation}
    (decided : decideAuthority world.db.store command = some mutation) (seq atTime : Int) :
    IdsAgree (givenIdentities world
      (records ++ [landingRecordOf command mutation seq atTime])) := by
  obtain ⟨facts, read, accepted⟩ := decideAuthority_some decided
  obtain ⟨subjects, recovered, _, rfl⟩ := landingFactsInner_eq_some.mp read
  rw [givenIdentities, mentionIdentities, mentionsOf_append, List.map_append]
  rcases decideLandingMutation_mutate accepted with
    ⟨pinnedSha, handoffCommit, id, _, rfl, allocated, _, _⟩ |
    ⟨sent, source, effective, met, coordinator, after, fixes, rfl, order⟩
  · have fresh : IdsAgree (⟨id, command.project, command.pr⟩ ::
        givenIdentities world records) :=
      sound.agree.fresh fun other given =>
        sound.unused whole (nextId_unused recovered allocated) given
    refine fresh.of_subset fun identity member => ?_
    rw [← List.append_assoc] at member
    cases List.mem_append.mp member with
    | inl old => exact List.mem_cons_of_mem _ old
    | inr new => exact List.mem_cons.mpr (Or.inl (List.mem_singleton.mp new))
  · refine sound.agree.of_subset fun identity member => ?_
    rw [← List.append_assoc] at member
    cases List.mem_append.mp member with
    | inl old => exact old
    | inr new =>
        obtain ⟨ref, isRef, rfl⟩ := List.mem_map.mp new
        rw [mentionsOf, List.flatMap_singleton] at isRef
        refine List.mem_append_left _ ?_
        cases List.mem_cons.mp isRef with
        | inl isSource =>
            obtain ⟨row, isRow, _, identity, _⟩ := order.sourceRow
            subst isSource
            change source.identity ∈ _
            exact identity ▸ List.mem_map_of_mem isRow
        | inr isTarget =>
            obtain ⟨row, isRow, _, identity⟩ := order.targetRow isTarget
            exact identity ▸ List.mem_map_of_mem isRow

variable {write : LandingWrite} {mutation : LandingMutation}
  (decided : decideAuthority world.db.store (landingCommandOf write.request) = some mutation)
  (room : (records.length : Int) < Number.maxSafeInteger)

include decided room

theorem LandingSound.record_follows :
    Follows records (landingRecordOf (landingCommandOf write.request) mutation
      (records.length + 1) write.atTime) := by
  obtain ⟨facts, read, accepted⟩ := decideAuthority_some decided
  exact mutation_follows write.asked (sound.consistent whole) read accepted write.clock room

/-- The record is in the journal, the transaction is lost, and the fence is closed. -/
theorem LandingSound.appended {fence : Option LandingFence} (closed : fence ≠ none) :
    LandingSound
      { world with
        journal := some (appendLine world.journal (landingRecordOf
          (landingCommandOf write.request) mutation (records.length + 1) write.atTime))
        fence }
      (records ++ [landingRecordOf (landingCommandOf write.request) mutation
        (records.length + 1) write.atTime]) := by
  have follows := sound.record_follows whole decided room
  obtain ⟨count, within, same⟩ := sound.applied
  refine ⟨sound.reads.append follows, sound.numbered.append follows.seq, ⟨count, ?_, ?_⟩,
    fun opened => absurd opened closed, sound.record_agrees whole decided _ _⟩
  · rw [List.length_append]
    omega
  · rw [List.take_append_of_le_length within]
    exact same

/-- The record is in the journal and its effect in the store. -/
theorem LandingSound.committed (fence : Option LandingFence) {store : LandingStore}
    (applied : applyAuthority world.db.store (landingCommandOf write.request) mutation
      (records.length + 1) write.atTime = some store) :
    LandingSound
      { db := { world.db with store, cursor := records.length + 1 }
        journal := some (appendLine world.journal (landingRecordOf
          (landingCommandOf write.request) mutation (records.length + 1) write.atTime))
        fence }
      (records ++ [landingRecordOf (landingCommandOf write.request) mutation
        (records.length + 1) write.atTime]) ∧
    world.db.store.1.identities ⊆ store.1.identities := by
  have follows := sound.record_follows whole decided room
  have isStore : store.1 = applyLandingMutation world.db.store.1 (landingCommandOf write.request)
      mutation (records.length + 1) write.atTime := by
    unfold applyAuthority at applied
    dsimp only at applied
    split at applied
    next => exact commit_some applied
    next => cases applied
  obtain ⟨created, kept⟩ := applyLandingMutation_identities world.db.store.1
    (landingCommandOf write.request) mutation (records.length + 1) write.atTime
  rw [← isStore] at created kept
  refine ⟨⟨sound.reads.append follows, sound.numbered.append follows.seq, ?_, ?_, ?_⟩, kept⟩
  · refine ⟨records.length + 1, by simp, ?_⟩
    rw [List.take_of_length_le (by simp), journalOverlay_append]
    have overlay := applyLandingMutation_overlay world.db.store.1 (landingCommandOf write.request)
      mutation (records.length + 1) write.atTime world.db.cursor
    have next := (sound.overlay_whole whole).applyRecord (landingRecordOf
      (landingCommandOf write.request) mutation (records.length + 1) write.atTime)
    rw [← isStore] at overlay
    exact ⟨overlay.subjects.trans next.subjects, overlay.authorities.trans next.authorities,
      overlay.cursor.trans next.cursor⟩
  · intro _
    simp
  · refine (sound.record_agrees whole decided (records.length + 1) write.atTime).of_subset ?_
    intro identity member
    rw [givenIdentities, mentionIdentities, mentionsOf_append, List.map_append]
    cases List.mem_append.mp member with
    | inl ofEntry =>
        cases List.mem_append.mp (created ofEntry) with
        | inl old => exact List.mem_append_left _ old
        | inr new => exact List.mem_append_right _ (List.mem_append_right _ new)
    | inr mentioned =>
        rw [mentionIdentities, mentionsOf_append, List.map_append] at mentioned
        exact List.mem_append_right _ mentioned

end Write

theorem givenIdentities_grow {world after : LandingWorld} {records : List LandingJournalRecord}
    (record : LandingJournalRecord)
    (kept : world.db.store.1.identities ⊆ after.db.store.1.identities) :
    givenIdentities world records ⊆ givenIdentities after (records ++ [record]) := by
  intro identity given
  rw [givenIdentities, mentionIdentities, mentionsOf_append, List.map_append]
  cases List.mem_append.mp given with
  | inl ofEntry => exact List.mem_append_left _ (kept ofEntry)
  | inr mentioned => exact List.mem_append_right _ (List.mem_append_left _ mentioned)

theorem LandingSound.commitAuthority {world : LandingWorld} {records : List LandingJournalRecord}
    (sound : LandingSound world records) (whole : world.db.cursor = records.length)
    {write : LandingWrite} {mutation : LandingMutation}
    (decided : decideAuthority world.db.store (landingCommandOf write.request) = some mutation)
    (room : (records.length : Int) < Number.maxSafeInteger) (ending : LandingEnding) :
    ∃ later, LandingSound (commitAuthority world (landingCommandOf write.request) mutation
        (records.length + 1) write.atTime ending) later ∧
      givenIdentities world records ⊆ givenIdentities (commitAuthority world
        (landingCommandOf write.request) mutation (records.length + 1) write.atTime ending)
        later := by
  have closed : ending.fence true world.fence ≠ none :=
    fun opened => nomatch (LandingEnding.fence_open opened).2
  have lost : ∃ later, LandingSound { world with
        journal := some (appendLine world.journal (landingRecordOf
          (landingCommandOf write.request) mutation (records.length + 1) write.atTime))
        fence := ending.fence true world.fence } later ∧
      givenIdentities world records ⊆ givenIdentities { world with
        journal := some (appendLine world.journal (landingRecordOf
          (landingCommandOf write.request) mutation (records.length + 1) write.atTime))
        fence := ending.fence true world.fence } later :=
    ⟨_, sound.appended whole decided room closed,
      givenIdentities_grow _ (List.Subset.refl _)⟩
  unfold Coord.commitAuthority
  dsimp only
  split
  next written _ =>
      cases written with
      | true => exact lost
      | false =>
          exact LineKept.fenced world (fun opened => absurd opened closed) records sound
  next =>
      split
      next => exact lost
      next store applied =>
          split
          next =>
              obtain ⟨still, kept⟩ :=
                sound.committed whole decided room world.fence applied
              exact ⟨_, still, givenIdentities_grow _ kept⟩
          next =>
              obtain ⟨still, kept⟩ := sound.committed whole decided room
                (ending.fence true world.fence) applied
              exact ⟨_, still, givenIdentities_grow _ kept⟩
          next => exact lost

theorem LineKept.stepWrite (world : LandingWorld) (write : LandingWrite) (ending : LandingEnding) :
    LineKept world (stepWrite world write ending) := by
  intro records sound
  unfold Coord.stepWrite
  split
  next => exact LineKept.refl world records sound
  next =>
      split
      next => exact LineKept.unwritten world ending records sound
      next =>
          rw [sound.history]
          dsimp only
          split
          next => exact LineKept.closed world .replay records sound
          next same =>
              have whole : world.db.cursor = records.length := (not_not.mp same).symm
              split
              next => exact LineKept.unwritten world ending records sound
              next mutation decided =>
                  split
                  next => exact LineKept.unwritten world ending records sound
                  next room =>
                      exact sound.commitAuthority whole decided (not_le.mp room) ending

/-! ## The advance, the replay and the restart -/

theorem LandingSound.advanced {world : LandingWorld} {records : List LandingJournalRecord}
    (sound : LandingSound world records) {db : LineDb}
    (line : AdvancedLine world.db db world.fence.isSome) {fence : Option LandingFence}
    (closed : fence = none → world.fence = none) :
    LandingSound { world with db, fence } records ∧
      givenIdentities world records ⊆ givenIdentities { world with db, fence } records := by
  obtain ⟨created, stated, allowed⟩ := line.stated
  have given : givenIdentities { world with db, fence } records ⊆
      created.toList ++ givenIdentities world records := by
    intro identity member
    simp only [givenIdentities, stated.identities, List.mem_append] at member ⊢
    tauto
  refine ⟨⟨sound.reads, sound.numbered, ?_, ?_, ?_⟩, ?_⟩
  · obtain ⟨count, within, same⟩ := sound.applied
    exact ⟨count, within, stated.subjects.trans same.subjects,
      stated.authorities.trans same.authorities, line.cursor.trans same.cursor⟩
  · intro opened
    exact line.cursor.trans (sound.whole (closed opened))
  · cases created with
    | none => exact sound.agree.of_subset given
    | some identity =>
        rcases allowed identity rfl with ⟨subject, isSubject, same⟩ | ⟨unfenced, unused⟩
        · have known : identity ∈ givenIdentities world records :=
            List.mem_append_right _ (same ▸ sound.subject_mentioned isSubject)
          refine sound.agree.of_subset fun other member => ?_
          cases List.mem_cons.mp (given member) with
          | inl here => exact here ▸ known
          | inr old => exact old
        · have whole := sound.whole (by simpa using unfenced)
          exact (sound.agree.fresh fun other known =>
            sound.unused whole unused known).of_subset given
  · intro identity member
    simp only [givenIdentities, stated.identities, List.mem_append] at member ⊢
    tauto

theorem LineKept.stepAdvance (world : LandingWorld) (runId : Int) (target : RunState)
    (causedBy : Text) (landing : LandingAdvance) (now : Int) (ending : LandingEnding) :
    LineKept world (stepAdvance world runId target causedBy landing now ending) := by
  intro records sound
  unfold Coord.stepAdvance
  split
  next => exact LineKept.unwritten world ending records sound
  next =>
      exact LineKept.fenced world LandingEnding.lineFence_open records sound
  next line db written =>
      have advanced := advanceLanding_line written
      split
      next => exact ⟨records, sound.advanced advanced fun opened => opened⟩
      next => exact LineKept.unwritten world ending records sound
      next =>
          exact ⟨records, sound.advanced advanced LandingEnding.lineFence_open⟩
      next =>
          exact LineKept.fenced world LandingEnding.lineFence_open records sound

theorem LineKept.replayFailed (world : LandingWorld) (ending : LandingEnding) :
    LineKept world (replayFailed world ending) := by
  refine LineKept.fenced world fun opened => ?_
  split at opened
  next => cases opened
  next =>
      split at opened
      next => cases opened
      next => cases opened

/-- The replayed records are the whole journal. -/
theorem LandingSound.replayed {world : LandingWorld} {records : List LandingJournalRecord}
    (sound : LandingSound world records) {overlay : LandingTables × Int}
    (folded : (records.filter fun record => world.db.cursor < record.seq).foldl applyRecord
      world.overlay = overlay) {store : LandingStore} (committed : overlay.1.commit = some store)
    (fence : Option LandingFence) :
    LandingSound { world with db := { world.db with store, cursor := overlay.2 }, fence } records ∧
      givenIdentities world records ⊆ givenIdentities
        { world with db := { world.db with store, cursor := overlay.2 }, fence } records := by
  obtain ⟨count, within, isCursor, same⟩ := sound.cursor_le
  rw [isCursor, sound.numbered.suffix count] at folded
  have isStore := commit_some committed
  have whole : SameOverlay (store.1, overlay.2) (journalOverlay records) := by
    rw [isStore, ← folded]
    have fold := same.fold (records.drop count)
    rwa [← journalOverlay_append, List.take_append_drop] at fold
  have entries : store.1.entries = world.db.store.1.entries := by
    rw [isStore, ← folded]
    exact foldl_applyRecord_entries world.overlay _
  have given : givenIdentities
      { world with db := { world.db with store, cursor := overlay.2 }, fence } records =
        givenIdentities world records := by
    simp only [givenIdentities, LandingTables.identities, entries]
  refine ⟨⟨sound.reads, sound.numbered, ⟨records.length, le_refl _, ?_⟩, fun _ => ?_, ?_⟩, ?_⟩
  · rwa [List.take_length]
  · exact whole.cursor.trans (journalOverlay_cursor sound.numbered)
  · rw [given]
    exact sound.agree
  · rw [given]
    exact List.Subset.refl _

theorem LineKept.replayLandingJournal (world : LandingWorld) (ending : LandingEnding) :
    LineKept world (replayLandingJournal world ending).1 := by
  intro records sound
  unfold Coord.replayLandingJournal
  split
  next => exact LineKept.refl world records sound
  next =>
      rw [sound.history]
      dsimp only
      split
      next _ committed => exact ⟨records, sound.replayed rfl committed none⟩
      next _ committed =>
          obtain ⟨still, kept⟩ := sound.replayed rfl committed world.fence
          obtain ⟨later, last, grown⟩ := LineKept.replayFailed _ ending records still
          exact ⟨later, last, List.Subset.trans kept grown⟩
      next => exact LineKept.replayFailed world ending records sound

theorem LineKept.step (world : LandingWorld) (call : LandingCall) :
    LineKept world (landingStep world call) := by
  cases call with
  | writeLandingAuthority write ending => exact LineKept.stepWrite world write ending
  | advanceLanding runId target causedBy landing now ending =>
      exact LineKept.stepAdvance world runId target causedBy landing now ending
  | replayLandingJournal ending => exact LineKept.replayLandingJournal world ending
  | restart => exact LineKept.closed world .replay

theorem LineKept.run (world : LandingWorld) (calls : List LandingCall) :
    LineKept world (runFrom landingStep world calls) := by
  have preserved : ∀ (state : LandingWorld) (input : LandingCall), True → True :=
    fun _ _ _ => trivial
  have advances : ∀ (state : LandingWorld) (input : LandingCall), True →
      LineKept state (landingStep state input) := fun state input _ => LineKept.step state input
  exact runFrom_relates LineKept.refl LineKept.trans preserved advances trivial calls

/-! ## The laws of the line -/

/-- A line without a journal: its entries are what the board had before. -/
structure FreshLine (world : LandingWorld) : Prop where
  journal : world.journal = none
  subjects : world.db.store.1.subjects = []
  authorities : world.db.store.1.authorities = []
  cursor : world.db.cursor = 0

theorem FreshLine.sound {world : LandingWorld} (fresh : FreshLine world) :
    LandingSound world [] := by
  refine ⟨by rw [fresh.journal]; rfl, ?_, ⟨0, le_refl _, fresh.subjects, fresh.authorities,
    fresh.cursor⟩, fun _ => fresh.cursor, ?_⟩
  · intro index record isRecord
    cases isRecord
  · intro first isFirst second isSecond sameId
    rw [givenIdentities, mentionIdentities, mentionsOf, List.flatMap_nil, List.map_nil,
      List.append_nil] at isFirst isSecond
    obtain ⟨row, isRow, rfl⟩ := List.mem_map.mp isFirst
    obtain ⟨other, isOther, rfl⟩ := List.mem_map.mp isSecond
    exact congrArg _ (List.inj_on_of_nodup_map world.db.store.2.entryIds isRow isOther sameId)

def lastSeq (records : List LandingJournalRecord) : Int := (records.getLast?.map (·.seq)).getD 0

theorem Numbered.lastSeq {records : List LandingJournalRecord} (numbered : Numbered records) :
    lastSeq records = records.length := by
  induction records using List.reverseRecOn with
  | nil => rfl
  | append_singleton records record _ =>
      have last := numbered records.length record (by simp)
      simp [Coord.lastSeq, last]

/-- The identities on the projections and the subjects. -/
def shownIdentities (world : LandingWorld) : List LandingIdentity :=
  world.db.store.1.identities ++ world.db.store.1.subjects.map (·.identity)

theorem LandingSound.shown {world : LandingWorld} {records : List LandingJournalRecord}
    (sound : LandingSound world records) :
    shownIdentities world ⊆ givenIdentities world records := by
  intro identity shown
  cases List.mem_append.mp shown with
  | inl ofEntry => exact List.mem_append_left _ ofEntry
  | inr ofSubject =>
      obtain ⟨subject, isSubject, rfl⟩ := List.mem_map.mp ofSubject
      exact List.mem_append_right _ (sound.subject_mentioned isSubject)

theorem replayLandingJournal_ok {world : LandingWorld} {ending : LandingEnding}
    (replayed : (replayLandingJournal world ending).2 = true) :
    (replayLandingJournal world ending).1.fence = none ∧
      (replayLandingJournal world ending).1.journal = world.journal := by
  unfold replayLandingJournal at replayed ⊢
  split at replayed
  next => cases replayed
  next unfenced =>
      rw [if_neg unfenced]
      split at replayed
      next => cases replayed
      next =>
          dsimp only at replayed ⊢
          split at replayed
          next => exact ⟨rfl, rfl⟩
          next => cases replayed
          next => cases replayed

/-- A fresh line under any writes, advances, replays and restarts, each with its fault
or its crash. A replay that succeeds leaves the fold of the whole journal; the cursor
is never past the journal, whose records have a number each; and of all that a run ever
shows, one id is one subject's. -/
theorem landingLine_survives {start : LandingWorld} (fresh : FreshLine start)
    (calls : List LandingCall) :
    ∃ records, JournalReads (runFrom landingStep start calls).journal records ∧
      (∀ ending, (replayLandingJournal (runFrom landingStep start calls) ending).2 = true →
        SameOverlay (replayLandingJournal (runFrom landingStep start calls) ending).1.overlay
          (journalOverlay records)) ∧
      (runFrom landingStep start calls).db.cursor ≤ lastSeq records ∧
      (records.map (·.seq)).Nodup ∧
      ∀ before after, calls = before ++ after →
        ∀ first ∈ shownIdentities (runFrom landingStep start before),
          ∀ second ∈ shownIdentities (runFrom landingStep start calls),
            first.id = second.id → first = second := by
  obtain ⟨records, sound, _⟩ := LineKept.run start calls [] fresh.sound
  refine ⟨records, sound.reads, fun ending replayed => ?_, ?_, sound.numbered.seq_nodup, ?_⟩
  · obtain ⟨opened, sameJournal⟩ := replayLandingJournal_ok replayed
    obtain ⟨later, after, _⟩ :=
      LineKept.replayLandingJournal (runFrom landingStep start calls) ending records sound
    have same : later = records := after.reads.unique (sameJournal ▸ sound.reads)
    exact same ▸ after.overlay_whole (after.whole opened)
  · obtain ⟨count, within, cursor, _⟩ := sound.cursor_le
    rw [sound.numbered.lastSeq]
    omega
  · rintro before after rfl first isFirst second isSecond
    obtain ⟨early, earlySound, _⟩ := LineKept.run start before [] fresh.sound
    obtain ⟨late, lateSound, kept⟩ :=
      LineKept.run (runFrom landingStep start before) after early earlySound
    rw [← runFrom_append] at lateSound kept
    exact lateSound.agree first (kept (earlySound.shown isFirst)) second
      (lateSound.shown isSecond)

namespace RecoveryExample

open LineExample

def line : LandingWorld := ⟨⟨empty, 0, [], []⟩, none, some .replay⟩

theorem line_fresh : FreshLine line := ⟨rfl, rfl, rfl, rfl⟩

def clean : LandingEnding := ⟨none, false, .replay⟩

/-- The process dies between the append and the commit. -/
def torn : LandingEnding := ⟨some (.append true), true, .replay⟩

def write : LandingWrite where
  kind := .entry
  body := body
  request := request
  asked := by decide +kernel
  atTime := 20
  clock := by decide

def calls : List LandingCall :=
  [.replayLandingJournal clean, .writeLandingAuthority write torn]

end RecoveryExample

open RecoveryExample in
/-- The creation that the crash left without its projection is replayed. -/
theorem landingLine_survives_torn :
    (runFrom landingStep line calls).db.cursor = 0 ∧ ∃ records, SameOverlay
      (replayLandingJournal (runFrom landingStep line calls) clean).1.overlay
      (journalOverlay records) ∧ (journalOverlay records).2 = 1 := by
  have replayed : (replayLandingJournal (runFrom landingStep line calls) clean).2 = true := by
    decide +kernel
  have cursor : (replayLandingJournal (runFrom landingStep line calls) clean).1.overlay.2 = 1 := by
    decide +kernel
  obtain ⟨records, _, replays, _⟩ := landingLine_survives line_fresh calls
  have same := replays clean replayed
  exact ⟨by decide +kernel, records, same, same.cursor.symm.trans cursor⟩

end Ccrc.Coord
