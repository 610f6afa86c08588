import Ccrc.Coord.LandingAdvance
import Ccrc.Coord.LandingStoreProperties

/-! What an advance does to the line: nothing to the overlay, and at most one entry
created, under the id of its own recovered subject or under one that nothing has. -/

set_option autoImplicit false

namespace Ccrc.Coord

open Library Shared

/-! ## The statement -/

def LandingTables.identities (tables : LandingTables) : List LandingIdentity :=
  tables.entries.map (·.identity)

theorem modifyEntry_identities (store : LandingStore) (id : Int)
    (set : LandingEntryRow → LandingEntryRow) (kept : ∀ row, (set row).identity = row.identity) :
    (store.modifyEntry id set).identities = store.1.identities :=
  updateRows_keys kept

/-- The rows that one statement of the line leaves. -/
structure StatedLine (before after : LandingTables) (created : Option LandingIdentity) :
    Prop where
  subjects : after.subjects = before.subjects
  authorities : after.authorities = before.authorities
  identities : after.identities = before.identities ++ created.toList

theorem StatedLine.kept {store : LandingStore} {id : Int}
    {set : LandingEntryRow → LandingEntryRow} (kept : ∀ row, (set row).identity = row.identity) :
    StatedLine store.1 (store.modifyEntry id set) none :=
  ⟨rfl, rfl, by simpa using modifyEntry_identities store id set kept⟩

theorem applyLandingDecision_stated {store : LandingStore} {decision : LandingWriteDecision}
    {pin : Option LandingPin} {reserved : Option Int} {project : Text} {runId now : Int}
    {setBy : Text} {tables : LandingTables}
    (applied : applyLandingDecision store decision pin reserved project runId setBy now =
      some tables) :
    StatedLine store.1 tables none ∨ decision = .insert ∧ ∃ pinned id, pin = some pinned ∧
      reserved = some id ∧ StatedLine store.1 tables (some ⟨id, project, pinned.pr⟩) := by
  cases decision with
  | none write => cases applied
  | refuse => cases applied
  | insert =>
      cases pin with
      | none => cases applied
      | some pinned =>
          cases reserved with
          | none => cases applied
          | some id =>
              cases applied
              refine Or.inr ⟨rfl, pinned, id, rfl, rfl, rfl, rfl, ?_⟩
              simp [LandingTables.identities, pinWitness, insertEntry, landingEntryRowOf,
                LandingEntryRow.identity]
  | repin id =>
      cases pin with
      | none => cases applied
      | some pinned =>
          cases applied
          have stated : StatedLine store.1 (store.modifyEntry id (repinned pinned runId now)) none :=
            StatedLine.kept fun _ => rfl
          exact Or.inl ⟨stated.subjects, stated.authorities, stated.identities⟩
  | eject id base kind ejections =>
      cases applied
      exact Or.inl (StatedLine.kept fun _ => rfl)
  | quarantine id =>
      cases applied
      exact Or.inl (StatedLine.kept fun _ => rfl)

/-! ## The gate -/

theorem recovery_subject {project : Text} {subjects : List LandingRecoverySubjectFact}
    {projections : List LandingEntryFacts} {witnesses : List LandingProjectionWitness}
    {own : LandingRecoverySubject}
    (listed : own ∈ (landingRecoveryOf project subjects projections witnesses).subjects) :
    ∃ subject ∈ subjects, subject.toLandingIdentity = own.toLandingIdentity := by
  rw [landingRecoveryOf, List.mem_insertionSort] at listed
  obtain ⟨subject, isSubject, made⟩ := List.mem_filterMap.mp listed
  obtain ⟨projection, _, made⟩ := Option.bind_eq_some_iff.mp made
  dsimp only at made
  split at made
  next =>
      cases made
      exact ⟨subject, isSubject, rfl⟩
  next => cases made

/-- A subject that the gate lets a pin resolve is listed, and is the pin's own. -/
theorem landingHoldGate_own {recovery : LandingRecovery} {isPin : Bool} {project : Text} {pr : Int}
    {projection : Option LandingProjectionRead} {own : LandingRecoverySubject}
    (opened : landingHoldGate recovery isPin project pr projection = .ok (some own)) :
    own ∈ recovery.subjects ∧ own.project = project ∧ own.pr = pr := by
  unfold landingHoldGate at opened
  split at opened
  next => cases opened
  next =>
      split at opened
      next => cases opened
      next =>
          dsimp only at opened
          split at opened
          next subject found =>
              split at opened
              next =>
                  cases opened
                  split at found
                  next =>
                      have same := List.find?_some found
                      rw [Bool.and_eq_true, beq_iff_eq, beq_iff_eq] at same
                      exact ⟨List.mem_of_find?_eq_some found, same⟩
                  next => cases found
              next => cases opened
          next =>
              split at opened
              next => cases opened
              next => cases opened

/-! ## The advance -/

/-- An id that neither an entry nor a subject has. -/
def Unused (tables : LandingTables) (id : Int) : Prop :=
  (∀ row ∈ tables.entries, row.id ≠ id) ∧ ∀ subject ∈ tables.subjects, subject.id ≠ id

theorem nextId_unused {tables : LandingTables} {project : Text}
    {subjects : List LandingRecoverySubjectFact} {id : Int}
    (recovered : tables.subjects.mapM (landingSubjectOf tables.authorities) = some subjects)
    (allocated : (landingFactsUnder project (tables.rows project) subjects).nextId = some id) :
    Unused tables id := by
  obtain ⟨_, _, past⟩ := landingNextId_some allocated
  refine ⟨fun row isRow same => ?_, fun subject isSubject same => ?_⟩
  · have small := past row.id (List.mem_append_right _
      (List.mem_map_of_mem ((List.mem_insertionSort _).mpr isRow)))
    omega
  · obtain ⟨fact, isFact, identity⟩ := recovered_of_row recovered isSubject
    have factId : fact.id = subject.id := congrArg LandingIdentity.id identity
    have small := past fact.id (List.mem_append_left _ (List.mem_map_of_mem isFact))
    omega

/-- What an advance leaves of the line. What it creates is a recovered subject, or
has an unused id and was created before an open fence. -/
structure AdvancedLine (db after : LineDb) (fenced : Bool) : Prop where
  cursor : after.cursor = db.cursor
  stated : ∃ created, StatedLine db.store.1 after.store.1 created ∧
    ∀ identity ∈ created, (∃ subject ∈ db.store.1.subjects, subject.identity = identity) ∨
      fenced = false ∧ Unused db.store.1 identity.id

theorem LineDb.advanceInner_line (db : LineDb) (runId : Int) (target : RunState) (causedBy : Text)
    (detail : Option MergingAt) (now : Int) :
    (db.advanceInner runId target causedBy detail now).store = db.store ∧
      (db.advanceInner runId target causedBy detail now).cursor = db.cursor := by
  unfold LineDb.advanceInner
  split
  next => exact ⟨rfl, rfl⟩
  next =>
      split
      next => exact ⟨rfl, rfl⟩
      next => exact ⟨rfl, rfl⟩

theorem AdvancedLine.untouched {db after : LineDb} {fenced : Bool}
    (same : after.store = db.store) (cursor : after.cursor = db.cursor) :
    AdvancedLine db after fenced := by
  refine ⟨cursor, none, ⟨?_, ?_, ?_⟩, fun identity created => nomatch created⟩
  · rw [same]
  · rw [same]
  · simp [same]

theorem commit_some {tables : LandingTables} {store : LandingStore}
    (committed : tables.commit = some store) : store.1 = tables := by
  unfold LandingTables.commit at committed
  split at committed
  next =>
      cases committed
      rfl
  next => cases committed

/-- The decision of a write that changes the line is applied, committed, and read. -/
theorem writeAdvance_written {db after : LineDb} {runId : Int} {target : RunState}
    {causedBy : Text} {landing : LandingAdvance} {now : Int} {line named : Bool} {project : Text}
    {pr : Option Int} {decision : LandingWriteDecision} {reserved : Option Int}
    (written : writeAdvance db runId target causedBy landing now line project pr decision reserved =
      .written named after) :
    after.cursor = db.cursor ∧ (after.store = db.store ∨ ∃ pin tables,
      applyLandingDecision db.store decision pin reserved project runId causedBy now =
        some tables ∧ after.store.1 = tables ∧ ∀ pinned, pin = some pinned →
          ∃ mode, landing = .pin pinned.head (some pinned.pr) mode pinned.handoffCommit) := by
  unfold writeAdvance at written
  dsimp only at written
  split at written
  next => cases written
  next detail _ =>
      obtain ⟨sameStore, sameCursor⟩ := db.advanceInner_line runId target causedBy detail now
      split at written
      next =>
          cases written
          exact ⟨sameCursor, Or.inl sameStore⟩
      next =>
          cases written
          exact ⟨sameCursor, Or.inl sameStore⟩
      all_goals
        split at written
        next => cases written
        next tables applied =>
            split at written
            next => cases written
            next store committed =>
                split at written
                next =>
                    cases written
                    refine ⟨sameCursor, Or.inr ⟨_, tables, applied, commit_some committed, ?_⟩⟩
                    intro pinned isPin
                    split at isPin
                    next =>
                        cases isPin
                        exact ⟨_, rfl⟩
                    all_goals cases isPin
                next => cases written

theorem writeAdvance_line {db after : LineDb} {runId : Int} {target : RunState} {causedBy : Text}
    {landing : LandingAdvance} {now : Int} {line named fenced : Bool} {project : Text}
    {pr : Option Int} {decision : LandingWriteDecision} {reserved : Option Int}
    (written : writeAdvance db runId target causedBy landing now line project pr decision reserved =
      .written named after)
    (allocated : decision = .insert → ∀ id head pinnedPr mode handoffCommit, reserved = some id →
      landing = .pin head (some pinnedPr) mode handoffCommit →
      (∃ subject ∈ db.store.1.subjects, subject.identity = ⟨id, project, pinnedPr⟩) ∨
        fenced = false ∧ Unused db.store.1 id) :
    AdvancedLine db after fenced := by
  obtain ⟨cursor, same | ⟨pin, tables, applied, isStore, ofPin⟩⟩ := writeAdvance_written written
  · exact AdvancedLine.untouched same cursor
  · rcases applyLandingDecision_stated applied with stated | ⟨isInsert, pinned, id, isPin, isId, stated⟩
    · exact ⟨cursor, none, isStore ▸ stated, fun identity created => nomatch created⟩
    · obtain ⟨mode, isLanding⟩ := ofPin pinned isPin
      refine ⟨cursor, _, isStore ▸ stated, fun identity created => ?_⟩
      cases created
      exact allocated isInsert id _ _ mode _ isId isLanding

/-- Where the line is not named the decision writes nothing to it. -/
theorem decideLandingWrite_unnamed {landing : LandingAdvance} {source : RunState} {runId : Int}
    {episode : Option MergingAt}
    (unnamed : landing.askedPr episode = none ∨ landing.isPin = false ∧ source ≠ .merging) :
    decideLandingWrite landing source runId none none episode ≠ .insert := by
  intro inserts
  unfold decideLandingWrite at inserts
  cases landing with
  | plain => cases inserts
  | pin head pr mode handoffCommit =>
      cases pr with
      | none => cases inserts
      | some number =>
          cases unnamed with
          | inl noPr => cases noPr
          | inr notPin => cases notPin.1
  | retreat ejection =>
      dsimp only at inserts
      split at inserts
      next => cases inserts
      next =>
          split at inserts
          next => cases inserts
          next =>
              split at inserts
              next => cases inserts
              next => cases inserts

theorem advanceLine_line {db after : LineDb} {fenced named : Bool} {row : LineRunRow}
    {target : RunState} {causedBy : Text} {landing : LandingAdvance} {episode : Option MergingAt}
    {pr now : Int} (asked : landing.askedPr episode = some pr)
    (written : advanceLine db fenced row target causedBy landing episode pr now =
      .written named after) :
    AdvancedLine db after fenced := by
  unfold advanceLine at written
  split at written
  next => cases written
  next opened =>
      split at written
      next => cases written
      next facts read =>
          obtain ⟨subjects, recovered, _, rfl⟩ := landingFactsInner_eq_some.mp read
          dsimp only at written
          split at written
          next => cases written
          next own gate =>
              split at written
              next => cases written
              next =>
                  refine writeAdvance_line written ?_
                  intro _ id head pinnedPr mode handoffCommit reserved isPin
                  subst isPin
                  cases asked
                  cases own with
                  | some own =>
                      cases reserved
                      obtain ⟨listed, ofProject, ofPr⟩ := landingHoldGate_own gate
                      obtain ⟨fact, isFact, same⟩ := recovery_subject listed
                      obtain ⟨subject, isSubject, readAs⟩ :=
                        forall₂_mem_right (mapM_eq_some_iff.mp recovered) isFact
                      refine Or.inl ⟨subject, isSubject, ?_⟩
                      rw [← (landingSubjectOf_some readAs).1, same, ← ofProject, ← ofPr]
                  | none =>
                      exact Or.inr ⟨by simpa using opened, nextId_unused recovered reserved⟩

theorem advanceLanding_line {db after : LineDb} {fenced named : Bool} {runId : Int}
    {target : RunState} {causedBy : Text} {landing : LandingAdvance} {now : Int}
    (written : advanceLanding db fenced runId target causedBy landing now = .written named after) :
    AdvancedLine db after fenced := by
  unfold advanceLanding at written
  split at written
  next => cases written
  next row _ =>
      split at written
      next => cases written
      next =>
          dsimp only at written
          split at written
          next pr asked =>
              split at written
              next => exact advanceLine_line asked written
              next unnamed =>
                  rw [Bool.or_eq_true, not_or, Bool.not_eq_true, beq_iff_eq] at unnamed
                  exact writeAdvance_line written fun inserts =>
                    absurd inserts (decideLandingWrite_unnamed (Or.inr unnamed))
          next asked =>
              exact writeAdvance_line written fun inserts =>
                absurd inserts (decideLandingWrite_unnamed (Or.inl asked))

end Ccrc.Coord
