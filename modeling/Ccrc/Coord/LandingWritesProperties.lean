import Ccrc.Coord.LandingWrites
import Ccrc.Coord.LandingEntryProperties

/-! What an accepted landing write was accepted on. -/

set_option autoImplicit false

namespace Ccrc.Coord

open Library Shared

namespace LandingMutationFacts

variable {facts : LandingMutationFacts}

theorem known_some {id : Int} {entry : LandingEntry} (known : facts.known id = some entry) :
    entry ∈ facts.entries ∧ entry.id = id := by
  unfold LandingMutationFacts.known at known
  have sameId := List.find?_some known
  exact ⟨List.mem_reverse.mp (List.mem_of_find?_eq_some known), beq_iff_eq.mp sameId⟩

/-- A node that may be walked is an entry of the project. -/
theorem classify_known {sourceId id : Int} (clear : facts.classify sourceId id = none)
    (other : id ≠ sourceId) : ∃ entry, facts.known id = some entry := by
  unfold classify at clear
  rw [if_neg other] at clear
  split at clear
  next known => exact Option.isSome_iff_exists.mp known
  next =>
      split at clear
      next => cases clear
      next => cases clear

theorem walkExpand_ok {sourceId id : Int} {next : List Int}
    (expanded : facts.walkExpand sourceId id = .ok next) :
    facts.classify sourceId id = none ∧ facts.depsOf id = .readable next := by
  unfold walkExpand at expanded
  split at expanded
  next => cases expanded
  next clear =>
      split at expanded
      next => cases expanded
      next afterIds deps =>
          cases expanded
          exact ⟨clear, deps⟩

theorem walkReject_none {sourceId id : Int} (kept : walkReject sourceId id = none) :
    id ≠ sourceId := by
  intro same
  rw [walkReject, if_pos same] at kept
  cases kept

/-- The walk's fuel never runs out: no larger amount answers anything else. -/
theorem walk_fuel (facts : LandingMutationFacts) (sourceId : Int) (effective : List Int)
    {more : Nat} (atLeast : facts.walkFuel effective ≤ more) :
    explore (walkReject sourceId) (facts.walkExpand sourceId) .landingCycle more []
      effective.reverse = facts.walk sourceId effective := by
  refine explore_fuel (fun id next kept expanded => ?_) (Nat.le_refl _) atLeast
  obtain ⟨clear, deps⟩ := walkExpand_ok expanded
  obtain ⟨entry, known⟩ := classify_known clear (walkReject_none kept)
  obtain ⟨member, sameId⟩ := known_some known
  exact ⟨sameId ▸ List.mem_map_of_mem member, by rw [walkWeight, deps]⟩

/-- What an accepted walk has met: the proposed edges, and with a node all that
follows from it, but never the source. -/
theorem walk_ok {sourceId : Int} {effective met : List Int}
    (walked : facts.walk sourceId effective = .ok met) :
    (∀ id ∈ effective, id ∈ met) ∧ ∀ id ∈ met, id ≠ sourceId ∧
      ∃ next, facts.depsOf id = .readable next ∧ ∀ after ∈ next, after ∈ met := by
  obtain ⟨_, covered, closed⟩ := explore_closed walked
  refine ⟨fun id member => covered id (List.mem_reverse.mpr member), fun id member => ?_⟩
  obtain ⟨kept, next, expanded, follows⟩ := (closed id member).resolve_left List.not_mem_nil
  exact ⟨walkReject_none kept, next, (walkExpand_ok expanded).2, follows⟩

/-- The targets of an order, each an entry of the project. -/
theorem targetRef_ok {id : Int} {ref : LandingSubjectRef} (named : facts.targetRef id = .ok ref) :
    ∃ entry coordinator, facts.known id = some entry ∧
      facts.coordinatorOf entry = some coordinator ∧
      ref = { toLandingIdentity := entry.identity, binding := landingBindingOf coordinator } := by
  unfold targetRef at named
  split at named
  next entry coordinator found =>
      cases named
      obtain ⟨known, isKnown, associated⟩ := Option.bind_eq_some_iff.mp found
      obtain ⟨association, isRead, same⟩ := Option.map_eq_some_iff.mp associated
      cases same
      exact ⟨entry, coordinator, isKnown, isRead, rfl⟩
  next => cases named

end LandingMutationFacts

open LandingMutationFacts

/-- What an accepted order was decided on. -/
structure OrderAccepted (facts : LandingMutationFacts) (project : Text) (pr : Int)
    (afterIds : Option (List Int)) (source : LandingEntry) (effective met : List Int)
    (coordinator : LandingCoordinator) (after : List LandingSubjectRef) : Prop where
  resolved : facts.recovery.subjects = []
  found : facts.entryOfKey project pr = some source
  readable : ∃ staleHead, facts.projections.get? source.id = some (.readable staleHead)
  edges : facts.effectiveAfter source afterIds = .ok effective
  clear : ∀ id ∈ effective, facts.classify source.id id = none
  walked : facts.walk source.id effective = .ok met
  association : facts.coordinatorOf source = some coordinator
  targets : effective.mapM facts.targetRef = .ok after

theorem orderSource_ok {facts : LandingMutationFacts} {project : Text} {pr : Int}
    {source : LandingEntry} (found : facts.orderSource project pr = .ok source) :
    facts.recovery.subjects = [] ∧ facts.entryOfKey project pr = some source ∧
      ∃ staleHead, facts.projections.get? source.id = some (.readable staleHead) := by
  unfold orderSource at found
  split at found
  next => cases found
  next entry isEntry =>
      split at found
      next staleHead readable =>
          split at found
          next => cases found
          next resolved =>
              cases found
              exact ⟨not_not.mp resolved, isEntry, staleHead, readable⟩
      next => cases found
      next => cases found

theorem decideOrder_mutate {facts : LandingMutationFacts} {project : Text} {pr : Int}
    {afterIds : Option (List Int)} {fixesMain : Option Bool} {mutation : LandingMutation}
    (decided : facts.decideOrder project pr afterIds fixesMain = .ok (.mutate mutation)) :
    ∃ source effective met coordinator after fixes,
      mutation = .order source coordinator (landingBindingOf coordinator) after fixes ∧
      OrderAccepted facts project pr afterIds source effective met coordinator after := by
  unfold decideOrder at decided
  cases found : facts.orderSource project pr with
  | error error => simp [found, bind, Except.bind] at decided
  | ok source =>
      obtain ⟨resolved, isEntry, readable⟩ := orderSource_ok found
      cases edges : facts.effectiveAfter source afterIds with
      | error error => simp [found, edges, bind, Except.bind] at decided
      | ok effective =>
          simp only [found, edges, bind, Except.bind] at decided
          split at decided
          next => cases decided
          next clear =>
              cases walked : facts.walk source.id effective with
              | error error => simp [walked] at decided
              | ok met =>
                  simp only [walked] at decided
                  split at decided
                  next => cases decided
                  next coordinator association =>
                      cases targets : effective.mapM facts.targetRef with
                      | error error => simp [targets] at decided
                      | ok after =>
                          simp only [targets] at decided
                          split at decided
                          next => cases decided
                          next =>
                              cases decided
                              exact ⟨source, effective, met, coordinator, after, _, rfl, resolved,
                                isEntry, readable, edges, List.findSome?_eq_none_iff.mp clear,
                                walked, association, targets⟩

theorem decideEntry_mutate {facts : LandingMutationFacts} {project : Text} {pr : Int}
    {pinnedSha handoffCommit setBy : Text} {mutation : LandingMutation}
    (decided : facts.decideEntry project pr pinnedSha handoffCommit setBy =
      .ok (.mutate mutation)) :
    ∃ id, mutation = .entry id project pr pinnedSha handoffCommit setBy ∧
      facts.nextId = some id ∧ facts.recovery.subjects = [] ∧
      facts.entryOfKey project pr = none := by
  unfold decideEntry at decided
  split at decided
  next => cases decided
  next fresh =>
      split at decided
      next => cases decided
      next resolved =>
          split at decided
          next => cases decided
          next id allocated =>
              cases decided
              simp only [Bool.or_eq_true, not_or, Bool.not_eq_true, Option.isSome_eq_false_iff,
                Option.isNone_iff_eq_none] at fresh
              exact ⟨id, rfl, allocated, not_not.mp resolved, fresh.1⟩

/-- An accepted mutation is a creation, or an order, of the command it was asked by. -/
theorem decideLandingMutation_mutate {facts : LandingMutationFacts}
    {command : LandingAuthorityCommand} {mutation : LandingMutation}
    (decided : decideLandingMutation command facts = .ok (.mutate mutation)) :
    (∃ pinnedSha handoffCommit id,
      command = .entry command.project command.pr pinnedSha handoffCommit command.setBy ∧
      mutation = .entry id command.project command.pr pinnedSha handoffCommit command.setBy ∧
      facts.nextId = some id ∧ facts.recovery.subjects = [] ∧
      facts.entryOfKey command.project command.pr = none) ∨
    ∃ sent source effective met coordinator after fixes,
      mutation = .order source coordinator (landingBindingOf coordinator) after fixes ∧
      OrderAccepted facts command.project command.pr sent source effective met coordinator
        after := by
  unfold decideLandingMutation at decided
  split at decided
  next => cases decided
  next =>
      cases command with
      | entry project pr pinnedSha handoffCommit setBy =>
          obtain ⟨id, same, accepted⟩ := decideEntry_mutate decided
          exact Or.inl ⟨pinnedSha, handoffCommit, id, rfl, same, accepted⟩
      | order project pr afterIds fixesMain setBy =>
          obtain ⟨source, effective, met, coordinator, after, fixes, same, accepted⟩ :=
            decideOrder_mutate decided
          exact Or.inr
            ⟨afterIds, source, effective, met, coordinator, after, fixes, same, accepted⟩

end Ccrc.Coord
