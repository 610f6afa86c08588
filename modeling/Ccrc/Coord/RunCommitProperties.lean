import Ccrc.Coord.RunCommit

/-! A refused call on a run: what it leaves of the store. -/

set_option autoImplicit false

namespace Ccrc.Coord

open Library Shared

/-- A row that already holds all that a dispatch stamps on it. -/
structure RunRow.Holds (now : Int) (input : DispatchRunInput) (row : RunRow) : Prop where
  session : row.run.sessionId = some input.sessionId
  workspace : row.workspace = input.workspace
  branch : row.branch = input.branch
  resumed : row.resumed = input.resumed
  dispatchedAt : row.run.dispatchedAt = some now
  clearedAt : ∀ clearedAt, input.clearedAt = some clearedAt → row.clearedAt = some clearedAt
  brief : ∀ briefQueued, input.briefQueued = some briefQueued →
    row.briefQueued = some briefQueued ∧ row.clearError = input.clearError

namespace RunStore

variable {store : RunStore} {runId : Nat} {set : RunRow → RunRow}

/-! ## Updates of one run -/

theorem updateRun_self (same : ∀ row ∈ store.runs, row.run.id = runId → set row = row) :
    store.updateRun runId set = store := by
  have runs : (store.runs.map fun row => if row.run.id = runId then set row else row) =
      store.runs := by
    refine (List.map_congr_left fun row member => ?_).trans (List.map_id _)
    by_cases here : row.run.id = runId
    · rw [if_pos here, same row member here, id_eq]
    · rw [if_neg here, id_eq]
  rw [updateRun, runs]

/-- What holds of the run's rows after an update. -/
theorem updateRun_all {before after' : RunRow → Prop}
    (all : ∀ row ∈ store.runs, row.run.id = runId → before row)
    (step : ∀ row, before row → after' (set row)) :
    ∀ row ∈ (store.updateRun runId set).runs, row.run.id = runId → after' row := by
  intro row member here
  obtain ⟨former, isFormer, rfl⟩ := List.mem_map.mp member
  by_cases touched : former.run.id = runId
  · rw [if_pos touched]
    exact step former (all former isFormer touched)
  · rw [if_neg touched] at here
    exact absurd here touched

theorem row?_updateRun (keeps : ∀ row, (set row).run.id = row.run.id) :
    (store.updateRun runId set).row? runId = (store.row? runId).map set := by
  unfold row? updateRun
  dsimp only
  induction store.runs with
  | nil => rfl
  | cons row rest ih =>
      by_cases here : row.run.id = runId
      · simp [here, keeps]
      · simp [here, ih]

theorem mem_of_row? {row : RunRow} (found : store.row? runId = some row) :
    row ∈ store.runs ∧ row.run.id = runId :=
  ⟨List.mem_of_find?_eq_some found, by simpa using List.find?_some found⟩

theorem absent_of_row? (absent : store.row? runId = none) :
    ∀ row ∈ store.runs, row.run.id ≠ runId := by
  intro row member
  simpa using List.find?_eq_none.mp absent row member

/-! ## A transition that is refused -/

theorem advanceInner_taken {now : Int} {target : RunState} {causedBy : Text}
    {detail : Option Text} {row : RunRow} (found : store.row? runId = some row)
    (edge : row.takes target = true) :
    ∃ events former, store.advanceInner now runId target causedBy detail =
      ({ store.updateRun runId (RunRow.move target now) with events }, .ok former target) := by
  rw [advanceInner, found]
  dsimp only
  rw [if_pos edge]
  exact ⟨_, _, rfl⟩

theorem advanceInner_not_taken {now : Int} {target : RunState} {causedBy : Text}
    {detail : Option Text} (barred : ∀ row, store.row? runId = some row → row.takes target = false) :
    ∃ result, result.isOk = false ∧
      store.advanceInner now runId target causedBy detail = (store, result) := by
  rw [advanceInner]
  cases found : store.row? runId with
  | none => exact ⟨_, rfl, rfl⟩
  | some row =>
      dsimp only
      rw [barred row found, if_neg Bool.false_ne_true]
      exact ⟨_, rfl, rfl⟩

/-- A transition is taken, or it is refused and nothing is written. -/
theorem advanceInner_cases (store : RunStore) (now : Int) (runId : Nat) (target : RunState)
    (causedBy : Text) (detail : Option Text) :
    (∃ row events former, store.row? runId = some row ∧ row.takes target = true ∧
      store.advanceInner now runId target causedBy detail =
        ({ store.updateRun runId (RunRow.move target now) with events }, .ok former target)) ∨
    ∃ result, result.isOk = false ∧
      store.advanceInner now runId target causedBy detail = (store, result) := by
  cases found : store.row? runId with
  | none => exact .inr (advanceInner_not_taken fun row bad => by simp [found] at bad)
  | some row =>
      cases edge : row.takes target with
      | true =>
          obtain ⟨events, former, taken⟩ := @advanceInner_taken _ _ now _ causedBy detail _ found edge
          exact .inl ⟨row, events, former, rfl, edge, taken⟩
      | false =>
          refine .inr (advanceInner_not_taken fun other same => ?_)
          rw [← Option.some.inj (found.symm.trans same), edge]

theorem advanceInner_refused {now : Int} {target : RunState} {causedBy : Text}
    {detail : Option Text}
    (refused : (store.advanceInner now runId target causedBy detail).2.isOk = false) :
    (store.advanceInner now runId target causedBy detail).1 = store := by
  obtain ⟨row, events, former, -, -, taken⟩ | ⟨result, -, kept⟩ :=
    advanceInner_cases store now runId target causedBy detail
  · rw [taken] at refused
    cases refused
  · rw [kept]

/-- A kind with an edge into `closing` has both edges out of it. -/
theorem closes_of_closing (kind : RunKind) (former : RunState) (final : FinalState)
    (edge : (transitionsFor kind former).contains .closing = true) :
    (transitionsFor kind .closing).contains final.runState = true := by
  cases kind with
  | work => cases final <;> rfl
  | review => cases former <;> cases edge
  | unknown => cases edge

theorem closeFinal_refused {now : Int} {input : CloseRunInput}
    (refused : (closeFinal now input store).2.isOk = false) :
    (closeFinal now input store).1 = store := by
  unfold closeFinal at refused ⊢
  obtain ⟨row, events, former, -, -, taken⟩ | ⟨result, isRefused, kept⟩ :=
    advanceInner_cases store now input.runId input.finalState.runState input.causedBy none
  · rw [taken] at refused
    cases refused
  · rw [kept]
    cases result with
    | ok former target => cases isRefused
    | badTransition former target => rfl
    | unknownRun => rfl
    | claimantChanged claimant => rfl

theorem closeClaimedRun_refused {now : Int} {input : CloseRunInput}
    (refused : (closeClaimedRun now input store).2.isOk = false) :
    (closeClaimedRun now input store).1 = store := by
  unfold closeClaimedRun at refused ⊢
  cases via : input.viaClosing with
  | false =>
      rw [via, if_neg Bool.false_ne_true] at refused
      rw [if_neg Bool.false_ne_true]
      exact closeFinal_refused refused
  | true =>
      rw [via, if_pos rfl] at refused
      rw [if_pos rfl]
      obtain ⟨row, events, former, found, edge, taken⟩ | ⟨result, isRefused, kept⟩ :=
        advanceInner_cases store now input.runId .closing input.causedBy none
      · -- Once the close took its first transition it takes the second.
        have next : (row.move .closing now).takes input.finalState.runState = true :=
          closes_of_closing _ _ _ edge
        have moved : ({ store.updateRun input.runId (RunRow.move .closing now) with events } :
            RunStore).row? input.runId = some (row.move .closing now) := by
          have updated : (store.updateRun input.runId (RunRow.move .closing now)).row?
              input.runId = some (row.move .closing now) := by
            rw [@row?_updateRun _ _ (RunRow.move .closing now) fun _ => rfl, found,
              Option.map_some]
          exact updated
        obtain ⟨events', former', taken'⟩ :=
          @advanceInner_taken _ _ now _ input.causedBy none _ moved next
        rw [taken] at refused
        simp only [closeFinal, taken'] at refused
        cases refused
      · rw [kept]
        cases result with
        | ok former target => cases isRefused
        | badTransition former target => rfl
        | unknownRun => rfl
        | claimantChanged claimant => rfl

theorem closeInner_refused {now : Int} {input : CloseRunInput}
    (refused : (closeInner now input store).2.isOk = false) :
    (closeInner now input store).1 = store := by
  unfold closeInner at refused ⊢
  cases expected : input.expectClaimedBy with
  | none =>
      rw [expected] at refused
      exact closeClaimedRun_refused refused
  | some claimant =>
      rw [expected] at refused
      cases found : store.row? input.runId with
      | none => rfl
      | some row =>
          rw [found] at refused
          dsimp only at refused ⊢
          split at refused
          next changed => rw [if_pos changed]
          next same =>
              rw [if_neg same]
              exact closeClaimedRun_refused refused

/-! ## A dispatch that is refused -/

section Dispatch

variable {now : Int} {input : DispatchRunInput} {stamped : RunStore}

/-- The run's rows in a store are bound to the session. -/
def BoundTo (store : RunStore) (runId : Nat) (sessionId : Text) : Prop :=
  ∀ row ∈ store.runs, row.run.id = runId → row.run.sessionId = some sessionId

theorem BoundTo.updateRun {sessionId : Text} (bound : BoundTo store runId sessionId)
    (keeps : ∀ row, (set row).run.sessionId = row.run.sessionId) :
    BoundTo (store.updateRun runId set) runId sessionId :=
  updateRun_all bound fun row held => (keeps row).trans held

theorem BoundTo.bindBirth {sessionId : Text} (bound : BoundTo store runId sessionId)
    (bornAt : Option (Option Int)) (changesOccupant : Bool) :
    BoundTo (store.bindBirth runId sessionId bornAt changesOccupant) runId sessionId := by
  unfold RunStore.bindBirth
  cases bornAt with
  | some birth => exact bound.updateRun fun _ => rfl
  | none =>
      cases changesOccupant with
      | false => exact bound
      | true =>
          have cleared : BoundTo (store.updateRun runId fun row =>
              { row with sessionBornAt := none, sessionBornFor := none }) runId sessionId :=
            bound.updateRun fun _ => rfl
          dsimp only
          rw [if_pos rfl, stampOccupantBirth]
          split
          next => exact cleared
          next birth _ =>
              refine cleared.updateRun fun row => ?_
              split <;> rfl

theorem BoundTo.inheritHadChild {sessionId : Text} (bound : BoundTo store runId sessionId) :
    BoundTo (store.inheritHadChild runId sessionId) runId sessionId := by
  unfold RunStore.inheritHadChild
  split
  next => exact bound.updateRun fun _ => rfl
  next => exact bound

theorem boundTo_bindSession {sessionId : Text} {bornAt : Option (Option Int)} {bound : RunStore}
    {result : BindResult}
    (binds : store.bindSession runId sessionId bornAt = some (bound, result)) :
    BoundTo bound runId sessionId := by
  have started : BoundTo (store.updateRun runId fun row =>
      { row with run := { row.run with sessionId := some sessionId } }) runId sessionId :=
    @updateRun_all _ _ _ (fun _ => True) _ (fun _ _ _ => trivial) fun _ _ => rfl
  have inherited : ∀ changes : Bool, BoundTo (if changes then
      ((store.updateRun runId fun row =>
        { row with run := { row.run with sessionId := some sessionId } }).bindBirth runId sessionId
          bornAt changes).inheritHadChild runId sessionId
      else (store.updateRun runId fun row =>
        { row with run := { row.run with sessionId := some sessionId } }).bindBirth runId sessionId
          bornAt changes) runId sessionId := by
    intro changes
    split
    next => exact (started.bindBirth bornAt changes).inheritHadChild
    next => exact started.bindBirth bornAt changes
  unfold bindSession at binds
  dsimp only at binds
  split at binds
  next =>
      cases binds
      exact inherited _
  next predecessor _ =>
      split at binds
      next =>
          cases binds
          exact inherited _
      next =>
          obtain ⟨⟨deliveries, reissued⟩, -, made⟩ := Option.bind_eq_some_iff.mp binds
          cases made
          exact inherited _

/-- What a dispatch stamps is on every row of its run. -/
theorem holds_dispatchStamps (stamps : store.dispatchStamps now input = some stamped) :
    ∀ row ∈ stamped.runs, row.run.id = input.runId → row.Holds now input := by
  obtain ⟨marked, marks, made⟩ := Option.bind_eq_some_iff.mp stamps
  cases made
  obtain ⟨⟨bound, result⟩, binds, made⟩ := Option.bind_eq_some_iff.mp marks
  cases made
  -- The stamps one after the other, each on top of those before it.
  have first := @updateRun_all bound input.runId
    (fun row => { row with workspace := input.workspace, branch := input.branch,
                           resumed := input.resumed,
                           run := { row.run with dispatchedAt := some now } }) _
    (fun row => row.Holds now { input with clearedAt := none, briefQueued := none })
    (boundTo_bindSession binds) fun row session => {
      session := session, workspace := rfl, branch := rfl, resumed := rfl, dispatchedAt := rfl
      clearedAt := fun _ bad => by cases bad
      brief := fun _ bad => by cases bad }
  dsimp only at first ⊢
  generalize bound.updateRun input.runId _ = marked at first ⊢
  have second : ∀ row ∈ (marked.stampCleared input.runId input.clearedAt).runs,
      row.run.id = input.runId → row.Holds now { input with briefQueued := none } := by
    cases cleared : input.clearedAt with
    | none => exact fun row member here => { first row member here with
        clearedAt := fun _ bad => by simp [cleared] at bad }
    | some clearedAt =>
        refine updateRun_all first fun row held => { held with
          clearedAt := fun _ same => same
          brief := fun _ bad => by cases bad }
  generalize marked.stampCleared input.runId input.clearedAt = cleared at second ⊢
  cases brief : input.briefQueued with
  | none => exact fun row member here => { second row member here with
      brief := fun _ bad => by simp [brief] at bad }
  | some briefQueued =>
      refine updateRun_all second fun row held => { held with
        brief := fun _ same => ⟨brief.symm.trans same, rfl⟩ }

/-- A bind to the session that the run's row already has writes nothing, and so does one of a
run that the store lacks. -/
theorem bindSession_same {sessionId : Text} (bound : BoundTo store runId sessionId) :
    ∃ result, store.bindSession runId sessionId none = some (store, result) := by
  have started : (store.updateRun runId fun row =>
      { row with run := { row.run with sessionId := some sessionId } }) = store :=
    updateRun_self fun row member here => by rw [← bound row member here]
  refine ⟨{ rebound := false, reissued := 0 }, ?_⟩
  unfold bindSession
  rw [started]
  cases found : store.row? runId with
  | none =>
      have absent : ∀ set : RunRow → RunRow, store.updateRun runId set = store := fun set =>
        updateRun_self fun row member here => absurd here (absent_of_row? found row member)
      have unborn : store.stampOccupantBirth runId sessionId = store := by
        unfold stampOccupantBirth
        split
        next => rfl
        next => exact absent _
      have childless : store.inheritHadChild runId sessionId = store := by
        unfold inheritHadChild
        split
        next => exact absent _
        next => rfl
      simp [bindBirth, absent, unborn, childless]
  | some row =>
      obtain ⟨member, here⟩ := mem_of_row? found
      simp [bindBirth, bound row member here]

theorem dispatchStamps_held
    (held : ∀ row ∈ store.runs, row.run.id = input.runId → row.Holds now input) :
    store.dispatchStamps now input = some store := by
  obtain ⟨result, binds⟩ := bindSession_same fun row member here => (held row member here).session
  have marked : (store.updateRun input.runId fun row =>
      { row with workspace := input.workspace, branch := input.branch, resumed := input.resumed,
                 run := { row.run with dispatchedAt := some now } }) = store :=
    updateRun_self fun row member here => by
      have holds := held row member here
      rw [← holds.workspace, ← holds.branch, ← holds.resumed, ← holds.dispatchedAt]
  have cleared : store.stampCleared input.runId input.clearedAt = store := by
    cases clears : input.clearedAt with
    | none => rfl
    | some clearedAt =>
        exact updateRun_self fun row member here => by
          rw [← (held row member here).clearedAt clearedAt clears]
  have brief : store.stampBrief input.runId input.clearError input.briefQueued = store := by
    cases queues : input.briefQueued with
    | none => rfl
    | some briefQueued =>
        exact updateRun_self fun row member here => by
          have holds := (held row member here).brief briefQueued queues
          rw [← holds.1, ← holds.2]
  rw [dispatchStamps, markDispatched, binds]
  simp only [Option.bind_eq_bind, Option.bind_some, Option.pure_def, marked, cleared, brief]

/-- A refused dispatch leaves the store exactly where its run's rows already held all that it
stamps: the stamps are written before the transition is asked for, and are committed. -/
theorem dispatchInner_refused {result : AdvanceResult} {written : RunStore}
    (answered : dispatchInner now input store = some (written, result))
    (refused : result.isOk = false) :
    written = store ↔ ∀ row ∈ store.runs, row.run.id = input.runId → row.Holds now input := by
  obtain ⟨stamped, stamps, made⟩ := Option.bind_eq_some_iff.mp answered
  have same : written = stamped := by
    obtain ⟨row, events, former, -, -, taken⟩ | ⟨barred, isRefused, kept⟩ :=
      advanceInner_cases stamped now input.runId .dispatched (Text.lit "coordinator") input.detail
    · rw [taken] at made
      cases made
      cases refused
    · rw [kept] at made
      cases barred with
      | ok former target => cases isRefused
      | badTransition former target => exact (Prod.mk.inj (Option.some.inj made)).1.symm
      | unknownRun => exact (Prod.mk.inj (Option.some.inj made)).1.symm
      | claimantChanged claimant => exact (Prod.mk.inj (Option.some.inj made)).1.symm
  rw [same]
  constructor
  · intro unchanged
    rw [← unchanged]
    exact fun row member here => holds_dispatchStamps stamps row (unchanged ▸ member) here
  · intro held
    exact Option.some.inj (stamps.symm.trans (dispatchStamps_held held))

end Dispatch

/-- The rows of a dispatch's run already hold what it stamps; an advance and a close stamp
nothing before they are let through. -/
def StampsHeld (store : RunStore) (now : Int) : RunCommit → Prop
  | .dispatchRun input => ∀ row ∈ store.runs, row.run.id = input.runId → row.Holds now input
  | .advance _ _ _ _ => True
  | .closeRun _ => True

theorem commit_refused (store : RunStore) (now : Int) (call : RunCommit) (result : AdvanceResult)
    (answered : (store.commit now call).2 = some result) (refused : result.isOk = false) :
    (store.commit now call).1 = store ↔ store.StampsHeld now call := by
  cases call with
  | advance runId target causedBy detail =>
      cases answered
      exact iff_of_true (advanceInner_refused refused) trivial
  | closeRun input =>
      cases answered
      exact iff_of_true (closeInner_refused refused) trivial
  | dispatchRun input =>
      cases ran : dispatchInner now input store with
      | none =>
          simp only [commit, tx, ran] at answered
          cases answered
      | some written =>
          obtain ⟨written, answer⟩ := written
          simp only [commit, tx, ran] at answered ⊢
          cases answered
          exact dispatchInner_refused ran refused

/-- A work run that was dispatched to one session, and a report that waits for it there. -/
def dispatchedStore : RunStore where
  runs := [{
    run := { id := 1, program := Text.lit "p", wave := 1, waveOf := none, kind := Text.lit "work",
             state := Text.lit "dispatched", claimedBy := some (Text.lit "c"), coordProject := none,
             sessionId := some (Text.lit "a"), dispatchedAt := some 5 }
    workspace := some (Text.lit "w"), branch := none, resumed := false, clearedAt := none
    closedAt := none, handoffCommit := none, dispatchStartedAt := none, briefQueued := none
    clearError := none, sessionBornAt := none, sessionBornFor := none, hadChild := false }]
  events := []
  mail := [{ id := 1, atTime := 6, fromId := Text.lit "c", toId := Text.lit "worker",
             runId := some 1, kind := Text.lit "report", subject := Text.lit "s",
             body := Text.lit "b", artifacts := [] }]
  deliveries := (queueDelivery [] 1 (Text.lit "a") (Text.lit "e") none).1
  claims := ClaimStore.empty
  items := []
  programs := [{ slug := Text.lit "p", state := Text.lit "active" }]

def dispatchAgain : DispatchRunInput where
  runId := 1
  sessionId := Text.lit "b"
  workspace := some (Text.lit "w")
  branch := none
  resumed := false
  clearedAt := none
  items := []
  detail := none
  briefQueued := none
  clearError := none

theorem commit_refused_dispatched :
    (dispatchedStore.commit 7 (.dispatchRun dispatchAgain)).2 =
        some (.badTransition .dispatched .dispatched) ∧
      ((dispatchedStore.commit 7 (.dispatchRun dispatchAgain)).1 = dispatchedStore ↔
        dispatchedStore.StampsHeld 7 (.dispatchRun dispatchAgain)) :=
  ⟨by decide +kernel, commit_refused _ _ _ (.badTransition .dispatched .dispatched)
    (by decide +kernel) rfl⟩

/-- The refused dispatch re-binds the run and issues its mail again. -/
theorem refused_dispatch_writes :
    ¬∀ (store : RunStore) (now : Int) (call : RunCommit) (result : AdvanceResult),
      (store.commit now call).2 = some result → result.isOk = false →
        (store.commit now call).1 = store := by
  intro all
  have unchanged := all dispatchedStore 7 (.dispatchRun dispatchAgain)
    (.badTransition .dispatched .dispatched) (by decide +kernel) rfl
  revert unchanged
  decide +kernel

example : ((dispatchedStore.commit 7 (.dispatchRun dispatchAgain)).1.deliveries.map (·.toId)) =
    [Text.lit "a", Text.lit "b"] := by decide +kernel

end RunStore

end Ccrc.Coord
