import Ccrc.Linear.RateProperties

/-! Runs of the rate service under a clock that never goes back: no lane is overspent, a
closed slot grants nothing, and neither a refusal nor the forgetting of sessions shows in
any other answer. -/

set_option autoImplicit false

namespace Ccrc.Linear

open Library TokenBucket

/-! ## Runs -/

inductive RateCall where
  | take (ask : LinearRateAsk)
  | settle (grant : Nat) (outcome : LinearRateOutcome)
  deriving DecidableEq, Repr

structure TimedCall where
  atTime : ℚ
  call : RateCall
  deriving DecidableEq, Repr

/-- The clock never goes back. -/
def Ordered : ℚ → List TimedCall → Prop
  | _, [] => True
  | now, c :: calls => now ≤ c.atTime ∧ Ordered c.atTime calls

/-- The moment of the last call. -/
def endsAt : ℚ → List TimedCall → ℚ
  | now, [] => now
  | _, c :: calls => endsAt c.atTime calls

section

variable (drop : ℚ → Map Text SessionBuckets → Map Text SessionBuckets)

/-- One call, with the answer of a take. -/
def LinearRateService.step (service : LinearRateService) (c : TimedCall) :
    Option LinearRateTake × LinearRateService :=
  match c.call with
  | .take ask =>
      let result := service.takeWith drop ask c.atTime
      (some result.1, result.2)
  | .settle grant outcome => (none, service.settle grant outcome c.atTime)

def LinearRateService.run (service : LinearRateService) :
    List TimedCall → List (Option LinearRateTake) × LinearRateService
  | [] => ([], service)
  | c :: calls =>
      let first := service.step drop c
      let rest := LinearRateService.run first.2 calls
      (first.1 :: rest.1, rest.2)

end

namespace RateModel

def step (m : RateModel) (c : TimedCall) : Option LinearRateTake × RateModel :=
  let m := m.advance c.atTime
  match c.call with
  | .take ask => (some (m.take c.atTime ask).1, (m.take c.atTime ask).2)
  | .settle grant outcome => (none, m.settle c.atTime grant outcome)

def run (m : RateModel) : List TimedCall → List (Option LinearRateTake) × RateModel
  | [] => ([], m)
  | c :: calls =>
      let first := m.step c
      let rest := run first.2 calls
      (first.1 :: rest.1, rest.2)

end RateModel

variable {drop : ℚ → Map Text SessionBuckets → Map Text SessionBuckets}
variable {service : LinearRateService} {now later born : ℚ} {calls before after : List TimedCall}

theorem step_refines (dropsFull : DropsFull drop) (kept : service.Kept now) {c : TimedCall}
    (ordered : now ≤ c.atTime) :
    (service.step drop c).1 = ((service.view now).step c).1 ∧
      (service.step drop c).2.view c.atTime = ((service.view now).step c).2 ∧
      (service.step drop c).2.Kept c.atTime := by
  have kept' := kept.extend ordered
  unfold LinearRateService.step RateModel.step
  rw [← view_advance kept ordered]
  cases c.call with
  | take ask =>
      have refines := takeWith_refines dropsFull kept' ask
      exact ⟨congrArg some refines.answer, refines.view, refines.kept⟩
  | settle grant outcome =>
      obtain ⟨viewed, kept''⟩ := settle_refines kept' grant outcome
      exact ⟨rfl, viewed, kept''⟩

theorem run_refines (dropsFull : DropsFull drop) (kept : service.Kept now)
    (ordered : Ordered now calls) :
    (service.run drop calls).1 = ((service.view now).run calls).1 ∧
      (service.run drop calls).2.view (endsAt now calls) = ((service.view now).run calls).2 ∧
      (service.run drop calls).2.Kept (endsAt now calls) := by
  induction calls generalizing service now with
  | nil => exact ⟨rfl, rfl, kept⟩
  | cons c calls ih =>
      obtain ⟨first, rest⟩ := ordered
      obtain ⟨answer, viewed, kept'⟩ := step_refines dropsFull kept first
      obtain ⟨answers, viewed', kept''⟩ := ih kept' rest
      rw [viewed] at answers viewed'
      refine ⟨?_, viewed', kept''⟩
      simp only [LinearRateService.run, RateModel.run, answer, answers]

theorem run_append (service : LinearRateService) (before after : List TimedCall) :
    service.run drop (before ++ after) =
      ((service.run drop before).1 ++ ((service.run drop before).2.run drop after).1,
        ((service.run drop before).2.run drop after).2) := by
  induction before generalizing service with
  | nil => rfl
  | cons c before ih => simp only [List.cons_append, LinearRateService.run, ih]

theorem run_length (service : LinearRateService) (calls : List TimedCall) :
    (service.run drop calls).1.length = calls.length := by
  induction calls generalizing service with
  | nil => rfl
  | cons c calls ih => simp [LinearRateService.run, ih]

theorem ordered_append :
    Ordered now (before ++ after) ↔ Ordered now before ∧ Ordered (endsAt now before) after := by
  induction before generalizing now with
  | nil => simp [Ordered, endsAt]
  | cons c before ih => simp [Ordered, endsAt, ih, and_assoc]

theorem le_endsAt (ordered : Ordered now calls) : now ≤ endsAt now calls := by
  induction calls generalizing now with
  | nil => exact le_rfl
  | cons c calls ih => exact ordered.1.trans (ih ordered.2)

theorem endsAt_append :
    endsAt now (before ++ after) = endsAt (endsAt now before) after := by
  induction before generalizing now with
  | nil => rfl
  | cons c before ih => exact ih

theorem ordered_later (ordered : Ordered later calls) (isLater : now ≤ later) :
    Ordered now calls := by
  cases calls with
  | nil => trivial
  | cons c calls => exact ⟨isLater.trans ordered.1, ordered.2⟩

/-! ## What does not show -/

/-- Two services that show the same answer alike. -/
theorem run_answers_congr {one two : LinearRateService}
    {drop' : ℚ → Map Text SessionBuckets → Map Text SessionBuckets} (dropsFull : DropsFull drop)
    (dropsFull' : DropsFull drop') (oneKept : one.Kept now) (twoKept : two.Kept now)
    (same : one.view now = two.view now) (ordered : Ordered now calls) :
    (one.run drop calls).1 = (two.run drop' calls).1 := by
  rw [(run_refines dropsFull oneKept ordered).1, (run_refines dropsFull' twoKept ordered).1, same]

theorem take_refused {m : RateModel} {ask : LinearRateAsk} {detail : LinearRateRefusal} {wait : Int}
    (refused : (m.take now ask).1 = .refused detail wait) : (m.take now ask).2 = m := by
  unfold RateModel.take at refused ⊢
  cases asked : m.laneRefusal now ask with
  | some answer => rfl
  | none =>
      rw [asked] at refused
      cases isSession : ask.session with
      | none =>
          rw [isSession] at refused
          cases refused
      | some asked' =>
          rw [isSession] at refused
          dsimp only at refused ⊢
          split at refused
          next waits => rw [if_pos waits]
          next => cases refused

/-- A refused take is not seen by any later call. -/
theorem refused_unseen (kept : service.Kept now) {c : TimedCall} {ask : LinearRateAsk}
    {detail : LinearRateRefusal} {wait : Int} (ordered : now ≤ c.atTime)
    (isTake : c.call = .take ask)
    (refused : (service.step prune c).1 = some (.refused detail wait))
    (rest : Ordered c.atTime after) :
    ((service.step prune c).2.run prune after).1 = (service.run prune after).1 := by
  obtain ⟨answer, viewed, kept'⟩ := step_refines dropsFull_prune kept ordered
  have same : (service.step prune c).2.view c.atTime = service.view c.atTime := by
    rw [viewed, view_advance kept ordered]
    rw [answer] at refused
    unfold RateModel.step at refused ⊢
    rw [isTake] at refused ⊢
    exact take_refused (Option.some.inj refused)
  exact run_answers_congr dropsFull_prune dropsFull_prune kept' (kept.extend ordered) same rest

/-! ## Quotas -/

theorem slotKey_iff {slot slot' : LinearSlotRef} : slotKey slot = slotKey slot' ↔ slot = slot' := by
  constructor
  · intro same
    cases slot with
    | legacy =>
        cases slot' with
        | legacy => rfl
        | file id =>
            have heads : some (Text.unit 'l') = some (Text.unit 'f') := congrArg List.head? same
            exact absurd heads (by decide)
    | file id =>
        cases slot' with
        | legacy =>
            have heads : some (Text.unit 'f') = some (Text.unit 'l') := congrArg List.head? same
            exact absurd heads (by decide)
        | file id' => rw [List.append_cancel_left same]
  · rintro rfl
    rfl

/-- The calls that a settled grant gives back. -/
def LinearRateOutcome.back (outcome : LinearRateOutcome) (g : OpenGrant) : Int :=
  match spentCalls g.calls outcome.spent with
  | none => 0
  | some spent => max 0 (g.calls - spent)

/-- The calls granted on a lane of a slot by one call, less those it gives back. -/
def LinearRateService.netOf (service : LinearRateService) (slot : LinearSlotRef)
    (lane : LinearRateLane) (c : TimedCall) : Int :=
  match c.call with
  | .take ask =>
      match (service.take ask c.atTime).1 with
      | .granted _ => if ask.slot = slot ∧ ask.lane = lane then ask.callsAsked else 0
      | .refused _ _ => 0
  | .settle grant outcome =>
      match service.openGrants.get? grant with
      | none => 0
      | some g => if g.slot = slotKey slot ∧ g.lane = lane then -outcome.back g else 0

/-- The calls granted on a lane of a slot in a run, less those given back. -/
def LinearRateService.net (service : LinearRateService) (slot : LinearSlotRef)
    (lane : LinearRateLane) : List TimedCall → Int
  | [] => 0
  | c :: calls => service.netOf slot lane c + (service.step prune c).2.net slot lane calls

/-- The level of a lane's bucket at a moment. -/
def LinearRateService.levelAt (service : LinearRateService) (slot : LinearSlotRef)
    (lane : LinearRateLane) (now : ℚ) : ℚ :=
  ((service.view now).lanes (slotKey slot) lane).level

theorem RateModel.take_level (m : RateModel) (ask : LinearRateAsk) (slot : LinearSlotRef)
    (lane : LinearRateLane) :
    ((m.take now ask).2.lanes (slotKey slot) lane).level =
      (m.lanes (slotKey slot) lane).level -
        (match (m.take now ask).1 with
          | .granted _ => if ask.slot = slot ∧ ask.lane = lane then (ask.callsAsked : ℚ) else 0
          | .refused _ _ => 0) := by
  have granted : ∀ m' : RateModel, m'.lanes = m.lanes →
      ((m'.granted ask).2.lanes (slotKey slot) lane).level =
        (m.lanes (slotKey slot) lane).level -
          if ask.slot = slot ∧ ask.lane = lane then (ask.callsAsked : ℚ) else 0 := by
    intro m' lanes
    simp only [RateModel.granted, RateModel.setLane, lanes]
    by_cases same : ask.slot = slot ∧ ask.lane = lane
    · obtain ⟨rfl, rfl⟩ := same
      simp
    · have apart : ¬(slotKey slot = slotKey ask.slot ∧ lane = ask.lane) := by
        rw [slotKey_iff]
        exact fun here => same ⟨here.1.symm, here.2.symm⟩
      rw [if_neg same, if_neg apart, sub_zero]
  unfold RateModel.take
  cases m.laneRefusal now ask with
  | some answer => simp
  | none =>
      cases ask.session with
      | none => exact granted m rfl
      | some asked =>
          dsimp only
          split
          next => simp
          next => exact granted _ rfl

theorem RateModel.close_lanes (m : RateModel) (slot : Text) (wait : Option Amount) :
    (m.close now slot wait).lanes = m.lanes := by
  unfold RateModel.close
  split
  next => split <;> rfl
  next => rfl
  next => rfl
  next => rfl

theorem RateModel.giveBack_lanes (m : RateModel) (g : OpenGrant) (spent : Int) :
    (m.giveBack now g spent).lanes =
      if 0 < g.calls - spent then
        (m.setLane g.slot g.lane (Linear.giveBack (m.lanes g.slot g.lane) (laneSize g.lane)
          ((g.calls - spent : Int) : ℚ) now)).lanes
      else m.lanes := by
  unfold RateModel.giveBack
  dsimp only
  split
  next => cases g.session <;> rfl
  next => rfl

theorem RateModel.settle_level {m : RateModel}
    (isAt : ∀ slot lane, (m.lanes slot lane).atTime = now) (grant : Nat)
    (outcome : LinearRateOutcome) (slot : LinearSlotRef) (lane : LinearRateLane) :
    ((m.settle now grant outcome).lanes (slotKey slot) lane).level ≤
      (m.lanes (slotKey slot) lane).level +
        (match m.openGrants.get? grant with
          | none => 0
          | some g => if g.slot = slotKey slot ∧ g.lane = lane then (outcome.back g : ℚ) else 0) := by
  unfold RateModel.settle
  cases m.openGrants.get? grant with
  | none => simp
  | some g =>
      simp only [RateModel.close_lanes]
      unfold LinearRateOutcome.back
      cases spentCalls g.calls outcome.spent with
      | none => simp
      | some spent =>
          dsimp only
          rw [RateModel.giveBack_lanes]
          split
          next positive =>
              simp only [RateModel.setLane]
              by_cases same : g.slot = slotKey slot ∧ g.lane = lane
              · obtain ⟨key, rfl⟩ := same
                rw [if_pos ⟨key.symm, rfl⟩, if_pos ⟨key, rfl⟩, key, max_eq_right positive.le]
                unfold Linear.giveBack
                rw [refilled_self (isAt _ _)]
                exact min_le_right _ _
              · have apart : ¬(slotKey slot = g.slot ∧ lane = g.lane) := fun here =>
                  same ⟨here.1.symm, here.2.symm⟩
                rw [if_neg same, if_neg apart, add_zero]
          next zero =>
              rw [max_eq_left (not_lt.mp zero)]
              simp

theorem levelAt_later (kept : service.Kept now) (isLater : now ≤ later) (slot : LinearSlotRef)
    (lane : LinearRateLane) :
    service.levelAt slot lane later ≤ service.levelAt slot lane now +
      (later - now) * (laneSize lane).size / (laneSize lane).windowMs := by
  unfold LinearRateService.levelAt
  rw [view_advance kept isLater]
  have within := (view_lane_within kept (slotKey slot) lane).extend isLater
  show (refilled _ _ _).level ≤ _
  rw [refilled_eq within, view_lane_at kept]
  exact fill_le_flow

theorem levelAt_step (kept : service.Kept now) {c : TimedCall} (ordered : now ≤ c.atTime)
    (slot : LinearSlotRef) (lane : LinearRateLane) :
    (service.netOf slot lane c : ℚ) + (service.step prune c).2.levelAt slot lane c.atTime ≤
      service.levelAt slot lane c.atTime := by
  have kept' := kept.extend ordered
  obtain ⟨answer, viewed, -⟩ := step_refines dropsFull_prune kept ordered
  unfold LinearRateService.levelAt LinearRateService.netOf
  rw [viewed]
  unfold LinearRateService.step RateModel.step at answer
  unfold RateModel.step
  rw [← view_advance kept ordered] at answer ⊢
  cases call : c.call with
  | take ask =>
      rw [call] at answer
      have level := @RateModel.take_level c.atTime (service.view c.atTime) ask slot lane
      have answer : (service.take ask c.atTime).1 =
          ((service.view c.atTime).take c.atTime ask).1 := Option.some.inj answer
      dsimp only
      rw [level, answer]
      cases ((service.view c.atTime).take c.atTime ask).1 with
      | granted grant =>
          dsimp only
          split <;> simp
      | refused detail wait => simp
  | settle grant outcome =>
      have isAt : ∀ slot lane, ((service.view c.atTime).lanes slot lane).atTime = c.atTime :=
        view_lane_at kept'
      have level := RateModel.settle_level isAt grant outcome slot lane
      have grants : (service.view c.atTime).openGrants = service.openGrants := rfl
      rw [grants] at level
      dsimp only
      cases found : service.openGrants.get? grant with
      | none =>
          rw [found] at level
          simpa using level
      | some g =>
          rw [found] at level
          dsimp only at level ⊢
          split at level
          next same =>
              rw [if_pos same]
              push_cast
              linarith
          next other =>
              rw [if_neg other]
              simpa using level

theorem net_le (kept : service.Kept now) (ordered : Ordered now calls) (slot : LinearSlotRef)
    (lane : LinearRateLane) :
    (service.net slot lane calls : ℚ) +
        (service.run prune calls).2.levelAt slot lane (endsAt now calls) ≤
      service.levelAt slot lane now +
        (endsAt now calls - now) * (laneSize lane).size / (laneSize lane).windowMs := by
  induction calls generalizing service now with
  | nil => simp [LinearRateService.net, LinearRateService.run, endsAt]
  | cons c calls ih =>
      obtain ⟨first, rest⟩ := ordered
      have kept' := (step_refines dropsFull_prune kept first).2.2
      have step := levelAt_step kept first slot lane
      have waited := levelAt_later kept first slot lane
      have others := ih kept' rest
      have flow : (endsAt c.atTime calls - now) * (laneSize lane).size / (laneSize lane).windowMs =
          (endsAt c.atTime calls - c.atTime) * (laneSize lane).size / (laneSize lane).windowMs +
            (c.atTime - now) * (laneSize lane).size / (laneSize lane).windowMs := by ring
      simp only [LinearRateService.net, LinearRateService.run, endsAt]
      rw [flow]
      push_cast
      linarith

/-! ## Lanes apart -/

/-- What the slot and the lane's bucket answered: a refusal with its wait, or nothing. -/
def LinearRateTake.ofLane : LinearRateTake → Option (LinearRateRefusal × Int)
  | .granted _ | .refused .session _ => none
  | .refused .linear wait => some (.linear, wait)
  | .refused .workspace wait => some (.workspace, wait)

theorem RateModel.take_ofLane (m : RateModel) (now : ℚ) (ask : LinearRateAsk) :
    (m.take now ask).1.ofLane = m.laneRefusal now ask := by
  unfold RateModel.take
  cases refusal : m.laneRefusal now ask with
  | some answer =>
      obtain ⟨detail, wait⟩ := answer
      cases detail with
      | linear => rfl
      | workspace => rfl
      | session =>
          unfold RateModel.laneRefusal at refusal
          dsimp only at refusal
          split at refusal
          next => cases refusal
          next => split at refusal <;> cases refusal
  | none =>
      cases ask.session with
      | none => rfl
      | some asked =>
          dsimp only
          split <;> rfl

/-- The two states have the same bucket and the same closing for a lane of a slot. -/
def SameLane (slot : LinearSlotRef) (lane : LinearRateLane) (m m' : RateModel) : Prop :=
  m.lanes (slotKey slot) lane = m'.lanes (slotKey slot) lane ∧
    m.closed (slotKey slot) = m'.closed (slotKey slot)

theorem SameLane.advance {slot : LinearSlotRef} {lane : LinearRateLane} {m m' : RateModel}
    (same : SameLane slot lane m m') (later : ℚ) :
    SameLane slot lane (m.advance later) (m'.advance later) :=
  ⟨congrArg (fun b => refilled b (laneSize lane) later) same.1,
    congrArg (Option.filter fun closed => decide (later < closed)) same.2⟩

theorem SameLane.refusal {m m' : RateModel} {ask : LinearRateAsk}
    (same : SameLane ask.slot ask.lane m m') (now : ℚ) :
    m.laneRefusal now ask = m'.laneRefusal now ask := by
  unfold RateModel.laneRefusal
  rw [same.1, same.2]

theorem take_sameLane (m : RateModel) (now : ℚ) {ask : LinearRateAsk} {slot : LinearSlotRef}
    {lane : LinearRateLane} (apart : ¬(ask.slot = slot ∧ ask.lane = lane)) :
    SameLane slot lane (m.take now ask).2 m := by
  have granted : ∀ m' : RateModel, m'.lanes = m.lanes → m'.closed = m.closed →
      SameLane slot lane (m'.granted ask).2 m := by
    intro m' lanes closed
    refine ⟨?_, congrFun closed _⟩
    have other : ¬(slotKey slot = slotKey ask.slot ∧ lane = ask.lane) := by
      rw [slotKey_iff]
      exact fun here => apart ⟨here.1.symm, here.2.symm⟩
    exact (if_neg other).trans (congrFun (congrFun lanes _) _)
  unfold RateModel.take
  cases m.laneRefusal now ask with
  | some answer => exact ⟨rfl, rfl⟩
  | none =>
      cases ask.session with
      | none => exact granted m rfl rfl
      | some asked =>
          dsimp only
          split
          next => exact ⟨rfl, rfl⟩
          next => exact granted _ rfl rfl

/-- A take on another slot or another lane. -/
def Elsewhere (slot : LinearSlotRef) (lane : LinearRateLane) (c : TimedCall) : Prop :=
  ∃ ask, c.call = .take ask ∧ ¬(ask.slot = slot ∧ ask.lane = lane)

theorem elsewhere_sameLane {slot : LinearSlotRef} {lane : LinearRateLane}
    (kept : service.Kept now) (ordered : Ordered now calls)
    (elsewhere : ∀ c ∈ calls, Elsewhere slot lane c) (isLater : endsAt now calls ≤ later) :
    SameLane slot lane ((service.run prune calls).2.view later) (service.view later) := by
  induction calls generalizing service now with
  | nil => exact ⟨rfl, rfl⟩
  | cons c calls ih =>
      obtain ⟨first, rest⟩ := ordered
      obtain ⟨-, viewed, kept'⟩ := step_refines dropsFull_prune kept first
      obtain ⟨ask, isTake, apart⟩ := elsewhere c List.mem_cons_self
      have others := ih kept' rest (fun d member => elsewhere d (List.mem_cons_of_mem c member)) isLater
      have past : c.atTime ≤ later := (le_endsAt rest).trans isLater
      have once : SameLane slot lane ((service.step prune c).2.view c.atTime)
          (service.view c.atTime) := by
        rw [viewed, view_advance kept first]
        unfold RateModel.step
        rw [isTake]
        exact take_sameLane _ _ apart
      have later' := once.advance later
      rw [← view_advance kept' past, ← view_advance (kept.extend first) past] at later'
      exact ⟨others.1.trans later'.1, others.2.trans later'.2⟩

/-! ## Closed slots -/

/-- The slot is closed at least until then. -/
def ClosedUntil (slot : Text) (ends : ℚ) (m : RateModel) : Prop :=
  ∃ closed, m.closed slot = some closed ∧ ends ≤ closed

variable {slot : Text} {ends : ℚ} {m : RateModel}

theorem ClosedUntil.advance (closed : ClosedUntil slot ends m) (before : later < ends) :
    ClosedUntil slot ends (m.advance later) := by
  obtain ⟨until', held, least⟩ := closed
  refine ⟨until', ?_, least⟩
  simp only [RateModel.advance, held, Option.filter_some]
  exact if_pos (decide_eq_true (lt_of_lt_of_le before least))

theorem RateModel.take_closed (m : RateModel) (now : ℚ) (ask : LinearRateAsk) :
    (m.take now ask).2.closed = m.closed := by
  unfold RateModel.take
  cases m.laneRefusal now ask with
  | some answer => rfl
  | none =>
      cases ask.session with
      | none => rfl
      | some asked =>
          dsimp only
          split <;> rfl

theorem RateModel.giveBack_closed (m : RateModel) (now : ℚ) (g : OpenGrant) (spent : Int) :
    (m.giveBack now g spent).closed = m.closed := by
  unfold RateModel.giveBack
  dsimp only
  split
  next => cases g.session <;> rfl
  next => rfl

/-- A closing is only ever put off. -/
theorem ClosedUntil.close (closed : ClosedUntil slot ends m) (now : ℚ) (other : Text)
    (wait : Option Amount) : ClosedUntil slot ends (m.close now other wait) := by
  unfold RateModel.close
  split
  next =>
      split
      next =>
          obtain ⟨until', held, least⟩ := closed
          by_cases same : slot = other
          · subst same
            refine ⟨_, if_pos rfl, le_max_of_le_left ?_⟩
            rwa [held, Option.getD_some]
          · exact ⟨until', (if_neg same).trans held, least⟩
      next => exact closed
  next => exact closed
  next => exact closed
  next => exact closed

theorem ClosedUntil.settle (closed : ClosedUntil slot ends m) (now : ℚ) (grant : Nat)
    (outcome : LinearRateOutcome) : ClosedUntil slot ends (m.settle now grant outcome) := by
  unfold RateModel.settle
  cases m.openGrants.get? grant with
  | none => exact closed
  | some g =>
      dsimp only
      refine ClosedUntil.close ?_ now g.slot outcome.closeForS
      cases spentCalls g.calls outcome.spent with
      | none => exact closed
      | some spent =>
          unfold ClosedUntil
          rw [RateModel.giveBack_closed]
          exact closed

theorem ClosedUntil.step (closed : ClosedUntil slot ends m) {c : TimedCall}
    (before : c.atTime < ends) : ClosedUntil slot ends (m.step c).2 := by
  have advanced := closed.advance before
  unfold RateModel.step
  cases c.call with
  | take ask =>
      unfold ClosedUntil
      rw [RateModel.take_closed]
      exact advanced
  | settle grant outcome => exact advanced.settle c.atTime grant outcome

theorem ClosedUntil.run (closed : ClosedUntil slot ends m)
    (ordered : Ordered now calls) (before : endsAt now calls < ends) :
    ClosedUntil slot ends (m.run calls).2 := by
  induction calls generalizing m now with
  | nil => exact closed
  | cons c calls ih =>
      obtain ⟨-, rest⟩ := ordered
      exact ih (closed.step (lt_of_le_of_lt (le_endsAt rest) before)) rest before

/-- What a settle that closes the slot leaves. -/
theorem settle_closes (m : RateModel) (now : ℚ) {grant : Nat} {g : OpenGrant} {wait : ℚ}
    {outcome : LinearRateOutcome} (isOpen : m.openGrants.get? grant = some g)
    (closes : outcome.closeForS = some (.finite wait)) (positive : 0 < wait) :
    ClosedUntil g.slot (now + ⌈wait⌉ * 1000) (m.settle now grant outcome) := by
  unfold RateModel.settle
  rw [isOpen]
  dsimp only
  rw [closes]
  unfold RateModel.close
  dsimp only
  rw [if_pos positive]
  exact ⟨_, if_pos rfl, le_max_right _ _⟩

/-! ## Trying again -/

theorem le_secondsUntil {b : Bucket} {s : Size} {n : ℚ} {wait : Int}
    (waited : secondsUntil b s n ≤ wait) : ((n - b.level) * s.windowMs) / s.size ≤ 1000 * wait := by
  have rounded := Int.le_ceil ((((n - b.level) * s.windowMs) / s.size) / 1000)
  have least : ⌈(((n - b.level) * s.windowMs) / s.size) / 1000⌉ ≤ wait :=
    (le_max_right _ _).trans waited
  have cast : ((⌈(((n - b.level) * s.windowMs) / s.size) / 1000⌉ : Int) : ℚ) ≤ wait := by
    exact_mod_cast least
  linarith

/-- After the wait that a bucket asked for it holds the calls. -/
theorem le_level_after {b : Bucket} {s : Size} {n : ℚ} {wait : Int} (proper : s.Proper)
    (within : b.Within s now) (isAt : b.atTime = now) (fits : n ≤ s.size) (nonneg : 0 ≤ wait)
    (waited : b.level < n → secondsUntil b s n ≤ wait) :
    n ≤ (refilled b s (now + 1000 * wait)).level := by
  have span : (0 : ℚ) ≤ 1000 * wait := by
    have cast : (0 : ℚ) ≤ wait := Int.cast_nonneg nonneg
    linarith
  have within' := within.extend (le_add_of_nonneg_right span)
  rw [refilled_eq within', isAt, add_sub_cancel_left]
  by_cases below : b.level < n
  · exact le_fill_of_span proper.size proper.window fits (le_secondsUntil (waited below))
  · exact (not_lt.mp below).trans (le_fill proper.size proper.window within.bounded span)

/-- The calls are no more than the buckets that they are asked from can hold. -/
def LinearRateAsk.Fits (ask : LinearRateAsk) : Prop :=
  (ask.callsAsked : ℚ) ≤ (laneSize ask.lane).size ∧
    (ask.session.isSome → (ask.callsAsked : ℚ) ≤ sessionHour.size ∧
      (ask.callsAsked : ℚ) ≤ sessionMinute.size)

theorem RateModel.laneRefusal_linear {ask : LinearRateAsk} {wait : Int}
    (refused : m.laneRefusal now ask = some (.linear, wait)) :
    ∃ closed, m.closed (slotKey ask.slot) = some closed ∧
      wait = max 1 ⌈(closed - now) / 1000⌉ := by
  unfold RateModel.laneRefusal at refused
  dsimp only at refused
  split at refused
  next closed held =>
      cases refused
      exact ⟨closed, held, rfl⟩
  next => split at refused <;> cases refused

theorem RateModel.laneRefusal_workspace {ask : LinearRateAsk} {wait : Int}
    (refused : m.laneRefusal now ask = some (.workspace, wait)) :
    (m.lanes (slotKey ask.slot) ask.lane).level < ask.callsAsked ∧
      wait = secondsUntil (m.lanes (slotKey ask.slot) ask.lane) (laneSize ask.lane)
        ask.callsAsked := by
  unfold RateModel.laneRefusal at refused
  dsimp only at refused
  split at refused
  next => cases refused
  next =>
      split at refused
      next below =>
          cases refused
          exact ⟨below, rfl⟩
      next => cases refused

theorem RateModel.take_session {ask : LinearRateAsk} {wait : Int}
    (refused : (m.take now ask).1 = .refused .session wait) :
    ∃ asked, ask.session = some asked ∧
      wait = (m.sessions asked.id).wait ask.callsAsked asked.write ∧ 0 < wait := by
  have ofLane := m.take_ofLane now ask
  rw [refused] at ofLane
  unfold RateModel.take at refused
  rw [← ofLane] at refused
  dsimp only [LinearRateTake.ofLane] at refused
  split at refused
  next => cases refused
  next asked isSession =>
      split at refused
      next positive =>
          cases refused
          exact ⟨asked, isSession, rfl, positive⟩
      next => cases refused

theorem wait_zero {s : SessionBuckets} {calls : Int} {write : Bool}
    (hour : (calls : ℚ) ≤ s.hour.level) (minute : (calls : ℚ) ≤ s.minute.level)
    (writes : write = true → 1 ≤ s.writes.level) : s.wait calls write = 0 := by
  unfold SessionBuckets.wait
  rw [if_neg (not_lt.mpr hour), if_neg (not_lt.mpr minute), if_neg]
  · rfl
  · rw [Bool.and_eq_true, decide_eq_true_eq]
    exact fun below => absurd below.2 (not_lt.mpr (writes below.1))

theorem session_wait_after {s : SessionBuckets} {calls : Int} {write : Bool}
    (within : s.Within now) (isAt : s.IsAt now) (hourFits : (calls : ℚ) ≤ sessionHour.size)
    (minuteFits : (calls : ℚ) ≤ sessionMinute.size) (positive : 0 < s.wait calls write) :
    (s.refilled (now + 1000 * (s.wait calls write : Int))).wait calls write = 0 := by
  generalize total : s.wait calls write = wait at positive ⊢
  unfold SessionBuckets.wait at total
  have hour := le_level_after sessionHour_proper within.hour isAt.hour hourFits positive.le
    fun below => by
      rw [if_pos below] at total
      exact total ▸ le_max_left _ _
  have minute := le_level_after sessionMinute_proper within.minute isAt.minute minuteFits
    positive.le fun below => by
      rw [if_pos below] at total
      exact total ▸ le_max_of_le_right (le_max_left _ _)
  refine wait_zero hour minute fun isWrite => ?_
  have one : (1 : ℚ) ≤ sessionWrites.size := by norm_num [sessionWrites, linearSessionBudget]
  refine le_level_after sessionWrites_proper within.writes isAt.writes one positive.le
    fun below => ?_
  rw [isWrite, Bool.true_and, if_pos (decide_eq_true below)] at total
  exact total ▸ le_max_of_le_right (le_max_right _ _)

/-- Asked again after its wait, with no call in between, nothing is refused for the same
reason. -/
theorem take_again (kept : service.Kept now) {ask : LinearRateAsk} (fits : ask.Fits)
    {detail : LinearRateRefusal} {wait : Int}
    (refused : (service.take ask now).1 = .refused detail wait) (again : Int) :
    ((service.take ask now).2.take ask (now + 1000 * wait)).1 ≠ .refused detail again := by
  have refines := takeWith_refines dropsFull_prune kept ask
  have refused' := refines.answer.symm.trans refused
  have positive : 0 < wait := by
    cases detail with
    | linear =>
        obtain ⟨closed, -, rfl⟩ := RateModel.laneRefusal_linear
          ((RateModel.take_ofLane _ _ _).symm.trans (congrArg _ refused'))
        exact lt_of_lt_of_le Int.one_pos (le_max_left _ _)
    | workspace =>
        obtain ⟨-, rfl⟩ := RateModel.laneRefusal_workspace
          ((RateModel.take_ofLane _ _ _).symm.trans (congrArg _ refused'))
        exact lt_of_lt_of_le Int.one_pos (le_max_left _ _)
    | session =>
        obtain ⟨-, -, -, positive⟩ := RateModel.take_session refused'
        exact positive
  have cast : (0 : ℚ) < wait := Int.cast_pos.mpr positive
  have isLater : now ≤ now + 1000 * wait := by linarith
  have viewed : (service.take ask now).2.view now = service.view now :=
    refines.view.trans (take_refused refused')
  have refines' := takeWith_refines dropsFull_prune (refines.kept.extend isLater) ask
  have viewed' : (service.takeWith prune ask now).2.view (now + 1000 * wait) =
      (service.view now).advance (now + 1000 * wait) := by
    rw [view_advance refines.kept isLater]
    exact congrArg (fun m => RateModel.advance m (now + 1000 * wait)) viewed
  rw [viewed'] at refines'
  intro bad
  have bad' := refines'.answer.symm.trans bad
  cases detail with
  | linear =>
      obtain ⟨closed, held, waits⟩ := RateModel.laneRefusal_linear
        ((RateModel.take_ofLane _ _ _).symm.trans (congrArg _ refused'))
      obtain ⟨closed', held', -⟩ := RateModel.laneRefusal_linear
        ((RateModel.take_ofLane _ _ _).symm.trans (congrArg _ bad'))
      simp only [RateModel.advance, held, Option.filter_some] at held'
      split at held'
      next before =>
          have rounded := Int.le_ceil ((closed - now) / 1000)
          have least : ((⌈(closed - now) / 1000⌉ : Int) : ℚ) ≤ wait := by
            rw [waits]
            exact_mod_cast le_max_right _ _
          have before := of_decide_eq_true before
          linarith
      next => cases held'
  | workspace =>
      obtain ⟨below, waits⟩ := RateModel.laneRefusal_workspace
        ((RateModel.take_ofLane _ _ _).symm.trans (congrArg _ refused'))
      obtain ⟨below', -⟩ := RateModel.laneRefusal_workspace
        ((RateModel.take_ofLane _ _ _).symm.trans (congrArg _ bad'))
      have enough := le_level_after (laneSize_proper ask.lane)
        (view_lane_within kept (slotKey ask.slot) ask.lane)
        (view_lane_at kept (slotKey ask.slot) ask.lane) fits.1 positive.le fun _ => waits.symm.le
      exact absurd below' (not_lt.mpr enough)
  | session =>
      obtain ⟨asked, isSession, waits, -⟩ := RateModel.take_session refused'
      obtain ⟨asked', isSession', waits', positive'⟩ := RateModel.take_session bad'
      rw [isSession] at isSession'
      cases isSession'
      obtain ⟨hourFits, minuteFits⟩ := fits.2 (by simp [isSession])
      have zero := session_wait_after (view_session_within kept asked.id)
        (view_session_isAt kept asked.id) hourFits minuteFits (waits ▸ positive)
      rw [← waits] at zero
      have none' : again = 0 := waits'.trans zero
      omega

/-! ## The service -/

/-- Every level that is kept is between 0 and its size. -/
def LinearRateService.Bounded (service : LinearRateService) : Prop :=
  (∀ slot lane b, service.lanes.get? (laneKey slot lane) = some b →
      0 ≤ b.level ∧ b.level ≤ (laneSize lane).size) ∧
    ∀ id s, service.sessions.get? id = some s →
      (0 ≤ s.hour.level ∧ s.hour.level ≤ sessionHour.size) ∧
        (0 ≤ s.minute.level ∧ s.minute.level ≤ sessionMinute.size) ∧
        (0 ≤ s.writes.level ∧ s.writes.level ≤ sessionWrites.size)

/-- The service after the calls, from the moment it was built. -/
def LinearRateService.ranFrom (born : ℚ) (calls : List TimedCall) : LinearRateService :=
  ((LinearRateService.built born).run prune calls).2

/-- What holds of the service after a run of calls. -/
structure LinearRateSound (born : ℚ) (calls : List TimedCall) : Prop where
  bounded : (LinearRateService.ranFrom born calls).Bounded
  quota : ∀ slot lane later, endsAt born calls ≤ later →
    ((LinearRateService.built born).net slot lane calls : ℚ) ≤
      (laneSize lane).size * linearRestartShare +
        (laneSize lane).size * (later - born) / (laneSize lane).windowMs
  apart : ∀ (ask : LinearRateAsk) elsewhere later,
    Ordered (endsAt born calls) elsewhere → (∀ c ∈ elsewhere, Elsewhere ask.slot ask.lane c) →
    endsAt (endsAt born calls) elsewhere ≤ later →
      ((LinearRateService.ranFrom born (calls ++ elsewhere)).take ask later).1.ofLane =
        ((LinearRateService.ranFrom born calls).take ask later).1.ofLane
  closed : ∀ grant g outcome wait time more (ask : LinearRateAsk) later,
    (LinearRateService.ranFrom born calls).openGrants.get? grant = some g →
    g.slot = slotKey ask.slot → outcome.closeForS = some (.finite wait) → 0 < wait →
    Ordered (endsAt born calls) (⟨time, .settle grant outcome⟩ :: more) →
    endsAt time more ≤ later → later < time + ⌈wait⌉ * 1000 →
      ∃ again, ((LinearRateService.ranFrom born
        (calls ++ ⟨time, .settle grant outcome⟩ :: more)).take ask later).1 =
          .refused .linear again
  refusal : ∀ time ask detail wait more,
    ((LinearRateService.ranFrom born calls).take ask time).1 = .refused detail wait →
    Ordered (endsAt born calls) (⟨time, .take ask⟩ :: more) →
      ((LinearRateService.built born).run prune (calls ++ ⟨time, .take ask⟩ :: more)).1.eraseIdx
          calls.length =
        ((LinearRateService.built born).run prune (calls ++ more)).1
  pruning : ((LinearRateService.built born).run prune calls).1 =
    ((LinearRateService.built born).run (fun _ sessions => sessions) calls).1
  again : ∀ time ask detail wait again, endsAt born calls ≤ time → ask.Fits →
    ((LinearRateService.ranFrom born calls).take ask time).1 = .refused detail wait →
      (((LinearRateService.ranFrom born calls).take ask time).2.take ask
        (time + 1000 * wait)).1 ≠ .refused detail again

theorem built_level (slot : LinearSlotRef) (lane : LinearRateLane) :
    (LinearRateService.built born).levelAt slot lane born =
      (laneSize lane).size * linearRestartShare := by
  show (refilled ⟨_, min born born⟩ _ _).level = _
  rw [refilled_self (min_self born)]

theorem Kept.bounded (kept : service.Kept now) : service.Bounded := by
  refine ⟨fun slot lane b found => ?_, fun id s found => ?_⟩
  · have within := kept.lanes slot lane b found
    exact ⟨within.nonneg, within.bounded⟩
  · have within := kept.sessions id s found
    exact ⟨⟨within.hour.nonneg, within.hour.bounded⟩,
      ⟨within.minute.nonneg, within.minute.bounded⟩,
      ⟨within.writes.nonneg, within.writes.bounded⟩⟩

theorem ranFrom_append (born : ℚ) (before after : List TimedCall) :
    LinearRateService.ranFrom born (before ++ after) =
      ((LinearRateService.ranFrom born before).run prune after).2 := by
  rw [LinearRateService.ranFrom, run_append]
  rfl

/-- Under a clock that never goes back the service never overspends, and a refusal or a
forgotten session changes no other answer. -/
theorem linearRate_sound (ordered : Ordered born calls) : LinearRateSound born calls := by
  obtain ⟨-, -, kept⟩ := run_refines dropsFull_prune (kept_built born) ordered
  have kept : (LinearRateService.ranFrom born calls).Kept (endsAt born calls) := kept
  refine ⟨Kept.bounded kept, ?_, ?_, ?_, ?_, ?_, ?_⟩
  · intro slot lane later isLater
    have accounted := net_le (kept_built born) ordered slot lane
    have level := (view_lane_within kept (slotKey slot) lane).nonneg
    have level : 0 ≤ ((LinearRateService.built born).run prune calls).2.levelAt slot lane
        (endsAt born calls) := level
    have size := (laneSize_proper lane).size
    have window := (laneSize_proper lane).window
    have flow : (endsAt born calls - born) * (laneSize lane).size / (laneSize lane).windowMs ≤
        (laneSize lane).size * (later - born) / (laneSize lane).windowMs := by
      refine div_le_div_of_nonneg_right ?_ window.le
      rw [mul_comm]
      exact mul_le_mul_of_nonneg_left (by linarith) size.le
    rw [built_level] at accounted
    linarith
  · intro ask elsewhere later ordered' others isLater
    have same := elsewhere_sameLane kept ordered' others isLater
    rw [ranFrom_append]
    obtain ⟨-, -, kept'⟩ := run_refines dropsFull_prune kept ordered'
    have one := (takeWith_refines dropsFull_prune (kept'.extend isLater) ask).answer
    have two := (takeWith_refines dropsFull_prune
      (kept.extend ((le_endsAt ordered').trans isLater)) ask).answer
    unfold LinearRateService.take
    rw [one, two, RateModel.take_ofLane, RateModel.take_ofLane]
    exact same.refusal later
  · intro grant g outcome wait time more ask later isOpen isSlot closes positive ordered' isLater
      before
    obtain ⟨first, rest⟩ := ordered'
    have kept' := kept.extend first
    obtain ⟨viewed, kept''⟩ := settle_refines kept' grant outcome
    obtain ⟨-, viewed', keptRun⟩ := run_refines dropsFull_prune kept'' rest
    have closed := settle_closes ((LinearRateService.ranFrom born calls).view time) time isOpen closes
      positive
    rw [← viewed] at closed
    have held := (closed.run rest (lt_of_le_of_lt isLater before)).advance before
    rw [← viewed', ← view_advance keptRun isLater] at held
    rw [ranFrom_append]
    have answer := (takeWith_refines dropsFull_prune (keptRun.extend isLater) ask).answer
    obtain ⟨until', found, -⟩ := held
    rw [isSlot] at found
    refine ⟨max 1 ⌈(until' - later) / 1000⌉, ?_⟩
    refine answer.trans ?_
    unfold RateModel.take RateModel.laneRefusal
    rw [found]
  · intro time ask detail wait more refused ordered'
    have unseen := refused_unseen kept ordered'.1 rfl (congrArg some refused) ordered'.2
    rw [run_append, run_append]
    have length := @run_length prune (LinearRateService.built born) calls
    rw [← length, List.eraseIdx_append_of_length_le le_rfl, Nat.sub_self]
    exact congrArg (_ ++ ·) unseen
  · exact run_answers_congr dropsFull_prune dropsFull_never (kept_built born) (kept_built born) rfl
      ordered
  · intro time ask detail wait again isLater fits refused
    exact take_again (kept.extend isLater) fits refused again

theorem linearRate_sound_closed :
    LinearRateSound 0
      [⟨0, .take ⟨.proxy, .legacy, 2, some ⟨Text.lit "s1", true⟩⟩⟩,
        ⟨500, .settle 0 ⟨.finite 1, some (.finite 60)⟩⟩, ⟨1000, .take ⟨.floor, .legacy, 1, none⟩⟩] :=
  linearRate_sound ⟨by norm_num, by norm_num, by norm_num, trivial⟩

end Ccrc.Linear
