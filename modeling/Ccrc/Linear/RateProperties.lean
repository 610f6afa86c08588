import Ccrc.Library.TokenBucket
import Ccrc.Linear.RateModel

/-! The rate service computes what the model of it does: looking at a bucket late,
forgetting a session that is full again and keeping a refusal's levels show nowhere. -/

set_option autoImplicit false

namespace Ccrc.Linear

open Library TokenBucket

/-! ## Buckets -/

structure Size.Proper (s : Size) : Prop where
  size : 0 < s.size
  window : 0 < s.windowMs

theorem laneSize_proper (lane : LinearRateLane) : (laneSize lane).Proper := by
  cases lane <;> constructor <;> norm_num [laneSize, linearLaneCallsPerHour, hourMs]

theorem sessionHour_proper : sessionHour.Proper := by
  constructor <;> norm_num [sessionHour, linearSessionBudget, hourMs]

theorem sessionMinute_proper : sessionMinute.Proper := by
  constructor <;> norm_num [sessionMinute, linearSessionBudget, minuteMs]

theorem sessionWrites_proper : sessionWrites.Proper := by
  constructor <;> norm_num [sessionWrites, linearSessionBudget, hourMs]

/-- The bucket was last looked at no later than now, and its level is within its size. -/
structure Bucket.Within (b : Bucket) (s : Size) (now : ℚ) : Prop where
  past : b.atTime ≤ now
  nonneg : 0 ≤ b.level
  bounded : b.level ≤ s.size

section

variable {b : Bucket} {s : Size} {now later : ℚ}

theorem refilled_eq (within : b.Within s now) :
    refilled b s now = ⟨fill s.size s.windowMs b.level (now - b.atTime), now⟩ := by
  unfold refilled
  split
  next early =>
      have same : b.atTime = now := le_antisymm within.past early
      rw [same, sub_self, fill_zero within.bounded, ← same]
  next => rfl

theorem refilled_within (proper : s.Proper) (within : b.Within s now) :
    (refilled b s now).Within s now := by
  rw [refilled_eq within]
  have grown := le_fill proper.size proper.window within.bounded (sub_nonneg.mpr within.past)
  exact ⟨le_rfl, within.nonneg.trans grown, fill_le_size⟩

theorem Bucket.Within.extend (within : b.Within s now) (after : now ≤ later) :
    b.Within s later :=
  ⟨within.past.trans after, within.nonneg, within.bounded⟩

/-- Looking at a bucket in between changes nothing. -/
theorem refilled_refilled (proper : s.Proper) (within : b.Within s now) (after : now ≤ later) :
    refilled (refilled b s now) s later = refilled b s later := by
  rw [refilled_eq (within.extend after), refilled_eq ((refilled_within proper within).extend after),
    refilled_eq within]
  have spans : now - b.atTime + (later - now) = later - b.atTime := by ring
  rw [fill_fill proper.size proper.window (sub_nonneg.mpr within.past) (sub_nonneg.mpr after), spans]

theorem refilled_self (past : b.atTime = now) : refilled b s now = b := by
  rw [refilled, if_pos (le_of_eq past.symm)]

theorem refilled_at (within : b.Within s now) : (refilled b s now).atTime = now := by
  rw [refilled_eq within]

theorem refilled_full (proper : s.Proper) (after : now ≤ later) :
    refilled ⟨s.size, now⟩ s later = ⟨s.size, later⟩ := by
  have within : (⟨s.size, now⟩ : Bucket).Within s later := ⟨after, proper.size.le, le_rfl⟩
  rw [refilled_eq within, fill_full proper.size proper.window (sub_nonneg.mpr after)]

theorem eq_full (isAt : b.atTime = now) (bounded : b.level ≤ s.size) (full : s.size ≤ b.level) :
    b = ⟨s.size, now⟩ := by
  rw [← isAt, le_antisymm full bounded]

theorem giveBack_within (proper : s.Proper) (within : b.Within s now) {back : ℚ}
    (nonneg : 0 ≤ back) : (giveBack b s back now).Within s now := by
  have filled := refilled_within proper within
  refine ⟨filled.past, ?_, min_le_left _ _⟩
  exact le_min proper.size.le (add_nonneg filled.nonneg nonneg)

theorem giveBack_refilled (proper : s.Proper) (within : b.Within s now) (back : ℚ) :
    giveBack (refilled b s now) s back now = giveBack b s back now := by
  unfold giveBack
  rw [refilled_refilled proper within le_rfl]

theorem giveBack_at (within : b.Within s now) (back : ℚ) :
    (giveBack b s back now).atTime = now := refilled_at within

theorem giveBack_full {back : ℚ} (nonneg : 0 ≤ back) :
    giveBack ⟨s.size, now⟩ s back now = ⟨s.size, now⟩ := by
  unfold giveBack
  rw [refilled_self rfl]
  dsimp only
  rw [min_eq_left (by linarith)]

end

/-! ## Sessions -/

structure SessionBuckets.Within (s : SessionBuckets) (now : ℚ) : Prop where
  hour : s.hour.Within sessionHour now
  minute : s.minute.Within sessionMinute now
  writes : s.writes.Within sessionWrites now

section

variable {s : SessionBuckets} {now later : ℚ}

theorem SessionBuckets.Within.extend (within : s.Within now) (after : now ≤ later) :
    s.Within later :=
  ⟨within.hour.extend after, within.minute.extend after, within.writes.extend after⟩

theorem fresh_within (now : ℚ) : (SessionBuckets.fresh now).Within now :=
  ⟨⟨le_rfl, sessionHour_proper.size.le, le_rfl⟩, ⟨le_rfl, sessionMinute_proper.size.le, le_rfl⟩,
    ⟨le_rfl, sessionWrites_proper.size.le, le_rfl⟩⟩

theorem session_refilled_within (within : s.Within now) : (s.refilled now).Within now :=
  ⟨refilled_within sessionHour_proper within.hour,
    refilled_within sessionMinute_proper within.minute,
    refilled_within sessionWrites_proper within.writes⟩

theorem session_refilled_refilled (within : s.Within now) (after : now ≤ later) :
    (s.refilled now).refilled later = s.refilled later := by
  simp only [SessionBuckets.refilled, refilled_refilled sessionHour_proper within.hour after,
    refilled_refilled sessionMinute_proper within.minute after,
    refilled_refilled sessionWrites_proper within.writes after]

theorem fresh_refilled (after : now ≤ later) :
    (SessionBuckets.fresh now).refilled later = SessionBuckets.fresh later := by
  simp only [SessionBuckets.refilled, SessionBuckets.fresh, refilled_full sessionHour_proper after,
    refilled_full sessionMinute_proper after, refilled_full sessionWrites_proper after]

/-- A session whose buckets are full again is what a new one would be. -/
theorem refilled_of_isFull (within : s.Within now) (full : s.isFull now = true) :
    s.refilled now = SessionBuckets.fresh now := by
  simp only [SessionBuckets.isFull, Bool.and_eq_true, decide_eq_true_eq] at full
  have filled := session_refilled_within within
  have hour := eq_full (refilled_at within.hour) filled.hour.bounded full.1.1
  have minute := eq_full (refilled_at within.minute) filled.minute.bounded full.1.2
  have writes := eq_full (refilled_at within.writes) filled.writes.bounded full.2
  rw [SessionBuckets.refilled, hour, minute, writes, SessionBuckets.fresh]

/-- The buckets were all looked at at the moment. -/
structure SessionBuckets.IsAt (s : SessionBuckets) (now : ℚ) : Prop where
  hour : s.hour.atTime = now
  minute : s.minute.atTime = now
  writes : s.writes.atTime = now

theorem session_refilled_isAt (within : s.Within now) : (s.refilled now).IsAt now :=
  ⟨refilled_at within.hour, refilled_at within.minute, refilled_at within.writes⟩

theorem session_refilled_self (isAt : s.IsAt now) : s.refilled now = s := by
  simp only [SessionBuckets.refilled, refilled_self isAt.hour, refilled_self isAt.minute,
    refilled_self isAt.writes]

theorem fresh_isAt (now : ℚ) : (SessionBuckets.fresh now).IsAt now := ⟨rfl, rfl, rfl⟩

theorem charged_isAt (isAt : s.IsAt now) (calls : Int) (write : Bool) :
    (s.charged calls write).IsAt now := by
  refine ⟨isAt.hour, isAt.minute, ?_⟩
  cases write <;> exact isAt.writes

/-- No bucket of the session makes the ask wait. -/
theorem wait_nonpos {calls : Int} {write : Bool} (free : ¬0 < s.wait calls write) :
    (calls : ℚ) ≤ s.hour.level ∧ (calls : ℚ) ≤ s.minute.level ∧
      (write = true → 1 ≤ s.writes.level) := by
  have least : ∀ (b : Bucket) (size : Size) (n : ℚ), 0 < secondsUntil b size n := fun b size n =>
    lt_of_lt_of_le Int.one_pos (le_max_left _ _)
  unfold SessionBuckets.wait at free
  rw [lt_max_iff, lt_max_iff, not_or, not_or] at free
  obtain ⟨hour, minute, writes⟩ := free
  refine ⟨?_, ?_, fun isWrite => ?_⟩
  · by_contra below
    rw [if_pos (lt_of_not_ge below)] at hour
    exact hour (least _ _ _)
  · by_contra below
    rw [if_pos (lt_of_not_ge below)] at minute
    exact minute (least _ _ _)
  · by_contra below
    rw [if_pos (by simp [isWrite, lt_of_not_ge below])] at writes
    exact writes (least _ _ _)

theorem charged_within {calls : Int} {write : Bool} (within : s.Within now)
    (nonneg : 0 ≤ calls) (free : ¬0 < s.wait calls write) :
    (s.charged calls write).Within now := by
  obtain ⟨hour, minute, writes⟩ := wait_nonpos free
  have amount : (0 : ℚ) ≤ calls := Int.cast_nonneg nonneg
  refine ⟨⟨within.hour.past, sub_nonneg.mpr hour, ?_⟩,
    ⟨within.minute.past, sub_nonneg.mpr minute, ?_⟩, ?_⟩
  · exact (sub_le_self _ amount).trans within.hour.bounded
  · exact (sub_le_self _ amount).trans within.minute.bounded
  · cases write with
    | false => exact within.writes
    | true =>
        exact ⟨within.writes.past, sub_nonneg.mpr (writes rfl),
          (sub_le_self _ zero_le_one).trans within.writes.bounded⟩

theorem session_giveBack_within {back : ℚ} (within : s.Within now) (nonneg : 0 ≤ back)
    (unsent : Bool) : (s.giveBack back unsent now).Within now := by
  refine ⟨giveBack_within sessionHour_proper within.hour nonneg,
    giveBack_within sessionMinute_proper within.minute nonneg, ?_⟩
  cases unsent with
  | false => exact within.writes
  | true => exact giveBack_within sessionWrites_proper within.writes zero_le_one

theorem session_giveBack_refilled (within : s.Within now) (back : ℚ) (unsent : Bool) :
    (s.giveBack back unsent now).refilled now = (s.refilled now).giveBack back unsent now := by
  have hour := giveBack_refilled sessionHour_proper within.hour back
  have minute := giveBack_refilled sessionMinute_proper within.minute back
  have writes := giveBack_refilled sessionWrites_proper within.writes 1
  have hour' := refilled_self (s := sessionHour) (giveBack_at within.hour back)
  have minute' := refilled_self (s := sessionMinute) (giveBack_at within.minute back)
  have writes' := refilled_self (s := sessionWrites) (giveBack_at within.writes 1)
  cases unsent <;>
    simp [SessionBuckets.giveBack, SessionBuckets.refilled, hour, minute, writes, hour', minute',
      writes']

theorem fresh_giveBack {back : ℚ} (nonneg : 0 ≤ back) (unsent : Bool) :
    (SessionBuckets.fresh now).giveBack back unsent now = SessionBuckets.fresh now := by
  have hour := @giveBack_full sessionHour now back nonneg
  have minute := @giveBack_full sessionMinute now back nonneg
  have writes := @giveBack_full sessionWrites now 1 zero_le_one
  cases unsent <;> simp [SessionBuckets.giveBack, SessionBuckets.fresh, hour, minute, writes]

end

/-! ## Keys -/

theorem append_cut {c : UInt16} {a b x y : Text} (first : c ∉ x) (second : c ∉ y)
    (same : a ++ c :: x = b ++ c :: y) : a = b ∧ x = y := by
  rcases List.append_eq_append_iff.mp same with ⟨between, rfl, rest⟩ | ⟨between, rfl, rest⟩
  · cases between with
    | nil => exact ⟨(List.append_nil a).symm, (List.cons.inj rest).2⟩
    | cons d between =>
        rw [(List.cons.inj rest).2] at first
        exact absurd (List.mem_append_right _ List.mem_cons_self) first
  · cases between with
    | nil => exact ⟨List.append_nil b, (List.cons.inj rest).2.symm⟩
    | cons d between =>
        rw [(List.cons.inj rest).2] at second
        exact absurd (List.mem_append_right _ List.mem_cons_self) second

theorem laneKey_iff {slot slot' : Text} {lane lane' : LinearRateLane} :
    laneKey slot lane = laneKey slot' lane' ↔ slot = slot' ∧ lane = lane' := by
  have plain : ∀ lane : LinearRateLane, (0 : UInt16) ∉ lane.text := by
    intro lane
    cases lane <;> decide
  constructor
  · intro same
    obtain ⟨slots, texts⟩ := append_cut (plain lane) (plain lane') same
    refine ⟨slots, ?_⟩
    revert texts
    cases lane <;> cases lane' <;> decide
  · rintro ⟨rfl, rfl⟩
    rfl

/-! ## The state -/

/-- What holds of the service at a moment after its last call. -/
structure LinearRateService.Kept (service : LinearRateService) (now : ℚ) : Prop where
  born : service.bornAt ≤ now
  lanes : ∀ slot lane b, service.lanes.get? (laneKey slot lane) = some b →
    b.Within (laneSize lane) now
  sessions : ∀ id s, service.sessions.get? id = some s → s.Within now
  closed : ∀ slot closed, service.closedUntil.get? slot = some closed → 0 ≤ closed
  distinct : (service.sessions.map (·.1)).Nodup
  held : ∀ grant g, service.openGrants.get? grant = some g →
    (service.lanes.get? (laneKey g.slot g.lane)).isSome

variable {service : LinearRateService} {now later : ℚ}

theorem kept_built (now : ℚ) : (LinearRateService.built now).Kept now where
  born := le_rfl
  lanes := fun _ _ _ bad => by cases bad
  sessions := fun _ _ bad => by cases bad
  closed := fun _ _ bad => by cases bad
  distinct := List.nodup_nil
  held := fun _ _ bad => by cases bad

theorem LinearRateService.Kept.extend (kept : service.Kept now) (after : now ≤ later) :
    service.Kept later where
  born := kept.born.trans after
  lanes := fun slot lane b found => (kept.lanes slot lane b found).extend after
  sessions := fun id s found => (kept.sessions id s found).extend after
  closed := kept.closed
  distinct := kept.distinct
  held := kept.held

theorem LinearRateService.Kept.laneBucket (kept : service.Kept now) (slot : Text)
    (lane : LinearRateLane) : (service.laneBucket now slot lane).Within (laneSize lane) now := by
  unfold LinearRateService.laneBucket
  cases found : service.lanes.get? (laneKey slot lane) with
  | some b => exact kept.lanes slot lane b found
  | none =>
      have size := (laneSize_proper lane).size
      refine ⟨min_le_right _ _, ?_, ?_⟩
      · exact mul_nonneg size.le (by norm_num [linearRestartShare])
      · exact mul_le_of_le_one_right size.le (by norm_num [linearRestartShare])

theorem LinearRateService.Kept.session (kept : service.Kept now) (id : Text) :
    ((service.sessions.get? id).getD (SessionBuckets.fresh now)).Within now := by
  cases found : service.sessions.get? id with
  | some s => exact kept.sessions id s found
  | none => exact fresh_within now

theorem view_lane_within (kept : service.Kept now) (slot : Text) (lane : LinearRateLane) :
    ((service.view now).lanes slot lane).Within (laneSize lane) now :=
  refilled_within (laneSize_proper lane) (kept.laneBucket slot lane)

theorem view_lane_at (kept : service.Kept now) (slot : Text) (lane : LinearRateLane) :
    ((service.view now).lanes slot lane).atTime = now :=
  refilled_at (kept.laneBucket slot lane)

theorem view_session_within (kept : service.Kept now) (id : Text) :
    ((service.view now).sessions id).Within now :=
  session_refilled_within (kept.session id)

theorem view_session_isAt (kept : service.Kept now) (id : Text) :
    ((service.view now).sessions id).IsAt now :=
  session_refilled_isAt (kept.session id)

theorem laneBucket_later (kept : service.Kept now) (after : now ≤ later) (slot : Text)
    (lane : LinearRateLane) :
    service.laneBucket later slot lane = service.laneBucket now slot lane := by
  unfold LinearRateService.laneBucket
  rw [min_eq_left kept.born, min_eq_left (kept.born.trans after)]

/-- Looking at the service later is letting the model's time pass. -/
theorem view_advance (kept : service.Kept now) (after : now ≤ later) :
    service.view later = (service.view now).advance later := by
  refine RateModel.ext ?_ ?_ ?_ rfl rfl
  · funext slot lane
    show refilled (service.laneBucket later slot lane) (laneSize lane) later =
      refilled (refilled (service.laneBucket now slot lane) (laneSize lane) now) (laneSize lane)
        later
    rw [refilled_refilled (laneSize_proper lane) (kept.laneBucket slot lane) after,
      laneBucket_later kept after]
  · funext id
    show ((service.sessions.get? id).getD (SessionBuckets.fresh later)).refilled later =
      (((service.sessions.get? id).getD (SessionBuckets.fresh now)).refilled now).refilled later
    rw [session_refilled_refilled (kept.session id) after]
    cases service.sessions.get? id with
    | some s => rfl
    | none =>
        simp only [Option.getD_none]
        rw [fresh_refilled after, session_refilled_self (fresh_isAt later)]
  · funext slot
    show (service.closedUntil.get? slot).filter _ = ((service.closedUntil.get? slot).filter _).filter _
    rw [Option.filter_filter]
    congr 1
    funext closed
    by_cases before : later < closed
    · simp [before, lt_of_le_of_lt after before]
    · simp [before]

/-! ## One part of the state at a time -/

theorem view_setLane (slot : Text) (lane : LinearRateLane) (b : Bucket) :
    { service with lanes := service.lanes.set (laneKey slot lane) b }.view now =
      (service.view now).setLane slot lane (refilled b (laneSize lane) now) := by
  refine RateModel.ext ?_ rfl rfl rfl rfl
  funext other kind
  simp only [LinearRateService.view, LinearRateService.laneBucket, RateModel.setLane]
  by_cases same : other = slot ∧ kind = lane
  · rw [if_pos same, laneKey_iff.mpr same, Map.get?_set_self, same.2]
    rfl
  · rw [if_neg same, Map.get?_set_ne fun key => same (laneKey_iff.mp key)]

theorem view_setSession (id : Text) (s : SessionBuckets) :
    { service with sessions := service.sessions.set id s }.view now =
      (service.view now).setSession id (s.refilled now) := by
  refine RateModel.ext rfl ?_ rfl rfl rfl
  funext other
  simp only [LinearRateService.view, RateModel.setSession]
  by_cases same : other = id
  · rw [if_pos same, same, Map.get?_set_self]
    rfl
  · rw [if_neg same, Map.get?_set_ne same]

theorem view_eraseClosed {slot : Text} {closed : ℚ}
    (found : service.closedUntil.get? slot = some closed) (past : ¬now < closed) :
    { service with closedUntil := service.closedUntil.erase slot }.view now =
      service.view now := by
  refine RateModel.ext rfl rfl ?_ rfl rfl
  funext other
  simp only [LinearRateService.view]
  by_cases same : other = slot
  · rw [same, Map.get?_erase_self, found]
    simp [Option.filter, past]
  · rw [Map.get?_erase_ne same]

theorem kept_setLane (kept : service.Kept now) {slot : Text} {lane : LinearRateLane} {b : Bucket}
    (within : b.Within (laneSize lane) now) :
    { service with lanes := service.lanes.set (laneKey slot lane) b }.Kept now :=
  { kept with
    lanes := by
      intro other kind b' found
      by_cases same : laneKey other kind = laneKey slot lane
      · obtain ⟨rfl, rfl⟩ := laneKey_iff.mp same
        rw [Map.get?_set_self] at found
        exact Option.some.inj found ▸ within
      · rw [Map.get?_set_ne same] at found
        exact kept.lanes other kind b' found
    held := by
      intro grant g found
      by_cases same : laneKey g.slot g.lane = laneKey slot lane
      · rw [same, Map.get?_set_self]
        rfl
      · rw [Map.get?_set_ne same]
        exact kept.held grant g found }

theorem kept_setSession (kept : service.Kept now) {id : Text} {s : SessionBuckets}
    (within : s.Within now) :
    { service with sessions := service.sessions.set id s }.Kept now :=
  { kept with
    sessions := by
      intro other s' found
      by_cases same : other = id
      · rw [same, Map.get?_set_self] at found
        exact Option.some.inj found ▸ within
      · rw [Map.get?_set_ne same] at found
        exact kept.sessions other s' found
    distinct := Map.distinct_set id s kept.distinct }

theorem kept_eraseClosed (kept : service.Kept now) (slot : Text) :
    { service with closedUntil := service.closedUntil.erase slot }.Kept now :=
  { kept with
    closed := by
      intro other closed found
      by_cases same : other = slot
      · rw [same, Map.get?_erase_self] at found
        cases found
      · rw [Map.get?_erase_ne same] at found
        exact kept.closed other closed found }

/-- A way of forgetting sessions that forgets only those that are full again. -/
structure DropsFull (drop : ℚ → Map Text SessionBuckets → Map Text SessionBuckets) : Prop where
  distinct : ∀ now sessions, (sessions.map (·.1)).Nodup → ((drop now sessions).map (·.1)).Nodup
  found : ∀ now (sessions : Map Text SessionBuckets), (sessions.map (·.1)).Nodup → ∀ id,
    (drop now sessions).get? id = sessions.get? id ∨
      (drop now sessions).get? id = none ∧
        ∃ s, sessions.get? id = some s ∧ s.isFull now = true

theorem dropsFull_never : DropsFull fun _ sessions => sessions where
  distinct := fun _ _ distinct => distinct
  found := fun _ _ _ _ => .inl rfl

theorem dropsFull_prune : DropsFull prune where
  distinct := by
    intro now sessions distinct
    unfold prune
    split
    next => exact distinct
    next => exact distinct.sublist (List.filter_sublist.map _)
  found := by
    intro now sessions distinct id
    unfold prune
    split
    next => exact .inl rfl
    next =>
        have distinct' : ((sessions.filter fun entry => !entry.2.isFull now).map (·.1)).Nodup :=
          distinct.sublist (List.filter_sublist.map _)
        cases kept : Map.get? id (sessions.filter fun entry => !entry.2.isFull now) with
        | some s =>
            have among := List.mem_of_mem_filter (Map.mem_of_get? kept)
            exact .inl (Map.get?_of_mem distinct among).symm
        | none =>
            cases held : sessions.get? id with
            | none => exact .inl rfl
            | some s =>
                refine .inr ⟨rfl, s, rfl, ?_⟩
                by_contra notFull
                have among : (id, s) ∈ sessions.filter fun entry => !entry.2.isFull now :=
                  List.mem_filter.mpr ⟨Map.mem_of_get? held, by simpa using notFull⟩
                rw [Map.get?_of_mem distinct' among] at kept
                cases kept

variable {drop : ℚ → Map Text SessionBuckets → Map Text SessionBuckets}

theorem view_drop (dropsFull : DropsFull drop) (kept : service.Kept now) :
    { service with sessions := drop now service.sessions }.view now = service.view now := by
  refine RateModel.ext rfl ?_ rfl rfl rfl
  funext id
  simp only [LinearRateService.view]
  rcases dropsFull.found now service.sessions kept.distinct id with same | ⟨gone, s, held, full⟩
  · rw [same]
  · rw [gone, held, Option.getD_none, Option.getD_some,
      refilled_of_isFull (kept.sessions id s held) full, session_refilled_self (fresh_isAt now)]

theorem kept_drop (dropsFull : DropsFull drop) (kept : service.Kept now) :
    { service with sessions := drop now service.sessions }.Kept now :=
  { kept with
    sessions := by
      intro id s found
      rcases dropsFull.found now service.sessions kept.distinct id with same | ⟨gone, -⟩
      · exact kept.sessions id s (same ▸ found)
      · have gone' : (drop now service.sessions).get? id = some s := found
        rw [gone] at gone'
        cases gone'
    distinct := dropsFull.distinct now service.sessions kept.distinct }

/-! ## Taking -/

/-- The service answers and moves on as the model does. -/
structure Refines (now : ℚ) (result : LinearRateTake × LinearRateService)
    (model : LinearRateTake × RateModel) : Prop where
  answer : result.1 = model.1
  view : result.2.view now = model.2
  kept : result.2.Kept now

theorem callsAsked_pos (ask : LinearRateAsk) : 1 ≤ ask.callsAsked := le_max_left _ _

theorem granted_refines {ask : LinearRateAsk} (kept : service.Kept now)
    (enough : (ask.callsAsked : ℚ) ≤ ((service.view now).lanes (slotKey ask.slot) ask.lane).level) :
    Refines now (service.granted ask ((service.view now).lanes (slotKey ask.slot) ask.lane))
      ((service.view now).granted ask) := by
  unfold LinearRateService.granted RateModel.granted
  dsimp only
  have within := view_lane_within kept (slotKey ask.slot) ask.lane
  have isAt := view_lane_at kept (slotKey ask.slot) ask.lane
  generalize (service.view now).lanes (slotKey ask.slot) ask.lane = lane at within isAt enough
  have calls : (0 : ℚ) ≤ ask.callsAsked := Int.cast_nonneg (by have := callsAsked_pos ask; omega)
  have charged : (⟨lane.level - ask.callsAsked, lane.atTime⟩ : Bucket).Within
      (laneSize ask.lane) now :=
    ⟨within.past, sub_nonneg.mpr enough, (sub_le_self _ calls).trans within.bounded⟩
  refine ⟨rfl, ?_, ?_⟩
  · have viewed := @view_setLane service now (slotKey ask.slot) ask.lane
      ⟨lane.level - ask.callsAsked, lane.atTime⟩
    rw [@refilled_self ⟨lane.level - ask.callsAsked, lane.atTime⟩ _ _ isAt] at viewed
    have lanes := congrArg RateModel.lanes viewed
    exact RateModel.ext lanes rfl rfl rfl rfl
  · have kept' := @kept_setLane service now kept (slotKey ask.slot) ask.lane _ charged
    exact { kept' with
      held := by
        intro grant g found
        have found : (service.openGrants.set service.grants _).get? grant = some g := found
        by_cases same : grant = service.grants
        · rw [same, Map.get?_set_self] at found
          cases found
          dsimp only
          rw [Map.get?_set_self]
          rfl
        · rw [Map.get?_set_ne same] at found
          exact kept'.held grant g found }

theorem takeSession_refines (dropsFull : DropsFull drop) {ask : LinearRateAsk}
    (kept : service.Kept now)
    (free : (service.view now).laneRefusal now ask = none)
    (enough : (ask.callsAsked : ℚ) ≤ ((service.view now).lanes (slotKey ask.slot) ask.lane).level) :
    Refines now
      (service.takeSession drop ask now ((service.view now).lanes (slotKey ask.slot) ask.lane))
      ((service.view now).take now ask) := by
  unfold LinearRateService.takeSession RateModel.take
  rw [free]
  cases asks : ask.session with
  | none => exact granted_refines kept enough
  | some asked =>
      dsimp only
      have dropped := view_drop dropsFull kept
      have kept' := kept_drop dropsFull kept
      have session : sessionNow (drop now service.sessions) asked.id now =
          (service.view now).sessions asked.id := by
        rw [← dropped]
        simp only [LinearRateService.view, sessionNow]
        cases (drop now service.sessions).get? asked.id with
        | none => exact (session_refilled_self (fresh_isAt now)).symm
        | some was => rfl
      rw [session]
      have within := view_session_within kept asked.id
      have isAt := view_session_isAt kept asked.id
      split
      next waits =>
          refine ⟨rfl, ?_, ?_⟩
          · have viewed := @view_setSession { service with sessions := drop now service.sessions } now
              asked.id ((service.view now).sessions asked.id)
            rw [dropped, session_refilled_self isAt] at viewed
            dsimp only at viewed ⊢
            rw [viewed]
            refine RateModel.ext rfl ?_ rfl rfl rfl
            funext other
            simp only [RateModel.setSession]
            split
            next same => rw [same]
            next => rfl
          · exact kept_setSession kept' within
      next free =>
          have charged := charged_within within (by have := callsAsked_pos ask; omega) free
          have viewed := @view_setSession { service with sessions := drop now service.sessions } now
            asked.id (((service.view now).sessions asked.id).charged ask.callsAsked asked.write)
          rw [dropped, session_refilled_self (charged_isAt isAt _ _)] at viewed
          have done := @granted_refines _ now ask (@kept_setSession _ now kept' asked.id _ charged)
          rw [viewed] at done
          exact done enough

theorem takeLane_refines (dropsFull : DropsFull drop) {ask : LinearRateAsk}
    (kept : service.Kept now) (isOpen : (service.view now).closed (slotKey ask.slot) = none) :
    Refines now (service.takeLane drop ask now) ((service.view now).take now ask) := by
  unfold LinearRateService.takeLane
  dsimp only
  have within := view_lane_within kept (slotKey ask.slot) ask.lane
  have viewed := @view_setLane service now (slotKey ask.slot) ask.lane
    ((service.view now).lanes (slotKey ask.slot) ask.lane)
  have same : (service.view now).setLane (slotKey ask.slot) ask.lane
      (refilled ((service.view now).lanes (slotKey ask.slot) ask.lane) (laneSize ask.lane) now) =
        service.view now := by
    refine RateModel.ext ?_ rfl rfl rfl rfl
    funext slot lane
    simp only [RateModel.setLane]
    split
    next here =>
        obtain ⟨rfl, rfl⟩ := here
        exact refilled_self (view_lane_at kept _ _)
    next => rfl
  rw [same] at viewed
  have kept' := @kept_setLane service now kept (slotKey ask.slot) ask.lane _ within
  split
  next below =>
      have refused : (service.view now).laneRefusal now ask = some (.workspace,
          secondsUntil ((service.view now).lanes (slotKey ask.slot) ask.lane) (laneSize ask.lane)
            ask.callsAsked) := by
        unfold RateModel.laneRefusal
        rw [isOpen]
        exact if_pos below
      unfold RateModel.take
      rw [refused]
      exact ⟨rfl, viewed, kept'⟩
  next enough =>
      have free : (service.view now).laneRefusal now ask = none := by
        unfold RateModel.laneRefusal
        rw [isOpen]
        exact if_neg enough
      have done := @takeSession_refines _ now drop dropsFull ask kept'
      rw [viewed] at done
      exact done free (not_lt.mp enough)

theorem takeWith_refines (dropsFull : DropsFull drop) (kept : service.Kept now)
    (ask : LinearRateAsk) :
    Refines now (service.takeWith drop ask now) ((service.view now).take now ask) := by
  unfold LinearRateService.takeWith
  dsimp only
  cases found : service.closedUntil.get? (slotKey ask.slot) with
  | none =>
      refine takeLane_refines dropsFull kept ?_
      simp [LinearRateService.view, found]
  | some closed =>
      dsimp only
      split
      next before =>
          have closes : (service.view now).closed (slotKey ask.slot) = some closed := by
            simp [LinearRateService.view, found, Option.filter, before]
          have refused : (service.view now).laneRefusal now ask =
              some (.linear, max 1 ⌈(closed - now) / 1000⌉) := by
            unfold RateModel.laneRefusal
            rw [closes]
          unfold RateModel.take
          rw [refused]
          exact ⟨rfl, rfl, kept⟩
      next past =>
          rw [← view_eraseClosed found past]
          refine takeLane_refines dropsFull (kept_eraseClosed kept _) ?_
          simp [LinearRateService.view]

/-! ## Settling -/

theorem kept_eraseGrant (kept : service.Kept now) (grant : Nat) :
    { service with openGrants := service.openGrants.erase grant }.Kept now :=
  { kept with
    held := by
      intro other g found
      by_cases same : other = grant
      · rw [same, Map.get?_erase_self] at found
        cases found
      · rw [Map.get?_erase_ne same] at found
        exact kept.held other g found }

/-- The lane's part of what a grant gives back. -/
theorem giveBack_lane {slot : Text} {lane : LinearRateLane} {b : Bucket} {back : ℚ}
    (kept : service.Kept now) (found : service.lanes.get? (laneKey slot lane) = some b)
    (nonneg : 0 ≤ back) :
    { service with
        lanes := service.lanes.set (laneKey slot lane)
          (giveBack b (laneSize lane) back now) }.view now =
      (service.view now).setLane slot lane
        (giveBack ((service.view now).lanes slot lane) (laneSize lane) back now) ∧
    { service with
        lanes := service.lanes.set (laneKey slot lane)
          (giveBack b (laneSize lane) back now) }.Kept now := by
  have within := kept.lanes slot lane b found
  have held : (service.view now).lanes slot lane = refilled b (laneSize lane) now := by
    simp [LinearRateService.view, LinearRateService.laneBucket, found]
  refine ⟨?_, kept_setLane kept (giveBack_within (laneSize_proper lane) within nonneg)⟩
  rw [view_setLane, refilled_self (giveBack_at within back), held,
    giveBack_refilled (laneSize_proper lane) within]

/-- The session's part: a session that is not kept has nothing to get back. -/
theorem giveBack_session {id : Text} {back : ℚ} (kept : service.Kept now) (nonneg : 0 ≤ back)
    (unsent : Bool) :
    { service with
        sessions :=
          match service.sessions.get? id with
          | none => service.sessions
          | some s => service.sessions.set id (s.giveBack back unsent now) }.view now =
      (service.view now).setSession id
        (((service.view now).sessions id).giveBack back unsent now) ∧
    { service with
        sessions :=
          match service.sessions.get? id with
          | none => service.sessions
          | some s => service.sessions.set id (s.giveBack back unsent now) }.Kept now := by
  cases found : service.sessions.get? id with
  | none =>
      have held : (service.view now).sessions id = SessionBuckets.fresh now := by
        simp only [LinearRateService.view, found, Option.getD_none]
        exact session_refilled_self (fresh_isAt now)
      refine ⟨?_, kept⟩
      rw [held, fresh_giveBack nonneg]
      refine RateModel.ext rfl ?_ rfl rfl rfl
      funext other
      simp only [RateModel.setSession]
      split
      next same => rw [same, ← held]
      next => rfl
  | some s =>
      have within := kept.sessions id s found
      have held : (service.view now).sessions id = s.refilled now := by
        simp only [LinearRateService.view, found, Option.getD_some]
      refine ⟨?_, kept_setSession kept (session_giveBack_within within nonneg unsent)⟩
      dsimp only
      rw [view_setSession, held, session_giveBack_refilled within]

theorem giveBack_refines {g : OpenGrant} (kept : service.Kept now)
    (held : (service.lanes.get? (laneKey g.slot g.lane)).isSome) (spent : Int) :
    (service.giveBack g spent now).view now = (service.view now).giveBack now g spent ∧
      (service.giveBack g spent now).Kept now := by
  unfold LinearRateService.giveBack RateModel.giveBack
  dsimp only
  split
  next back =>
      have nonneg : (0 : ℚ) ≤ ((g.calls - spent : Int) : ℚ) := Int.cast_nonneg back.le
      obtain ⟨b, found⟩ := Option.isSome_iff_exists.mp held
      obtain ⟨viewed, kept'⟩ := giveBack_lane kept found nonneg
      rw [found]
      dsimp only
      cases g.session with
      | none => exact ⟨viewed, kept'⟩
      | some id =>
          obtain ⟨viewed', kept''⟩ :=
            @giveBack_session _ now id _ kept' nonneg (g.write && decide (spent = 0))
          rw [viewed] at viewed'
          exact ⟨viewed', kept''⟩
  next => exact ⟨rfl, kept⟩

/-- A closing that has ended counts for as much as none: it ended at 0 or later, before the new
one. -/
theorem max_closed {held : Option ℚ} {ends : ℚ} (after : now < ends)
    (nonneg : ∀ closed, held = some closed → 0 ≤ closed) :
    max (held.getD 0) ends = max ((held.filter fun closed => decide (now < closed)).getD 0) ends := by
  cases held with
  | none => rfl
  | some closed =>
      rw [Option.filter_some, Option.getD_some]
      split
      next => rfl
      next past =>
          have ended : closed ≤ now := not_lt.mp fun before => past (decide_eq_true before)
          have positive := nonneg closed rfl
          rw [Option.getD_none, max_eq_right (by linarith), max_eq_right (by linarith)]

theorem close_refines (kept : service.Kept now) (slot : Text) (wait : Option Amount) :
    (service.close slot wait now).view now = (service.view now).close now slot wait ∧
      (service.close slot wait now).Kept now := by
  cases wait with
  | none => exact ⟨rfl, kept⟩
  | some amount =>
      cases amount with
      | infinite _ => exact ⟨rfl, kept⟩
      | nan => exact ⟨rfl, kept⟩
      | finite value =>
          unfold LinearRateService.close RateModel.close
          dsimp only
          split
          next positive =>
              have ceil : (1 : ℚ) ≤ (⌈value⌉ : Int) := by
                exact_mod_cast Int.one_le_ceil_iff.mpr positive
              have ends : now < now + (⌈value⌉ : Int) * 1000 := by linarith
              constructor
              · refine RateModel.ext rfl rfl ?_ rfl rfl
                funext other
                simp only [LinearRateService.view, RateModel.setClosed]
                by_cases same : other = slot
                · subst same
                  rw [if_pos rfl, Map.get?_set_self, Option.filter_some,
                    if_pos (decide_eq_true (lt_max_of_lt_right ends))]
                  exact congrArg some (max_closed ends (kept.closed other))
                · rw [if_neg same, Map.get?_set_ne same]
              · exact { kept with
                  closed := by
                    intro other closed found
                    by_cases same : other = slot
                    · rw [same, Map.get?_set_self] at found
                      rw [← Option.some.inj found]
                      refine le_max_of_le_left ?_
                      cases held : service.closedUntil.get? slot with
                      | none => exact le_rfl
                      | some before => exact kept.closed slot before held
                    · rw [Map.get?_set_ne same] at found
                      exact kept.closed other closed found }
          next => exact ⟨rfl, kept⟩

theorem settle_refines (kept : service.Kept now) (grant : Nat) (outcome : LinearRateOutcome) :
    (service.settle grant outcome now).view now = (service.view now).settle now grant outcome ∧
      (service.settle grant outcome now).Kept now := by
  unfold LinearRateService.settle RateModel.settle
  have grants : (service.view now).openGrants = service.openGrants := rfl
  rw [grants]
  cases found : service.openGrants.get? grant with
  | none => exact ⟨rfl, kept⟩
  | some g =>
      have erased := kept_eraseGrant kept grant
      dsimp only
      cases spentCalls g.calls outcome.spent with
      | none => exact close_refines erased g.slot outcome.closeForS
      | some spent =>
          obtain ⟨viewed, kept'⟩ :=
            @giveBack_refines _ now g erased (kept.held grant g found) spent
          obtain ⟨viewed', kept''⟩ := close_refines kept' g.slot outcome.closeForS
          rw [viewed] at viewed'
          exact ⟨viewed', kept''⟩

end Ccrc.Linear
