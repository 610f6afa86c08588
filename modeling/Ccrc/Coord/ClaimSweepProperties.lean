import Ccrc.Coord.ClaimSweep
import Ccrc.Coord.ClaimStoreProperties

/-! A holder in doubt keeps its claim. The renewing lane re-arms the lease of every
holder not measured gone and the lapsing lane ends no such claim before the hard
cap. What is left is the expiry inside an attempt, which reads only the clock. -/

set_option autoImplicit false

namespace Ccrc.Coord

open Library

/-! ## Undisturbed claims -/

/-- Nobody ends the claim: no release, no break, no close of its run, and a holder
that no sweep reads as gone, all before the hard cap. -/
def Claim.Undoubted (claim : Claim) : ClaimEvent → Prop
  | .claimAttempt input => input.now < claim.hardExpiresAt
  | .renewClaims sweep | .lapseClaims sweep =>
      sweep.now < claim.hardExpiresAt ∧ sweep.liveness claim.heldBy ≠ .gone
  | .claimRelease id _ _ | .claimBreak id _ _ => id ≠ claim.id
  | .releaseClaimsForRun runId _ => claim.runId ≠ some runId

/-- An attempt comes before the standing lease runs out. -/
def Claim.InLease (claim : Claim) : ClaimEvent → Prop
  | .claimAttempt input => input.now < claim.expiresAt
  | _ => True

instance (claim : Claim) (event : ClaimEvent) : Decidable (claim.Undoubted event) :=
  match event with
  | .claimAttempt _ => inferInstanceAs (Decidable (_ < _))
  | .renewClaims _ | .lapseClaims _ => inferInstanceAs (Decidable (_ ∧ _))
  | .claimRelease _ _ _ | .claimBreak _ _ _ => inferInstanceAs (Decidable (_ ≠ _))
  | .releaseClaimsForRun _ _ => inferInstanceAs (Decidable (_ ≠ _))

instance (claim : Claim) (event : ClaimEvent) : Decidable (claim.InLease event) :=
  match event with
  | .claimAttempt _ => inferInstanceAs (Decidable (_ < _))
  | .renewClaims _ | .lapseClaims _ | .claimRelease _ _ _ | .claimBreak _ _ _
  | .releaseClaimsForRun _ _ => inferInstanceAs (Decidable True)

/-! ## One visit of a lane -/

theorem renewClaim_frame (sweep : ClaimSweep) {store : ClaimStore} {swept claim : Claim}
    (member : claim ∈ store.claims) (other : swept.id ≠ claim.id) :
    claim ∈ (renewClaim sweep store swept).claims := by
  simp only [renewClaim]
  split
  next => exact List.mem_map.mpr ⟨claim, member, if_neg fun same => other same.1.symm⟩
  next => exact member
  next => exact member

theorem lapseClaim_frame (sweep : ClaimSweep) {store : ClaimStore} {swept claim : Claim}
    (member : claim ∈ store.claims) (other : swept.id ≠ claim.id) :
    claim ∈ (lapseClaim sweep store swept).claims := by
  simp only [lapseClaim]
  split
  next =>
      refine List.mem_map.mpr ⟨claim, member, ?_⟩
      simp [Claim.endIf, Ne.symm other]
  next => exact member
  next => exact member

/-- A lane visits a live claim once, and what the visit leaves of it stays. -/
theorem sweep_visits {visit : ClaimStore → Claim → ClaimStore}
    (frame : ∀ {store swept claim}, claim ∈ store.claims → swept.id ≠ claim.id →
      claim ∈ (visit store swept).claims)
    {store : ClaimStore} (ids : store.claims.Pairwise (·.id < ·.id)) {claim : Claim}
    (member : claim ∈ store.claims) (live : claim.isLive = true) :
    ∃ before, claim ∈ before.claims ∧ ∀ next ∈ (visit before claim).claims, next.id = claim.id →
      next ∈ ((activeClaims store).foldl visit store).claims := by
  have frames : ∀ (swept : List Claim) (start : ClaimStore) (claim : Claim),
      claim ∈ start.claims → (∀ other ∈ swept, other.id ≠ claim.id) →
      claim ∈ (swept.foldl visit start).claims := by
    intro swept
    induction swept with
    | nil => exact fun _ _ among _ => among
    | cons first rest ih =>
        intro start claim among others
        exact ih _ claim (frame among (others first List.mem_cons_self)) fun other later =>
          others other (List.mem_cons_of_mem first later)
  have active : claim ∈ activeClaims store := List.mem_filter.mpr ⟨member, live⟩
  have ordered : (activeClaims store).Pairwise (·.id < ·.id) := ids.filter _
  obtain ⟨before, after, split⟩ := List.append_of_mem active
  rw [split] at ordered ⊢
  obtain ⟨_, later, earlier⟩ := List.pairwise_append.mp ordered
  refine ⟨before.foldl visit store, frames before store claim member fun other isOther =>
    Nat.ne_of_lt (earlier other isOther claim List.mem_cons_self), fun next isNext sameId => ?_⟩
  rw [List.foldl_append, List.foldl_cons]
  exact frames after _ next isNext fun other isOther =>
    sameId ▸ Nat.ne_of_gt ((List.pairwise_cons.mp later).1 other isOther)


/-- What no disturbance may change of a claim. -/
structure Claim.Kept (claim next : Claim) : Prop where
  id : next.id = claim.id
  live : next.isLive = true
  heldBy : next.heldBy = claim.heldBy
  hardExpiresAt : next.hardExpiresAt = claim.hardExpiresAt

theorem Claim.Kept.refl {claim : Claim} (live : claim.isLive = true) : claim.Kept claim :=
  ⟨rfl, live, rfl, rfl⟩

theorem Claim.Kept.trans {first second third : Claim} (early : first.Kept second)
    (late : second.Kept third) : first.Kept third :=
  ⟨late.id.trans early.id, late.live, late.heldBy.trans early.heldBy,
    late.hardExpiresAt.trans early.hardExpiresAt⟩

theorem KeepsHold.kept {change : Claim → Claim} (keeps : KeepsHold change) {claim : Claim}
    (live : claim.isLive = true) : claim.Kept (change claim) where
  id := keeps.id claim
  live := by rwa [Claim.isLive, keeps.state]
  heldBy := keeps.heldBy claim
  hardExpiresAt := keeps.hardExpiresAt claim

section Visit

variable {sweep : ClaimSweep} {store : ClaimStore} {claim : Claim}
  (member : claim ∈ store.claims) (live : claim.isLive = true)
  (before : sweep.now < claim.hardExpiresAt) (doubt : sweep.liveness claim.heldBy ≠ .gone)

include member live before doubt

/-- The renewing lane leaves the claim a whole lease from now, up to the cap. -/
theorem renewClaim_extends :
    ∃ next ∈ (renewClaim sweep store claim).claims, claim.Kept next ∧
      min (sweep.now + claimLeaseMs) claim.hardExpiresAt ≤ next.expiresAt := by
  have renewing : (if sweep.liveness claim.heldBy = .unmeasurable then LivenessVerdict.running
      else sweep.liveness claim.heldBy) = .running := by
    cases verdict : sweep.liveness claim.heldBy with
    | running => rfl
    | gone => exact absurd verdict doubt
    | unmeasurable => rfl
  simp only [renewClaim, renewing, claimExpiry, if_neg (Int.not_le.mpr before)]
  by_cases longer : claim.expiresAt < min (sweep.now + claimLeaseMs) claim.hardExpiresAt
  · rw [if_pos longer]
    have keeps := renewClaimRow_keepsHold claim.id
      (min (sweep.now + claimLeaseMs) claim.hardExpiresAt) sweep.now
    refine ⟨_, List.mem_map_of_mem member, keeps.kept live, ?_⟩
    simp [live]
  · rw [if_neg longer]
    exact ⟨claim, member, .refl live, Int.not_lt.mp longer⟩

/-- The lapsing lane leaves the claim as it is. -/
theorem lapseClaim_holds : claim ∈ (lapseClaim sweep store claim).claims := by
  simp only [lapseClaim, claimExpiry, if_neg (Int.not_le.mpr before)]
  cases verdict : sweep.liveness claim.heldBy with
  | running =>
      by_cases longer : claim.expiresAt < min (sweep.now + claimLeaseMs) claim.hardExpiresAt
      · simpa [longer] using member
      · simpa [longer] using member
  | gone => exact absurd verdict doubt
  | unmeasurable => exact member

end Visit

/-! ## One step -/

theorem renewClaims_exclusive (sweep : ClaimSweep) {store : ClaimStore}
    (held : ClaimsExclusive store) : ClaimsExclusive (renewClaims store sweep) := by
  refine List.foldlRecOn (motive := ClaimsExclusive) _ _ held fun before exclusive claim _ => ?_
  simp only [renewClaim]
  split
  next => exact exclusive.rewrite (renewClaimRow_keepsHold _ _ _)
  next => exact exclusive
  next => exact exclusive

theorem lapseClaims_exclusive (sweep : ClaimSweep) {store : ClaimStore}
    (held : ClaimsExclusive store) : ClaimsExclusive (lapseClaims store sweep) := by
  refine List.foldlRecOn (motive := ClaimsExclusive) _ _ held fun before exclusive claim _ => ?_
  simp only [lapseClaim]
  split
  next => exact exclusive.endClaims _ (by decide) _ _
  next => exact exclusive
  next => exact exclusive

theorem ClaimsExclusive.event {store : ClaimStore} (held : ClaimsExclusive store)
    (event : ClaimEvent) : ClaimsExclusive (claimEventStep store event) := by
  cases event with
  | claimAttempt input => exact held.step (.claimAttempt input)
  | renewClaims sweep => exact renewClaims_exclusive sweep held
  | lapseClaims sweep => exact lapseClaims_exclusive sweep held
  | claimRelease id endedBy now => exact held.step (.claimRelease id endedBy now)
  | claimBreak id endedBy now => exact held.step (.claimBreak id endedBy now)
  | releaseClaimsForRun runId atTime => exact held.step (.releaseClaimsForRun runId atTime)

section Step

variable {store : ClaimStore} {claim : Claim} (member : claim ∈ store.claims)

include member

theorem endClaims_frame {ends : Claim → Bool} (state : ClaimState) (endedAt : Int)
    (endedBy : Text) (spared : ends claim = false) :
    claim ∈ (endClaims ends state endedAt endedBy store).claims :=
  List.mem_map.mpr ⟨claim, member, by simp [Claim.endIf, spared]⟩

theorem endClaim_frame {id : Nat} (other : id ≠ claim.id) (state : ClaimState) (endedBy : Text)
    (now : Int) : claim ∈ (endClaim store id state endedBy now).1.claims := by
  unfold endClaim
  split
  next => exact member
  next =>
      split
      next => exact endClaims_frame member _ _ _ (by simp [Ne.symm other])
      next => exact member

/-- An attempt within the lease does not end the claim. -/
theorem claimAttempt_keeps (held : ClaimsExclusive store) (live : claim.isLive = true)
    {input : ClaimInput} (beforeCap : input.now < claim.hardExpiresAt)
    (inLease : input.now < claim.expiresAt) :
    ∃ next ∈ (claimStep store (.claimAttempt input)).claims, claim.Kept next := by
  have unexpired : claim ∈ (expireLapsedInner store input.now).claims :=
    endClaims_frame (endClaims_frame member _ _ _ (by simpa using beforeCap)) _ _ _
      (by simpa using inLease)
  simp only [claimStep, claimAttempt]
  split
  next => exact ⟨claim, unexpired, .refl live⟩
  next => exact ⟨claim, unexpired, .refl live⟩
  next granted =>
      obtain ⟨change, extra, after, result, keeps, grants, claims, _⟩ :=
        grantClaim_some (held.expireLapsedInner input.now) granted
      rw [grants]
      refine ⟨change claim, ?_, keeps.kept live⟩
      rw [Option.map_some, Option.getD_some, claims]
      exact List.mem_append_left _ (List.mem_map_of_mem unexpired)

/-- A renewing pass leaves the claim a whole lease, up to the cap. -/
theorem renewClaims_extends (held : ClaimsExclusive store) (live : claim.isLive = true)
    {sweep : ClaimSweep} (before : sweep.now < claim.hardExpiresAt)
    (doubt : sweep.liveness claim.heldBy ≠ .gone) :
    ∃ next ∈ (renewClaims store sweep).claims, claim.Kept next ∧
      min (sweep.now + claimLeaseMs) claim.hardExpiresAt ≤ next.expiresAt := by
  obtain ⟨earlier, among, stays⟩ := sweep_visits (renewClaim_frame sweep) held.ids member live
  obtain ⟨next, isNext, kept, lease⟩ := renewClaim_extends among live before doubt
  exact ⟨next, stays next isNext kept.id, kept, lease⟩

theorem claimEventStep_keeps (held : ClaimsExclusive store) (live : claim.isLive = true)
    {event : ClaimEvent} (undoubted : claim.Undoubted event) (inLease : claim.InLease event) :
    ∃ next ∈ (claimEventStep store event).claims, claim.Kept next := by
  cases event with
  | claimAttempt input => exact claimAttempt_keeps member held live undoubted inLease
  | renewClaims sweep =>
      obtain ⟨next, isNext, kept, _⟩ :=
        renewClaims_extends member held live undoubted.1 undoubted.2
      exact ⟨next, isNext, kept⟩
  | lapseClaims sweep =>
      obtain ⟨before, among, stays⟩ := sweep_visits (lapseClaim_frame sweep) held.ids member live
      exact ⟨claim, stays claim (lapseClaim_holds among live undoubted.1 undoubted.2) rfl,
        .refl live⟩
  | claimRelease id endedBy now => exact ⟨claim, endClaim_frame member undoubted _ _ _, .refl live⟩
  | claimBreak id endedBy now => exact ⟨claim, endClaim_frame member undoubted _ _ _, .refl live⟩
  | releaseClaimsForRun runId atTime =>
      have spared : (claim.runId == some runId) = false := beq_eq_false_iff_ne.mpr undoubted
      exact ⟨claim, endClaims_frame member _ _ _ spared, .refl live⟩

end Step

/-! ## Runs -/

/-- What the events may not do to the claim with this id. -/
def Undoubted (id : Nat) (store : ClaimStore) (event : ClaimEvent) : Prop :=
  ∀ claim ∈ store.claims, claim.id = id → claim.Undoubted event

def InLease (id : Nat) (store : ClaimStore) (event : ClaimEvent) : Prop :=
  ∀ claim ∈ store.claims, claim.id = id → claim.InLease event

instance (id : Nat) (store : ClaimStore) (event : ClaimEvent) :
    Decidable (Undoubted id store event) :=
  inferInstanceAs (Decidable (∀ claim ∈ store.claims, _))

instance (id : Nat) (store : ClaimStore) (event : ClaimEvent) :
    Decidable (InLease id store event) :=
  inferInstanceAs (Decidable (∀ claim ∈ store.claims, _))

theorem claimEvents_exclusive (events : List ClaimEvent) :
    ClaimsExclusive (runFrom claimEventStep .empty events) :=
  runFrom_invariant (fun _ event held => held.event event) ClaimsExclusive.empty events

/-- The claim stands, whole but for its lease and its holder's words. -/
def Stands (claim : Claim) (store : ClaimStore) : Prop :=
  ClaimsExclusive store ∧ ∃ kept ∈ store.claims, claim.Kept kept

theorem Stands.step {claim : Claim} {store : ClaimStore} {event : ClaimEvent}
    (allowed : Undoubted claim.id store event ∧ InLease claim.id store event)
    (stands : Stands claim store) : Stands claim (claimEventStep store event) := by
  obtain ⟨held, kept, member, isKept⟩ := stands
  obtain ⟨next, isNext, nextKept⟩ := claimEventStep_keeps member held isKept.live
    (allowed.1 kept member isKept.id) (allowed.2 kept member isKept.id)
  exact ⟨held.event event, next, isNext, isKept.trans nextKept⟩

/-- A claim that nobody ended, whose holder no sweep read as gone, stays live before
its hard cap while attempts come within its lease, and a renewing sweep leaves it a
whole lease. -/
theorem undoubted_stands (before since : List ClaimEvent) (claim : Claim)
    (made : claim ∈ (runFrom claimEventStep .empty before).claims) (live : claim.state = .live)
    (undisturbed : Guarded claimEventStep
      (fun store event => Undoubted claim.id store event ∧ InLease claim.id store event)
      (runFrom claimEventStep .empty before) since) :
    ∃ kept ∈ (runFrom claimEventStep .empty (before ++ since)).claims, kept.id = claim.id ∧
      kept.state = .live ∧ kept.heldBy = claim.heldBy ∧
      kept.hardExpiresAt = claim.hardExpiresAt ∧
      ∀ sweep, since.getLast? = some (.renewClaims sweep) →
        min (sweep.now + claimLeaseMs) kept.hardExpiresAt ≤ kept.expiresAt := by
  have start : Stands claim (runFrom claimEventStep .empty before) :=
    ⟨claimEvents_exclusive before, claim, made, .refl (beq_iff_eq.mpr live)⟩
  have preserved : ∀ store event,
      Undoubted claim.id store event ∧ InLease claim.id store event → Stands claim store →
      Stands claim (claimEventStep store event) := fun _ _ => Stands.step
  obtain ⟨held, kept, member, isKept⟩ := Guarded.invariant preserved start undisturbed
  rw [runFrom_append]
  refine ⟨kept, member, isKept.id, beq_iff_eq.mp isKept.live, isKept.heldBy,
    isKept.hardExpiresAt, fun sweep swept => ?_⟩
  obtain ⟨earlier, rfl⟩ := List.getLast?_eq_some_iff.mp swept
  obtain ⟨guarded, last⟩ := guarded_append.mp undisturbed
  obtain ⟨still, standing, among, isStanding⟩ := Guarded.invariant preserved start guarded
  obtain ⟨beforeCap, doubt⟩ := last.1.1 standing among isStanding.id
  obtain ⟨next, isNext, nextKept, lease⟩ :=
    renewClaims_extends among still isStanding.live beforeCap doubt
  rw [runFrom_append] at held member
  cases held.unique member isNext
    (isKept.id.trans (nextKept.id.trans isStanding.id).symm)
  rw [nextKept.hardExpiresAt]
  exact lease

/-! An attempt of session A at time 0, a sweep that cannot measure A ten minutes
later, and the attempt of another session, on another project, an hour in. -/

def firstAttempt : ClaimInput where
  project := Text.lit "p"
  paths := [Text.lit "shared/api.ts"]
  sessionId := Text.lit "A"
  uuid := Text.lit "a"
  runId := none
  intent := Text.lit "edit"
  now := 0
  holderDeliverable := none

def doubtfulSweep (now : Int) : ClaimSweep where
  sessions := []
  refused := [Text.lit "A"]
  now := now

def otherAttempt (now : Int) : ClaimInput where
  project := Text.lit "q"
  paths := [Text.lit "src"]
  sessionId := Text.lit "B"
  uuid := Text.lit "b"
  runId := none
  intent := Text.lit "edit"
  now := now
  holderDeliverable := none

/-- The expiry inside an attempt reads only the clock. -/
theorem unswept_lapses :
    ∃ (before since : List ClaimEvent) (claim : Claim),
      claim ∈ (runFrom claimEventStep .empty before).claims ∧ claim.state = .live ∧
      Guarded claimEventStep (Undoubted claim.id) (runFrom claimEventStep .empty before) since ∧
      ¬∃ kept ∈ (runFrom claimEventStep .empty (before ++ since)).claims,
        kept.id = claim.id ∧ kept.state = .live :=
  ⟨[.claimAttempt firstAttempt],
    [.renewClaims (doubtfulSweep (10 * 60000)), .lapseClaims (doubtfulSweep (10 * 60000)),
      .claimAttempt (otherAttempt (60 * 60000))],
    newClaim firstAttempt 1, by decide +kernel⟩

/-- The same hour with another sweep in it. -/
theorem undoubted_stands_swept :
    ∃ kept ∈ (runFrom claimEventStep .empty ([.claimAttempt firstAttempt] ++
        [.renewClaims (doubtfulSweep (10 * 60000)), .renewClaims (doubtfulSweep (40 * 60000)),
          .claimAttempt (otherAttempt (60 * 60000)),
          .renewClaims (doubtfulSweep (70 * 60000))])).claims,
      kept.id = 1 ∧ kept.state = .live ∧ kept.heldBy = Text.lit "A" ∧
      kept.hardExpiresAt = claimHardCapMs ∧
      ∀ sweep, some (ClaimEvent.renewClaims (doubtfulSweep (70 * 60000))) =
          some (.renewClaims sweep) →
        min (sweep.now + claimLeaseMs) kept.hardExpiresAt ≤ kept.expiresAt :=
  undoubted_stands [.claimAttempt firstAttempt]
    [.renewClaims (doubtfulSweep (10 * 60000)), .renewClaims (doubtfulSweep (40 * 60000)),
      .claimAttempt (otherAttempt (60 * 60000)), .renewClaims (doubtfulSweep (70 * 60000))]
    (newClaim firstAttempt 1) (by decide +kernel) rfl (by decide +kernel)

end Ccrc.Coord
