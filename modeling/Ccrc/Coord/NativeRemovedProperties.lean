import Ccrc.Coord.NativeRemoved

/-! Evidence of a native removal over whole histories of passes. One pass is
reduced to what it holds of each lease afterwards; the evidence behind a count
then follows by induction on the history. -/

set_option autoImplicit false

namespace Ccrc.Coord

open Library Shared

instance : Std.Total createdBefore where
  total a b := by
    rcases Int.lt_trichotomy a.creatingJournalSequence b.creatingJournalSequence with
      earlier | same | later
    · exact .inl (.inl earlier)
    · exact (List.le_total a.leaseId b.leaseId).imp (fun le => .inr ⟨same, le⟩)
        (fun le => .inr ⟨same.symm, le⟩)
    · exact .inr (.inl later)

instance : IsTrans DelegationLeaseRow createdBefore where
  trans a b c first second := by
    rcases first with earlier | ⟨same, le⟩
    · rcases second with further | ⟨same, -⟩
      · exact .inl (Int.lt_trans earlier further)
      · exact .inl (same ▸ earlier)
    · rcases second with further | ⟨sameAgain, leAgain⟩
      · exact .inl (same ▸ further)
      · exact .inr ⟨same.trans sameAgain, List.le_trans le leAgain⟩

theorem oldestFirst_perm (leases : List DelegationLeaseRow) :
    (oldestFirst leases).Perm leases :=
  List.perm_insertionSort createdBefore leases

theorem oldestFirst_sorted (leases : List DelegationLeaseRow) :
    (oldestFirst leases).Pairwise createdBefore :=
  List.pairwise_insertionSort createdBefore leases

/-- An unreleased, settled lease whose project was censused and whose record was
missing from the listing or listed absent. -/
structure Missed (input : NativeRemovedInput) (lease : DelegationLeaseRow) : Prop where
  unreleased : lease.releasedAt = none
  settled : delegationCarrierStateOf lease (input.carrierOf lease) ≠ .transferring
  censused : lease.project ∈ input.censused
  readable : NativeRemovedInput.keyOf lease ∉ input.unreadable
  gone : NativeRemovedInput.keyOf lease ∉ input.listed ∨
    NativeRemovedInput.keyOf lease ∈ input.absent

/-- An unreleased lease that the pass does not judge. -/
structure Skipped (input : NativeRemovedInput) (lease : DelegationLeaseRow) : Prop where
  unreleased : lease.releasedAt = none
  unjudged : delegationCarrierStateOf lease (input.carrierOf lease) = .transferring ∨
    lease.project ∉ input.censused

theorem listing_missing {input : NativeRemovedInput} {lease : DelegationLeaseRow} :
    input.listing lease = .missing ↔ Missed input lease := by
  unfold NativeRemovedInput.listing
  constructor
  · intro missing
    split at missing
    · cases missing
    next unreleased =>
      split at missing
      · cases missing
      next settled =>
        split at missing
        · cases missing
        next censused =>
          split at missing
          · cases missing
          next readable =>
            split at missing
            · cases missing
            next gone =>
              exact ⟨by simpa using unreleased, settled, not_not.mp censused, readable,
                (not_and_or.mp gone).imp id not_not.mp⟩
  · rintro ⟨unreleased, settled, censused, readable, gone⟩
    have notPresent : ¬(NativeRemovedInput.keyOf lease ∈ input.listed ∧
        NativeRemovedInput.keyOf lease ∉ input.absent) :=
      fun present => gone.elim (· present.1) present.2
    rw [unreleased, if_neg (by simp), if_neg settled, if_neg (not_not.mpr censused),
      if_neg readable, if_neg notPresent]

theorem listing_skipped {input : NativeRemovedInput} {lease : DelegationLeaseRow}
    (skipped : input.listing lease = .transferring ∨ input.listing lease = .uncensused) :
    Skipped input lease := by
  unfold NativeRemovedInput.listing at skipped
  by_cases released : lease.releasedAt.isSome
  · simp [released] at skipped
  · have unreleased : lease.releasedAt = none := by simpa using released
    by_cases transferring :
        delegationCarrierStateOf lease (input.carrierOf lease) = .transferring
    · exact ⟨unreleased, .inl transferring⟩
    · by_cases uncensused : lease.project ∉ input.censused
      · exact ⟨unreleased, .inr uncensused⟩
      · rw [if_neg released, if_neg transferring, if_neg uncensused] at skipped
        split at skipped
        · simp at skipped
        · split at skipped <;> simp at skipped

theorem listing_released {input : NativeRemovedInput} {lease : DelegationLeaseRow} :
    input.listing lease = .released ↔ lease.releasedAt.isSome := by
  unfold NativeRemovedInput.listing
  split
  next released => simp [released]
  next unreleased =>
    repeat' split
    all_goals simp [unreleased]

/-- The listings absent that a pass counts for a lease. -/
def countAfter (input : NativeRemovedInput) (lease : DelegationLeaseRow) : Int :=
  match input.listing lease with
  | .transferring | .uncensused => input.prior lease
  | .missing => input.prior lease + 1
  | .released | .unreadable | .present => 0

/-- A lease whose count has reached the bound in this pass. -/
def Qualified (input : NativeRemovedInput) (lease : DelegationLeaseRow) : Prop :=
  Missed input lease ∧ delegationNativeRemovedListings ≤ input.prior lease + 1

instance (input : NativeRemovedInput) (lease : DelegationLeaseRow) :
    Decidable (Missed input lease) :=
  decidable_of_iff _ listing_missing

instance (input : NativeRemovedInput) (lease : DelegationLeaseRow) :
    Decidable (Qualified input lease) :=
  inferInstanceAs (Decidable (_ ∧ _))

theorem planLease_memory (input : NativeRemovedInput) (plan : NativeRemovedPlan)
    (lease : DelegationLeaseRow) :
    (planLease input plan lease).memory =
      if lease.releasedAt.isSome then plan.memory
      else (plan.keep input lease (countAfter input lease)).memory := by
  by_cases released : lease.releasedAt.isSome
  · rw [if_pos released, planLease, listing_released.mpr released]
  · have listed : input.listing lease ≠ .released := mt listing_released.mp released
    rw [if_neg released]
    cases listing : input.listing lease with
    | released => exact absurd listing listed
    | transferring | uncensused | unreadable | present =>
        simp only [planLease, countAfter, listing]
    | missing =>
        simp only [planLease, countAfter, listing]
        split <;> rfl

theorem planLease_other (input : NativeRemovedInput) (plan : NativeRemovedPlan)
    {lease : DelegationLeaseRow} {id : Text} (other : lease.leaseId ≠ id) :
    (planLease input plan lease).memory.absentListings.get? id =
        plan.memory.absentListings.get? id ∧
      (planLease input plan lease).memory.lastHeads.get? id = plan.memory.lastHeads.get? id := by
  rw [planLease_memory]
  split
  next => exact ⟨rfl, rfl⟩
  next =>
    constructor
    · simp only [NativeRemovedPlan.keep]
      split
      next => exact Map.get?_set_ne (Ne.symm other) _ _
      next => rfl
    · simp only [NativeRemovedPlan.keep]
      split
      next => exact Map.get?_set_ne (Ne.symm other) _ _
      next => rfl

theorem foldl_planLease_others (input : NativeRemovedInput) {id : Text}
    {leases : List DelegationLeaseRow} (others : ∀ lease ∈ leases, lease.leaseId ≠ id)
    (plan : NativeRemovedPlan) :
    (leases.foldl (planLease input) plan).memory.absentListings.get? id =
        plan.memory.absentListings.get? id ∧
      (leases.foldl (planLease input) plan).memory.lastHeads.get? id =
        plan.memory.lastHeads.get? id := by
  induction leases generalizing plan with
  | nil => exact ⟨rfl, rfl⟩
  | cons lease leases ih =>
      have rest := ih (fun other member => others other (List.mem_cons_of_mem lease member))
        (planLease input plan lease)
      have first := planLease_other input plan
        (others lease List.mem_cons_self)
      exact ⟨rest.1.trans first.1, rest.2.trans first.2⟩

/-- A pass holds nothing of a lease that is gone from its checkpoint. -/
theorem plan_gone {input : NativeRemovedInput} {id : Text}
    (gone : ∀ lease ∈ input.checkpoint.leases, lease.leaseId ≠ id) :
    (planNativeRemoved input).memory.absentListings.get? id = none ∧
      (planNativeRemoved input).memory.lastHeads.get? id = none :=
  foldl_planLease_others input
    (fun lease member => gone lease ((oldestFirst_perm _).mem_iff.mp member)) _

/-- What a pass holds of a lease of its checkpoint. -/
theorem plan_lease {input : NativeRemovedInput} {lease : DelegationLeaseRow}
    (member : lease ∈ input.checkpoint.leases) :
    (planNativeRemoved input).memory.absentListings.get? lease.leaseId =
        (if lease.releasedAt = none ∧ 0 < countAfter input lease then
          some (countAfter input lease) else none) ∧
      (planNativeRemoved input).memory.lastHeads.get? lease.leaseId =
        (if lease.releasedAt = none then input.head lease else none) := by
  have perm := oldestFirst_perm input.checkpoint.leases
  obtain ⟨before, after, split⟩ := List.append_of_mem (perm.mem_iff.mpr member)
  have unique : ((oldestFirst input.checkpoint.leases).map (·.leaseId)).Nodup :=
    (perm.map _).nodup_iff.mpr input.checkpoint.uniqueLeases
  rw [split, List.map_append, List.map_cons, List.nodup_middle, List.nodup_cons] at unique
  have others : ∀ other ∈ before ++ after, other.leaseId ≠ lease.leaseId := by
    intro other isOther same
    refine unique.1 ?_
    rw [← List.map_append, ← same]
    exact List.mem_map_of_mem isOther
  rw [planNativeRemoved, split, List.foldl_append, List.foldl_cons]
  have earlier := foldl_planLease_others input
    (fun other isOther => others other (List.mem_append_left after isOther))
    { release := [], memory := .empty, uncensused := 0 }
  have later := foldl_planLease_others input
    (fun other isOther => others other (List.mem_append_right before isOther))
    (planLease input (before.foldl (planLease input)
      { release := [], memory := .empty, uncensused := 0 }) lease)
  rw [later.1, later.2, planLease_memory]
  by_cases released : lease.releasedAt.isSome
  · have isReleased : lease.releasedAt ≠ none := Option.isSome_iff_ne_none.mp released
    rw [if_pos released, earlier.1, earlier.2]
    simp [isReleased, NativeRemovedMemory.empty]
  · have unreleased : lease.releasedAt = none := by simpa using released
    rw [if_neg released]
    simp only [NativeRemovedPlan.keep, unreleased, true_and, if_true]
    constructor
    · split
      next => exact Map.get?_set_self _ _ _
      next => exact earlier.1
    · cases input.head lease with
      | none => exact earlier.2
      | some head => exact Map.get?_set_self _ _ _

/-- One lease is asked for where it qualifies and the bound leaves room. -/
theorem planLease_release (input : NativeRemovedInput) (plan : NativeRemovedPlan)
    (lease : DelegationLeaseRow) :
    (planLease input plan lease).release =
      if Qualified input lease ∧ plan.release.length < delegationLeaseReleasesPerPass then
        plan.release ++ [releaseOf input lease]
      else plan.release := by
  by_cases missed : Missed input lease
  · have listing := listing_missing.mpr missed
    simp only [planLease, listing, Qualified, missed, true_and]
    split
    next past =>
      rw [if_neg (by omega)]
      rfl
    next room => rw [if_pos (by omega)]
  · have listed : input.listing lease ≠ .missing := mt listing_missing.mp missed
    rw [if_neg (fun both => missed both.1.1)]
    cases listing : input.listing lease with
    | missing => exact absurd listing listed
    | released => simp only [planLease, listing]
    | transferring | uncensused | unreadable | present =>
        simp only [planLease, listing]
        rfl

/-- A pass asks for the first qualified leases, as many as the bound allows. -/
theorem foldl_planLease_release (input : NativeRemovedInput) (leases : List DelegationLeaseRow)
    (plan : NativeRemovedPlan) :
    (leases.foldl (planLease input) plan).release =
      plan.release ++ ((leases.filter (decide <| Qualified input ·)).take
        (delegationLeaseReleasesPerPass - plan.release.length)).map (releaseOf input) := by
  induction leases generalizing plan with
  | nil => simp
  | cons lease leases ih =>
      rw [List.foldl_cons, ih, planLease_release]
      by_cases qualified : Qualified input lease
      · by_cases room : plan.release.length < delegationLeaseReleasesPerPass
        · obtain ⟨left, isLeft⟩ : ∃ left,
              delegationLeaseReleasesPerPass - plan.release.length = left + 1 :=
            ⟨delegationLeaseReleasesPerPass - plan.release.length - 1, by omega⟩
          have nextLeft : delegationLeaseReleasesPerPass - (plan.release.length + 1) = left := by
            omega
          simp [qualified, room, isLeft, nextLeft]
        · have none : delegationLeaseReleasesPerPass - plan.release.length = 0 := by omega
          simp [room, none]
      · simp [qualified]

theorem plan_release (input : NativeRemovedInput) :
    (planNativeRemoved input).release =
      (((oldestFirst input.checkpoint.leases).filter (decide <| Qualified input ·)).take
        delegationLeaseReleasesPerPass).map (releaseOf input) := by
  rw [planNativeRemoved, foldl_planLease_release]
  rfl

/-- What the pass before left, as the next one is given it: entries may have
been removed, and none was added or changed. -/
structure Carried (given left : NativeRemovedMemory) : Prop where
  absentListings : ∀ id count, given.absentListings.get? id = some count →
    left.absentListings.get? id = some count
  lastHeads : ∀ id head, given.lastHeads.get? id = some head →
    left.lastHeads.get? id = some head

theorem Carried.refl (memory : NativeRemovedMemory) : Carried memory memory :=
  ⟨fun _ _ => id, fun _ _ => id⟩

/-- The memory that a history of passes, latest first, leaves. -/
def leftBy : List NativeRemovedInput → NativeRemovedMemory
  | [] => .empty
  | input :: _ => (planNativeRemoved input).memory

/-- A history of passes, latest first. -/
inductive Passes : List NativeRemovedInput → Prop where
  | start : Passes []
  | pass {input : NativeRemovedInput} {earlier : List NativeRemovedInput} :
      Passes earlier → Carried input.memory (leftBy earlier) → Passes (input :: earlier)

/-- The latest pass of the history that judged the lease found its record gone,
and every pass since skipped the lease, which stood in it unreleased. -/
def MissedBefore (id : Text) (passes : List NativeRemovedInput) : Prop :=
  ∃ since judged older, passes = since ++ judged :: older ∧
    (∃ lease ∈ judged.checkpoint.leases, lease.leaseId = id ∧ Missed judged lease) ∧
    ∀ pass ∈ since, ∃ lease ∈ pass.checkpoint.leases, lease.leaseId = id ∧ Skipped pass lease

theorem plan_counted {input : NativeRemovedInput} {id : Text} {count : Int}
    (counted : (planNativeRemoved input).memory.absentListings.get? id = some count) :
    ∃ lease ∈ input.checkpoint.leases, lease.leaseId = id ∧ lease.releasedAt = none ∧
      0 < countAfter input lease ∧ count = countAfter input lease := by
  by_cases gone : ∀ lease ∈ input.checkpoint.leases, lease.leaseId ≠ id
  · simp [(plan_gone gone).1] at counted
  · simp only [ne_eq, not_forall, not_not] at gone
    obtain ⟨lease, member, rfl⟩ := gone
    rw [(plan_lease member).1] at counted
    split at counted
    next held =>
      cases counted
      exact ⟨lease, member, rfl, held.1, held.2, rfl⟩
    next => cases counted

/-- A count above zero is evidence: it is never inherited across a pass that saw
the record, could not read it, or did not hold the lease unreleased. -/
theorem Passes.missedBefore {passes : List NativeRemovedInput} (history : Passes passes)
    {id : Text} {count : Int} (counted : (leftBy passes).absentListings.get? id = some count) :
    MissedBefore id passes := by
  induction history generalizing count with
  | start => simp [leftBy, NativeRemovedMemory.empty] at counted
  | @pass input earlier history carried ih =>
      obtain ⟨lease, member, isLease, unreleased, positive, -⟩ := plan_counted counted
      have inherits (skipped : input.listing lease = .transferring ∨
          input.listing lease = .uncensused) (prior : 0 < input.prior lease) :
          MissedBefore id (input :: earlier) := by
        rw [NativeRemovedInput.prior, isLease] at prior
        cases given : input.memory.absentListings.get? id with
        | none => simp [given] at prior
        | some before =>
            obtain ⟨since, judged, older, split, missed, skips⟩ :=
              ih (carried.absentListings id before given)
            refine ⟨input :: since, judged, older, by rw [split]; rfl, missed, ?_⟩
            intro pass isPass
            rcases List.mem_cons.mp isPass with rfl | isPass
            · exact ⟨lease, member, isLease, listing_skipped skipped⟩
            · exact skips pass isPass
      unfold countAfter at positive
      cases listing : input.listing lease with
      | missing =>
          exact ⟨[], input, earlier, rfl, ⟨lease, member, isLease, listing_missing.mp listing⟩,
            by simp⟩
      | transferring =>
          rw [listing] at positive
          exact inherits (.inl listing) positive
      | uncensused =>
          rw [listing] at positive
          exact inherits (.inr listing) positive
      | released | unreadable | present =>
          rw [listing] at positive
          exact absurd positive (Int.lt_irrefl 0)

/-- The unreleased lease of a pass's checkpoint. -/
def standing (id : Text) (input : NativeRemovedInput) : Option DelegationLeaseRow :=
  input.checkpoint.leases.find? fun lease => lease.leaseId == id && lease.releasedAt.isNone

theorem standing_of_mem {input : NativeRemovedInput} {lease : DelegationLeaseRow}
    (member : lease ∈ input.checkpoint.leases) (unreleased : lease.releasedAt = none) :
    standing lease.leaseId input = some lease := by
  cases found : standing lease.leaseId input with
  | none =>
      have refused := List.find?_eq_none.mp found lease member
      simp [unreleased] at refused
  | some other =>
      have isOther := List.find?_some found
      simp only [Bool.and_eq_true, beq_iff_eq] at isOther
      have same := List.inj_on_of_nodup_map input.checkpoint.uniqueLeases
        (List.mem_of_find?_eq_some found) member isOther.1
      rw [same]

/-- The passes whose census a carried head may come from, latest first: back to
the last one that was given no head of the lease. -/
def headPasses (id : Text) : List NativeRemovedInput → List NativeRemovedInput
  | [] => []
  | input :: earlier =>
      if (standing id input).isNone then []
      else if (input.memory.lastHeads.get? id).isNone then [input]
      else input :: headPasses id earlier

/-- The head that a pass's census saw for the record of the lease. -/
def headAt (id : Text) (input : NativeRemovedInput) : Option Text :=
  (standing id input).bind input.headSeen

theorem Passes.lastHead {passes : List NativeRemovedInput} (history : Passes passes) (id : Text) :
    (leftBy passes).lastHeads.get? id = (headPasses id passes).findSome? (headAt id) := by
  induction history with
  | start => rfl
  | @pass input earlier history carried ih =>
      rw [leftBy, headPasses]
      cases stands : standing id input with
      | none =>
          have nothing : (planNativeRemoved input).memory.lastHeads.get? id = none := by
            by_cases gone : ∀ lease ∈ input.checkpoint.leases, lease.leaseId ≠ id
            · exact (plan_gone gone).2
            · simp only [ne_eq, not_forall, not_not] at gone
              obtain ⟨lease, member, rfl⟩ := gone
              have refused := List.find?_eq_none.mp stands lease member
              have released : lease.releasedAt ≠ none := by simpa using refused
              rw [(plan_lease member).2, if_neg released]
          simpa using nothing
      | some lease =>
          have member := List.mem_of_find?_eq_some stands
          have isLease := List.find?_some stands
          simp only [Bool.and_eq_true, beq_iff_eq, Option.isNone_iff_eq_none] at isLease
          obtain ⟨rfl, unreleased⟩ := isLease
          have seen : headAt lease.leaseId input = input.headSeen lease := by simp [headAt, stands]
          rw [(plan_lease member).2, if_pos unreleased, NativeRemovedInput.head]
          cases given : input.memory.lastHeads.get? lease.leaseId with
          | none => simp [seen]
          | some head =>
              have before := ih.symm.trans (carried.lastHeads _ head given)
              cases now : input.headSeen lease <;> simp [seen, now, before]

/-- The qualified leases of a pass, oldest first. -/
def qualifiedOf (input : NativeRemovedInput) : List DelegationLeaseRow :=
  (oldestFirst input.checkpoint.leases).filter (decide <| Qualified input ·)

theorem mem_qualifiedOf {input : NativeRemovedInput} {lease : DelegationLeaseRow} :
    lease ∈ qualifiedOf input ↔ lease ∈ input.checkpoint.leases ∧ Qualified input lease := by
  simp [qualifiedOf, (oldestFirst_perm input.checkpoint.leases).mem_iff]

theorem Missed.countAfter {input : NativeRemovedInput} {lease : DelegationLeaseRow}
    (missed : Missed input lease) : countAfter input lease = input.prior lease + 1 := by
  simp only [Coord.countAfter, listing_missing.mpr missed]

/-- A qualified lease was counted before this pass. -/
theorem Qualified.missedBefore {input : NativeRemovedInput} {earlier : List NativeRemovedInput}
    {lease : DelegationLeaseRow} (qualified : Qualified input lease)
    (history : Passes earlier) (carried : Carried input.memory (leftBy earlier)) :
    MissedBefore lease.leaseId earlier := by
  have reached := qualified.2
  unfold delegationNativeRemovedListings NativeRemovedInput.prior at reached
  cases given : input.memory.absentListings.get? lease.leaseId with
  | none => simp [given] at reached
  | some count => exact history.missedBefore (carried.absentListings _ count given)

/-- A qualified lease that is past the bound is younger than every lease asked for. -/
theorem qualified_past_bound {input : NativeRemovedInput} {lease other : DelegationLeaseRow}
    (leftOut : lease ∈ (qualifiedOf input).drop delegationLeaseReleasesPerPass)
    (asked : other ∈ (qualifiedOf input).take delegationLeaseReleasesPerPass) :
    createdBefore other lease := by
  have sorted : (qualifiedOf input).Pairwise createdBefore :=
    (oldestFirst_sorted input.checkpoint.leases).filter _
  rw [← List.take_append_drop delegationLeaseReleasesPerPass (qualifiedOf input)] at sorted
  exact (List.pairwise_append.mp sorted).2.2 other asked lease leftOut

/-- Over any history of passes: a release rests on two judged absences, the
latest one before this pass with nothing but skips since; the bound holds and
takes the oldest; what it leaves out keeps its count and head; and a release's
head is the latest one that the carried memory saw. -/
theorem nativeRemoved_release {input : NativeRemovedInput} {earlier : List NativeRemovedInput}
    (history : Passes (input :: earlier)) :
    let plan := planNativeRemoved input
    (∀ release ∈ plan.release, ∃ lease ∈ input.checkpoint.leases,
      release.leaseId = lease.leaseId ∧ Missed input lease ∧
      MissedBefore lease.leaseId earlier ∧
      release.lastHeadSha =
        (headPasses lease.leaseId (input :: earlier)).findSome? (headAt lease.leaseId)) ∧
    plan.release.length ≤ delegationLeaseReleasesPerPass ∧
    (∀ lease ∈ input.checkpoint.leases, Qualified input lease →
      (plan.release.any (·.leaseId == lease.leaseId)) ∨
      (plan.release.length = delegationLeaseReleasesPerPass ∧
        (∀ other ∈ input.checkpoint.leases, plan.release.any (·.leaseId == other.leaseId) →
          other.creatingJournalSequence ≤ lease.creatingJournalSequence) ∧
        plan.memory.absentListings.get? lease.leaseId = some (input.prior lease + 1) ∧
        plan.memory.lastHeads.get? lease.leaseId = input.head lease)) := by
  intro plan
  cases history with
  | pass history carried =>
      have asked : plan.release =
          ((qualifiedOf input).take delegationLeaseReleasesPerPass).map (releaseOf input) :=
        plan_release input
      refine ⟨?_, ?_, ?_⟩
      · intro release isAsked
        rw [asked] at isAsked
        obtain ⟨lease, isTaken, rfl⟩ := List.mem_map.mp isAsked
        obtain ⟨member, qualified⟩ := mem_qualifiedOf.mp (List.mem_of_mem_take isTaken)
        refine ⟨lease, member, rfl, qualified.1, qualified.missedBefore history carried, ?_⟩
        rw [← (Passes.pass history carried).lastHead, leftBy, (plan_lease member).2,
          if_pos qualified.1.unreleased]
        rfl
      · rw [asked, List.length_map, List.length_take]
        exact Nat.min_le_left _ _
      · intro lease member qualified
        have isQualified := mem_qualifiedOf.mpr ⟨member, qualified⟩
        rw [← List.take_append_drop delegationLeaseReleasesPerPass (qualifiedOf input)]
          at isQualified
        rcases List.mem_append.mp isQualified with isTaken | leftOut
        · left
          rw [asked, List.any_map, List.any_eq_true]
          exact ⟨lease, isTaken, by simp [releaseOf]⟩
        · right
          refine ⟨?_, ?_, ?_, ?_⟩
          · have longer := List.length_pos_of_mem leftOut
            rw [List.length_drop] at longer
            rw [asked, List.length_map, List.length_take]
            omega
          · intro other isOther isAsked
            rw [asked, List.any_map, List.any_eq_true] at isAsked
            obtain ⟨taken, isTaken, same⟩ := isAsked
            have takenMember := (mem_qualifiedOf.mp (List.mem_of_mem_take isTaken)).1
            have isSame : taken = other :=
              List.inj_on_of_nodup_map input.checkpoint.uniqueLeases takenMember isOther
                (by simpa [releaseOf] using same)
            rw [← isSame]
            rcases qualified_past_bound leftOut isTaken with earlier | ⟨same, -⟩
            · exact Int.le_of_lt earlier
            · exact Int.le_of_eq same
          · have positive : 0 < countAfter input lease := by
              have reached := qualified.2
              rw [qualified.1.countAfter]
              unfold delegationNativeRemovedListings at reached
              omega
            rw [(plan_lease member).1, if_pos ⟨qualified.1.unreleased, positive⟩,
              qualified.1.countAfter]
          · rw [(plan_lease member).2, if_pos qualified.1.unreleased]

private def goneLease : DelegationLeaseRow where
  leaseId := Text.lit "l1"
  generation := 1
  creatingJournalSequence := 4
  currentJournalSequence := 5
  parentId := Text.lit "p"
  parentIncarnation := Text.lit "i"
  project := Text.lit "demo"
  adminRecord := Text.lit "tree"
  disposition := .ephemeral
  firstObservedAt := Text.lit "2026-01-01"
  terminalEvidenceAt := none
  adoptedAt := none
  retainedAt := none
  promotedAt := none
  cleanupDueAt := none
  carrierGenerationSeen := none
  releasedAt := none

private def gonePass (memory : NativeRemovedMemory) : NativeRemovedInput where
  checkpoint := { leases := [goneLease], leaseCarriers := [], uniqueLeases := by decide }
  censused := [Text.lit "demo"]
  listed := []
  absent := []
  unreadable := []
  heads := []
  memory := memory

/-- The second of two censuses that miss the record asks for the release. -/
theorem nativeRemoved_release_second :
    MissedBefore goneLease.leaseId [gonePass .empty] := by
  have history : Passes
      [gonePass (planNativeRemoved (gonePass .empty)).memory, gonePass .empty] :=
    .pass (.pass .start (.refl _)) (.refl _)
  obtain ⟨lease, member, -, -, missed, -⟩ := (nativeRemoved_release history).1
    (releaseOf (gonePass (planNativeRemoved (gonePass .empty)).memory) goneLease)
    (by decide +kernel)
  rwa [List.mem_singleton.mp member] at missed

end Ccrc.Coord
