import Ccrc.Shared.ReleaseTags
import Ccrc.Update.Resolve

/-! What the resolver answers: the one release a node may move to, or why there is
none. -/

set_option autoImplicit false

namespace Ccrc.Update

open Library Shared

/-! ## Versions -/

/-- Newer than a stored version, where that is a tag. -/
def Above (tag : Text) (stored : Option Text) : Prop :=
  ∀ t, stored = some t → isReleaseTag t = true → isNewerTag tag t = some true

theorem version_of_tag {tag : Text} (valid : isReleaseTag tag = true) :
    ∃ version, releaseVersion tag = some version :=
  Option.isSome_iff_exists.mp ((releaseVersion_isSome tag).trans valid)

theorem tag_of_version {tag : Text} {version : Nat ×ₗ Nat ×ₗ Nat}
    (read : releaseVersion tag = some version) : isReleaseTag tag = true := by
  rw [← releaseVersion_isSome, read]
  rfl

theorem isNewerTag_iff {first second : Text} {newer older : Nat ×ₗ Nat ×ₗ Nat}
    (isFirst : releaseVersion first = some newer) (isSecond : releaseVersion second = some older) :
    isNewerTag first second = some true ↔ older < newer := by
  rw [isNewerTag_eq isFirst isSecond]
  simp

theorem tagOf_eq_some {stored : Option Text} {tag : Text} :
    tagOf stored = some tag ↔ stored = some tag ∧ isReleaseTag tag = true := by
  rw [tagOf, Option.filter_eq_some_iff]

theorem above_none {tag : Text} {stored : Option Text} (none : tagOf stored = none) :
    Above tag stored := by
  intro t isStored valid
  rw [tagOf_eq_some.mpr ⟨isStored, valid⟩] at none
  cases none

theorem above_some {tag t : Text} {stored : Option Text} (some : tagOf stored = some t) :
    Above tag stored ↔ isNewerTag tag t = Option.some true := by
  obtain ⟨isStored, valid⟩ := tagOf_eq_some.mp some
  constructor
  · exact fun above => above t isStored valid
  · intro newer t' isStored' _
    cases isStored.symm.trans isStored'
    exact newer

/-- The floor is a tag wherever one of the two is, and being newer than it is being
newer than both. -/
theorem floorOf_spec (highest current : Option Text) :
    ∃ floor, floorOf highest current = some floor ∧
      (floor = none → tagOf highest = none ∧ tagOf current = none) ∧
      ∀ f, floor = some f → isReleaseTag f = true ∧
        ∀ tag, isReleaseTag tag = true →
          (isNewerTag tag f = some true ↔ Above tag highest ∧ Above tag current) := by
  unfold floorOf
  cases highestTag : tagOf highest with
  | none =>
      refine ⟨tagOf current, rfl, fun none => ⟨rfl, none⟩, fun f isFloor => ?_⟩
      refine ⟨(tagOf_eq_some.mp isFloor).2, fun tag _ => ?_⟩
      rw [above_some isFloor]
      exact ⟨fun newer => ⟨above_none highestTag, newer⟩, And.right⟩
  | some h =>
      have hTag := (tagOf_eq_some.mp highestTag).2
      cases currentTag : tagOf current with
      | none =>
          refine ⟨some h, rfl, nofun, ?_⟩
          rintro _ ⟨rfl⟩
          refine ⟨hTag, fun tag _ => ?_⟩
          rw [above_some highestTag]
          exact ⟨fun newer => ⟨newer, above_none currentTag⟩, And.left⟩
      | some c =>
          have cTag := (tagOf_eq_some.mp currentTag).2
          obtain ⟨hVersion, hRead⟩ := version_of_tag hTag
          obtain ⟨cVersion, cRead⟩ := version_of_tag cTag
          dsimp only
          rw [isNewerTag_eq cRead hRead]
          refine ⟨_, rfl, nofun, ?_⟩
          rintro _ ⟨rfl⟩
          by_cases newer : hVersion < cVersion
          · rw [decide_eq_true newer, if_pos rfl]
            refine ⟨cTag, fun tag valid => ?_⟩
            obtain ⟨version, read⟩ := version_of_tag valid
            rw [above_some highestTag, above_some currentTag, isNewerTag_iff read cRead,
              isNewerTag_iff read hRead]
            exact ⟨fun less => ⟨newer.trans less, less⟩, And.right⟩
          · rw [decide_eq_false newer, if_neg Bool.false_ne_true]
            refine ⟨hTag, fun tag valid => ?_⟩
            obtain ⟨version, read⟩ := version_of_tag valid
            rw [above_some highestTag, above_some currentTag, isNewerTag_iff read cRead,
              isNewerTag_iff read hRead]
            exact ⟨fun less => ⟨less, (not_lt.mp newer).trans_lt less⟩, And.left⟩

/-! ## Eligible releases -/

/-- Listed with a bundle, not yanked, of the channel, and not refused by the node. -/
structure Eligible (row : EligibilityRow) (channel : UpdateChannel) (refused : List Text) :
    Prop where
  tag : isReleaseTag row.tag = true
  unyanked : row.yanked = false
  bundleListed : row.bundleListed = true
  unrefused : row.tag ∉ refused
  channel : row.channel = some .stable ∨ (channel = .dev ∧ row.channel = some .dev)

theorem ineligibleWhy_none {row : EligibilityRow} {channel : UpdateChannel}
    {refused : List Text} :
    ineligibleWhy (some row) channel refused = none ↔ Eligible row channel refused := by
  unfold ineligibleWhy
  dsimp only
  constructor
  · intro eligible
    split at eligible
    next => cases eligible
    next tag =>
        split at eligible
        next => cases eligible
        next unyanked =>
            split at eligible
            next => cases eligible
            next listed =>
                split at eligible
                next => cases eligible
                next unrefused =>
                    split at eligible
                    next => cases eligible
                    next known =>
                        split at eligible
                        next => cases eligible
                        next onChannel =>
                            refine ⟨by simpa using tag, by simpa using unyanked,
                              by simpa using listed, unrefused, ?_⟩
                            cases isChannel : row.channel with
                            | none => simp [isChannel] at known
                            | some of => cases channel <;> cases of <;> simp_all
  · rintro ⟨tag, unyanked, listed, unrefused, onChannel⟩
    rw [if_neg (by simp [tag]), if_neg (by simp [unyanked]), if_neg (by simp [listed]),
      if_neg unrefused]
    rcases onChannel with stable | ⟨rfl, dev⟩
    · simp [stable]
    · simp [dev]

variable {releases : List EligibilityRow} {channel : UpdateChannel} {refused : List Text}

theorem mem_eligibleTags {tag : Text} :
    tag ∈ eligibleTags releases channel refused ↔
      ∃ row ∈ releases, row.tag = tag ∧ Eligible row channel refused := by
  unfold eligibleTags
  rw [List.mem_mergeSort, List.mem_map]
  constructor
  · rintro ⟨row, member, same⟩
    obtain ⟨among, eligible⟩ := List.mem_filter.mp member
    exact ⟨row, among, same, ineligibleWhy_none.mp (Option.isNone_iff_eq_none.mp eligible)⟩
  · rintro ⟨row, among, same, eligible⟩
    exact ⟨row, List.mem_filter.mpr ⟨among,
      Option.isNone_iff_eq_none.mpr (ineligibleWhy_none.mpr eligible)⟩, same⟩

/-- A tag's place in the order; what is no tag comes first. -/
def rank (tag : Text) : Nat ×ₗ Nat ×ₗ Nat := (releaseVersion tag).getD (toLex (0, toLex (0, 0)))

theorem isNewerTag_rank {first second : Text} (isFirst : isReleaseTag first = true)
    (isSecond : isReleaseTag second = true) :
    isNewerTag first second = some true ↔ rank second < rank first := by
  obtain ⟨newer, read⟩ := version_of_tag isFirst
  obtain ⟨older, read'⟩ := version_of_tag isSecond
  rw [isNewerTag_iff read read', rank, rank, read, read']
  rfl

/-- The first eligible tag is at least as new as every other one. -/
theorem eligibleTags_head {newest : Text} {rest : List Text}
    (sorted : eligibleTags releases channel refused = newest :: rest) :
    ∀ tag ∈ eligibleTags releases channel refused, rank tag ≤ rank newest := by
  have valid : ∀ tag ∈ (releases.filter fun r =>
      (ineligibleWhy (some r) channel refused).isNone).map (·.tag), isReleaseTag tag = true := by
    intro tag member
    obtain ⟨row, -, same, eligible⟩ := mem_eligibleTags.mp (List.mem_mergeSort.mpr member)
    exact same ▸ eligible.tag
  have ordered : (eligibleTags releases channel refused).map rank =
      (((releases.filter fun r =>
        (ineligibleWhy (some r) channel refused).isNone).map (·.tag)).map rank).mergeSort
          fun a b => decide (b ≤ a) := by
    unfold eligibleTags
    refine List.map_mergeSort fun a aMember b bMember => ?_
    have newer := isNewerTag_rank (valid b bMember) (valid a aMember)
    have answered := isNewerTag_isSome b a
    rw [valid a aMember, valid b bMember, Bool.and_self] at answered
    unfold isNewerTag at newer answered
    cases compared : compareReleaseTags b a with
    | none => simp [compared] at answered
    | some order =>
        rw [compared] at newer
        cases order <;> simp_all
  have pairwise : ((eligibleTags releases channel refused).map rank).Pairwise fun a b => b ≤ a := by
    rw [ordered]
    refine (List.pairwise_mergeSort (fun a b c left right => ?_) (fun a b => ?_) _).imp
      of_decide_eq_true
    · exact decide_eq_true ((of_decide_eq_true right).trans (of_decide_eq_true left))
    · simpa using le_total b a
  intro tag member
  rw [sorted] at pairwise member
  cases List.mem_cons.mp member with
  | inl here => rw [here]
  | inr later =>
      rw [List.map_cons, List.pairwise_cons] at pairwise
      exact pairwise.1 _ (List.mem_map_of_mem later)

/-! ## One channel -/

/-- A tag that the node may move to on a channel. -/
structure Wanted (input : ResolveInput) (channel : UpdateChannel) (pin : Option Text)
    (tag : Text) : Prop where
  listed : ∃ row ∈ input.releases, row.tag = tag ∧ Eligible row channel input.refusedByThisNode
  aboveFloor : Above tag input.highestVersion
  aboveRunning : Above tag input.currentVersion
  pinned : ∀ p, pin = some p → tag = p
  newest : pin = none → ∀ row ∈ input.releases,
    Eligible row channel input.refusedByThisNode → isNewerTag row.tag tag = some false

/-- Nothing was ever measured of the floor. -/
def FloorUnmeasured (input : ResolveInput) : Prop :=
  input.highestVersion = none ∧ input.floorRead = .unmeasured

/-- Neither the floor nor the running version is a tag. -/
def NothingMeasured (input : ResolveInput) : Prop :=
  tagOf input.highestVersion = none ∧ tagOf input.currentVersion = none

/-- What the answer on one channel says. -/
structure Answers (input : ResolveInput) (channel : UpdateChannel) (pin : Option Text)
    (answer : ChannelAnswer) : Prop where
  one : answer.desiredTag.isSome = !answer.resolveDetail.isSome
  wanted : ∀ tag, answer.desiredTag = some tag →
    ¬FloorUnmeasured input ∧ Wanted input channel pin tag
  none : answer.desiredTag = none →
    FloorUnmeasured input ∨ NothingMeasured input ∨ ∀ tag, ¬Wanted input channel pin tag

theorem Eligible.notNewer {input : ResolveInput} {newest : Text} {rest : List Text}
    (sorted : eligibleTags input.releases channel input.refusedByThisNode = newest :: rest) :
    isReleaseTag newest = true ∧ ∀ row ∈ input.releases,
      Eligible row channel input.refusedByThisNode → isNewerTag row.tag newest = some false := by
  obtain ⟨row, -, same, eligible⟩ := mem_eligibleTags.mp (sorted ▸ List.mem_cons_self)
  have valid : isReleaseTag newest = true := same ▸ eligible.tag
  refine ⟨valid, fun other among otherEligible => ?_⟩
  have atMost := eligibleTags_head sorted other.tag
    (mem_eligibleTags.mpr ⟨other, among, rfl, otherEligible⟩)
  have notNewer : ¬isNewerTag other.tag newest = some true := by
    rw [isNewerTag_rank otherEligible.tag valid]
    exact not_lt.mpr atMost
  have answered := isNewerTag_isSome other.tag newest
  rw [otherEligible.tag, valid, Bool.and_self] at answered
  obtain ⟨newer, isNewer⟩ := Option.isSome_iff_exists.mp answered
  cases newer with
  | false => exact isNewer
  | true => exact absurd isNewer notNewer

theorem resolveNewest_answers {input : ResolveInput} {newest floor : Text} {rest : List Text}
    (measured : ¬FloorUnmeasured input)
    (sorted : eligibleTags input.releases channel input.refusedByThisNode = newest :: rest)
    (floorTag : isReleaseTag floor = true)
    (above : ∀ tag, isReleaseTag tag = true → (isNewerTag tag floor = some true ↔
      Above tag input.highestVersion ∧ Above tag input.currentVersion)) :
    ∃ answer, resolveNewest channel newest floor input.currentVersion = some answer ∧
      Answers input channel none answer := by
  obtain ⟨row, among, same, eligible⟩ := mem_eligibleTags.mp (sorted ▸ List.mem_cons_self)
  obtain ⟨valid, notNewer⟩ := Eligible.notNewer sorted
  have answered := isNewerTag_isSome newest floor
  rw [valid, floorTag, Bool.and_self] at answered
  obtain ⟨newer, isNewer⟩ := Option.isSome_iff_exists.mp answered
  unfold resolveNewest
  simp only [Option.pure_def, Option.bind_eq_bind, isNewer, Option.bind_some]
  cases newer with
  | true =>
      obtain ⟨aboveFloor, aboveRunning⟩ := (above newest valid).mp isNewer
      refine ⟨_, rfl, rfl, ?_, nofun⟩
      rintro _ ⟨rfl⟩
      exact ⟨measured, ⟨row, among, same, eligible⟩, aboveFloor, aboveRunning, nofun,
        fun _ => notNewer⟩
  | false =>
      -- No eligible tag is above the floor: the newest is not.
      have nothing : ∀ tag, ¬Wanted input channel none tag := by
        intro tag wanted
        obtain ⟨other, otherAmong, isTag, otherEligible⟩ := wanted.listed
        have tagValid : isReleaseTag tag = true := isTag ▸ otherEligible.tag
        have aboveTag := (above tag tagValid).mpr ⟨wanted.aboveFloor, wanted.aboveRunning⟩
        rw [isNewerTag_rank tagValid floorTag] at aboveTag
        have atMost := eligibleTags_head sorted tag
          (mem_eligibleTags.mpr ⟨other, otherAmong, isTag, otherEligible⟩)
        have newestAbove := (isNewerTag_rank valid floorTag).mpr (aboveTag.trans_le atMost)
        cases isNewer.symm.trans newestAbove
      have answers : ∀ detail, Answers input channel none ⟨none, some detail⟩ := fun detail =>
        ⟨rfl, nofun, fun _ => .inr (.inr nothing)⟩
      simp only [Bool.false_eq_true, if_false]
      cases running : tagOf input.currentVersion with
      | none => exact ⟨_, rfl, answers _⟩
      | some current =>
          dsimp only
          split
          next => exact ⟨_, rfl, answers _⟩
          next =>
              have compared := isNewerTag_isSome floor current
              rw [floorTag, (tagOf_eq_some.mp running).2, Bool.and_self] at compared
              obtain ⟨below, isBelow⟩ := Option.isSome_iff_exists.mp compared
              simp only [isBelow, Option.bind_some]
              cases below with
              | true => exact ⟨_, rfl, answers _⟩
              | false => exact ⟨_, rfl, answers _⟩

/-- Of distinct tags the row found is the one that has it. -/
theorem find_release {releases : List EligibilityRow} (distinct : (releases.map (·.tag)).Nodup)
    {row : EligibilityRow} (among : row ∈ releases) :
    releases.find? (fun r => r.tag == row.tag) = some row := by
  induction releases with
  | nil => cases among
  | cons first rest ih =>
      obtain ⟨fresh, distinct'⟩ := List.nodup_cons.mp distinct
      cases List.mem_cons.mp among with
      | inl here =>
          subst here
          simp
      | inr later =>
          have apart : first.tag ≠ row.tag := fun same =>
            fresh (List.mem_map.mpr ⟨row, later, same.symm⟩)
          rw [List.find?_cons_of_neg (by simpa using apart), ih distinct' later]

theorem resolveOnChannel_answers (channel : UpdateChannel) (pin : Option Text)
    (input : ResolveInput) (distinct : (input.releases.map (·.tag)).Nodup) :
    ∃ answer, resolveOnChannel channel pin input = some answer ∧
      Answers input channel pin answer := by
  unfold resolveOnChannel
  split
  next unmeasured => exact ⟨_, rfl, rfl, nofun, fun _ => .inl unmeasured⟩
  next measured =>
      obtain ⟨floor, found, absent, present⟩ :=
        floorOf_spec input.highestVersion input.currentVersion
      simp only [Option.pure_def, Option.bind_eq_bind, found, Option.bind_some]
      cases floor with
      | none => exact ⟨_, rfl, rfl, nofun, fun _ => .inr (.inl (absent rfl))⟩
      | some floor =>
          obtain ⟨floorTag, above⟩ := present floor rfl
          dsimp only
          cases pin with
          | none =>
              dsimp only
              cases sorted : eligibleTags input.releases channel input.refusedByThisNode with
              | nil =>
                  refine ⟨_, rfl, rfl, nofun, fun _ => .inr (.inr fun tag wanted => ?_)⟩
                  have member := mem_eligibleTags.mpr wanted.listed
                  rw [sorted] at member
                  cases member
              | cons newest rest => exact resolveNewest_answers measured sorted floorTag above
          | some pin =>
              dsimp only
              cases why : ineligibleWhy (input.releases.find? fun r => r.tag == pin) channel
                  input.refusedByThisNode with
              | some w =>
                  refine ⟨_, rfl, rfl, nofun, fun _ => .inr (.inr fun tag wanted => ?_)⟩
                  obtain ⟨row, among, same, eligible⟩ := wanted.listed
                  have isPin : row.tag = pin := same.trans (wanted.pinned pin rfl)
                  rw [← isPin, find_release distinct among,
                    ineligibleWhy_none.mpr eligible] at why
                  cases why
              | none =>
                  dsimp only
                  cases row : input.releases.find? fun r => r.tag == pin with
                  | none =>
                      rw [row] at why
                      cases why
                  | some row' =>
                      rw [row] at why
                      have isPin : row'.tag = pin := by simpa using List.find?_some row
                      have eligible := ineligibleWhy_none.mp why
                      have valid : isReleaseTag pin = true := isPin ▸ eligible.tag
                      have answered := isNewerTag_isSome pin floor
                      rw [valid, floorTag, Bool.and_self] at answered
                      obtain ⟨newer, isNewer⟩ := Option.isSome_iff_exists.mp answered
                      simp only [isNewer, Option.bind_some]
                      cases newer with
                      | true =>
                          obtain ⟨aboveFloor, aboveRunning⟩ := (above pin valid).mp isNewer
                          refine ⟨_, rfl, rfl, ?_, nofun⟩
                          rintro _ ⟨rfl⟩
                          exact ⟨measured, ⟨row', List.mem_of_find?_eq_some row, isPin, eligible⟩,
                            aboveFloor, aboveRunning, fun _ same => Option.some.inj same, nofun⟩
                      | false =>
                          refine ⟨_, rfl, rfl, nofun, fun _ => .inr (.inr fun tag wanted => ?_)⟩
                          have same := wanted.pinned pin rfl
                          subst same
                          have newer := (above tag valid).mpr ⟨wanted.aboveFloor, wanted.aboveRunning⟩
                          cases isNewer.symm.trans newer

/-- What a whole resolution says: nothing where no intent names a channel, and the
answer on each channel otherwise. -/
structure Resolved (input : ResolveInput) (r : Resolution) : Prop where
  one : r.desiredTag.isSome = !r.resolveDetail.isSome
  scope : r.channel = (input.nodeIntent.or input.fleetIntent).bind (·.channel)
  unscoped : r.channel = none → r.desiredTag = none ∧ r.desiredStable = none ∧ r.desiredDev = none
  channel : ∀ channel, r.channel = some channel →
    ∃ intent mine stable dev, input.nodeIntent.or input.fleetIntent = some intent ∧
      intent.channel = some channel ∧ r.desiredTag = mine.desiredTag ∧
      r.desiredStable = stable.desiredTag ∧ r.desiredDev = dev.desiredTag ∧
      Answers input channel intent.pinnedTag mine ∧
      Answers input .stable intent.pinnedTag stable ∧ Answers input .dev intent.pinnedTag dev

theorem resolveNodeIntent_resolved (input : ResolveInput)
    (distinct : (input.releases.map (·.tag)).Nodup) :
    ∃ r, resolveNodeIntent input = some r ∧ Resolved input r := by
  unfold resolveNodeIntent
  cases intent : input.nodeIntent.or input.fleetIntent with
  | none => exact ⟨_, rfl, rfl, by rw [intent]; rfl, fun _ => ⟨rfl, rfl, rfl⟩, nofun⟩
  | some row =>
      have scope : (input.nodeIntent.or input.fleetIntent).bind (·.channel) = row.channel := by
        rw [intent, Option.bind_some]
      dsimp only
      cases channel : row.channel with
      | none => exact ⟨_, rfl, rfl, (scope.trans channel).symm, fun _ => ⟨rfl, rfl, rfl⟩, nofun⟩
      | some channel' =>
          obtain ⟨mine, isMine, mineAnswers⟩ :=
            resolveOnChannel_answers channel' row.pinnedTag input distinct
          obtain ⟨stable, isStable, stableAnswers⟩ :=
            resolveOnChannel_answers .stable row.pinnedTag input distinct
          obtain ⟨dev, isDev, devAnswers⟩ :=
            resolveOnChannel_answers .dev row.pinnedTag input distinct
          simp only [Option.pure_def, Option.bind_eq_bind, isMine, isStable, isDev,
            Option.bind_some]
          refine ⟨_, rfl, mineAnswers.one, (scope.trans channel).symm, nofun, ?_⟩
          rintro _ ⟨rfl⟩
          exact ⟨row, mine, stable, dev, intent, channel, rfl, rfl, rfl, mineAnswers,
            stableAnswers, devAnswers⟩

/-- A resolved tag is one the node may move to on the channel of its intent. -/
theorem Resolved.wanted {input : ResolveInput} {r : Resolution} (resolved : Resolved input r)
    {tag : Text} (desired : r.desiredTag = some tag) :
    ¬FloorUnmeasured input ∧ ∃ channel pin, Wanted input channel pin tag := by
  cases channel : r.channel with
  | none =>
      rw [(resolved.unscoped channel).1] at desired
      cases desired
  | some channel' =>
      obtain ⟨intent, mine, _, _, -, -, same, -, -, answers, -⟩ := resolved.channel channel' channel
      obtain ⟨measured, wanted⟩ := answers.wanted tag (same ▸ desired)
      exact ⟨measured, channel', intent.pinnedTag, wanted⟩

end Ccrc.Update
