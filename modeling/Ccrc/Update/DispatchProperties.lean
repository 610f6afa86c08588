import Ccrc.Update.Dispatch
import Ccrc.Update.ResolveProperties

/-! What the dispatcher refuses and plans: it agrees with the resolver on the floor and
on the target, and an update that it plans moves no node down. -/

set_option autoImplicit false

namespace Ccrc.Update

open Library Shared
open Library.Text (lit)

/-! ## Refusals -/

/-- Newer than the node's floor and than what it runs, where these are tags. -/
def AboveNode (row : DispatchRow) (target : Text) : Prop :=
  Above target row.highestVersion ∧ Above target row.currentVersion

/-- A comparison with the floor is answered, and it is one with both versions. -/
theorem newerThanFloor_spec (row : DispatchRow) {target : Text}
    (valid : isReleaseTag target = true) :
    ∃ floor newer, floorOf row.highestVersion row.currentVersion = some floor ∧
      newerThanFloor target floor = some newer ∧ (newer = true ↔ AboveNode row target) := by
  obtain ⟨floor, found, absent, present⟩ := floorOf_spec row.highestVersion row.currentVersion
  cases floor with
  | none =>
      obtain ⟨noHighest, noCurrent⟩ := absent rfl
      exact ⟨none, true, found, rfl,
        fun _ => ⟨above_none noHighest, above_none noCurrent⟩, fun _ => rfl⟩
  | some floor =>
      obtain ⟨floorTag, above⟩ := present floor rfl
      have answered := isNewerTag_isSome target floor
      rw [valid, floorTag, Bool.and_self] at answered
      obtain ⟨newer, isNewer⟩ := Option.isSome_iff_exists.mp answered
      refine ⟨some floor, newer, found, by simpa [newerThanFloor, valid] using isNewer, ?_⟩
      rw [AboveNode, ← above target valid, isNewer, Option.some.injEq]

/-- A tag is refused for an unmeasured floor, for not being above the node, or for not
being listed, and for nothing else. -/
theorem floorRefusal_tag (row : DispatchRow) {target : Text} (known : Option EligibilityRow)
    (valid : isReleaseTag target = true) :
    ∃ refusal, floorRefusal row target known = some refusal ∧
      (refusal = none ↔ ¬(row.highestVersion = none ∧ row.floorRead = .unmeasured) ∧
        AboveNode row target ∧ updateTargetListed known = true) := by
  unfold floorRefusal
  split
  next unmeasured => exact ⟨_, rfl, nofun, fun ⟨measured, _⟩ => absurd unmeasured measured⟩
  next measured =>
      obtain ⟨floor, newer, found, compared, isAbove⟩ := newerThanFloor_spec row valid
      simp only [Option.pure_def, Option.bind_eq_bind, found, Option.bind_some, compared]
      cases newer with
      | false => exact ⟨_, rfl, nofun, fun ⟨_, above, _⟩ => nomatch isAbove.mpr above⟩
      | true =>
          cases listed : updateTargetListed known with
          | false => exact ⟨_, rfl, nofun, fun ⟨_, _, isListed⟩ => nomatch isListed⟩
          | true => exact ⟨_, rfl, fun _ => ⟨measured, isAbove.mp rfl, rfl⟩, fun _ => rfl⟩

/-- A target that is no tag has no row, so every update to it is refused. -/
theorem floorRefusal_untagged (row : DispatchRow) {target : Text}
    (invalid : isReleaseTag target = false) :
    ∃ refusal, floorRefusal row target none = some (some refusal) := by
  unfold floorRefusal
  split
  next => exact ⟨_, rfl⟩
  next =>
      obtain ⟨floor, found, -⟩ := floorOf_spec row.highestVersion row.currentVersion
      have untagged : newerThanFloor target floor = some true := by
        cases floor <;> simp [newerThanFloor, invalid]
      simp only [Option.pure_def, Option.bind_eq_bind, found, Option.bind_some, untagged]
      exact ⟨_, rfl⟩

/-- The row of a target: a catalogue row of that tag. -/
theorem releaseRowFor_some {releases : List EligibilityRow} {tag : Text} {row : EligibilityRow}
    (known : releaseRowFor releases tag = some row) :
    row ∈ releases ∧ row.tag = tag ∧ isReleaseTag tag = true := by
  unfold releaseRowFor at known
  split at known
  next valid =>
      exact ⟨List.mem_of_find?_eq_some known, by simpa using List.find?_some known, valid⟩
  next => cases known

theorem releaseRowFor_untagged (releases : List EligibilityRow) {tag : Text}
    (invalid : isReleaseTag tag = false) : releaseRowFor releases tag = none := by
  rw [releaseRowFor, invalid, if_neg Bool.false_ne_true]

/-- An update to a target: what it is refused for, and what holds where it is not. -/
theorem updateRefusal_spec (row : DispatchRow) (releases : List EligibilityRow) (target : Text) :
    ∃ refusal, updateRefusal row target (releaseRowFor releases target) = some refusal ∧
      (refusal = none → isReleaseTag target = true ∧ AboveNode row target ∧
        updateTargetListed (releaseRowFor releases target) = true) ∧
      (isReleaseTag target = true → ¬(row.highestVersion = none ∧ row.floorRead = .unmeasured) →
        AboveNode row target → updateTargetListed (releaseRowFor releases target) = true →
        refusal = none ∨ refusal = some .stampUnread) := by
  have running : ∃ refusal, floorRefusal row target (releaseRowFor releases target) = some refusal ∧
      (refusal = none → isReleaseTag target = true ∧ AboveNode row target ∧
        updateTargetListed (releaseRowFor releases target) = true) ∧
      (isReleaseTag target = true → ¬(row.highestVersion = none ∧ row.floorRead = .unmeasured) →
        AboveNode row target → updateTargetListed (releaseRowFor releases target) = true →
        refusal = none ∨ refusal = some .stampUnread) := by
    cases valid : isReleaseTag target with
    | false =>
        rw [releaseRowFor_untagged releases valid]
        obtain ⟨refusal, refused⟩ := floorRefusal_untagged row valid
        exact ⟨_, refused, nofun, nofun⟩
    | true =>
        obtain ⟨refusal, refused, unrefused⟩ :=
          floorRefusal_tag row (releaseRowFor releases target) valid
        exact ⟨refusal, refused, fun isNone => ⟨rfl, (unrefused.mp isNone).2⟩,
          fun _ measured above listed => .inl (unrefused.mpr ⟨measured, above, listed⟩)⟩
  unfold updateRefusal
  cases currentOf row with
  | unread => exact ⟨_, rfl, nofun, fun _ _ _ _ => .inr rfl⟩
  | unversioned => exact running
  | versioned => exact running

/-- A move's refusal is always found, and an update that nothing refuses is one to a
listed tag above the node. -/
theorem moveRefusal_spec (view : DispatchNodeView) (move : Intended)
    (releases : List EligibilityRow) (gate : FleetGate) :
    ∃ refusal, moveRefusal view move releases gate = some refusal ∧
      (refusal = none → move.kind = .update → isReleaseTag move.target = true ∧
        AboveNode view.row move.target ∧
        updateTargetListed (releaseRowFor releases move.target) = true) := by
  unfold moveRefusal
  split
  next => exact ⟨_, rfl, nofun⟩
  next =>
      cases kind : move.kind with
      | update =>
          obtain ⟨refusal, refused, unrefused, -⟩ :=
            updateRefusal_spec view.row releases move.target
          simp only [Option.pure_def, Option.bind_eq_bind, refused, Option.bind_some]
          exact ⟨_, rfl, fun isNone _ => unrefused (Option.or_eq_none_iff.mp isNone).1⟩
      | rollback => exact ⟨_, rfl, nofun⟩

/-- The refusals that speak of the target or of the floor. -/
def targetRefusals : List DispatchRefusal := [.floorUnread, .notNewer, .unknownTag, .refusedByNode]

theorem moveCapRefusal_target {view : DispatchNodeView} {move : Intended}
    (unrefused : move.target ∉ view.refusedTags) {refusal : DispatchRefusal}
    (refused : moveCapRefusal view move = some refusal) : refusal ∉ targetRefusals := by
  unfold moveCapRefusal refusedByNode at refused
  rw [if_neg (by simpa using unrefused)] at refused
  split at refused
  next => cases refused; decide
  next =>
      split at refused
      next => cases refused; decide
      next =>
          split at refused
          next => cases refused; decide
          next =>
              split at refused
              next => cases refused; decide
              next => cases refused

/-- An update to a listed, unrefused tag above a measured node is refused for neither
its target nor the floor. -/
theorem moveRefusal_update {view : DispatchNodeView} {move : Intended}
    {releases : List EligibilityRow} {gate : FleetGate} (update : move.kind = .update)
    (valid : isReleaseTag move.target = true)
    (measured : ¬(view.row.highestVersion = none ∧ view.row.floorRead = .unmeasured))
    (above : AboveNode view.row move.target)
    (listed : updateTargetListed (releaseRowFor releases move.target) = true)
    (unrefused : move.target ∉ view.refusedTags) {refusal : DispatchRefusal}
    (refused : moveRefusal view move releases gate = some (some refusal)) :
    refusal ∉ targetRefusals := by
  unfold moveRefusal at refused
  split at refused
  next => cases refused; decide
  next =>
      obtain ⟨answer, answered, -, only⟩ := updateRefusal_spec view.row releases move.target
      simp only [update, Option.pure_def, Option.bind_eq_bind, answered, Option.bind_some,
        Option.some.injEq] at refused
      rcases only valid measured above listed with rfl | rfl
      · exact moveCapRefusal_target unrefused refused
      · cases refused
        decide

/-! ## The plan -/

theorem refusalSentence_isSome (refusal : DispatchRefusal) (row : DispatchRow) (target : Text)
    (blocker : Option RefusalBlocker) : (refusalSentence refusal row target blocker).isSome := by
  obtain ⟨floor, found, -⟩ := floorOf_spec row.highestVersion row.currentVersion
  cases refusal with
  | notNewer =>
      simp only [refusalSentence, Option.pure_def, Option.bind_eq_bind, found, Option.bind_some]
      cases floor with
      | none => rfl
      | some floor =>
          dsimp only
          split <;> rfl
  | waitingForFleet =>
      unfold refusalSentence
      dsimp only
      split <;> rfl
  | _ => rfl

/-- A planned update is of a node of the plan, and to a listed tag above it. -/
def SoundUpdate (nodes : List DispatchNodeView) (releases : List EligibilityRow)
    (move : DispatchMove) : Prop :=
  move.kind = .update → ∃ view ∈ nodes, view.row.nodeId = move.nodeId ∧
    AboveNode view.row move.target ∧ ∃ row ∈ releases, row.tag = move.target ∧
      isReleaseTag row.tag = true ∧ row.bundleListed = true ∧ row.yanked = false

theorem soundUpdate_of_unrefused {nodes : List DispatchNodeView} {releases : List EligibilityRow}
    {gate : FleetGate} {view : DispatchNodeView} {m : Intended} (among : view ∈ nodes)
    (unrefused : moveRefusal view m releases gate = some none) (viaLink : Bool) (detail : Text) :
    SoundUpdate nodes releases
      ⟨view.row.nodeId, m.kind, m.target, m.source, viaLink, detail⟩ := by
  intro update
  obtain ⟨refusal, found, sound⟩ := moveRefusal_spec view m releases gate
  obtain ⟨valid, above, listed⟩ :=
    sound (Option.some.inj (found.symm.trans unrefused)) update
  obtain ⟨row, known, parts⟩ := (Option.any_eq_true _ _).mp listed
  obtain ⟨member, same, -⟩ := releaseRowFor_some known
  simp only [Bool.and_eq_true, Bool.not_eq_true'] at parts
  exact ⟨view, among, rfl, above, row, member, same, same ▸ valid, parts.1, parts.2⟩

/-- One node of the plan: no comparison fails, and a move is one that nothing refused. -/
theorem planNode_sound (context : PlanContext) (state : PlanState) (v : DispatchNodeView) :
    ∃ state', planNode context state v = some state' ∧
      (state'.move = state.move ∨ ∃ m viaLink detail,
        moveRefusal v m context.releases context.gate = some none ∧
          state'.move = some ⟨v.row.nodeId, m.kind, m.target, m.source, viaLink, detail⟩) := by
  unfold planNode
  split
  next => exact ⟨state, rfl, .inl rfl⟩
  next =>
      cases intendedMove v with
      | none => exact ⟨state, rfl, .inl rfl⟩
      | some m =>
          dsimp only
          split
          next => exact ⟨_, rfl, .inl rfl⟩
          next =>
              obtain ⟨refusal, found, -⟩ := moveRefusal_spec v m context.releases context.gate
              have planned : ∃ answer, plannedRefusal context v m = some answer ∧
                  (answer = none → refusal = none) := by
                unfold plannedRefusal
                rw [found]
                refine ⟨_, rfl, fun isNone => ?_⟩
                cases refusal with
                | none => rfl
                | some refusal => cases refusal <;> cases isNone
              obtain ⟨answer, isAnswer, unrefused⟩ := planned
              simp only [Option.pure_def, Option.bind_eq_bind, isAnswer, Option.bind_some]
              cases answer with
              | some pair =>
                  obtain ⟨refusal', blocker⟩ := pair
                  dsimp only
                  split
                  next =>
                      obtain ⟨sentence, isSentence⟩ := Option.isSome_iff_exists.mp
                        (refusalSentence_isSome refusal' v.row m.target blocker)
                      simp only [dispatchRefusalDetail, isSentence, Option.map_some,
                        Option.bind_some]
                      exact ⟨_, rfl, .inl rfl⟩
                  next => exact ⟨state, rfl, .inl rfl⟩
              | none =>
                  dsimp only
                  split
                  next => exact ⟨_, rfl, .inr ⟨m, _, _, unrefused rfl ▸ found, rfl⟩⟩
                  next => exact ⟨state, rfl, .inl rfl⟩

/-- Over the whole loop the planned move stays a sound one. -/
theorem planNodes_sound {all : List DispatchNodeView} (context : PlanContext)
    (nodes : List DispatchNodeView) (among : ∀ v ∈ nodes, v ∈ all) (state : PlanState)
    (sound : ∀ move, state.move = some move → SoundUpdate all context.releases move) :
    ∃ state', nodes.foldlM (planNode context) state = some state' ∧
      ∀ move, state'.move = some move → SoundUpdate all context.releases move := by
  induction nodes generalizing state with
  | nil => exact ⟨state, rfl, sound⟩
  | cons v rest ih =>
      obtain ⟨next, planned, moved⟩ := planNode_sound context state v
      obtain ⟨vAmong, restAmong⟩ := List.forall_mem_cons.mp among
      have nextSound : ∀ move, next.move = some move → SoundUpdate all context.releases move := by
        intro move isMove
        rcases moved with same | ⟨m, viaLink, detail, unrefused, isNew⟩
        · exact sound move (same ▸ isMove)
        · cases isNew.symm.trans isMove
          exact soundUpdate_of_unrefused vAmong unrefused viaLink detail
      obtain ⟨last, finished, lastSound⟩ := ih restAmong next nextSound
      refine ⟨last, ?_, lastSound⟩
      rw [List.foldlM_cons, planned]
      exact finished

theorem planDispatch_sound (input : DispatchInput) :
    ∃ plan, planDispatch input = some plan ∧
      ∀ move, plan.move = some move → SoundUpdate input.nodes input.releases move := by
  obtain ⟨state, planned, sound⟩ := planNodes_sound
    (planContext input (input.nodes.mergeSort fun a b => dispatchOrdered a.row b.row))
    (input.nodes.mergeSort fun a b => dispatchOrdered a.row b.row)
    (fun v => List.mem_mergeSort.mp) ⟨[], [], none⟩ nofun
  refine ⟨⟨fleetGate (input.nodes.map (·.row)), state.move, state.refusals, state.met⟩, ?_, sound⟩
  unfold planDispatch
  dsimp only
  rw [planned]
  rfl

/-! ## The two together -/

/-- The node's columns and refusals that resolver and dispatcher both read. -/
structure SameNode (input : ResolveInput) (view : DispatchNodeView) : Prop where
  currentVersion : view.row.currentVersion = input.currentVersion
  highestVersion : view.row.highestVersion = input.highestVersion
  floorRead : view.row.floorRead = input.floorRead
  refusedTags : view.refusedTags = input.refusedByThisNode

/-- The auto update to a resolved tag is refused for neither its target nor the floor. -/
theorem desired_unrefused {input : ResolveInput} (distinct : (input.releases.map (·.tag)).Nodup)
    {r : Resolution} (resolved : Resolved input r) {tag : Text}
    (desired : r.desiredTag = some tag) {view : DispatchNodeView} (same : SameNode input view)
    (gate : FleetGate) : ∃ refusal,
      moveRefusal view ⟨.update, tag, .auto⟩ input.releases gate = some refusal ∧
        ∀ named ∈ targetRefusals, refusal ≠ some named := by
  obtain ⟨refusal, found, -⟩ := moveRefusal_spec view ⟨.update, tag, .auto⟩ input.releases gate
  refine ⟨refusal, found, fun named among isNamed => ?_⟩
  subst isNamed
  obtain ⟨measured, channel, pin, wanted⟩ := resolved.wanted desired
  obtain ⟨row, member, isTag, eligible⟩ := wanted.listed
  have valid : isReleaseTag tag = true := isTag ▸ eligible.tag
  have known : releaseRowFor input.releases tag = some row := by
    rw [releaseRowFor, valid, if_pos rfl, ← isTag]
    exact find_release distinct member
  have listed : updateTargetListed (releaseRowFor input.releases tag) = true := by
    simp [known, updateTargetListed, eligible.bundleListed, eligible.unyanked]
  refine moveRefusal_update rfl valid ?_ ⟨?_, ?_⟩ listed ?_ found among
  · rw [same.highestVersion, same.floorRead]
    exact measured
  · exact same.highestVersion ▸ wanted.aboveFloor
  · exact same.currentVersion ▸ wanted.aboveRunning
  · rw [same.refusedTags]
    exact isTag ▸ eligible.unrefused

/-- The resolver answers exactly one of a tag and a reason, each tag it names is the one
the node may move to, the dispatcher refuses the auto update to it neither for its target
nor for the floor, and an update that the dispatcher plans moves no node down. -/
theorem resolver_dispatcher_agree :
    (∀ input : ResolveInput, (input.releases.map (·.tag)).Nodup →
      ∃ r, resolveNodeIntent input = some r ∧ Resolved input r ∧
        ∀ tag, r.desiredTag = some tag → ∀ view, SameNode input view →
          view.row.desiredTag = some tag → ∀ gate, ∃ refusal,
            moveRefusal view ⟨.update, tag, .auto⟩ input.releases gate = some refusal ∧
              ∀ named ∈ targetRefusals, refusal ≠ some named) ∧
    ∀ input : DispatchInput, ∃ plan, planDispatch input = some plan ∧
      ∀ move, plan.move = some move → SoundUpdate input.nodes input.releases move := by
  refine ⟨fun input distinct => ?_, planDispatch_sound⟩
  obtain ⟨r, found, resolved⟩ := resolveNodeIntent_resolved input distinct
  refine ⟨r, found, resolved, fun tag desired view same _ gate => ?_⟩
  exact desired_unrefused distinct resolved desired same gate

/-- A node behind its pin, and the row that the dispatcher reads of it. -/
def behindPin : ResolveInput :=
  { currentVersion := some (lit "v0.0.9"), highestVersion := none, floorRead := .absent,
    nodeIntent := none, fleetIntent := some ⟨some .stable, some (lit "v0.0.010"), .stable⟩,
    releases := [⟨lit "v0.0.010", some .stable, true, false⟩], refusedByThisNode := [] }

def behindPinRow : DispatchRow :=
  { nodeId := lit "n", role := some .fleet, label := lit "box",
    currentVersion := some (lit "v0.0.9"), highestVersion := none, floorRead := .absent,
    stampRead := .ok, caps := [detachCap, updateGateCap], agentOps := none, reachable := true,
    updateState := .idle, updateDetail := none, channel := some .stable,
    desiredTag := some (lit "v0.0.010"), provenance := .verified, requestedTag := none,
    requestedKind := none }

def behindPinView : DispatchNodeView := ⟨behindPinRow, .stable, []⟩

theorem resolver_dispatcher_agree_behindPin :
    ∃ r, resolveNodeIntent behindPin = some r ∧ r.desiredTag = some (lit "v0.0.010") ∧
      ∃ refusal, moveRefusal behindPinView ⟨.update, lit "v0.0.010", .auto⟩ behindPin.releases
          ⟨[], none⟩ = some refusal ∧ ∀ named ∈ targetRefusals, refusal ≠ some named := by
  obtain ⟨r, found, -, agree⟩ := resolver_dispatcher_agree.1 behindPin (by decide)
  have desired : (resolveNodeIntent behindPin).bind (·.desiredTag) = some (lit "v0.0.010") := by
    decide
  rw [found, Option.bind_some] at desired
  exact ⟨r, found, desired,
    agree _ desired behindPinView ⟨rfl, rfl, rfl, rfl⟩ rfl ⟨[], none⟩⟩

end Ccrc.Update
