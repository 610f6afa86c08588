import Ccrc.Coord.NodesProperties

/-! Which revivals carry the lease over. The hand-off compares the stored label of the
revived row, frozen at its retirement, and not the label that is re-keyed. -/

set_option autoImplicit false

namespace Ccrc.Coord

open Library Shared

section Rekey

variable {nodes : List NodeRow} {donorId heirId : Text} {donor heir : NodeRow}

/-! ## The hand-off -/

theorem handOffLease_refused (ids : (nodes.map NodeRow.nodeId).Nodup)
    (isDonor : nodeOf nodes donorId = some donor) (isHeir : nodeOf nodes heirId = some heir)
    (why : donor.label ≠ heir.label ∨ heir.halts = true) :
    ∃ refusal, handOffLease nodes donorId heirId = (nodes, .error refusal) := by
  obtain ⟨member, isId⟩ := rowOf_some isHeir
  have untaken : (updateRows nodes (mayReceive donor heirId) (receiveLease donor)).2 = 0 := by
    refine List.countP_eq_zero.mpr fun row isRow taken => ?_
    simp only [mayReceive, Bool.and_eq_true, beq_iff_eq] at taken
    obtain ⟨⟨⟨⟨⟨own, _⟩, unhalted⟩, same⟩, _⟩, _⟩ := taken
    have isSame := List.inj_on_of_nodup_map ids isRow member (own.trans isId.symm)
    rw [isSame] at unhalted same
    rcases why with apart | halts
    · exact apart same
    · rw [haltingRowSql_iff, halts] at unhalted
      cases unhalted
  unfold handOffLease
  simp only [isDonor, untaken, Nat.lt_irrefl, if_false, updateRows_none untaken]
  exact ⟨_, rfl⟩

theorem handOffLease_handed (isDonor : nodeOf nodes donorId = some donor)
    (isHeir : nodeOf nodes heirId = some heir) (live : heir.live = true)
    (unhalted : heir.halts = false) (same : donor.label = heir.label)
    (toward : donor.supersededBy = some heirId) (unsettled : donor.settled = false) :
    ∃ next, handOffLease nodes donorId heirId = (next, .ok ()) ∧
      nodeOf next heirId = some (receiveLease donor heir) := by
  obtain ⟨member, isId⟩ := rowOf_some isHeir
  have taken : mayReceive donor heirId heir = true := by
    simp [mayReceive, isId, live, (haltingRowSql_iff heir).mpr unhalted, same, toward, unsettled]
  have changed : 0 < (updateRows nodes (mayReceive donor heirId) (receiveLease donor)).2 :=
    List.countP_pos_iff.mpr ⟨heir, member, taken⟩
  unfold handOffLease
  simp only [isDonor, changed, if_true]
  refine ⟨_, rfl, ?_⟩
  rw [updateRows, nodeOf_map, isHeir, Option.map_some, if_pos taken]
  intro row
  split
  next => rfl
  next => rfl

/-! ## A revival that retires a busy row -/

/-- The row of the id is retired before the call and live after it; a busy row of the
label is no longer live after it. -/
structure Revival (label nodeId : Text) (before after : List NodeRow)
    (frozen revived retired : NodeRow) : Prop where
  isFrozen : nodeOf before nodeId = some frozen
  superseded : frozen.live = false
  isRevived : nodeOf after nodeId = some revived
  live : revived.live = true
  isRetired : retired ∈ before
  busy : retired.busy = true
  carries : retired.label = label
  gone : ∀ row ∈ after, row.nodeId = retired.nodeId → row.live = false

def HoldsLease (holder retired : NodeRow) : Prop :=
  holder.updateState = retired.updateState ∧ holder.updateTarget = retired.updateTarget ∧
    holder.updateStartedAt = retired.updateStartedAt

instance (holder retired : NodeRow) : Decidable (HoldsLease holder retired) :=
  inferInstanceAs (Decidable (_ ∧ _ ∧ _))

/-- A revived row holds the lease of the busy row that its re-keying retired, or halts. -/
def LeaseFollows (before : NodeDb) (call : NodeCall) : Prop :=
  ∀ label nodeId frozen revived retired, call = .rekeyNode label nodeId →
    Revival label nodeId before.nodes (nodeStep before call).nodes frozen revived retired →
    HoldsLease revived retired ∨ revived.halts = true

/-- A re-keying that finds a row of its id to revive and a busy row of its label to
retire. -/
structure Displacing (nodes : List NodeRow) (label nodeId : Text) (frozen retired : NodeRow) :
    Prop where
  valid : isNodeId nodeId = true
  isFrozen : nodeOf nodes nodeId = some frozen
  superseded : frozen.live = false
  isRetired : retired ∈ nodes
  busy : retired.busy = true
  carries : retired.label = label

/-- The row to revive was stored under the re-keyed label, or halts. -/
def LabelStands (before : NodeDb) (call : NodeCall) : Prop :=
  ∀ label nodeId frozen retired, call = .rekeyNode label nodeId →
    Displacing before.nodes label nodeId frozen retired →
    frozen.label = label ∨ frozen.halts = true

variable {db : NodeDb} {label nodeId : Text} {frozen retired : NodeRow}

theorem Displacing.apart (displacing : Displacing db.nodes label nodeId frozen retired)
    (sound : NodesSound db.nodes) : retired.nodeId ≠ nodeId := by
  intro own
  have same := (nodeOf_mem sound.ids displacing.isRetired).symm.trans (own ▸ displacing.isFrozen)
  have live := (NodeRow.busy_iff.mp displacing.busy).1
  rw [Option.some.inj same, displacing.superseded] at live
  cases live

/-- The rows that such a re-keying leaves, before the lease step. -/
theorem rekeyed_retired (sound : NodesSound db.nodes)
    (displacing : Displacing db.nodes label nodeId frozen retired) :
    nodeOf (db.nodes.map (rekeyRow label nodeId)) retired.nodeId =
        some (retireToward nodeId retired) ∧
      ∀ row ∈ db.nodes.map (rekeyRow label nodeId), row.busy = true → row.nodeId = nodeId := by
  obtain ⟨live, _⟩ := NodeRow.busy_iff.mp displacing.busy
  constructor
  · rw [nodeOf_map rekeyRow_nodeId, nodeOf_mem sound.ids displacing.isRetired, Option.map_some,
      rekeyRow, if_neg (displacing.apart sound), if_pos (by simp [live, displacing.carries])]
  · intro row member rowBusy
    rcases rekeyRow_busy member rowBusy with own | ⟨old, foreign⟩
    · exact own
    · rw [sound.same old displacing.isRetired rowBusy displacing.busy] at foreign
      exact absurd displacing.carries foreign

theorem rekeyNode_donor (sound : NodesSound db.nodes)
    (displacing : Displacing db.nodes label nodeId frozen retired) :
    (rekeyNode db label nodeId).1.nodes =
      leaseFollowsLabel (db.nodes.map (rekeyRow label nodeId)) label nodeId
        (some retired.nodeId) := by
  rw [rekeyNode_heir sound.ids displacing.valid displacing.isFrozen,
    if_neg (by simp [displacing.superseded])]
  cases isDonor : rekeyDonor db.nodes label nodeId with
  | some donor =>
      obtain ⟨isRow, busy, _, _⟩ := rekeyDonor_some isDonor
      rw [sound.same isRow displacing.isRetired busy displacing.busy, Option.map_some]
  | none =>
      rcases rekeyDonor_none displacing.isFrozen displacing.superseded isDonor
        displacing.isRetired displacing.busy with foreign | own
      · exact absurd displacing.carries foreign
      · exact absurd own (displacing.apart sound)

/-- A revived row of the label that does not halt takes the lease over. -/
theorem rekeyNode_handed (sound : NodesSound db.nodes)
    (displacing : Displacing db.nodes label nodeId frozen retired) (same : frozen.label = label)
    (unhalted : frozen.halts = false) :
    nodeOf (rekeyNode db label nodeId).1.nodes nodeId =
      some (receiveLease (retireToward nodeId retired) (reviveRow frozen)) := by
  rw [rekeyNode_donor sound displacing]
  obtain ⟨isDonor, _⟩ := rekeyed_retired sound displacing
  have isHeir := nodeOf_rekeyRow label displacing.isFrozen
  obtain ⟨next, handed, isNext⟩ := handOffLease_handed isDonor isHeir rfl unhalted
    (displacing.carries.trans same.symm) rfl (NodeRow.busy_iff.mp displacing.busy).2
  unfold leaseFollowsLabel nodeLeaseRow
  rw [isHeir]
  simp only [Option.map_some, handed]
  exact isNext

/-- Any other is left to the rest of the lease step. -/
theorem rekeyNode_refused (sound : NodesSound db.nodes)
    (displacing : Displacing db.nodes label nodeId frozen retired) (why : frozen.label ≠ label ∨ frozen.halts = true) :
    (rekeyNode db label nodeId).1.nodes =
      yieldLease (db.nodes.map (rekeyRow label nodeId)) label nodeId frozen.updateStartedAt := by
  rw [rekeyNode_donor sound displacing]
  obtain ⟨isDonor, _⟩ := rekeyed_retired sound displacing
  have isHeir := nodeOf_rekeyRow label displacing.isFrozen
  have ids : ((db.nodes.map (rekeyRow label nodeId)).map NodeRow.nodeId).Nodup := by
    rw [rekeyRow_ids]
    exact sound.ids
  have refused : (retireToward nodeId retired).label ≠ (reviveRow frozen).label ∨
      (reviveRow frozen).halts = true := by
    refine why.imp (fun foreign same => foreign ?_) id
    exact same.symm.trans displacing.carries
  obtain ⟨refusal, isRefused⟩ := handOffLease_refused ids isDonor isHeir refused
  unfold leaseFollowsLabel nodeLeaseRow
  rw [isHeir]
  simp only [Option.map_some, isRefused]
  rfl

/-- The rest of the lease step never writes a row that halts, and leaves a row of
another label settled. -/
theorem yieldLease_revived (ids : (nodes.map NodeRow.nodeId).Nodup)
    (isHeir : nodeOf nodes nodeId = some heir) (live : heir.live = true)
    (only : ∀ row ∈ nodes, row.busy = true → row.nodeId = nodeId)
    (why : heir.label ≠ label ∨ heir.halts = true) :
    ∃ next, nodeOf (yieldLease nodes label nodeId heir.updateStartedAt) nodeId = some next ∧
      next.live = true ∧ next.settled = true ∧ next.halts = heir.halts := by
  obtain ⟨member, isId⟩ := rowOf_some isHeir
  cases settled : heir.settled with
  | true =>
      -- no row is busy, and nothing is written
      have unheld : ∀ row ∈ nodes, row.busy = true → row.label = label := by
        intro row isRow busy
        have same := List.inj_on_of_nodup_map ids isRow member
          ((only row isRow busy).trans isId.symm)
        rw [same, NodeRow.busy_iff, settled] at busy
        cases busy.2
      rw [yieldLease_none unheld]
      exact ⟨heir, isHeir, live, settled, rfl⟩
  | false =>
      have unhalted : heir.halts = false := by
        by_contra halts
        rw [halts_settled (by simpa using halts)] at settled
        cases settled
      have busy : heir.busy = true := NodeRow.busy_iff.mpr ⟨live, settled⟩
      have foreign : heir.label ≠ label := why.resolve_right (by simp [unhalted])
      cases isNext : nodeOf (yieldLease nodes label nodeId heir.updateStartedAt) nodeId with
      | none =>
          have among : nodeId ∈ nodes.map NodeRow.nodeId := List.mem_map.mpr ⟨heir, member, isId⟩
          rw [← yieldLease_ids nodes label nodeId heir.updateStartedAt] at among
          obtain ⟨row, isRow, own⟩ := List.mem_map.mp among
          exact absurd own (rowOf_none.mp isNext row isRow)
      | some next =>
          obtain ⟨isRow, own⟩ := rowOf_some isNext
          refine ⟨next, rfl, ?_⟩
          rcases yieldLease_row ids isHeir member busy foreign isRow with
            ⟨_, isLive, idle⟩ | ⟨before, untaken⟩
          · have word : isSettledWord UpdateState.idle.text = true := by decide
            rw [NodeRow.settled, NodeRow.halts, idle, unhalted]
            exact ⟨isLive, word, by simp [isHaltingUpdate]⟩
          · have same := List.inj_on_of_nodup_map ids before member (own.trans isId.symm)
            rw [same] at untaken
            exact absurd ⟨isId, busy⟩ untaken

theorem rekeyNode_revived (sound : NodesSound db.nodes)
    (displacing : Displacing db.nodes label nodeId frozen retired) (why : frozen.label ≠ label ∨ frozen.halts = true) :
    ∃ next, nodeOf (rekeyNode db label nodeId).1.nodes nodeId = some next ∧
      next.live = true ∧ next.settled = true ∧ next.halts = frozen.halts := by
  rw [rekeyNode_refused sound displacing why]
  obtain ⟨_, only⟩ := rekeyed_retired sound displacing
  have ids : ((db.nodes.map (rekeyRow label nodeId)).map NodeRow.nodeId).Nodup := by
    rw [rekeyRow_ids]
    exact sound.ids
  have isHeir := nodeOf_rekeyRow label displacing.isFrozen
  have isWhy : (reviveRow frozen).label ≠ label ∨ (reviveRow frozen).halts = true := why
  have revived := yieldLease_revived ids isHeir rfl only isWhy
  exact revived

theorem rekeyNode_gone (sound : NodesSound db.nodes)
    (displacing : Displacing db.nodes label nodeId frozen retired) {row : NodeRow}
    (member : row ∈ (rekeyNode db label nodeId).1.nodes) (same : row.nodeId = retired.nodeId) :
    row.live = false := by
  obtain ⟨isLater, _⟩ := rekeyed_retired sound displacing
  rw [rekeyNode_donor sound displacing] at member
  have apart : row.nodeId ≠ nodeId := fun own => displacing.apart sound (same.symm.trans own)
  have before := leaseFollowsLabel_other member apart
  have ids : ((db.nodes.map (rekeyRow label nodeId)).map NodeRow.nodeId).Nodup := by
    rw [rekeyRow_ids]
    exact sound.ids
  have isRow := nodeOf_mem ids before
  rw [same, isLater] at isRow
  rw [← Option.some.inj isRow]
  rfl

/-- A re-keying carries the lease over exactly where the stored label of the revived
row is the re-keyed one, or the row halts. -/
theorem labelStands_iff (sound : NodesSound db.nodes) (call : NodeCall) :
    LabelStands db call ↔ LeaseFollows db call := by
  constructor
  · intro stands label nodeId frozen revived retired isCall revival
    subst isCall
    have valid : isNodeId nodeId = true := by
      by_contra invalid
      have unchanged : (nodeStep db (.rekeyNode label nodeId)).nodes = db.nodes := by
        simp [nodeStep, rekeyNode, invalid]
      have same := revival.isFrozen.symm.trans (unchanged ▸ revival.isRevived)
      have live := revival.live
      rw [← Option.some.inj same, revival.superseded] at live
      cases live
    have displacing : Displacing db.nodes label nodeId frozen retired :=
      ⟨valid, revival.isFrozen, revival.superseded, revival.isRetired, revival.busy,
        revival.carries⟩
    have condition := stands label nodeId frozen retired rfl displacing
    cases halts : frozen.halts with
    | true =>
        obtain ⟨next, isNext, _, _, same⟩ := rekeyNode_revived sound displacing (Or.inr halts)
        rw [Option.some.inj (revival.isRevived.symm.trans isNext), same]
        exact Or.inr halts
    | false =>
        have same : frozen.label = label := condition.resolve_right (by simp [halts])
        have handed := rekeyNode_handed sound displacing same halts
        rw [Option.some.inj (revival.isRevived.symm.trans handed)]
        exact Or.inl ⟨rfl, rfl, rfl⟩
  · intro follows label nodeId frozen retired isCall displacing
    subst isCall
    by_contra neither
    obtain ⟨foreign, halts⟩ := not_or.mp neither
    obtain ⟨next, isNext, live, settled, same⟩ :=
      rekeyNode_revived sound displacing (Or.inl foreign)
    have revival : Revival label nodeId db.nodes (rekeyNode db label nodeId).1.nodes frozen next
        retired :=
      ⟨displacing.isFrozen, displacing.superseded, isNext, live, displacing.isRetired,
        displacing.busy, displacing.carries, fun _ member => rekeyNode_gone sound displacing member⟩
    rcases follows label nodeId frozen next retired rfl revival with held | halting
    · have unsettled := (NodeRow.busy_iff.mp displacing.busy).2
      rw [NodeRow.settled, held.1, ← NodeRow.settled, unsettled] at settled
      cases settled
    · exact halts (same ▸ halting)

/-! ## Runs -/

theorem nodeStep_sound (sound : NodesSound db.nodes) (call : NodeCall) :
    NodesSound (nodeStep db call).nodes := by
  cases call with
  | dispatchNode nodeId target kind startedAt detail =>
      exact dispatchNode_sound sound nodeId target kind startedAt detail
  | releaseLease nodeId settles detail expectedStartedAt =>
      exact releaseLease_sound sound nodeId settles detail expectedStartedAt
  | settleNode nodeId detail expectedStartedAt =>
      exact settleNode_sound sound nodeId detail expectedStartedAt
  | ackNode nodeId => exact ackNode_sound sound nodeId
  | requestNode nodeId tag kind now => exact requestNode_sound sound nodeId tag kind now
  | rekeyNode label nodeId => exact rekeyNode_sound sound label nodeId
  | upsertNodeMeasurement measurement => exact upsertNodeMeasurement_sound sound measurement
  | markUnreachable label now => exact markUnreachable_sound sound label now

theorem nodeRun_sound (refusals : List RefusalRow) (calls : List NodeCall) :
    NodesSound (runFrom nodeStep ⟨[], refusals⟩ calls).nodes := by
  have step : ∀ (db : NodeDb) call, NodesSound db.nodes → NodesSound (nodeStep db call).nodes :=
    fun _ call sound => nodeStep_sound sound call
  have start : NodesSound (⟨[], refusals⟩ : NodeDb).nodes := nodesSound_nil
  exact runFrom_invariant step start calls

/-- One lease at every moment, and every revival carries over the lease it retires. -/
structure LeaseKept (start : NodeDb) (calls : List NodeCall) : Prop where
  one : ∀ before after, calls = before ++ after →
    OneLease (runFrom nodeStep start before).nodes
  follows : ∀ before call after, calls = before ++ call :: after →
    LeaseFollows (runFrom nodeStep start before) call

/-- Two leases are never held; and every lease is carried over exactly where every
re-keying that displaces a busy row finds its own label on the row it revives. -/
theorem nodeRun_leaseKept (refusals : List RefusalRow) (calls : List NodeCall) :
    (∀ before after, calls = before ++ after →
      OneLease (runFrom nodeStep ⟨[], refusals⟩ before).nodes) ∧
    (LeaseKept ⟨[], refusals⟩ calls ↔ ∀ before call after, calls = before ++ call :: after →
      LabelStands (runFrom nodeStep ⟨[], refusals⟩ before) call) := by
  have one : ∀ before after, calls = before ++ after →
      OneLease (runFrom nodeStep ⟨[], refusals⟩ before).nodes := fun before _ _ =>
    (nodeRun_sound refusals before).oneLease
  refine ⟨one, fun kept before call after split => ?_, fun stands => ⟨one, ?_⟩⟩
  · exact (labelStands_iff (nodeRun_sound refusals before) call).mpr
      (kept.follows before call after split)
  · intro before call after split
    exact (labelStands_iff (nodeRun_sound refusals before) call).mp
      (stands before call after split)

end Rekey

namespace RekeyExample

def firstId : Text := Text.lit "00000000-0000-0000-0000-000000000001"

def secondId : Text := Text.lit "00000000-0000-0000-0000-000000000002"

def serverId : Text := Text.lit "00000000-0000-0000-0000-000000000003"

def fleet : Text := Text.lit "fleet"

def server : Text := Text.lit "server"

def measure (nodeId label : Text) (measuredAt : Int) : NodeCall :=
  .upsertNodeMeasurement ⟨nodeId, label, none, none, measuredAt⟩

/-- The fleet's box is installed again, and the server's box is updating. -/
def before : List NodeCall :=
  [measure firstId fleet 1, measure secondId fleet 2, .rekeyNode fleet secondId,
    measure serverId server 3, .dispatchNode serverId (Text.lit "v0.0.2")
      RequestKind.update.text 5 []]

/-- The old id of the fleet's box is measured under the server's label. -/
def moved : NodeCall := .rekeyNode server firstId

def frozen : NodeRow :=
  { measured ⟨firstId, fleet, none, none, 1⟩ (newNode firstId fleet) with
    supersededBy := some secondId }

def retired : NodeRow :=
  { measured ⟨serverId, server, none, none, 3⟩ (newNode serverId server) with
    updateState := UpdateState.pending.text
    updateTarget := some (Text.lit "v0.0.2")
    updateStartedAt := some 5
    updateDetail := some [] }

end RekeyExample

open RekeyExample in
/-- The run of an update is left without a holder. -/
theorem nodeRun_drops : ¬LeaseKept ⟨[], []⟩ (before ++ [moved]) := by
  intro kept
  have follows := kept.follows before moved [] rfl
  have revival : Revival server firstId (runFrom nodeStep ⟨[], []⟩ before).nodes
      (nodeStep (runFrom nodeStep ⟨[], []⟩ before) moved).nodes frozen (reviveRow frozen) retired :=
    ⟨by decide +kernel, rfl, by decide +kernel, rfl, by decide +kernel, by decide, rfl,
      by decide +kernel⟩
  have dropped : ¬(HoldsLease (reviveRow frozen) retired ∨ (reviveRow frozen).halts = true) := by
    decide +kernel
  exact dropped (follows server firstId frozen (reviveRow frozen) retired rfl revival)

end Ccrc.Coord
