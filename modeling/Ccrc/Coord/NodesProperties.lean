import Ccrc.Coord.Nodes
import Ccrc.Library.Lists

/-! One live row holds a lease at most, whatever is re-keyed, retired and revived. A
revival hands the lease of the row it retires to the revived one where that one's
stored label is the re-keyed label. -/

set_option autoImplicit false

namespace Ccrc.Coord

open Library Shared

/-! ## Rows -/

theorem nodeOf_map {nodes : List NodeRow} {change : NodeRow → NodeRow}
    (keeps : ∀ row, (change row).nodeId = row.nodeId) (nodeId : Text) :
    nodeOf (nodes.map change) nodeId = (nodeOf nodes nodeId).map change :=
  rowOf_map keeps nodeId

theorem nodeOf_mem {nodes : List NodeRow} (ids : (nodes.map NodeRow.nodeId).Nodup) {row : NodeRow}
    (member : row ∈ nodes) : nodeOf nodes row.nodeId = some row :=
  rowOf_mem ids member

/-- What the dispatcher calls a row that halts the fleet. -/
def NodeRow.halts (row : NodeRow) : Bool := isHaltingUpdate row.updateState row.updateDetail

/-- The test of the statement and the one of the dispatcher are the same. -/
theorem haltingRowSql_iff (row : NodeRow) : haltingRowSql row = some false ↔ row.halts = false := by
  unfold haltingRowSql NodeRow.halts isHaltingUpdate NodeRow.halted NodeRow.settled
  cases settled : isSettledWord row.updateState with
  | false => simp
  | true =>
      by_cases idle : row.updateState = UpdateState.idle.text
      · simp [idle]
      · by_cases failed : row.updateState = UpdateState.failed.text
        · cases row.updateDetail <;> simp [failed]
        · simp [idle, failed]

theorem NodeRow.busy_iff {row : NodeRow} : row.busy = true ↔ row.live = true ∧ row.settled = false := by
  simp [NodeRow.busy]

theorem halts_settled {row : NodeRow} (halts : row.halts = true) : row.settled = true := by
  unfold NodeRow.halts isHaltingUpdate at halts
  unfold NodeRow.settled
  cases settled : isSettledWord row.updateState with
  | true => rfl
  | false => simp [settled] at halts

theorem settledUpdateState_settled (state : SettledUpdateState) :
    isSettledWord state.state.text = true := by
  cases state <;> decide

/-! ## The rule of one lease -/

structure NodesSound (nodes : List NodeRow) : Prop where
  ids : (nodes.map NodeRow.nodeId).Nodup
  one : ∀ first ∈ nodes, ∀ second ∈ nodes, first.busy = true → second.busy = true →
    first.nodeId = second.nodeId

theorem nodesSound_nil : NodesSound [] := ⟨List.nodup_nil, fun _ member => by cases member⟩

section Sound

variable {nodes : List NodeRow} {guard : NodeRow → Bool} {set : NodeRow → NodeRow}

theorem NodesSound.same (sound : NodesSound nodes) {first second : NodeRow} (isFirst : first ∈ nodes)
    (isSecond : second ∈ nodes) (firstBusy : first.busy = true) (secondBusy : second.busy = true) :
    first = second :=
  List.inj_on_of_nodup_map sound.ids isFirst isSecond
    (sound.one first isFirst second isSecond firstBusy secondBusy)

/-- An UPDATE that makes no row busy that was not. -/
theorem NodesSound.update (sound : NodesSound nodes) (keeps : ∀ row, (set row).nodeId = row.nodeId)
    (frees : ∀ row, guard row = true → (set row).busy = true → row.busy = true) :
    NodesSound (updateRows nodes guard set).1 := by
  refine ⟨?_, fun first isFirst second isSecond firstBusy secondBusy => ?_⟩
  · rw [updateRows_keys keeps]
    exact sound.ids
  · have source : ∀ next ∈ (updateRows nodes guard set).1, next.busy = true →
        ∃ row ∈ nodes, row.busy = true ∧ row.nodeId = next.nodeId := by
      intro next isNext busy
      obtain ⟨row, member, rfl⟩ := mem_updateRows.mp isNext
      refine ⟨row, member, ?_⟩
      by_cases taken : guard row = true
      · rw [if_pos taken] at busy ⊢
        exact ⟨frees row taken busy, (keeps row).symm⟩
      · rw [if_neg taken] at busy ⊢
        exact ⟨busy, rfl⟩
    obtain ⟨one, isOne, oneBusy, oneId⟩ := source first isFirst firstBusy
    obtain ⟨other, isOther, otherBusy, otherId⟩ := source second isSecond secondBusy
    rw [← oneId, ← otherId]
    exact sound.one one isOne other isOther oneBusy otherBusy

/-- An UPDATE of one row where no row is busy. -/
theorem NodesSound.acquire (sound : NodesSound nodes) (nodeId : Text)
    (keeps : ∀ row, (set row).nodeId = row.nodeId)
    (one : ∀ row, guard row = true → row.nodeId = nodeId ∧ nodes.any NodeRow.busy = false) :
    NodesSound (updateRows nodes guard set).1 := by
  refine ⟨?_, fun first isFirst second isSecond firstBusy secondBusy => ?_⟩
  · rw [updateRows_keys keeps]
    exact sound.ids
  · obtain ⟨row, member, rfl⟩ := mem_updateRows.mp isFirst
    obtain ⟨other, isOther, rfl⟩ := mem_updateRows.mp isSecond
    by_cases taken : guard row = true
    · have unheld := (one row taken).2
      by_cases also : guard other = true
      · rw [if_pos taken, if_pos also, keeps, keeps, (one row taken).1, (one other also).1]
      · rw [if_neg also] at secondBusy
        exact absurd secondBusy (by simpa using List.any_eq_false.mp unheld other isOther)
    · rw [if_neg taken] at firstBusy ⊢
      by_cases also : guard other = true
      · have unheld := (one other also).2
        exact absurd firstBusy (by simpa using List.any_eq_false.mp unheld row member)
      · rw [if_neg also] at secondBusy ⊢
        exact sound.one row member other isOther firstBusy secondBusy

theorem NodesSound.append (sound : NodesSound nodes) {row : NodeRow}
    (absent : nodeOf nodes row.nodeId = none) (idle : row.busy = false) :
    NodesSound (nodes ++ [row]) := by
  refine ⟨?_, fun first isFirst second isSecond firstBusy secondBusy => ?_⟩
  · rw [List.map_append, List.nodup_append]
    refine ⟨sound.ids, List.nodup_singleton _, fun one isOne two isTwo => ?_⟩
    obtain ⟨held, member, rfl⟩ := List.mem_map.mp isOne
    rw [List.map_singleton, List.mem_singleton] at isTwo
    rw [isTwo]
    exact rowOf_none.mp absent held member
  · have old : ∀ next ∈ nodes ++ [row], next.busy = true → next ∈ nodes := by
      intro next isNext busy
      cases List.mem_append.mp isNext with
      | inl held => exact held
      | inr new =>
          rw [List.mem_singleton.mp new, idle] at busy
          cases busy
    exact sound.one first (old first isFirst firstBusy) second (old second isSecond secondBusy)
      firstBusy secondBusy

end Sound

/-- At most one live row is in a state that is not settled. -/
def OneLease (nodes : List NodeRow) : Prop := (nodes.filter NodeRow.busy).length ≤ 1

theorem NodesSound.oneLease {nodes : List NodeRow} (sound : NodesSound nodes) : OneLease nodes := by
  refine length_filter_le_one (List.Nodup.pairwise_of_forall_ne sound.ids.of_map ?_)
  intro first isFirst second isSecond different both
  exact different (sound.same isFirst isSecond both.1 both.2)

/-! ## The writers of one row -/

section Writers

variable {nodes : List NodeRow}

theorem upsertNodeMeasurement_sound (sound : NodesSound nodes) (measurement : NodeMeasurement) :
    NodesSound (upsertNodeMeasurement nodes measurement).1 := by
  unfold upsertNodeMeasurement
  split
  next absent => exact sound.append absent rfl
  next =>
      dsimp only
      rw [apply_ite Prod.fst, ite_self]
      refine sound.update ?_ ?_
      · exact fun _ => rfl
      · exact fun _ _ busy => busy

theorem markUnreachable_sound (sound : NodesSound nodes) (label : Text) (now : Int) :
    NodesSound (markUnreachable nodes label now).1 := by
  have updated : NodesSound (updateRows nodes (fun row => row.label == label && row.live)
      fun row => { row with
        reachable := false, unreachableSince := some (row.unreachableSince.getD now) }).1 := by
    refine sound.update ?_ ?_
    · exact fun _ => rfl
    · exact fun _ _ busy => busy
  unfold markUnreachable
  dsimp only
  split
  next =>
      split
      next => exact updated
      next => exact updated
  next =>
      split
      next absent => exact updated.append absent rfl
      next => exact updated

/-- A row that a write settles is not busy. -/
theorem settles_idle {row : NodeRow} (state : SettledUpdateState) (busy : row.busy = true)
    (word : row.updateState = state.state.text) : False := by
  have settled : row.settled = true := by
    rw [NodeRow.settled, word]
    exact settledUpdateState_settled state
  rw [NodeRow.busy_iff, settled] at busy
  cases busy.2

theorem releaseLease_sound (sound : NodesSound nodes) (nodeId : Text)
    (settles : SettledUpdateState) (detail : Text) (expectedStartedAt : Option Int) :
    NodesSound (releaseLease nodes nodeId settles detail expectedStartedAt).1 := by
  unfold releaseLease
  dsimp only
  rw [apply_ite Prod.fst, ite_self]
  refine sound.update ?_ ?_
  · exact fun _ => rfl
  · exact fun _ _ busy => (settles_idle settles busy rfl).elim

theorem settleNode_sound (sound : NodesSound nodes) (nodeId detail : Text)
    (expectedStartedAt : Option Int) :
    NodesSound (settleNode nodes nodeId detail expectedStartedAt).1 := by
  unfold settleNode
  dsimp only
  rw [apply_ite Prod.fst, ite_self]
  refine sound.update ?_ ?_
  · exact fun _ => rfl
  · exact fun _ _ busy => (settles_idle .idle busy rfl).elim

theorem ackNode_sound {db : NodeDb} (sound : NodesSound db.nodes) (nodeId : Text) :
    NodesSound (ackNode db nodeId).1.nodes := by
  unfold ackNode
  dsimp only
  split <;>
  · refine sound.update ?_ ?_
    · exact fun _ => rfl
    · exact fun _ _ busy => (settles_idle .idle busy rfl).elim

theorem requestNode_sound (sound : NodesSound nodes) (nodeId tag kind : Text) (now : Int) :
    NodesSound (requestNode nodes nodeId tag kind now).1 := by
  unfold requestNode
  split
  next => exact sound
  next =>
      split
      next => exact sound
      next =>
          split
          next => exact sound
          next =>
              dsimp only
              rw [apply_ite Prod.fst, ite_self]
              refine sound.update ?_ ?_
              · exact fun _ => rfl
              · exact fun _ _ busy => busy

theorem dispatchNode_sound (sound : NodesSound nodes) (nodeId target kind : Text)
    (startedAt : Int) (detail : Text) :
    NodesSound (dispatchNode nodes nodeId target kind startedAt detail).1 := by
  unfold dispatchNode
  split
  next => exact sound
  next =>
      split
      next => exact sound
      next =>
          split
          next => exact sound
          next =>
              dsimp only
              rw [apply_ite Prod.fst, ite_self]
              refine sound.acquire nodeId (fun _ => rfl) fun row taken => ?_
              simp only [Bool.and_eq_true, beq_iff_eq, Bool.not_eq_true'] at taken
              exact ⟨taken.1.1.1.1, taken.1.2⟩

end Writers

/-! ## The rows of a re-keying -/

/-- What a re-keying makes of each row where its id has one. -/
def rekeyRow (label nodeId : Text) (row : NodeRow) : NodeRow :=
  if row.nodeId = nodeId then reviveRow row
  else if row.live && (row.nodeId == label || row.label == label) then retireToward nodeId row
  else row

/-- What a re-keying makes of each row where its id has none. -/
def renameRow (label nodeId : Text) (row : NodeRow) : NodeRow :=
  if row.live && row.nodeId == label then { row with nodeId := nodeId }
  else if row.live && row.label == label then retireToward nodeId row
  else row

section Rekey

variable {db : NodeDb} {label nodeId : Text} {heir : NodeRow}

@[simp] theorem retireToward_nodeId (row : NodeRow) : (retireToward nodeId row).nodeId = row.nodeId :=
  rfl

@[simp] theorem retireToward_label (row : NodeRow) : (retireToward nodeId row).label = row.label :=
  rfl

@[simp] theorem retireToward_live (row : NodeRow) : (retireToward nodeId row).live = false := rfl

@[simp] theorem reviveRow_nodeId (row : NodeRow) : (reviveRow row).nodeId = row.nodeId := rfl

@[simp] theorem reviveRow_label (row : NodeRow) : (reviveRow row).label = row.label := rfl

@[simp] theorem reviveRow_live (row : NodeRow) : (reviveRow row).live = true := rfl

@[simp] theorem reviveRow_retireToward (heirId : Text) (row : NodeRow) :
    reviveRow (retireToward heirId row) = reviveRow row := rfl

theorem reviveRow_of_live {row : NodeRow} (live : row.live = true) : reviveRow row = row := by
  have unset : row.supersededBy = none := Option.isNone_iff_eq_none.mp live
  rw [reviveRow, ← unset]

@[simp] theorem rekeyRow_nodeId (row : NodeRow) : (rekeyRow label nodeId row).nodeId = row.nodeId := by
  unfold rekeyRow
  split
  next => rfl
  next =>
      split
      next => rfl
      next => rfl

theorem rekeyLabelRow_heir (label : Text) (isHeir : nodeOf db.nodes nodeId = some heir) :
    ∃ how, rekeyLabelRow db label nodeId = some
      ({ db with nodes := (updateRows db.nodes (fun row => row.nodeId == label && row.live)
          (retireToward nodeId)).1 }, how) := by
  unfold rekeyLabelRow
  simp only [isHeir, Option.isSome_some, Bool.and_true]
  split
  next => exact ⟨.superseded, rfl⟩
  next unchanged =>
      have none : (updateRows db.nodes (fun row => row.nodeId == label && row.live)
          (retireToward nodeId)).2 = 0 := Nat.eq_zero_of_not_pos unchanged
      -- the same guard takes no row the second time
      have unmoved : (updateRows db.nodes (fun row => row.nodeId == label && row.live)
          fun row => { row with nodeId := nodeId }).2 = 0 := none
      rw [updateRows_none none, if_pos unmoved, updateRows_none unmoved]
      exact ⟨.noLabelRow, rfl⟩

/-- The three UPDATEs of a re-keying on one row. -/
theorem rekeyRow_passes (label nodeId : Text) (row : NodeRow) :
    (let keyed := if row.nodeId == label && row.live then retireToward nodeId row else row
     let revived := if keyed.nodeId == nodeId && !keyed.live then reviveRow keyed else keyed
     if revived.label == label && revived.live && revived.nodeId != nodeId &&
         revived.nodeId != label then retireToward nodeId revived else revived) =
      rekeyRow label nodeId row := by
  unfold rekeyRow
  by_cases live : row.live = true
  · by_cases own : row.nodeId = nodeId
    · by_cases keyed : nodeId = label
      · simp [own, live, keyed]
      · simp [own, live, keyed, reviveRow_of_live live]
    · by_cases keyed : row.nodeId = label
      · have apart : ¬label = nodeId := keyed ▸ own
        simp [keyed, live, apart]
      · simp [own, live, keyed]
  · by_cases own : row.nodeId = nodeId
    · simp [own, live]
    · simp [own, live]

/-- A row is revived that was retired, or that its own label just retired. -/
theorem rekeyRow_revives (label nodeId : Text) (row : NodeRow) :
    (let keyed := if row.nodeId == label && row.live then retireToward nodeId row else row
     keyed.nodeId == nodeId && !keyed.live) = true ↔
      row.nodeId = nodeId ∧ ¬(row.live = true ∧ label ≠ nodeId) := by
  by_cases keyed : row.nodeId = label
  · cases live : row.live with
    | true =>
        simp only [keyed, beq_self_eq_true, Bool.and_true, if_true, retireToward_nodeId,
          retireToward_live, Bool.not_false, beq_iff_eq]
        tauto
    | false => simp [live]
  · cases live : row.live with
    | true =>
        have apart : row.nodeId = nodeId → ¬label = nodeId := fun own same =>
          keyed (own.trans same.symm)
        simpa [keyed, live] using apart
    | false => simp [live]

/-- With a row of its id a re-keying is one pass over the rows, and the lease step
where the row was revived. -/
theorem rekeyNode_heir (ids : (db.nodes.map NodeRow.nodeId).Nodup) (valid : isNodeId nodeId = true)
    (isHeir : nodeOf db.nodes nodeId = some heir) :
    (rekeyNode db label nodeId).1.nodes =
      if heir.live = true ∧ label ≠ nodeId then db.nodes.map (rekeyRow label nodeId)
      else leaseFollowsLabel (db.nodes.map (rekeyRow label nodeId)) label nodeId
        ((rekeyDonor db.nodes label nodeId).map (·.nodeId)) := by
  obtain ⟨how, keyed⟩ := rekeyLabelRow_heir label isHeir
  obtain ⟨member, isId⟩ := rowOf_some isHeir
  have passes : (updateRows (updateRows (updateRows db.nodes
      (fun row => row.nodeId == label && row.live) (retireToward nodeId)).1
      (fun row => row.nodeId == nodeId && !row.live) reviveRow).1
      (fun row => row.label == label && row.live && row.nodeId != nodeId && row.nodeId != label)
      (retireToward nodeId)).1 = db.nodes.map (rekeyRow label nodeId) := by
    simp only [updateRows, List.map_map]
    exact List.map_congr_left fun row _ => rekeyRow_passes label nodeId row
  have revives : 0 < (updateRows (updateRows db.nodes
      (fun row => row.nodeId == label && row.live) (retireToward nodeId)).1
      (fun row => row.nodeId == nodeId && !row.live) reviveRow).2 ↔
      ¬(heir.live = true ∧ label ≠ nodeId) := by
    simp only [updateRows, List.countP_pos_iff, List.mem_map]
    constructor
    · rintro ⟨_, ⟨row, isRow, rfl⟩, revived⟩
      obtain ⟨own, retired⟩ := (rekeyRow_revives label nodeId row).mp revived
      rw [List.inj_on_of_nodup_map ids member isRow (isId.trans own.symm)]
      exact retired
    · intro retired
      exact ⟨_, ⟨heir, member, rfl⟩, (rekeyRow_revives label nodeId heir).mpr ⟨isId, retired⟩⟩
  unfold rekeyNode
  simp only [valid, not_true_eq_false, if_false, keyed, passes, revives]
  rw [ite_not]

/-- A busy row after the pass is the row of the id, or one of another label that the
pass left alone. -/
theorem rekeyRow_busy {next : NodeRow} (member : next ∈ db.nodes.map (rekeyRow label nodeId))
    (busy : next.busy = true) :
    next.nodeId = nodeId ∨ next ∈ db.nodes ∧ next.label ≠ label := by
  obtain ⟨row, isRow, rfl⟩ := List.mem_map.mp member
  rw [rekeyRow_nodeId]
  by_cases own : row.nodeId = nodeId
  · exact Or.inl own
  · right
    unfold rekeyRow at busy ⊢
    rw [if_neg own] at busy ⊢
    split at busy
    next => simp [NodeRow.busy] at busy
    next kept =>
        rw [if_neg kept]
        refine ⟨isRow, fun same => kept ?_⟩
        simp [(NodeRow.busy_iff.mp busy).1, same]

theorem rekeyRow_ids (label nodeId : Text) (nodes : List NodeRow) :
    (nodes.map (rekeyRow label nodeId)).map NodeRow.nodeId = nodes.map NodeRow.nodeId := by
  rw [List.map_map]
  exact List.map_congr_left fun row _ => rekeyRow_nodeId row

theorem rekeyLabelRow_noHeir (label : Text) (absent : nodeOf db.nodes nodeId = none) :
    rekeyLabelRow db label nodeId = none ∨ ∃ keyed how,
      rekeyLabelRow db label nodeId = some (keyed, how) ∧
      keyed.nodes = (updateRows db.nodes (fun row => row.nodeId == label && row.live)
        fun row => { row with nodeId := nodeId }).1 := by
  have untaken : (updateRows db.nodes (fun _ => false) (retireToward nodeId)).2 = 0 := by
    simp [updateRows]
  unfold rekeyLabelRow
  simp only [absent, Option.isSome_none, Bool.and_false, updateRows_none untaken]
  rw [if_neg (by simp [untaken])]
  split
  next => exact Or.inr ⟨_, _, rfl, rfl⟩
  next =>
      split
      next => exact Or.inl rfl
      next => exact Or.inr ⟨_, _, rfl, rfl⟩

/-- The row that the label keys becomes the row of an id that no row has. -/
theorem NodesSound.rename {nodes : List NodeRow} (sound : NodesSound nodes)
    (absent : nodeOf nodes nodeId = none) (label : Text) :
    NodesSound (updateRows nodes (fun row => row.nodeId == label && row.live)
      fun row => { row with nodeId := nodeId }).1 := by
  have fresh := rowOf_none.mp absent
  refine ⟨?_, fun first isFirst second isSecond firstBusy secondBusy => ?_⟩
  · rw [updateRows, List.map_map]
    refine sound.ids.of_map.map_on fun first isFirst second isSecond same => ?_
    simp only [Function.comp] at same
    by_cases firstTaken : (first.nodeId == label && first.live) = true
    · by_cases secondTaken : (second.nodeId == label && second.live) = true
      · refine List.inj_on_of_nodup_map sound.ids isFirst isSecond ?_
        simp only [Bool.and_eq_true, beq_iff_eq] at firstTaken secondTaken
        rw [firstTaken.1, secondTaken.1]
      · rw [if_pos firstTaken, if_neg secondTaken] at same
        exact absurd same.symm (fresh second isSecond)
    · by_cases secondTaken : (second.nodeId == label && second.live) = true
      · rw [if_neg firstTaken, if_pos secondTaken] at same
        exact absurd same (fresh first isFirst)
      · rw [if_neg firstTaken, if_neg secondTaken] at same
        exact List.inj_on_of_nodup_map sound.ids isFirst isSecond same
  · have source : ∀ next ∈ (updateRows nodes (fun row => row.nodeId == label && row.live)
        fun row => { row with nodeId := nodeId }).1, next.busy = true →
        ∃ row ∈ nodes, row.busy = true ∧
          next = if row.nodeId == label && row.live then { row with nodeId := nodeId } else row := by
      intro next isNext busy
      obtain ⟨row, member, rfl⟩ := mem_updateRows.mp isNext
      refine ⟨row, member, ?_, rfl⟩
      split at busy
      next => exact busy
      next => exact busy
    obtain ⟨one, isOne, oneBusy, rfl⟩ := source first isFirst firstBusy
    obtain ⟨other, isOther, otherBusy, rfl⟩ := source second isSecond secondBusy
    rw [sound.same isOne isOther oneBusy otherBusy]

/-! ## The lease step -/

variable {nodes : List NodeRow}

/-- Where only the row of one id may be busy. -/
theorem NodesSound.of_one (nodeId : Text) (ids : (nodes.map NodeRow.nodeId).Nodup)
    (only : ∀ row ∈ nodes, row.busy = true → row.nodeId = nodeId) : NodesSound nodes :=
  ⟨ids, fun first isFirst second isSecond firstBusy secondBusy =>
    (only first isFirst firstBusy).trans (only second isSecond secondBusy).symm⟩

theorem handOffLease_ids (nodes : List NodeRow) (donorId heirId : Text) :
    (handOffLease nodes donorId heirId).1.map NodeRow.nodeId = nodes.map NodeRow.nodeId := by
  unfold handOffLease
  dsimp only
  rw [apply_ite Prod.fst, ite_self]
  split
  next => rfl
  next donor _ => exact updateRows_keys fun _ => rfl

/-- The hand-off writes the heir's row alone. -/
theorem handOffLease_other {donorId heirId : Text} {next : NodeRow}
    (member : next ∈ (handOffLease nodes donorId heirId).1) (other : next.nodeId ≠ heirId) :
    next ∈ nodes := by
  unfold handOffLease at member
  dsimp only at member
  rw [apply_ite Prod.fst, ite_self] at member
  split at member
  next => exact member
  next donor _ =>
      obtain ⟨row, isRow, rfl⟩ := mem_updateRows.mp member
      split at other
      next taken =>
          simp only [mayReceive, Bool.and_eq_true, beq_iff_eq] at taken
          exact absurd taken.1.1.1.1.1 other
      next untaken =>
          rw [if_neg untaken]
          exact isRow

theorem yieldLease_sound (sound : NodesSound nodes) (label nodeId : Text)
    (startedAt : Option Int) : NodesSound (yieldLease nodes label nodeId startedAt) := by
  unfold yieldLease
  split
  next => exact sound
  next other _ => exact releaseLease_sound sound nodeId .idle _ startedAt

/-- What a release leaves of a row: it settled the row of its id, or left it alone. -/
theorem releaseLease_row {settles : SettledUpdateState} {detail : Text}
    {expectedStartedAt : Option Int} {next : NodeRow}
    (member : next ∈ (releaseLease nodes nodeId settles detail expectedStartedAt).1) :
    (next.nodeId = nodeId ∧ next.live = true ∧ next.updateState = settles.state.text) ∨
      next ∈ nodes ∧ ¬(next.nodeId = nodeId ∧ next.busy = true ∧
        sameLease expectedStartedAt next = true) := by
  unfold releaseLease at member
  dsimp only at member
  rw [apply_ite Prod.fst, ite_self] at member
  obtain ⟨row, isRow, rfl⟩ := mem_updateRows.mp member
  split
  next taken =>
      simp only [Bool.and_eq_true, beq_iff_eq] at taken
      exact Or.inl ⟨taken.1.1.1, taken.1.1.2, rfl⟩
  next untaken =>
      refine Or.inr ⟨isRow, fun ⟨own, busy, same⟩ => untaken ?_⟩
      rw [NodeRow.busy_iff] at busy
      simp [own, busy, same]

theorem sameLease_self (row : NodeRow) : sameLease row.updateStartedAt row = true := by
  cases started : row.updateStartedAt <;> simp [sameLease, started]

/-- Where a row of another label is busy the revived row ends up settled, and nothing
else is written. -/
theorem yieldLease_row (ids : (nodes.map NodeRow.nodeId).Nodup)
    (isHeir : nodeOf nodes nodeId = some heir) {other : NodeRow} (isOther : other ∈ nodes)
    (busy : other.busy = true) (foreign : other.label ≠ label) {next : NodeRow}
    (member : next ∈ yieldLease nodes label nodeId heir.updateStartedAt) :
    (next.nodeId = nodeId ∧ next.live = true ∧ next.updateState = UpdateState.idle.text) ∨
      next ∈ nodes ∧ ¬(next.nodeId = nodeId ∧ next.busy = true) := by
  unfold yieldLease at member
  split at member
  next nobody =>
      have unheld := List.find?_eq_none.mp nobody other isOther
      simp [busy, foreign] at unheld
  next holder _ =>
      rcases releaseLease_row member with released | ⟨isNext, untaken⟩
      · exact Or.inl released
      · refine Or.inr ⟨isNext, fun ⟨own, busy⟩ => untaken ⟨own, busy, ?_⟩⟩
        obtain ⟨member, isId⟩ := rowOf_some isHeir
        rw [List.inj_on_of_nodup_map ids isNext member (own.trans isId.symm)]
        exact sameLease_self heir

theorem yieldLease_none (unheld : ∀ row ∈ nodes, row.busy = true → row.label = label)
    (startedAt : Option Int) : yieldLease nodes label nodeId startedAt = nodes := by
  unfold yieldLease
  split
  next => rfl
  next other found =>
      have taken := List.find?_some found
      simp only [Bool.and_eq_true, bne_iff_ne, ne_eq] at taken
      exact absurd (unheld other (List.mem_of_find?_eq_some found) taken.2) taken.1

theorem yieldLease_ids (nodes : List NodeRow) (label nodeId : Text) (startedAt : Option Int) :
    (yieldLease nodes label nodeId startedAt).map NodeRow.nodeId = nodes.map NodeRow.nodeId := by
  unfold yieldLease
  split
  next => rfl
  next other _ =>
      unfold releaseLease
      dsimp only
      rw [apply_ite Prod.fst, ite_self]
      exact updateRows_keys fun _ => rfl

theorem leaseFollowsLabel_ids (nodes : List NodeRow) (label nodeId : Text) (donorId : Option Text) :
    (leaseFollowsLabel nodes label nodeId donorId).map NodeRow.nodeId =
      nodes.map NodeRow.nodeId := by
  unfold leaseFollowsLabel
  split
  next => rfl
  next row _ =>
      split
      next => exact yieldLease_ids nodes label nodeId row.updateStartedAt
      next donorId =>
          have handed := handOffLease_ids nodes donorId nodeId
          split
          next next _ isNext => rw [← handed, isNext]
          next next _ isNext => rw [yieldLease_ids, ← handed, isNext]

theorem nodeOf_rekeyRow (label : Text) (isHeir : nodeOf db.nodes nodeId = some heir) :
    nodeOf (db.nodes.map (rekeyRow label nodeId)) nodeId = some (reviveRow heir) := by
  rw [nodeOf_map rekeyRow_nodeId, isHeir, Option.map_some, rekeyRow, if_pos (rowOf_some isHeir).2]

/-- The donor is a busy row of the label, and the busy row where one is left. -/
theorem rekeyDonor_some {donor : NodeRow} (isDonor : rekeyDonor db.nodes label nodeId = some donor) :
    donor ∈ db.nodes ∧ donor.busy = true ∧ donor.label = label ∧ donor.nodeId ≠ nodeId := by
  unfold rekeyDonor at isDonor
  split at isDonor
  next => cases isDonor
  next =>
      split at isDonor
      next => cases isDonor
      next =>
          have member := List.mem_filter.mp (firstUnder_mem isDonor)
          simp only [Bool.and_eq_true, beq_iff_eq, bne_iff_ne, ne_eq, Bool.not_eq_true'] at member
          obtain ⟨isRow, ⟨⟨same, live⟩, other⟩, unsettled⟩ := member
          exact ⟨isRow, NodeRow.busy_iff.mpr ⟨live, unsettled⟩, same, other⟩

theorem rekeyDonor_none (isHeir : nodeOf db.nodes nodeId = some heir) (retired : heir.live = false)
    (noDonor : rekeyDonor db.nodes label nodeId = none) {row : NodeRow} (member : row ∈ db.nodes)
    (busy : row.busy = true) : row.label ≠ label ∨ row.nodeId = nodeId := by
  have superseded : heir.supersededBy.isNone = false := retired
  unfold rekeyDonor nodeLeaseRow at noDonor
  rw [isHeir] at noDonor
  simp only [Option.map_some, superseded, Bool.false_eq_true, if_false, firstUnder_none] at noDonor
  have untaken := List.filter_eq_nil_iff.mp noDonor row member
  rw [NodeRow.busy_iff] at busy
  by_contra both
  push Not at both
  simp [both, busy] at untaken

theorem rekeyDonor_live (isHeir : nodeOf db.nodes nodeId = some heir) (live : heir.live = true) :
    rekeyDonor db.nodes label nodeId = none := by
  have unset : heir.supersededBy.isNone = true := live
  unfold rekeyDonor nodeLeaseRow
  rw [isHeir]
  simp [unset]

theorem leaseFollowsLabel_none (isHeir : nodeOf nodes nodeId = some heir) :
    leaseFollowsLabel nodes label nodeId none =
      yieldLease nodes label nodeId heir.updateStartedAt := by
  unfold leaseFollowsLabel nodeLeaseRow
  rw [isHeir]
  rfl

/-- The lease step leaves every other row alone. -/
theorem leaseFollowsLabel_other {donorId : Option Text} {next : NodeRow}
    (member : next ∈ leaseFollowsLabel nodes label nodeId donorId) (other : next.nodeId ≠ nodeId) :
    next ∈ nodes := by
  have yields : ∀ {rows : List NodeRow} {startedAt}, next ∈ yieldLease rows label nodeId startedAt →
      next ∈ rows := by
    intro rows startedAt among
    unfold yieldLease at among
    split at among
    next => exact among
    next =>
        rcases releaseLease_row among with ⟨own, _⟩ | ⟨held, _⟩
        · exact absurd own other
        · exact held
  unfold leaseFollowsLabel at member
  split at member
  next => exact member
  next =>
      split at member
      next => exact yields member
      next donorId =>
          split at member
          next rows _ handed =>
              exact handOffLease_other (by rw [handed]; exact member) other
          next rows _ handed =>
              exact handOffLease_other (by rw [handed]; exact yields member) other

/-- A re-keying whose id has no row revives none. -/
theorem rekeyNode_noHeir (sound : NodesSound db.nodes) (label : Text)
    (valid : isNodeId nodeId = true) (absent : nodeOf db.nodes nodeId = none) :
    NodesSound (rekeyNode db label nodeId).1.nodes := by
  rcases rekeyLabelRow_noHeir label absent with threw | ⟨keyed, how, isKeyed, renamed⟩
  · unfold rekeyNode
    simpa [valid, threw] using sound
  · have passed := sound.rename absent label
    have unrevived : (updateRows keyed.nodes (fun row => row.nodeId == nodeId && !row.live)
        reviveRow).2 = 0 := by
      refine List.countP_eq_zero.mpr fun next isNext => ?_
      rw [renamed] at isNext
      obtain ⟨row, isRow, rfl⟩ := mem_updateRows.mp isNext
      have fresh := rowOf_none.mp absent row isRow
      split
      next taken =>
          simp only [Bool.and_eq_true, beq_iff_eq] at taken
          simpa [NodeRow.live] using taken.2
      next => simp [fresh]
    unfold rekeyNode
    simp only [valid, not_true_eq_false, if_false, isKeyed, unrevived, Nat.lt_irrefl,
      updateRows_none unrevived]
    rw [renamed]
    refine passed.update ?_ ?_
    · exact fun _ => rfl
    · exact fun _ _ busy => by simp [NodeRow.busy] at busy

theorem rekeyNode_sound (sound : NodesSound db.nodes) (label nodeId : Text) :
    NodesSound (rekeyNode db label nodeId).1.nodes := by
  cases valid : isNodeId nodeId with
  | false =>
      unfold rekeyNode
      simpa [valid] using sound
  | true =>
      cases isHeir : nodeOf db.nodes nodeId with
      | none => exact rekeyNode_noHeir sound label valid isHeir
      | some heir =>
          obtain ⟨member, isId⟩ := rowOf_some isHeir
          have ids : ((db.nodes.map (rekeyRow label nodeId)).map NodeRow.nodeId).Nodup := by
            rw [rekeyRow_ids]
            exact sound.ids
          have revived := nodeOf_rekeyRow label isHeir
          rw [rekeyNode_heir sound.ids valid isHeir]
          cases live : heir.live with
          | true =>
              have passed : NodesSound (db.nodes.map (rekeyRow label nodeId)) := by
                have old : ∀ next ∈ db.nodes.map (rekeyRow label nodeId), next.busy = true →
                    next ∈ db.nodes := by
                  intro next isNext busy
                  rcases rekeyRow_busy isNext busy with own | ⟨held, _⟩
                  · have isOwn := revived.symm.trans (own ▸ nodeOf_mem ids isNext)
                    rw [reviveRow_of_live live] at isOwn
                    exact Option.some.inj isOwn ▸ member
                  · exact held
                exact ⟨ids, fun first isFirst second isSecond firstBusy secondBusy =>
                  sound.one first (old first isFirst firstBusy) second
                    (old second isSecond secondBusy) firstBusy secondBusy⟩
              split
              next => exact passed
              next =>
                  rw [rekeyDonor_live isHeir live, Option.map_none, leaseFollowsLabel_none revived]
                  exact yieldLease_sound passed label nodeId _
          | false =>
              rw [if_neg (by simp)]
              cases isDonor : rekeyDonor db.nodes label nodeId with
              | some donor =>
                  -- the donor was the one busy row, so only the revived row may be busy
                  obtain ⟨isRow, busy, carries, apart⟩ := rekeyDonor_some isDonor
                  refine NodesSound.of_one nodeId ?_ fun next isNext nextBusy => ?_
                  · rw [leaseFollowsLabel_ids]
                    exact ids
                  · by_contra other
                    have before := leaseFollowsLabel_other isNext other
                    rcases rekeyRow_busy before nextBusy with own | ⟨old, foreign⟩
                    · exact other own
                    · rw [sound.same old isRow nextBusy busy] at foreign
                      exact foreign carries
              | none =>
                  rw [Option.map_none, leaseFollowsLabel_none revived]
                  by_cases foreign : ∃ other ∈ db.nodes.map (rekeyRow label nodeId),
                      other.busy = true ∧ other.label ≠ label
                  · obtain ⟨other, isOther, busy, apart⟩ := foreign
                    have old : ∀ next ∈ yieldLease (db.nodes.map (rekeyRow label nodeId)) label
                        nodeId (reviveRow heir).updateStartedAt, next.busy = true →
                        next ∈ db.nodes := by
                      intro next isNext nextBusy
                      rcases yieldLease_row ids revived isOther busy apart isNext with
                        ⟨_, _, idle⟩ | ⟨passed, others⟩
                      · exact (settles_idle .idle nextBusy idle).elim
                      · rcases rekeyRow_busy passed nextBusy with own | ⟨held, _⟩
                        · exact absurd ⟨own, nextBusy⟩ others
                        · exact held
                    refine ⟨?_, fun first isFirst second isSecond firstBusy secondBusy =>
                      sound.one first (old first isFirst firstBusy) second
                        (old second isSecond secondBusy) firstBusy secondBusy⟩
                    rw [yieldLease_ids]
                    exact ids
                  · push Not at foreign
                    rw [yieldLease_none foreign]
                    refine NodesSound.of_one nodeId ids fun row isRow busy => ?_
                    rcases rekeyRow_busy isRow busy with own | ⟨_, apart⟩
                    · exact own
                    · exact absurd (foreign row isRow busy) apart

end Rekey

end Ccrc.Coord
