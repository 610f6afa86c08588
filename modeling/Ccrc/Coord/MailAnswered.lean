import Ccrc.Coord.OneLiveCopy

/-! When an answered mail stays answered. A mail that some recipient acked keeps
no outstanding copy in a run exactly where no reclaim re-queues such a mail and
no ack of a row rejected at the replay ceiling meets an outstanding copy. -/

set_option autoImplicit false

namespace Ccrc.Coord

open Library Shared

/-- No mail has both an acked and an outstanding delivery. -/
def Answered (store : MailStore) : Prop :=
  ∀ first ∈ store.deliveries, ∀ second ∈ store.deliveries, first.mailId = second.mailId →
    first.acked = true → second.outstanding = false

def ackedCopy (rows : List Delivery) (mailId : Nat) : Bool :=
  rows.any fun row => row.mailId == mailId && row.acked

def outstandingCopy (rows : List Delivery) (mailId : Nat) : Bool :=
  rows.any fun row => row.mailId == mailId && row.outstanding

/-- A reclaim meets an answered mail: an abandoned park of it lies with a
claimant that the reclaim displaces. -/
def reclaimsAnswered (store : MailStore) (runId : Nat) (target : Text) : Bool :=
  (store.runs.find? (·.id == runId)).any fun run =>
    run.claimedBy.isSome && (store.deliveries.filterMap (heirSource store)).any fun source =>
      abandonedPark store.deliveries source &&
        (displacedBy store.runs run.program target).contains source.delivery.toId &&
        source.mail.toId == coordinatorRole && source.run.program == run.program &&
        ackedCopy store.deliveries source.mail.id

/-- An ack of a row rejected at the replay ceiling meets an outstanding copy. -/
def acksBesideOutstanding (store : MailStore) (id : Nat) : Bool :=
  store.deliveries.any fun row => row.id == id && row.replayCeilingPark &&
    outstandingCopy store.deliveries row.mailId

/-- The condition on a step, read off the store before it. -/
def keepsAnswered (store : MailStore) : MailStep → Bool
  | .write ⟨.markAcked id _, _⟩ => !acksBesideOutstanding store id
  | .reclaimProgram runId target _ => !reclaimsAnswered store runId target
  | _ => true

theorem ackedCopy_iff {rows : List Delivery} {mailId : Nat} :
    ackedCopy rows mailId = true ↔ ∃ row ∈ rows, row.mailId = mailId ∧ row.acked = true := by
  simp [ackedCopy]

theorem outstandingCopy_iff {rows : List Delivery} {mailId : Nat} :
    outstandingCopy rows mailId = true ↔
      ∃ row ∈ rows, row.mailId = mailId ∧ row.outstanding = true := by
  simp [outstandingCopy]

/-! ## Steps that answer no mail and re-queue none -/

theorem Answered.quiet {before after : MailStore} (quiet : Quiet before after)
    (known : ∀ row ∈ before.deliveries, row.known = true) (answered : Answered before) :
    Answered after := by
  obtain ⟨change, write, _, inPlace, ackedBefore, rfl⟩ := quiet
  intro first isFirst second isSecond same acked
  obtain ⟨one, oneAmong, rfl⟩ := List.mem_map.mp isFirst
  obtain ⟨two, twoAmong, rfl⟩ := List.mem_map.mp isSecond
  rw [inPlace.mailId, inPlace.mailId] at same
  have settled := answered one oneAmong two twoAmong same (ackedBefore one acked)
  cases live : (write two).outstanding with
  | false => rfl
  | true =>
      rw [inPlace.outstanding two (known two twoAmong) live] at settled
      cases settled

/-- Heirs answer nothing, and each makes its own mail outstanding. -/
theorem answered_heirs {store : MailStore} {target : HeirSource → Text}
    {parent : HeirSource → Option Nat} {next : Nat} {sources : List HeirSource} :
    Answered { store with
        deliveries := store.deliveries ++ heirRows target parent next sources } ↔
      Answered store ∧ ∀ source ∈ sources, ackedCopy store.deliveries source.mail.id = false := by
  constructor
  · intro answered
    constructor
    · intro first isFirst second isSecond
      exact answered first (List.mem_append_left _ isFirst) second
        (List.mem_append_left _ isSecond)
    · intro source member
      cases copied : ackedCopy store.deliveries source.mail.id with
      | false => rfl
      | true =>
          obtain ⟨row, isRow, sameMail, acked⟩ := ackedCopy_iff.mp copied
          obtain ⟨id, isHeir⟩ := heirRows_mem target parent member next
          have settled := answered row (List.mem_append_left _ isRow) _
            (List.mem_append_right _ isHeir) sameMail acked
          rw [heirRow_outstanding] at settled
          cases settled
  · rintro ⟨answered, unacked⟩ first isFirst second isSecond same acked
    have old : first ∈ store.deliveries := by
      cases List.mem_append.mp isFirst with
      | inl old => exact old
      | inr new =>
          obtain ⟨id, source, _, rfl⟩ := mem_heirRows new
          rw [(Delivery.not_terminal_of_outstanding (heirRow_outstanding _ _ _ _)).1] at acked
          cases acked
    cases List.mem_append.mp isSecond with
    | inl oldSecond => exact answered first old second oldSecond same acked
    | inr newSecond =>
        obtain ⟨id, source, member, rfl⟩ := mem_heirRows newSecond
        have copied : ackedCopy store.deliveries source.mail.id = true :=
          ackedCopy_iff.mpr ⟨first, old, same, acked⟩
        rw [unacked source member] at copied
        cases copied

/-! ## What each step does to an answered mail -/

theorem inPlace_acked {call : DeliveryCall} (inPlace : call.inPlace = true)
    {update : DeliveryUpdate} (sends : call.update = some update)
    (other : ∀ id atTime, call ≠ .markAcked id atTime) {row : Delivery}
    (acked : (update.apply row).acked = true) : row.acked = true := by
  cases taken : update.takes row with
  | false => rwa [DeliveryUpdate.apply_of_not_takes taken] at acked
  | true =>
      rw [DeliveryUpdate.apply_of_takes taken] at acked
      have rejected : (MailDeliveryState.rejected.text == MailDeliveryState.acked.text) ≠ true := by
        decide +kernel
      have delivered :
          (MailDeliveryState.delivered.text == MailDeliveryState.acked.text) ≠ true := by
        decide +kernel
      cases call with
      | queueDelivery => cases inPlace
      | repointCoordinatorMail => cases inPlace
      | markAcked id atTime => exact absurd rfl (other id atTime)
      | markDelivered => cases sends; exact absurd acked delivered
      | rejectDelivery | cancelOutstandingDeliveries | cancelDeliveriesTo | cancelKickoffsTo
      | parkSupersededDeliveries => cases sends; exact absurd acked rejected
      | _ => cases sends; exact acked

theorem answered_write {store : MailStore} (held : OneLiveCopy store)
    (answered : Answered store) (call : { call : DeliveryCall // call.inPlace = true })
    (other : ∀ id atTime, call.1 ≠ .markAcked id atTime) :
    Answered (mailStep store (.write call)) := by
  obtain ⟨update, sends, inPlace, written⟩ := writeStep_update store call
  rw [written]
  refine answered.quiet ⟨_, update.apply, KeepsClaim.refl, inPlace, fun row acked => ?_, ?_⟩
    held.known
  · exact inPlace_acked call.2 sends other acked
  · rw [List.map_id']

/-- An ack of an outstanding row answers its mail's one live copy; an ack at the
replay ceiling answers a mail that may have another. -/
theorem answered_ack {store : MailStore} (held : OneLiveCopy store) (answered : Answered store)
    (id : Nat) (atTime : Int) (inPlace : (DeliveryCall.markAcked id atTime).inPlace = true) :
    Answered (mailStep store (.write ⟨.markAcked id atTime, inPlace⟩)) ↔
      acksBesideOutstanding store id = false := by
  obtain ⟨update, sends, writes, written⟩ :=
    writeStep_update store ⟨.markAcked id atTime, inPlace⟩
  have isUpdate : (markAckedUpdate atTime).onlyId id = update := Option.some.inj sends
  have acks : ∀ row, update.takes row = true → (update.apply row).acked = true := by
    intro row taken
    rw [DeliveryUpdate.apply_of_takes taken, ← isUpdate]
    exact beq_self_eq_true _
  have named : ∀ row, update.takes row = (row.id == id && ackableDeliverySql row) := by
    intro row
    rw [← isUpdate, Bool.and_comm]
    simp [DeliveryUpdate.takes, DeliveryUpdate.onlyId, markAckedUpdate, DeliveryGuard.admits]
  rw [written]
  constructor
  · intro after
    cases beside : acksBesideOutstanding store id with
    | false => rfl
    | true =>
        simp only [acksBesideOutstanding, List.any_eq_true, Bool.and_eq_true] at beside
        obtain ⟨row, isRow, ⟨named', ceiling⟩, copied⟩ := beside
        obtain ⟨copy, isCopy, sameMail, live⟩ := outstandingCopy_iff.mp copied
        have taken : update.takes row = true := by
          rw [named, named', ackableDeliverySql, ceiling, Bool.or_true]
          rfl
        have rejected : row.rejected = true := by
          simp only [Delivery.replayCeilingPark, Bool.and_eq_true] at ceiling
          exact ceiling.1.1
        have untaken : update.takes copy = false := by
          cases takes : update.takes copy with
          | false => rfl
          | true =>
              rw [named, Bool.and_eq_true, beq_iff_eq] at takes
              have same := held.unique isCopy isRow (takes.1.trans (beq_iff_eq.mp named').symm)
              rw [same] at live
              rw [(Delivery.not_terminal_of_outstanding live).2] at rejected
              cases rejected
        have settled := after _ (List.mem_map_of_mem isRow) _ (List.mem_map_of_mem isCopy)
          (by rw [update.apply_mailId, update.apply_mailId, sameMail]) (acks row taken)
        rw [DeliveryUpdate.apply_of_not_takes untaken, live] at settled
        cases settled
  · intro apart first isFirst second isSecond same acked
    obtain ⟨one, oneAmong, rfl⟩ := List.mem_map.mp isFirst
    obtain ⟨two, twoAmong, rfl⟩ := List.mem_map.mp isSecond
    rw [update.apply_mailId, update.apply_mailId] at same
    cases live : (update.apply two).outstanding with
    | false => rfl
    | true =>
        have wasLive := writes.outstanding two (held.known two twoAmong) live
        cases taken : update.takes one with
        | false =>
            rw [DeliveryUpdate.apply_of_not_takes taken] at acked
            rw [answered one oneAmong two twoAmong same acked] at wasLive
            cases wasLive
        | true =>
            have admitted := taken
            rw [named, Bool.and_eq_true, ackableDeliverySql, Bool.or_eq_true,
              Bool.not_eq_true'] at admitted
            cases admitted.2 with
            | inl open' =>
                have oneLive := one.outstanding_of_known (held.known one oneAmong) open'
                rw [held.single one oneAmong two twoAmong same oneLive wasLive] at acked
                rw [(Delivery.not_terminal_of_outstanding live).1] at acked
                cases acked
            | inr ceiling =>
                have beside : acksBesideOutstanding store id = true := by
                  simp only [acksBesideOutstanding, List.any_eq_true, Bool.and_eq_true]
                  exact ⟨one, oneAmong, ⟨admitted.1, ceiling⟩,
                    outstandingCopy_iff.mpr ⟨two, twoAmong, same.symm, wasLive⟩⟩
                rw [beside] at apart
                cases apart

theorem answered_bind {store : MailStore} (held : OneLiveCopy store) (answered : Answered store)
    (runId : Nat) (sessionId : Text) :
    Answered (mailStep store (.bindSession runId sessionId)) := by
  have isBound : Answered (bound store runId sessionId) :=
    answered.quiet (Quiet.changeRuns store (bind_keepsClaim runId sessionId)) held.known
  rcases bindStep_cases store runId sessionId with first | ⟨predecessor, _, rebinds⟩
  · rw [first]
    exact isBound
  · have parked : Answered (rebound store runId sessionId predecessor) :=
      answered.quiet ⟨_, _, bind_keepsClaim runId sessionId, parkSuperseded_inPlace _ _,
        cancelUpdate_acked _ _, rfl⟩ held.known
    rw [rebinds]
    refine answered_heirs.mpr ⟨parked, fun source member => ?_⟩
    obtain ⟨joined, isSource, _, _, _, _⟩ := mem_requeueSources member
    cases copied : ackedCopy (rebound store runId sessionId predecessor).deliveries
        source.mail.id with
    | false => rfl
    | true =>
        obtain ⟨row, isRow, sameMail, acked⟩ := ackedCopy_iff.mp copied
        obtain ⟨former, among, rfl⟩ := List.mem_map.mp isRow
        rw [DeliveryUpdate.apply_mailId] at sameMail
        have live : source.delivery.outstanding = true := isSource
        rw [answered former among source.delivery joined.member
          (sameMail.trans joined.mailId.symm) (cancelUpdate_acked _ _ former acked)] at live
        cases live

theorem answered_revive {store : MailStore} (answered : Answered store)
    (liveIds : List Text) :
    Answered (mailStep store (.reviveParkedDeliveries liveIds)) := by
  cases reviveStep_cases store liveIds with
  | inl none => rwa [none]
  | inr revived =>
      rw [revived]
      refine answered_heirs.mpr ⟨answered, fun source member => ?_⟩
      obtain ⟨_, selected⟩ := mem_reviveSources member
      simp only [revives, Bool.and_eq_true] at selected
      obtain ⟨⟨_, allRejected⟩, _⟩ := selected
      cases copied : ackedCopy store.deliveries source.mail.id with
      | false => rfl
      | true =>
          obtain ⟨row, isRow, sameMail, acked⟩ := ackedCopy_iff.mp copied
          have unrejected : store.deliveries.any (fun copy =>
              copy.mailId == source.mail.id && !copy.rejected) = true := by
            rw [List.any_eq_true]
            exact ⟨row, isRow, by simp [sameMail, (Delivery.acked_terminal acked).2.2]⟩
          rw [unrejected] at allRejected
          cases allRejected

/-! ## A reclaim and the answered mail of its program -/

/-- A row as the reclaim's two bulk writes leave it. -/
def reclaimRow (store : MailStore) (program target : Text) (coordProject : Option Text)
    (row : Delivery) : Delivery :=
  (repointUpdate store.mail (store.runs.map (·.reclaim program target coordProject)) program
    target (displacedBy store.runs program target)).apply
    ((cancelKickoffsUpdate store.mail (displacedBy store.runs program target)).apply row)

section ReclaimRow

variable (store : MailStore) (program target : Text) (coordProject : Option Text)

theorem reclaimed_rows : (reclaimed store program target coordProject).deliveries =
    store.deliveries.map (reclaimRow store program target coordProject) := by
  simp only [reclaimed, List.map_map]
  rfl

theorem reclaimRow_identity (row : Delivery) :
    (reclaimRow store program target coordProject row).id = row.id ∧
      (reclaimRow store program target coordProject row).mailId = row.mailId ∧
      (reclaimRow store program target coordProject row).revivedFrom = row.revivedFrom := by
  unfold reclaimRow
  refine ⟨?_, ?_, ?_⟩
  · rw [DeliveryUpdate.apply_id, DeliveryUpdate.apply_id]
  · rw [DeliveryUpdate.apply_mailId, DeliveryUpdate.apply_mailId]
  · rw [DeliveryUpdate.apply_revivedFrom, DeliveryUpdate.apply_revivedFrom]

/-- Both writes touch outstanding rows alone. -/
theorem reclaimRow_settled {row : Delivery} (settled : row.outstanding = false) :
    reclaimRow store program target coordProject row = row := by
  unfold reclaimRow
  have kept : (cancelKickoffsUpdate store.mail (displacedBy store.runs program target)).apply
      row = row := by
    apply DeliveryUpdate.apply_of_not_takes
    simp [DeliveryUpdate.takes, cancelKickoffsUpdate, cancelUpdate, DeliveryGuard.admits, settled]
  rw [kept]
  exact (repoint_columns row).2.2 settled

theorem reclaimRow_acked (row : Delivery) :
    (reclaimRow store program target coordProject row).acked = row.acked := by
  cases acked : row.acked with
  | true => rw [reclaimRow_settled _ _ _ _ (Delivery.acked_terminal acked).2.1, acked]
  | false =>
      unfold reclaimRow
      rw [Delivery.acked, (repoint_columns _).1, ← Delivery.acked]
      cases written : ((cancelKickoffsUpdate store.mail
          (displacedBy store.runs program target)).apply row).acked with
      | false => rfl
      | true => rw [cancelUpdate_acked _ _ row written] at acked; cases acked

/-- An abandoned park after the two writes is one that stood before: what they
reject is a deliberate cancel. -/
theorem reclaimRow_abandoned {row : Delivery} {rows : List Delivery} {mail : Mail} {run : Run}
    (abandoned : abandonedPark rows
      { delivery := reclaimRow store program target coordProject row, mail, run } = true) :
    row.outstanding = false := by
  cases live : row.outstanding with
  | false => rfl
  | true =>
      have rejected := (abandonedPark_clauses abandoned).1
      cases taken : (cancelKickoffsUpdate store.mail
          (displacedBy store.runs program target)).takes row with
      | false =>
          unfold reclaimRow at rejected
          rw [DeliveryUpdate.apply_of_not_takes taken, Delivery.rejected,
            (repoint_columns row).1, ← Delivery.rejected,
            (Delivery.not_terminal_of_outstanding live).2] at rejected
          cases rejected
      | true =>
          have error : (reclaimRow store program target coordProject row).lastError =
              some mailReclaimCancelledError := by
            unfold reclaimRow
            rw [DeliveryUpdate.apply_of_takes taken, (repoint_columns _).2.1]
            rfl
          have deliberate :
              deliberateCancelErrorsSql.contains mailReclaimCancelledError = true := by
            decide +kernel
          simp only [abandonedPark, error, Option.getD_some, deliberate, Bool.not_true,
            Bool.and_false, Bool.false_and] at abandoned
          cases abandoned

theorem hasHeir_reclaimRow (row : Delivery) :
    hasHeir (reclaimed store program target coordProject).deliveries
        (reclaimRow store program target coordProject row) =
      hasHeir store.deliveries row := by
  rw [reclaimed_rows]
  exact hasHeir_map (fun row => (reclaimRow_identity store program target coordProject row).1)
    (fun row => (reclaimRow_identity store program target coordProject row).2.2) _ row

theorem ackedCopy_reclaimed (mailId : Nat) :
    ackedCopy (reclaimed store program target coordProject).deliveries mailId =
      ackedCopy store.deliveries mailId := by
  simp [reclaimed_rows, ackedCopy, List.any_map, Function.comp_def, reclaimRow_acked,
    (reclaimRow_identity store program target coordProject _).2.1]

theorem answered_reclaimed {store : MailStore} (answered : Answered store) : Answered (reclaimed store program target coordProject) := by
  intro first isFirst second isSecond same acked
  rw [reclaimed_rows] at isFirst isSecond
  obtain ⟨one, oneAmong, rfl⟩ := List.mem_map.mp isFirst
  obtain ⟨two, twoAmong, rfl⟩ := List.mem_map.mp isSecond
  rw [(reclaimRow_identity store program target coordProject _).2.1,
    (reclaimRow_identity store program target coordProject _).2.1] at same
  rw [reclaimRow_acked] at acked
  have settled := answered one oneAmong two twoAmong same acked
  rwa [reclaimRow_settled store program target coordProject settled]

end ReclaimRow

/-- What a reclaim's re-queue finds abandoned stood abandoned before it, with
the same mail, and the other way round. -/
theorem reclaimSources_answered {store : MailStore} (answered : Answered store) (program target : Text) (coordProject : Option Text) :
    (∀ source ∈ reclaimSources store program target coordProject,
        ackedCopy store.deliveries source.mail.id = false) ↔
      ∀ source, Joined store source → abandonedPark store.deliveries source = true →
        source.delivery.toId ∈ displacedBy store.runs program target →
        source.mail.toId = coordinatorRole → source.run.program = program →
        ackedCopy store.deliveries source.mail.id = false := by
  constructor
  · intro unacked source joined abandoned isDisplaced isChair isProgram
    cases copied : ackedCopy store.deliveries source.mail.id with
    | false => rfl
    | true =>
        obtain ⟨rejected, heirless⟩ := abandonedPark_clauses abandoned
        have settled := (Delivery.rejected_terminal rejected).2
        have unmoved := reclaimRow_settled store program target coordProject settled
        have after : Requeued (reclaimed store program target coordProject)
            (.coordinator program) target (displacedBy store.runs program target)
            { source with run := source.run.reclaim program target coordProject } := by
          refine ⟨⟨?_, joined.mail, ?_⟩, ?_, isDisplaced, isChair, ?_, ?_⟩
          · rw [reclaimed_rows, ← unmoved]
            exact List.mem_map_of_mem joined.member
          · rw [reclaimed, runOf_map (reclaim_id program target coordProject), joined.run]
            rfl
          · have stillHeirless := hasHeir_reclaimRow store program target coordProject
              source.delivery
            rw [unmoved] at stillHeirless
            simp only [abandonedPark, Bool.and_eq_true, Bool.not_eq_true'] at abandoned
            simp only [RequeueRole.source, abandonedPark, reclaim_state, stillHeirless,
              abandoned.1, heirless, Bool.not_false, Bool.and_self]
          · exact beq_iff_eq.mpr ((reclaim_program program target coordProject _).trans isProgram)
          · obtain ⟨row, isRow, sameMail, acked⟩ := ackedCopy_iff.mp
              ((ackedCopy_reclaimed store program target coordProject source.mail.id).trans copied)
            rw [outstandingAt, List.any_eq_false]
            intro copy isCopy
            simp only [Bool.and_eq_true, beq_iff_eq, not_and]
            intro copySame
            rw [answered_reclaimed program target coordProject answered row isRow copy
              isCopy (sameMail.trans copySame.1.symm) acked]
            simp
        obtain ⟨first, isFirst, sameMail⟩ := after.covered
        rw [← copied, ← unacked first isFirst]
        exact congrArg (ackedCopy store.deliveries) sameMail.symm
  · intro unacked source member
    obtain ⟨joined, isSource, isDisplaced, isChair, isProgram, _⟩ := mem_requeueSources member
    obtain ⟨delivery, mail, run⟩ := source
    have isRow := joined.member
    rw [reclaimed_rows] at isRow
    obtain ⟨row, among, isWritten⟩ := List.mem_map.mp isRow
    dsimp only at isWritten
    subst isWritten
    have settled := reclaimRow_abandoned store program target coordProject isSource
    have unmoved := reclaimRow_settled store program target coordProject settled
    have isRun := joined.run
    rw [reclaimed, runOf_map (reclaim_id program target coordProject),
      Option.map_eq_some_iff] at isRun
    obtain ⟨former, wasRun, isReclaimed⟩ := isRun
    dsimp only at isReclaimed
    subst isReclaimed
    rw [unmoved] at joined isDisplaced isSource
    refine unacked { delivery := row, mail, run := former } ⟨among, joined.mail, wasRun⟩ ?_
      isDisplaced isChair ?_
    · have stillHeirless := hasHeir_reclaimRow store program target coordProject row
      rw [unmoved] at stillHeirless
      simpa only [RequeueRole.source, abandonedPark, reclaim_state, stillHeirless] using isSource
    · exact (reclaim_program program target coordProject former).symm.trans
        (beq_iff_eq.mp isProgram)

theorem answered_reclaim {store : MailStore} (answered : Answered store) (runId : Nat) (target : Text) (coordProject : Option Text) :
    Answered (mailStep store (.reclaimProgram runId target coordProject)) ↔
      reclaimsAnswered store runId target = false := by
  cases found : store.runs.find? (·.id == runId) with
  | none =>
      simp only [mailStep, reclaimProgram, reclaimsAnswered, found, Option.map_some,
        Option.getD_some, Option.any_none]
      exact iff_of_true answered trivial
  | some run =>
      cases claimed : run.claimedBy with
      | none =>
          simp only [mailStep, reclaimProgram, reclaimsAnswered, found, claimed, Option.map_some,
            Option.getD_some, Option.any_some, Option.isSome_none, Bool.false_and]
          exact iff_of_true answered trivial
      | some claimant =>
          rw [reclaimProgram_store found claimed, requeueHeirs, answered_heirs]
          simp only [ackedCopy_reclaimed]
          rw [reclaimSources_answered answered]
          simp only [reclaimsAnswered, found, claimed, Option.any_some, Option.isSome_some,
            Bool.true_and, List.any_eq_false, Bool.and_eq_true, not_and, Bool.not_eq_true,
            mem_joined, List.contains_iff_mem, beq_iff_eq, and_imp]
          exact ⟨fun both => both.2, fun unacked =>
            ⟨answered_reclaimed run.program target coordProject answered, unacked⟩⟩

/-- The condition decides whether one step leaves every answered mail answered. -/
theorem answered_step {store : MailStore} (held : OneLiveCopy store)
    (answered : Answered store) (step : MailStep) :
    keepsAnswered store step = true ↔ Answered (mailStep store step) := by
  cases step with
  | write call =>
      obtain ⟨call, inPlace⟩ := call
      cases call with
      | markAcked id atTime =>
          rw [answered_ack held answered, keepsAnswered, Bool.not_eq_true']
      | _ =>
          exact iff_of_true rfl (answered_write held answered _ fun _ _ isAck => by cases isAck)
  | advance runId target =>
      refine iff_of_true rfl ?_
      obtain ⟨change, keeps, changed⟩ := advanceInner_runs store.runs runId target
      rw [mailStep, changed]
      exact answered.quiet (Quiet.changeRuns store keeps) held.known
  | closeRun input => exact iff_of_true rfl (answered.quiet (closeRun_quiet store input) held.known)
  | reclaimProgram runId target coordProject =>
      rw [answered_reclaim answered, keepsAnswered, Bool.not_eq_true']
  | bindSession runId sessionId => exact iff_of_true rfl (answered_bind held answered _ _)
  | reviveParkedDeliveries liveIds => exact iff_of_true rfl (answered_revive answered liveIds)

theorem InPlace.mem_acked {write : Delivery → Delivery} (inPlace : InPlace write)
    {rows : List Delivery} {row : Delivery} (member : row ∈ rows) (acked : row.acked = true) :
    row ∈ rows.map write :=
  inPlace.acked row acked ▸ List.mem_map_of_mem member

/-- An acked row stays in the table as it is. -/
theorem acked_stays {store : MailStore} {row : Delivery} (member : row ∈ store.deliveries)
    (acked : row.acked = true) (step : MailStep) :
    row ∈ (mailStep store step).deliveries := by
  cases step with
  | write call =>
      obtain ⟨update, _, inPlace, written⟩ := writeStep_update store call
      rw [written]
      exact inPlace.mem_acked member acked
  | advance runId target => exact member
  | closeRun input =>
      obtain ⟨change, write, _, inPlace, _, closed⟩ := closeRun_quiet store input
      rw [mailStep, closed]
      exact inPlace.mem_acked member acked
  | reclaimProgram runId target coordProject =>
      rcases reclaimStep_cases store runId target coordProject with
        refused | ⟨run, claimant, found, claimed⟩
      · rwa [refused]
      · rw [reclaimProgram_store found claimed]
        apply List.mem_append_left
        rw [reclaimed_rows, ← reclaimRow_settled store run.program target coordProject
          (Delivery.acked_terminal acked).2.1]
        exact List.mem_map_of_mem member
  | bindSession runId sessionId =>
      rcases bindStep_cases store runId sessionId with first | ⟨predecessor, _, rebinds⟩
      · rwa [first]
      · rw [rebinds]
        exact List.mem_append_left _ ((parkSuperseded_inPlace _ _).mem_acked member acked)
  | reviveParkedDeliveries liveIds =>
      cases reviveStep_cases store liveIds with
      | inl none => rwa [none]
      | inr revived =>
          rw [revived]
          exact List.mem_append_left _ member

/-! ## Runs -/

/-- Mails each queued once, to one recipient. -/
structure QueuedOnce (store : MailStore) : Prop where
  ids : store.deliveries.Pairwise (·.id < ·.id)
  once : (store.deliveries.map (·.mailId)).Nodup
  queued : ∀ row ∈ store.deliveries, row.state = MailDeliveryState.queued.text
  unrevived : ∀ row ∈ store.deliveries, row.revivedFrom = none

theorem QueuedOnce.oneLiveCopy {store : MailStore} (start : QueuedOnce store) :
    OneLiveCopy store where
  ids := start.ids
  parents row member parent isParent := by
    rw [start.unrevived row member] at isParent
    cases isParent
  known row member := by
    rw [Delivery.known, Delivery.outstanding_iff.mpr (Or.inl (start.queued row member)),
      Bool.true_or]
  heirless row member _ := by
    rw [hasHeir, List.any_eq_false]
    intro heir isHeir
    rw [start.unrevived heir isHeir]
    exact Bool.false_ne_true
  single first isFirst second isSecond same _ _ :=
    List.inj_on_of_nodup_map start.once isFirst isSecond same
  chair first isFirst second isSecond same different :=
    absurd (List.inj_on_of_nodup_map start.once isFirst isSecond same) different

theorem QueuedOnce.answered {store : MailStore} (start : QueuedOnce store) : Answered store := by
  intro first isFirst second isSecond _ acked
  have live := Delivery.outstanding_iff.mpr (Or.inl (start.queued first isFirst))
  rw [(Delivery.acked_terminal acked).2.1] at live
  cases live

theorem OneLiveCopy.run {store : MailStore} (held : OneLiveCopy store) (steps : List MailStep) :
    OneLiveCopy (runFrom mailStep store steps) := by
  induction steps generalizing store with
  | nil => exact held
  | cons step steps ih => exact ih (held.step step)

theorem acked_stays_run {store : MailStore} {row : Delivery} (member : row ∈ store.deliveries)
    (acked : row.acked = true) (steps : List MailStep) :
    row ∈ (runFrom mailStep store steps).deliveries := by
  induction steps generalizing store with
  | nil => exact member
  | cons step steps ih => exact ih (acked_stays member acked step)

theorem OneLiveCopy.count {store : MailStore} (held : OneLiveCopy store) (mailId : Nat) :
    (store.deliveries.filter fun row =>
      row.mailId == mailId && row.outstanding).length ≤ 1 := by
  apply length_filter_le_one
  refine List.Pairwise.imp_of_mem (fun isFirst isSecond less both => ?_) held.ids
  simp only [Bool.and_eq_true, beq_iff_eq] at both
  have same := held.single _ isFirst _ isSecond (both.1.1.trans both.2.1.symm) both.1.2 both.2.2
  exact Nat.ne_of_lt less (congrArg (·.id) same)

/-- Once some delivery of a mail is acked, none of it is outstanding again. -/
def StaysAnswered (store : MailStore) (steps : List MailStep) : Prop :=
  ∀ before middle after, steps = before ++ middle ++ after → ∀ mailId,
    ackedCopy (runFrom mailStep store before).deliveries mailId = true →
      outstandingCopy (runFrom mailStep store (before ++ middle)).deliveries mailId = false

theorem staysAnswered_iff {store : MailStore} {steps : List MailStep} :
    StaysAnswered store steps ↔
      ∀ before after, steps = before ++ after → Answered (runFrom mailStep store before) := by
  constructor
  · intro stays before after split first isFirst second isSecond same acked
    have silent := stays before [] after (by rw [List.append_nil, split]) first.mailId
      (ackedCopy_iff.mpr ⟨first, isFirst, rfl, acked⟩)
    rw [List.append_nil] at silent
    cases live : second.outstanding with
    | false => rfl
    | true =>
        rw [outstandingCopy_iff.mpr ⟨second, isSecond, same.symm, live⟩] at silent
        cases silent
  · intro answered before middle after split mailId copied
    obtain ⟨row, isRow, sameMail, acked⟩ := ackedCopy_iff.mp copied
    have later : row ∈ (runFrom mailStep store (before ++ middle)).deliveries := by
      rw [runFrom_append]
      exact acked_stays_run isRow acked middle
    cases live : outstandingCopy (runFrom mailStep store (before ++ middle)).deliveries mailId with
    | false => rfl
    | true =>
        obtain ⟨copy, isCopy, copyMail, outstanding⟩ := outstandingCopy_iff.mp live
        rw [answered (before ++ middle) after split row later copy isCopy
          (sameMail.trans copyMail.symm) acked] at outstanding
        cases outstanding

/-- Every run keeps one outstanding copy of a mail at most, and keeps answered
mail answered exactly where every step meets the condition. -/
theorem mailRun_answered {store : MailStore} (start : QueuedOnce store)
    (steps : List MailStep) :
    (∀ before after, steps = before ++ after → ∀ mailId,
      ((runFrom mailStep store before).deliveries.filter fun row =>
        row.mailId == mailId && row.outstanding).length ≤ 1) ∧
    (StaysAnswered store steps ↔
      Guarded mailStep (fun store step => keepsAnswered store step = true) store steps) := by
  constructor
  · intro before after _ mailId
    exact (start.oneLiveCopy.run before).count mailId
  · rw [staysAnswered_iff]
    have preserved : ∀ store step, OneLiveCopy store → OneLiveCopy (mailStep store step) :=
      fun _ step held => held.step step
    have decides : ∀ store step, OneLiveCopy store → Answered store →
        (keepsAnswered store step = true ↔ Answered (mailStep store step)) :=
      fun _ step held answered => answered_step held answered step
    exact (guarded_iff preserved decides start.oneLiveCopy start.answered steps).symm

section ReclaimedChair

/-- One report to the chair of program `p`, queued to `A`, who claims its run. -/
def chairStore : MailStore where
  mail := [{ id := 1, atTime := 10, fromId := Text.lit "worker-1", toId := Text.lit "coordinator",
             runId := some 1, kind := Text.lit "status", subject := Text.lit "wave-done",
             body := Text.lit "done", artifacts := [] }]
  runs := [{ id := 1, program := Text.lit "p", wave := 1, waveOf := none,
             kind := Text.lit "work", state := Text.lit "working",
             claimedBy := some (Text.lit "A"), coordProject := none,
             sessionId := some (Text.lit "worker-1"), dispatchedAt := some 5 }]
  deliveries := (queueDelivery [] 1 (Text.lit "A") (Text.lit "envelope") none).1

/-- `A`'s copy parks, the chair moves to `B` who acks its own copy, and moves back
through `A` to `D`. -/
def chairSteps : List MailStep :=
  [.write ⟨.rejectDelivery 1 .undeliverable (Text.lit "recipient not in registry"), rfl⟩,
    .reclaimProgram 1 (Text.lit "B") none,
    .write ⟨.markAcked 2 20, rfl⟩,
    .reclaimProgram 1 (Text.lit "A") none,
    .reclaimProgram 1 (Text.lit "D") none]

theorem chairStore_queuedOnce : QueuedOnce chairStore where
  ids := by decide +kernel
  once := by decide +kernel
  queued := by decide +kernel
  unrevived := by decide +kernel

/-- The answered report is queued again, to `D`. -/
theorem chair_requeuesAnswered : QueuedOnce chairStore ∧ ¬StaysAnswered chairStore chairSteps := by
  refine ⟨chairStore_queuedOnce, fun stays => ?_⟩
  have silent := stays (chairSteps.take 3) (chairSteps.drop 3) [] (by simp [chairSteps]) 1
    (by decide +kernel)
  exact absurd silent (by decide +kernel)

theorem mailRun_answered_chair :
    (∀ before after, chairSteps = before ++ after → ∀ mailId,
      ((runFrom mailStep chairStore before).deliveries.filter fun row =>
        row.mailId == mailId && row.outstanding).length ≤ 1) ∧
    (StaysAnswered chairStore chairSteps ↔
      Guarded mailStep (fun store step => keepsAnswered store step = true) chairStore
        chairSteps) :=
  mailRun_answered chairStore_queuedOnce chairSteps

end ReclaimedChair

end Ccrc.Coord
