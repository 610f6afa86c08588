import Ccrc.Coord.MailDelivery
import Ccrc.Library.Run

/-! Terminal deliveries stay as they are. A guard that admits no terminal row
cannot reopen one, so the only door left is the ack's exception for a row
rejected at the replay ceiling, and every other writer keeps its row. -/

set_option autoImplicit false

namespace Ccrc.Coord

open Library Shared

/-- The UPDATE a call sends, narrowed to the row it names. An insert sends none. -/
def DeliveryCall.update : DeliveryCall → Option DeliveryUpdate
  | .queueDelivery _ _ _ _ => none
  | .setDeliveryEnvelope id envelope => some ((setDeliveryEnvelopeUpdate envelope).onlyId id)
  | .markDelivered id atTime => some ((markDeliveredUpdate atTime).onlyId id)
  | .bumpReplayCount id => some (bumpReplayCountUpdate.onlyId id)
  | .markIngested id atTime => some ((markIngestedUpdate atTime).onlyId id)
  | .markAcked id atTime => some ((markAckedUpdate atTime).onlyId id)
  | .backOff id lastError nextAttemptAt countsAsAttempt =>
      some ((backOffUpdate lastError nextAttemptAt countsAsAttempt).onlyId id)
  | .noteGate id gate now same sinceIfSame =>
      some ((noteGateUpdate gate now same sinceIfSame).onlyId id)
  | .rejectDelivery id code lastError => some ((rejectDeliveryUpdate code lastError).onlyId id)
  | .parkDelivery id reason box now nextAttemptAt =>
      some ((parkDeliveryUpdate reason box now nextAttemptAt).onlyId id)
  | .holdParked id nextAttemptAt => some ((holdParkedUpdate nextAttemptAt).onlyId id)
  | .wakeParked id now => some ((wakeParkedUpdate now).onlyId id)
  | .markParkEscalated id atTime => some ((markParkEscalatedUpdate atTime).onlyId id)
  | .absorbParkEscalation id atTime => some ((absorbParkEscalationUpdate atTime).onlyId id)
  | .baselineParkBox id box => some ((baselineParkBoxUpdate box).onlyId id)
  | .cancelOutstandingDeliveries mail runId => some (cancelOutstandingUpdate mail runId)
  | .cancelDeliveriesTo toId => some (cancelDeliveriesToUpdate toId)
  | .cancelKickoffsTo mail displaced => some (cancelKickoffsUpdate mail displaced)
  | .parkSupersededDeliveries displaced mailIds => some (parkSupersededUpdate displaced mailIds)
  | .repointCoordinatorMail mail runs program target displaced =>
      some (repointUpdate mail runs program target displaced)

/-- Whether an answer reports a write. -/
def DeliveryAnswer.changed : DeliveryAnswer → Bool
  | .queued _ => true
  | .one write => write.changed
  | .bulk write => 0 < write.changed
  | .envelope result => result == .ok
  | .replay result => result != .terminal
  | .ack result => result == .ok

def deliveryStep (rows : List Delivery) (call : DeliveryCall) : List Delivery :=
  (runCall rows call).1

/-! ## One row under one statement -/

namespace Delivery

theorem acked_terminal {row : Delivery} (acked : row.acked = true) :
    row.terminal = true ∧ row.outstanding = false ∧ row.rejected = false := by
  have word : row.state = MailDeliveryState.acked.text := by simpa [Delivery.acked] using acked
  simp only [terminal, outstanding, rejected, word]
  decide +kernel

theorem rejected_terminal {row : Delivery} (rejected : row.rejected = true) :
    row.terminal = true ∧ row.outstanding = false := by
  have word : row.state = MailDeliveryState.rejected.text := by
    simpa [Delivery.rejected] using rejected
  simp only [terminal, outstanding, word]
  decide +kernel

end Delivery

namespace DeliveryUpdate

theorem apply_of_not_takes {update : DeliveryUpdate} {row : Delivery}
    (refused : update.takes row = false) : update.apply row = row := by
  simp [apply, refused]

theorem apply_of_takes {update : DeliveryUpdate} {row : Delivery}
    (taken : update.takes row = true) : update.apply row = update.set row := by
  simp [apply, taken]

@[simp] theorem apply_id (update : DeliveryUpdate) (row : Delivery) :
    (update.apply row).id = row.id := by
  unfold apply
  split
  next => exact (update.keeps row).1
  next => rfl

theorem takes_guard {update : DeliveryUpdate} {row : Delivery}
    (taken : update.takes row = true) : update.guard.admits row = true := by
  simp only [takes, Bool.and_eq_true] at taken
  exact taken.1

/-- No guard admits an acked row. -/
theorem takes_acked (update : DeliveryUpdate) {row : Delivery} (acked : row.acked = true) :
    update.takes row = false := by
  obtain ⟨terminal, outstanding, rejected⟩ := row.acked_terminal acked
  cases guard : update.guard with
  | outstanding => simp [takes, guard, DeliveryGuard.admits, outstanding]
  | nonTerminal => simp [takes, guard, DeliveryGuard.admits, terminal]
  | ack =>
      simp [takes, guard, DeliveryGuard.admits, ackableDeliverySql, terminal,
        Delivery.replayCeilingPark, rejected]

/-- Only the ack's guard admits a rejected row, and only at the replay ceiling. -/
theorem takes_rejected {update : DeliveryUpdate} {row : Delivery}
    (rejected : row.rejected = true) (taken : update.takes row = true) :
    update.guard = .ack ∧ row.replayCeilingPark = true := by
  obtain ⟨terminal, outstanding⟩ := row.rejected_terminal rejected
  have admitted := takes_guard taken
  cases guard : update.guard with
  | outstanding => simp [guard, DeliveryGuard.admits, outstanding] at admitted
  | nonTerminal => simp [guard, DeliveryGuard.admits, terminal] at admitted
  | ack => exact ⟨rfl, by simpa [guard, DeliveryGuard.admits, ackableDeliverySql, terminal]
      using admitted⟩

end DeliveryUpdate

/-! ## The table under one call -/

theorem delivery_map_apply (rows : List Delivery) (update : DeliveryUpdate) (id : Nat) :
    delivery (rows.map update.apply) id = (delivery rows id).map update.apply := by
  induction rows with
  | nil => rfl
  | cons row rows ih =>
      simp only [delivery, List.map_cons, List.find?_cons, DeliveryUpdate.apply_id] at ih ⊢
      cases same : row.id == id with
      | true => rfl
      | false => exact ih

theorem delivery_append {rows : List Delivery} {id : Nat} {row : Delivery}
    (present : delivery rows id = some row) (added : List Delivery) :
    delivery (rows ++ added) id = some row := by
  simp only [delivery, List.find?_append] at present ⊢
  rw [present]
  rfl

theorem runCall_update {call : DeliveryCall} {update : DeliveryUpdate}
    (sends : call.update = some update) (rows : List Delivery) :
    (runCall rows call).1 = rows.map update.apply := by
  cases call <;> cases sends <;> rfl

theorem runCall_insert {call : DeliveryCall} (sends : call.update = none)
    (rows : List Delivery) : ∃ row, (runCall rows call).1 = rows ++ [row] := by
  cases call with
  | queueDelivery => exact ⟨_, rfl⟩
  | _ => cases sends

theorem setDeliveryEnvelope_ok (rows : List Delivery) (id : Nat) (envelope : Text) :
    ((setDeliveryEnvelope rows id envelope).2 == .ok) =
      (writeDelivery rows id (setDeliveryEnvelopeUpdate envelope)).2.changed := by
  unfold setDeliveryEnvelope
  obtain ⟨written, changed, state⟩ := writeDelivery rows id (setDeliveryEnvelopeUpdate envelope)
  cases changed with
  | true => rfl
  | false => cases state <;> rfl

theorem bumpReplayCount_counted (rows : List Delivery) (id : Nat) :
    ((bumpReplayCount rows id).2 != .terminal) =
      (writeDelivery rows id bumpReplayCountUpdate).2.changed := by
  unfold bumpReplayCount
  obtain ⟨written, changed, state⟩ := writeDelivery rows id bumpReplayCountUpdate
  cases changed <;> rfl

theorem markAcked_ok (rows : List Delivery) (id : Nat) (atTime : Int) :
    ((markAcked rows id atTime).2 == .ok) =
      (writeDelivery rows id (markAckedUpdate atTime)).2.changed := by
  unfold markAcked
  obtain ⟨written, changed, state⟩ := writeDelivery rows id (markAckedUpdate atTime)
  cases changed with
  | true => rfl
  | false =>
      cases found : delivery written id with
      | none => simp [found]
      | some row => cases acked : row.acked <;> simp [found, acked]

/-- A call reports a write where its statement took a row. -/
theorem runCall_changed {call : DeliveryCall} {update : DeliveryUpdate}
    (sends : call.update = some update) (rows : List Delivery) :
    (runCall rows call).2.changed = decide (0 < rows.countP update.takes) := by
  cases call with
  | queueDelivery => cases sends
  | setDeliveryEnvelope id envelope =>
      cases sends
      exact setDeliveryEnvelope_ok rows id envelope
  | bumpReplayCount id =>
      cases sends
      exact bumpReplayCount_counted rows id
  | markAcked id atTime =>
      cases sends
      exact markAcked_ok rows id atTime
  | _ => cases sends; rfl

/-- Only the ack's statement has the ack's guard. -/
theorem update_guard_ack {call : DeliveryCall} {update : DeliveryUpdate}
    (sends : call.update = some update) (guard : update.guard = .ack) :
    ∃ id atTime, call = .markAcked id atTime ∧ update = (markAckedUpdate atTime).onlyId id := by
  cases call with
  | markAcked id atTime => exact ⟨id, atTime, rfl, (Option.some.inj sends).symm⟩
  | _ => cases sends <;> cases guard

theorem deliveryStep_acked {rows : List Delivery} {id : Nat} {row : Delivery}
    (present : delivery rows id = some row) (acked : row.acked = true) (call : DeliveryCall) :
    delivery (deliveryStep rows call) id = some row := by
  cases sends : call.update with
  | none =>
      obtain ⟨added, inserted⟩ := runCall_insert sends rows
      rw [deliveryStep, inserted]
      exact delivery_append present [added]
  | some update =>
      rw [deliveryStep, runCall_update sends, delivery_map_apply, present, Option.map_some,
        DeliveryUpdate.apply_of_not_takes (update.takes_acked acked)]

/-- One call leaves a rejected row alone, or it is the ack of a row rejected at
the replay ceiling. -/
theorem deliveryStep_rejected {rows : List Delivery} {id : Nat} {row : Delivery}
    (present : delivery rows id = some row) (rejected : row.rejected = true)
    (call : DeliveryCall) :
    delivery (deliveryStep rows call) id = some row ∨
      ∃ atTime, call = .markAcked id atTime ∧ row.replayCeilingPark = true ∧
        delivery (deliveryStep rows call) id = some ((markAckedUpdate atTime).set row) := by
  cases sends : call.update with
  | none =>
      obtain ⟨added, inserted⟩ := runCall_insert sends rows
      rw [deliveryStep, inserted]
      exact Or.inl (delivery_append present [added])
  | some update =>
      rw [deliveryStep, runCall_update sends, delivery_map_apply, present, Option.map_some]
      cases taken : update.takes row with
      | false => exact Or.inl (by rw [DeliveryUpdate.apply_of_not_takes taken])
      | true =>
          obtain ⟨guard, ceiling⟩ := DeliveryUpdate.takes_rejected rejected taken
          obtain ⟨target, atTime, isAck, isUpdate⟩ := update_guard_ack sends guard
          subst isUpdate
          have sameId : row.id = id := by simpa using List.find?_some present
          have aimed : row.id = target := by
            simp only [DeliveryUpdate.takes, DeliveryUpdate.onlyId, Bool.and_eq_true,
              beq_iff_eq] at taken
            exact taken.2.1
          refine Or.inr ⟨atTime, ?_, ceiling, ?_⟩
          · rw [isAck, ← aimed, sameId]
          · rw [DeliveryUpdate.apply_of_takes taken]
            rfl

/-! ## Runs of calls -/

theorem run_acked {rows : List Delivery} {id : Nat} {row : Delivery}
    (present : delivery rows id = some row) (acked : row.acked = true)
    (calls : List DeliveryCall) :
    delivery (runFrom deliveryStep rows calls) id = some row := by
  induction calls generalizing rows with
  | nil => exact present
  | cons call calls ih => exact ih (deliveryStep_acked present acked call)

theorem run_rejected {rows : List Delivery} {id : Nat} {row : Delivery}
    (present : delivery rows id = some row) (rejected : row.rejected = true)
    (calls : List DeliveryCall) :
    delivery (runFrom deliveryStep rows calls) id = some row ∨
      ∃ before atTime after, calls = before ++ .markAcked id atTime :: after ∧
        row.replayCeilingPark = true ∧
        delivery (runFrom deliveryStep rows before) id = some row ∧
        delivery (runFrom deliveryStep rows calls) id =
          some ((markAckedUpdate atTime).set row) := by
  induction calls generalizing rows with
  | nil => exact Or.inl present
  | cons call calls ih =>
      cases deliveryStep_rejected present rejected call with
      | inl kept =>
          cases ih kept with
          | inl unchanged => exact Or.inl unchanged
          | inr moved =>
              obtain ⟨before, atTime, after, split, ceiling, still, final⟩ := moved
              exact Or.inr ⟨call :: before, atTime, after, by rw [split]; rfl, ceiling,
                still, final⟩
      | inr moved =>
          obtain ⟨atTime, isAck, ceiling, written⟩ := moved
          refine Or.inr ⟨[], atTime, calls, by rw [isAck]; rfl, ceiling, present, ?_⟩
          exact run_acked written (beq_self_eq_true _) calls

/-- What a call's answer says of its write: it reports a change exactly where its
statement took a row, the rows it took hold the statement's columns, and a call
that reports none leaves the table as it was. -/
structure AnswersItsWrite (rows : List Delivery) (call : DeliveryCall) : Prop where
  written : ∀ update, call.update = some update →
    deliveryStep rows call = rows.map update.apply ∧
      ((runCall rows call).2.changed = true ↔ ∃ row ∈ rows, update.takes row = true)
  counted : ∀ update write, call.update = some update →
    (runCall rows call).2 = .bulk write → write.changed = rows.countP update.takes
  refused : (runCall rows call).2.changed = false → deliveryStep rows call = rows

theorem answersItsWrite (rows : List Delivery) (call : DeliveryCall) :
    AnswersItsWrite rows call where
  written update sends := by
    refine ⟨runCall_update sends rows, ?_⟩
    rw [runCall_changed sends, decide_eq_true_iff, List.countP_pos_iff]
  counted update write sends answer := by
    cases call <;> cases sends <;> cases answer <;> rfl
  refused unchanged := by
    cases sends : call.update with
    | none =>
        cases call with
        | queueDelivery => cases unchanged
        | _ => cases sends
    | some update =>
        rw [runCall_changed sends, decide_eq_false_iff_not, List.countP_pos_iff] at unchanged
        rw [deliveryStep, runCall_update sends]
        have untaken : ∀ row ∈ rows, update.apply row = row := by
          intro row member
          apply DeliveryUpdate.apply_of_not_takes
          cases taken : update.takes row with
          | false => rfl
          | true => exact absurd ⟨row, member, taken⟩ unchanged
        exact (List.map_congr_left untaken).trans (List.map_id' rows)

/-- Once acked a row is never written again; once rejected it is written once at
most, by the ack of a row rejected at the replay ceiling; and every answer of
the run reports its own write. -/
theorem terminalDeliveries (rows : List Delivery) (calls : List DeliveryCall) :
    (∀ id row, delivery rows id = some row → row.acked = true →
      delivery (runFrom deliveryStep rows calls) id = some row) ∧
    (∀ id row, delivery rows id = some row → row.rejected = true →
      delivery (runFrom deliveryStep rows calls) id = some row ∨
        ∃ before atTime after, calls = before ++ .markAcked id atTime :: after ∧
          row.replayCeilingPark = true ∧
          delivery (runFrom deliveryStep rows before) id = some row ∧
          delivery (runFrom deliveryStep rows calls) id =
            some ((markAckedUpdate atTime).set row)) ∧
    (∀ before call after, calls = before ++ call :: after →
      AnswersItsWrite (runFrom deliveryStep rows before) call) :=
  ⟨fun _ _ present acked => run_acked present acked calls,
    fun _ _ present rejected => run_rejected present rejected calls,
    fun _ _ _ _ => answersItsWrite _ _⟩

end Ccrc.Coord
