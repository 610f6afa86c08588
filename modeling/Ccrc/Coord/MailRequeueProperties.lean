import Ccrc.Coord.MailDeliveryProperties
import Ccrc.Coord.MailRequeue

/-! What the mail operations do to rows: a write in place keeps who a row is and
who it goes to, a queued heir is one fresh row at the end, and a selection takes
one source for each mail. -/

set_option autoImplicit false

namespace Ccrc.Coord

open Library Shared

/-! ## The states of a row -/

namespace Delivery

theorem outstanding_iff {row : Delivery} :
    row.outstanding = true ↔ row.state = MailDeliveryState.queued.text ∨
      row.state = MailDeliveryState.delivered.text := by
  have listed : outstandingStatesSql =
      [MailDeliveryState.queued.text, MailDeliveryState.delivered.text] := by decide +kernel
  simp [outstanding, listed]

theorem terminal_iff {row : Delivery} :
    row.terminal = true ↔ row.acked = true ∨ row.rejected = true := by
  simp [terminal, terminalDeliverySql, terminalDeliveryStates, acked, rejected]

/-- A row in one of the four states that the writers leave behind. -/
def known (row : Delivery) : Bool := row.outstanding || row.terminal

theorem outstanding_of_known {row : Delivery} (known : row.known = true)
    (open' : row.terminal = false) : row.outstanding = true := by
  simpa [Delivery.known, open'] using known

theorem not_terminal_of_outstanding {row : Delivery} (outstanding : row.outstanding = true) :
    row.acked = false ∧ row.rejected = false := by
  constructor
  · cases acked : row.acked with
    | false => rfl
    | true => rw [(acked_terminal acked).2.1] at outstanding; cases outstanding
  · cases rejected : row.rejected with
    | false => rfl
    | true => rw [(rejected_terminal rejected).2] at outstanding; cases outstanding

end Delivery

/-! ## Writes in place -/

/-- A rewrite of rows that keeps who they are and who they go to, makes no row
outstanding again and leaves an acked row alone. -/
structure InPlace (write : Delivery → Delivery) : Prop where
  id : ∀ row, (write row).id = row.id
  mailId : ∀ row, (write row).mailId = row.mailId
  revivedFrom : ∀ row, (write row).revivedFrom = row.revivedFrom
  toId : ∀ row, (write row).toId = row.toId
  outstanding : ∀ row, row.known = true → (write row).outstanding = true →
    row.outstanding = true
  known : ∀ row, row.known = true → (write row).known = true
  acked : ∀ row, row.acked = true → write row = row

theorem InPlace.refl : InPlace fun row => row where
  id _ := rfl
  mailId _ := rfl
  revivedFrom _ := rfl
  toId _ := rfl
  outstanding _ _ held := held
  known _ held := held
  acked _ _ := rfl

namespace DeliveryUpdate

theorem apply_mailId (update : DeliveryUpdate) (row : Delivery) :
    (update.apply row).mailId = row.mailId := by
  unfold apply
  split
  next => exact (update.keeps row).2.1
  next => rfl

theorem apply_revivedFrom (update : DeliveryUpdate) (row : Delivery) :
    (update.apply row).revivedFrom = row.revivedFrom := by
  unfold apply
  split
  next => exact (update.keeps row).2.2
  next => rfl

/-- What a statement has to set for its write to be in place. -/
theorem inPlace {update : DeliveryUpdate}
    (toId : ∀ row, (update.set row).toId = row.toId)
    (state : ∀ row, (update.set row).state = row.state ∨
      (update.set row).state = MailDeliveryState.delivered.text ∨
      (update.set row).terminal = true)
    (ack : update.guard = .ack → ∀ row, (update.set row).terminal = true) :
    InPlace update.apply where
  id := update.apply_id
  mailId := update.apply_mailId
  revivedFrom := update.apply_revivedFrom
  toId row := by
    unfold apply
    split
    next => exact toId row
    next => rfl
  outstanding row known outstanding := by
    cases taken : update.takes row with
    | false => rwa [apply_of_not_takes taken] at outstanding
    | true =>
        rw [apply_of_takes taken] at outstanding
        have admitted := takes_guard taken
        cases guard : update.guard with
        | outstanding => simpa [guard, DeliveryGuard.admits] using admitted
        | nonTerminal =>
            exact row.outstanding_of_known known
              (by simpa [guard, DeliveryGuard.admits] using admitted)
        | ack =>
            have refused := Delivery.not_terminal_of_outstanding outstanding
            have terminal := Delivery.terminal_iff.mp (ack guard row)
            simp [refused] at terminal
  known row known := by
    cases taken : update.takes row with
    | false => rwa [apply_of_not_takes taken]
    | true =>
        rw [apply_of_takes taken]
        rcases state row with kept | delivered | terminal
        · simpa [Delivery.known, Delivery.outstanding, Delivery.terminal, kept] using known
        · simp [Delivery.known, Delivery.outstanding_iff.mpr (Or.inr delivered)]
        · simp [Delivery.known, terminal]
  acked row acked := apply_of_not_takes (update.takes_acked acked)

end DeliveryUpdate

theorem cancelUpdate_inPlace (error : Text) (narrow : Delivery → Bool) :
    InPlace (cancelUpdate error narrow).apply :=
  DeliveryUpdate.inPlace (fun _ => rfl)
    (fun _ => Or.inr (Or.inr (Delivery.terminal_iff.mpr (Or.inr (beq_self_eq_true _)))))
    (fun guard => by cases guard)

theorem inPlace_of_call {call : DeliveryCall} (inPlace : call.inPlace = true)
    {update : DeliveryUpdate} (sends : call.update = some update) : InPlace update.apply := by
  cases call with
  | queueDelivery => cases inPlace
  | repointCoordinatorMail => cases inPlace
  | cancelOutstandingDeliveries | cancelDeliveriesTo | cancelKickoffsTo
  | parkSupersededDeliveries =>
      cases sends
      exact cancelUpdate_inPlace _ _
  | markDelivered =>
      cases sends
      exact DeliveryUpdate.inPlace (fun _ => rfl) (fun _ => Or.inr (Or.inl rfl))
        (fun guard => by cases guard)
  | markAcked =>
      cases sends
      have terminal : ∀ atTime row, ((markAckedUpdate atTime).set row).terminal = true :=
        fun _ _ => Delivery.terminal_iff.mpr (Or.inl (beq_self_eq_true _))
      exact DeliveryUpdate.inPlace (fun _ => rfl) (fun row => Or.inr (Or.inr (terminal _ row)))
        (fun _ row => terminal _ row)
  | rejectDelivery =>
      cases sends
      exact DeliveryUpdate.inPlace (fun _ => rfl)
        (fun _ => Or.inr (Or.inr (Delivery.terminal_iff.mpr (Or.inr (beq_self_eq_true _)))))
        (fun guard => by cases guard)
  | _ =>
      cases sends
      exact DeliveryUpdate.inPlace (fun _ => rfl) (fun _ => Or.inl rfl)
        (fun guard => by cases guard)

/-! ## Identities and heirs of a table -/

private theorem foldl_max_le (ids : List Nat) (bound : Nat) :
    bound ≤ ids.foldl max bound ∧ ∀ id ∈ ids, id ≤ ids.foldl max bound := by
  induction ids generalizing bound with
  | nil => exact ⟨Nat.le_refl bound, fun _ member => absurd member List.not_mem_nil⟩
  | cons first ids ih =>
      obtain ⟨above, each⟩ := ih (max bound first)
      simp only [List.foldl_cons, List.mem_cons, forall_eq_or_imp]
      exact ⟨by omega, by omega, each⟩

theorem lt_nextDeliveryId {rows : List Delivery} {row : Delivery} (member : row ∈ rows) :
    row.id < nextDeliveryId rows :=
  Nat.lt_succ_of_le ((foldl_max_le (rows.map (·.id)) 0).2 row.id (List.mem_map_of_mem member))

theorem nextDeliveryId_map {write : Delivery → Delivery} (inPlace : ∀ row, (write row).id = row.id)
    (rows : List Delivery) : nextDeliveryId (rows.map write) = nextDeliveryId rows := by
  have same : (rows.map write).map (·.id) = rows.map (·.id) := by simp [inPlace]
  rw [nextDeliveryId, same, nextDeliveryId]

theorem nextDeliveryId_append (rows : List Delivery) (row : Delivery)
    (fresh : row.id = nextDeliveryId rows) :
    nextDeliveryId (rows ++ [row]) = nextDeliveryId rows + 1 := by
  rw [nextDeliveryId, List.map_append, List.foldl_append]
  simp only [List.map_cons, List.map_nil, List.foldl_cons, List.foldl_nil, fresh]
  rw [nextDeliveryId]
  omega

theorem hasHeir_map {write : Delivery → Delivery} (ids : ∀ row, (write row).id = row.id)
    (parents : ∀ row, (write row).revivedFrom = row.revivedFrom) (rows : List Delivery)
    (row : Delivery) : hasHeir (rows.map write) (write row) = hasHeir rows row := by
  simp [hasHeir, List.any_map, Function.comp_def, ids, parents]

theorem hasHeir_append (rows : List Delivery) (heir row : Delivery) :
    hasHeir (rows ++ [heir]) row =
      (hasHeir rows row || heir.revivedFrom == some row.id) := by
  simp [hasHeir]

/-- The row a source's heir is queued as. -/
def heirRow (id : Nat) (source : HeirSource) (target : Text) (revivedFrom : Option Nat) :
    Delivery :=
  { id, mailId := source.mail.id, toId := target, state := MailDeliveryState.queued.text,
    attempts := 0, nextAttemptAt := 0,
    envelope := renderEnvelope
      { id, fromId := source.mail.fromId, toId := target, runId := source.mail.runId,
        program := some source.run.program, wave := some source.run.wave,
        waveOf := source.run.waveOf, kind := (isMailKind source.mail.kind).getD .unknown,
        subject := source.mail.subject, body := source.mail.body,
        artifacts := source.mail.artifacts }
    lastError := none, deliveredAt := none, ingestedAt := none, ackedAt := none,
    rejectCode := none, replayCount := 0, lastGate := none, gateCount := 0, gateSince := none,
    gateAt := none, parkedAt := none, parkReason := none, parkBox := none,
    parkEscalatedAt := none, revivedFrom }

theorem heirRow_outstanding (id : Nat) (source : HeirSource) (target : Text)
    (revivedFrom : Option Nat) :
    (heirRow id source target revivedFrom).outstanding = true :=
  Delivery.outstanding_iff.mpr (Or.inl rfl)

private theorem map_onlyId_of_ne {rows : List Delivery} {id : Nat}
    (others : ∀ row ∈ rows, row.id ≠ id) (update : DeliveryUpdate) :
    rows.map (update.onlyId id).apply = rows := by
  refine (List.map_congr_left fun row member => ?_).trans (List.map_id' rows)
  apply DeliveryUpdate.apply_of_not_takes
  simp [DeliveryUpdate.takes, DeliveryUpdate.onlyId, others row member]

/-- An heir is always stamped: its row is the one row of the id just queued. -/
theorem queueHeir_eq (rows : List Delivery) (source : HeirSource) (target : Text)
    (revivedFrom : Option Nat) :
    queueHeir rows source target revivedFrom =
      some (rows ++ [heirRow (nextDeliveryId rows) source target revivedFrom],
        nextDeliveryId rows) := by
  have others : ∀ row ∈ rows, row.id ≠ nextDeliveryId rows := fun row member =>
    Nat.ne_of_lt (lt_nextDeliveryId member)
  have admitted : ∀ row : Delivery, row.state = MailDeliveryState.queued.text →
      row.terminal = false := by
    intro row queued
    have live := row.not_terminal_of_outstanding (Delivery.outstanding_iff.mpr (Or.inl queued))
    cases terminal : row.terminal with
    | false => rfl
    | true => simpa [live] using Delivery.terminal_iff.mp terminal
  simp only [queueHeir, queueDelivery, setDeliveryEnvelope, writeDelivery, writeDeliveries,
    List.map_append, map_onlyId_of_ne others, List.map_cons, List.map_nil, List.countP_append,
    List.countP_cons, List.countP_nil]
  simp only [DeliveryUpdate.apply, DeliveryUpdate.takes, DeliveryUpdate.onlyId,
    setDeliveryEnvelopeUpdate, DeliveryGuard.admits, beq_self_eq_true, Bool.and_true]
  rw [admitted _ rfl]
  simp [heirRow]

def heirRows (target : HeirSource → Text) (parent : HeirSource → Option Nat) (next : Nat) :
    List HeirSource → List Delivery
  | [] => []
  | source :: rest =>
      heirRow next source (target source) (parent source) ::
        heirRows target parent (next + 1) rest

theorem mem_heirRows {target : HeirSource → Text} {parent : HeirSource → Option Nat}
    {next : Nat} {sources : List HeirSource} {row : Delivery}
    (member : row ∈ heirRows target parent next sources) :
    ∃ id, ∃ source ∈ sources, row = heirRow id source (target source) (parent source) := by
  induction sources generalizing next with
  | nil => cases member
  | cons source rest ih =>
      cases List.mem_cons.mp member with
      | inl here => exact ⟨next, source, List.mem_cons_self, here⟩
      | inr later =>
          obtain ⟨id, other, among, isHeir⟩ := ih later
          exact ⟨id, other, List.mem_cons_of_mem source among, isHeir⟩

theorem heirRows_mem (target : HeirSource → Text) (parent : HeirSource → Option Nat)
    {sources : List HeirSource} {source : HeirSource} (member : source ∈ sources) (next : Nat) :
    ∃ id, heirRow id source (target source) (parent source) ∈
      heirRows target parent next sources := by
  induction sources generalizing next with
  | nil => cases member
  | cons first rest ih =>
      cases List.mem_cons.mp member with
      | inl here => exact ⟨next, here ▸ List.mem_cons_self⟩
      | inr later =>
          obtain ⟨id, among⟩ := ih later (next + 1)
          exact ⟨id, List.mem_cons_of_mem _ among⟩

theorem queueHeirs_eq (target : HeirSource → Text) (parent : HeirSource → Option Nat)
    (rows : List Delivery) (sources : List HeirSource) :
    ∃ ids, queueHeirs target parent rows sources =
      some (rows ++ heirRows target parent (nextDeliveryId rows) sources, ids) := by
  induction sources generalizing rows with
  | nil => exact ⟨[], by simp [queueHeirs, heirRows]⟩
  | cons source rest ih =>
      obtain ⟨ids, queued⟩ := ih
        (rows ++ [heirRow (nextDeliveryId rows) source (target source) (parent source)])
      refine ⟨nextDeliveryId rows :: ids, ?_⟩
      rw [queueHeirs, queueHeir_eq]
      simp only [Option.bind_eq_bind, Option.bind_some, queued]
      rw [nextDeliveryId_append rows _ rfl, List.append_assoc]
      rfl

/-! ## The sources of a selection -/

theorem heirSource_some {store : MailStore} {row : Delivery} {source : HeirSource} :
    heirSource store row = some source ↔ source.delivery = row ∧
      mailOf store.mail row = some source.mail ∧ runOf store.runs source.mail = some source.run := by
  obtain ⟨delivery, mail, run⟩ := source
  simp only [heirSource, Option.bind_eq_bind, Option.bind_eq_some_iff, Option.pure_def,
    Option.some.injEq, HeirSource.mk.injEq]
  constructor
  · rintro ⟨found, isMail, ran, isRun, rfl, rfl, rfl⟩
    exact ⟨rfl, isMail, isRun⟩
  · rintro ⟨rfl, isMail, isRun⟩
    exact ⟨mail, isMail, run, isRun, rfl, rfl, rfl⟩

theorem mailOf_id {mail : List Mail} {row : Delivery} {found : Mail}
    (isMail : mailOf mail row = some found) : found.id = row.mailId := by
  simpa [mailOf] using List.find?_some isMail

theorem mailOf_congr (mail : List Mail) {row other : Delivery}
    (same : row.mailId = other.mailId) : mailOf mail row = mailOf mail other := by
  rw [mailOf, same, mailOf]

theorem runOf_mem {runs : List Run} {mail : Mail} {run : Run}
    (isRun : runOf runs mail = some run) : run ∈ runs := by
  rw [runOf, Option.bind_eq_some_iff] at isRun
  obtain ⟨id, _, found⟩ := isRun
  exact List.mem_of_find?_eq_some found

theorem runOf_map {change : Run → Run} (ids : ∀ run, (change run).id = run.id)
    (runs : List Run) (mail : Mail) :
    runOf (runs.map change) mail = (runOf runs mail).map change := by
  simp only [runOf, List.find?_map, Function.comp_def, ids]
  cases mail.runId <;> rfl

end Ccrc.Coord
