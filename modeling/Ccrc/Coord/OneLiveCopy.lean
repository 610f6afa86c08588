import Ccrc.Coord.MailRequeueProperties

/-! One live copy of a mail. Every operation that queues a second delivery finds
no outstanding one: a rebind parks what it replaces, a revive asks that every
copy is rejected, and a reclaim relies on the chair: once a mail of the chair has
two copies that no heir retired, its program has one claimant, and the copy that
is outstanding lies with that claimant. -/

set_option autoImplicit false

namespace Ccrc.Coord

open Library Shared

/-! ## The claimants of a program -/

def Claimed (runs : List Run) (program who : Text) : Prop :=
  ∃ run ∈ runs, run.program = program ∧ run.claimedBy = some who

/-- Every claim of the program is `who`'s. -/
def SettledAt (runs : List Run) (program who : Text) : Prop :=
  ∀ other, Claimed runs program other → other = who

def Uniform (runs : List Run) (program : Text) : Prop :=
  ∀ first second, Claimed runs program first → Claimed runs program second → first = second

theorem SettledAt.uniform {runs : List Run} {program who : Text}
    (settled : SettledAt runs program who) : Uniform runs program :=
  fun _ _ isFirst isSecond => (settled _ isFirst).trans (settled _ isSecond).symm

theorem claimed_map {change : Run → Run} {program : Text}
    (programs : ∀ run, (change run).program = run.program)
    (claims : ∀ run, run.program = program → (change run).claimedBy = run.claimedBy)
    (runs : List Run) (who : Text) :
    Claimed (runs.map change) program who ↔ Claimed runs program who := by
  constructor
  · rintro ⟨run, member, isProgram, isWho⟩
    obtain ⟨former, among, rfl⟩ := List.mem_map.mp member
    rw [programs] at isProgram
    exact ⟨former, among, isProgram, (claims former isProgram) ▸ isWho⟩
  · rintro ⟨run, member, isProgram, isWho⟩
    exact ⟨change run, List.mem_map_of_mem member, (programs run).trans isProgram,
      (claims run isProgram).trans isWho⟩

/-! ## The invariant -/

def coordinatorRole : Text := (RequeueRole.coordinator []).text

/-- Two rows that no heir retired, of one mail of the chair: their program has
one claimant, and an outstanding row lies with it. -/
def ChairSettled (store : MailStore) (first second : Delivery) : Prop :=
  first.mailId = second.mailId → first ≠ second →
    hasHeir store.deliveries first = false → hasHeir store.deliveries second = false →
    ∀ mail run, mailOf store.mail first = some mail → mail.toId = coordinatorRole →
      runOf store.runs mail = some run →
      Uniform store.runs run.program ∧
        (first.outstanding = true → SettledAt store.runs run.program first.toId)

structure OneLiveCopy (store : MailStore) : Prop where
  ids : store.deliveries.Pairwise (·.id < ·.id)
  parents : ∀ row ∈ store.deliveries, ∀ parent, row.revivedFrom = some parent →
    parent < nextDeliveryId store.deliveries
  known : ∀ row ∈ store.deliveries, row.known = true
  heirless : ∀ row ∈ store.deliveries, row.outstanding = true →
    hasHeir store.deliveries row = false
  single : ∀ first ∈ store.deliveries, ∀ second ∈ store.deliveries,
    first.mailId = second.mailId → first.outstanding = true → second.outstanding = true →
    first = second
  chair : ∀ first ∈ store.deliveries, ∀ second ∈ store.deliveries,
    ChairSettled store first second

theorem OneLiveCopy.unique {store : MailStore} (held : OneLiveCopy store)
    {first second : Delivery} (isFirst : first ∈ store.deliveries)
    (isSecond : second ∈ store.deliveries) (same : first.id = second.id) : first = second := by
  have distinct : (store.deliveries.map (·.id)).Nodup := by
    rw [List.Nodup, List.pairwise_map]
    exact held.ids.imp Nat.ne_of_lt
  exact List.inj_on_of_nodup_map distinct isFirst isSecond same

/-- What a mail's new copy needs of the rows before it. -/
structure Grantable (store : MailStore) (source : HeirSource) (target : Text)
    (revivedFrom : Option Nat) : Prop where
  vacant : ∀ row ∈ store.deliveries, row.mailId = source.mail.id → row.outstanding = false
  parent : ∀ id, revivedFrom = some id →
    ∃ row ∈ store.deliveries, row.id = id ∧ row.mailId = source.mail.id
  chair : ∀ row ∈ store.deliveries, row.mailId = source.mail.id →
    hasHeir store.deliveries row = false → revivedFrom ≠ some row.id →
    ∀ mail run, mailOf store.mail row = some mail → mail.toId = coordinatorRole →
      runOf store.runs mail = some run → SettledAt store.runs run.program target

/-- A change of a run that keeps what it is and who claims it. -/
structure KeepsClaim (change : Run → Run) : Prop where
  id : ∀ run, (change run).id = run.id
  program : ∀ run, (change run).program = run.program
  claimedBy : ∀ run, (change run).claimedBy = run.claimedBy

theorem KeepsClaim.refl : KeepsClaim fun run => run where
  id _ := rfl
  program _ := rfl
  claimedBy _ := rfl

theorem OneLiveCopy.map {store : MailStore} (held : OneLiveCopy store)
    {write : Delivery → Delivery} (inPlace : InPlace write) {change : Run → Run}
    (keeps : KeepsClaim change) :
    OneLiveCopy { store with
      runs := store.runs.map change, deliveries := store.deliveries.map write } where
  ids := by
    rw [List.pairwise_map]
    exact held.ids.imp fun less => by rwa [inPlace.id, inPlace.id]
  parents row member parent isParent := by
    obtain ⟨former, among, rfl⟩ := List.mem_map.mp member
    rw [nextDeliveryId_map inPlace.id]
    exact held.parents former among parent ((inPlace.revivedFrom former) ▸ isParent)
  known row member := by
    obtain ⟨former, among, rfl⟩ := List.mem_map.mp member
    exact inPlace.known former (held.known former among)
  heirless row member outstanding := by
    obtain ⟨former, among, rfl⟩ := List.mem_map.mp member
    rw [hasHeir_map inPlace.id inPlace.revivedFrom]
    exact held.heirless former among
      (inPlace.outstanding former (held.known former among) outstanding)
  single first isFirst second isSecond same outstanding other := by
    obtain ⟨one, oneAmong, rfl⟩ := List.mem_map.mp isFirst
    obtain ⟨two, twoAmong, rfl⟩ := List.mem_map.mp isSecond
    rw [inPlace.mailId, inPlace.mailId] at same
    rw [held.single one oneAmong two twoAmong same
      (inPlace.outstanding one (held.known one oneAmong) outstanding)
      (inPlace.outstanding two (held.known two twoAmong) other)]
  chair first isFirst second isSecond := by
    obtain ⟨one, oneAmong, rfl⟩ := List.mem_map.mp isFirst
    obtain ⟨two, twoAmong, rfl⟩ := List.mem_map.mp isSecond
    intro same different oneHeirless twoHeirless mail run isMail isChair isRun
    rw [inPlace.mailId, inPlace.mailId] at same
    rw [hasHeir_map inPlace.id inPlace.revivedFrom] at oneHeirless twoHeirless
    rw [mailOf_congr store.mail (inPlace.mailId one)] at isMail
    rw [runOf_map keeps.id, Option.map_eq_some_iff] at isRun
    obtain ⟨former, wasRun, rfl⟩ := isRun
    obtain ⟨uniform, settled⟩ := held.chair one oneAmong two twoAmong same
      (fun equal => different (congrArg write equal)) oneHeirless twoHeirless mail former isMail
      isChair wasRun
    have sameClaims : ∀ who, Claimed (store.runs.map change) former.program who ↔
        Claimed store.runs former.program who :=
      claimed_map keeps.program (fun run _ => keeps.claimedBy run) store.runs
    rw [keeps.program, inPlace.toId]
    constructor
    · intro x y isX isY
      exact uniform x y ((sameClaims x).mp isX) ((sameClaims y).mp isY)
    · intro outstanding other isClaimed
      exact settled (inPlace.outstanding one (held.known one oneAmong) outstanding) other
        ((sameClaims other).mp isClaimed)

theorem OneLiveCopy.append {store : MailStore} (held : OneLiveCopy store) {source : HeirSource}
    {target : Text} {revivedFrom : Option Nat}
    (grantable : Grantable store source target revivedFrom) :
    OneLiveCopy { store with deliveries := store.deliveries ++
      [heirRow (nextDeliveryId store.deliveries) source target revivedFrom] } := by
  obtain ⟨vacant, hasParent, chair⟩ := grantable
  -- An heir retires a row of its own mail, and no row of that mail is outstanding.
  have retired : ∀ row ∈ store.deliveries, row.outstanding = true →
      revivedFrom ≠ some row.id := by
    intro row member outstanding isParent
    obtain ⟨parent, among, sameId, sameMail⟩ := hasParent row.id isParent
    have same := held.unique among member sameId
    rw [same] at sameMail
    rw [vacant row member sameMail] at outstanding
    cases outstanding
  have unborn : hasHeir (store.deliveries ++
      [heirRow (nextDeliveryId store.deliveries) source target revivedFrom])
      (heirRow (nextDeliveryId store.deliveries) source target revivedFrom) = false := by
    simp only [hasHeir, List.any_append, List.any_cons, List.any_nil, Bool.or_false,
      Bool.or_eq_false_iff, List.any_eq_false, beq_iff_eq]
    constructor
    · intro row member isParent
      have before := held.parents row member _ isParent
      simp [heirRow] at before
    · rw [beq_eq_false_iff_ne]
      intro isParent
      obtain ⟨parent, among, sameId, _⟩ := hasParent _ isParent
      have before := lt_nextDeliveryId among
      simp [heirRow] at sameId
      omega
  constructor
  · rw [List.pairwise_append]
    refine ⟨held.ids, List.pairwise_singleton _ _, fun row member heir isHeir => ?_⟩
    rw [List.mem_singleton.mp isHeir]
    exact lt_nextDeliveryId member
  · intro row member parent isParent
    rw [nextDeliveryId_append _ _ rfl]
    cases List.mem_append.mp member with
    | inl old => exact Nat.lt_succ_of_lt (held.parents row old parent isParent)
    | inr new =>
        rw [List.mem_singleton.mp new] at isParent
        obtain ⟨former, among, sameId, _⟩ := hasParent parent isParent
        rw [← sameId]
        exact Nat.lt_succ_of_lt (lt_nextDeliveryId among)
  · intro row member
    cases List.mem_append.mp member with
    | inl old => exact held.known row old
    | inr new =>
        rw [List.mem_singleton.mp new, Delivery.known, heirRow_outstanding, Bool.true_or]
  · intro row member outstanding
    cases List.mem_append.mp member with
    | inl old =>
        rw [hasHeir_append, held.heirless row old outstanding, Bool.false_or,
          beq_eq_false_iff_ne]
        exact retired row old outstanding
    | inr new => rw [List.mem_singleton.mp new]; exact unborn
  · intro first isFirst second isSecond same outstanding other
    cases List.mem_append.mp isFirst with
    | inl oldFirst =>
        cases List.mem_append.mp isSecond with
        | inl oldSecond =>
            exact held.single first oldFirst second oldSecond same outstanding other
        | inr newSecond =>
            rw [List.mem_singleton.mp newSecond] at same
            rw [vacant first oldFirst same] at outstanding
            cases outstanding
    | inr newFirst =>
        cases List.mem_append.mp isSecond with
        | inl oldSecond =>
            rw [List.mem_singleton.mp newFirst] at same
            rw [vacant second oldSecond same.symm] at other
            cases other
        | inr newSecond => rw [List.mem_singleton.mp newFirst, List.mem_singleton.mp newSecond]
  · intro first isFirst second isSecond same different firstHeirless secondHeirless mail run
      isMail isChair isRun
    have older : ∀ row, hasHeir (store.deliveries ++
        [heirRow (nextDeliveryId store.deliveries) source target revivedFrom]) row = false →
        hasHeir store.deliveries row = false ∧ revivedFrom ≠ some row.id := by
      intro row heirless
      rw [hasHeir_append, Bool.or_eq_false_iff, beq_eq_false_iff_ne] at heirless
      exact heirless
    cases List.mem_append.mp isFirst with
    | inl oldFirst =>
        cases List.mem_append.mp isSecond with
        | inl oldSecond =>
            exact held.chair first oldFirst second oldSecond same different
              (older first firstHeirless).1 (older second secondHeirless).1 mail run isMail
              isChair isRun
        | inr newSecond =>
            rw [List.mem_singleton.mp newSecond] at same
            have settled := chair first oldFirst same (older first firstHeirless).1
              (older first firstHeirless).2 mail run isMail isChair isRun
            refine ⟨settled.uniform, fun outstanding => ?_⟩
            rw [vacant first oldFirst same] at outstanding
            cases outstanding
    | inr newFirst =>
        rw [List.mem_singleton.mp newFirst] at same different isMail ⊢
        cases List.mem_append.mp isSecond with
        | inl oldSecond =>
            have settled := chair second oldSecond same.symm (older second secondHeirless).1
              (older second secondHeirless).2 mail run
              ((mailOf_congr store.mail same.symm).trans isMail) isChair isRun
            exact ⟨settled.uniform, fun _ => settled⟩
        | inr newSecond => exact absurd (List.mem_singleton.mp newSecond).symm different

/-- Another mail's new copy leaves what a source needs as it was. -/
theorem Grantable.append {store : MailStore} {source other : HeirSource} {target place : Text}
    {revivedFrom parent : Option Nat} (grantable : Grantable store source target revivedFrom)
    (apart : other.mail.id ≠ source.mail.id) :
    Grantable { store with deliveries := store.deliveries ++
      [heirRow (nextDeliveryId store.deliveries) other place parent] } source target
      revivedFrom where
  vacant row member sameMail := by
    cases List.mem_append.mp member with
    | inl old => exact grantable.vacant row old sameMail
    | inr new =>
        rw [List.mem_singleton.mp new] at sameMail
        exact absurd sameMail apart
  parent id isParent := by
    obtain ⟨row, member, same⟩ := grantable.parent id isParent
    exact ⟨row, List.mem_append_left _ member, same⟩
  chair row member sameMail heirless unretired := by
    rw [hasHeir_append, Bool.or_eq_false_iff] at heirless
    cases List.mem_append.mp member with
    | inl old => exact grantable.chair row old sameMail heirless.1 unretired
    | inr new =>
        rw [List.mem_singleton.mp new] at sameMail
        exact absurd sameMail apart

theorem OneLiveCopy.appendHeirs {store : MailStore} (held : OneLiveCopy store)
    {target : HeirSource → Text} {parent : HeirSource → Option Nat} {sources : List HeirSource}
    (distinct : (sources.map (·.mail.id)).Nodup)
    (grantable : ∀ source ∈ sources, Grantable store source (target source) (parent source)) :
    OneLiveCopy { store with
      deliveries := store.deliveries ++
        heirRows target parent (nextDeliveryId store.deliveries) sources } := by
  induction sources generalizing store with
  | nil => simpa [heirRows] using held
  | cons source rest ih =>
      rw [List.map_cons, List.nodup_cons] at distinct
      have final := ih (held.append (grantable source List.mem_cons_self)) distinct.2
        (fun other member => (grantable other (List.mem_cons_of_mem source member)).append
          (fun same => distinct.1 (same ▸ List.mem_map_of_mem member)))
      rw [nextDeliveryId_append _ _ rfl, List.append_assoc] at final
      exact final

/-! ## The operations keep the invariant -/

theorem OneLiveCopy.writeRows {store : MailStore} (held : OneLiveCopy store)
    {write : Delivery → Delivery} (inPlace : InPlace write) :
    OneLiveCopy { store with deliveries := store.deliveries.map write } := by
  have written := held.map inPlace KeepsClaim.refl
  rwa [List.map_id'] at written

theorem OneLiveCopy.changeRuns {store : MailStore} (held : OneLiveCopy store)
    {change : Run → Run} (keeps : KeepsClaim change) :
    OneLiveCopy { store with runs := store.runs.map change } := by
  have changed := held.map InPlace.refl keeps
  rwa [List.map_id'] at changed

theorem advanceInner_runs (runs : List Run) (runId : Nat) (target : RunState) :
    ∃ change, KeepsClaim change ∧ (advanceInner runs runId target).1 = runs.map change := by
  have same : ∃ change, KeepsClaim change ∧ runs = runs.map change :=
    ⟨fun run => run, KeepsClaim.refl, (List.map_id' runs).symm⟩
  unfold advanceInner
  split
  next => exact same
  next =>
      dsimp only
      split
      next =>
          refine ⟨_, ⟨fun run => ?_, fun run => ?_, fun run => ?_⟩, rfl⟩
          all_goals split <;> rfl
      next => exact same

theorem KeepsClaim.comp {first second : Run → Run} (isFirst : KeepsClaim first)
    (isSecond : KeepsClaim second) : KeepsClaim (second ∘ first) where
  id run := (isSecond.id _).trans (isFirst.id run)
  program run := (isSecond.program _).trans (isFirst.program run)
  claimedBy run := (isSecond.claimedBy _).trans (isFirst.claimedBy run)

/-- A store whose runs keep their claims and whose rows are written in place,
none of them acked by it. -/
def Quiet (before after : MailStore) : Prop :=
  ∃ change write, KeepsClaim change ∧ InPlace write ∧
    (∀ row, (write row).acked = true → row.acked = true) ∧
    after = { before with
      runs := before.runs.map change, deliveries := before.deliveries.map write }

theorem Quiet.refl (store : MailStore) : Quiet store store :=
  ⟨_, _, KeepsClaim.refl, InPlace.refl, fun _ acked => acked, by simp⟩

theorem Quiet.changeRuns (store : MailStore) {change : Run → Run} (keeps : KeepsClaim change) :
    Quiet store { store with runs := store.runs.map change } :=
  ⟨change, _, keeps, InPlace.refl, fun _ acked => acked, by simp⟩

theorem Quiet.keeps {before after : MailStore} (quiet : Quiet before after)
    (held : OneLiveCopy before) : OneLiveCopy after := by
  obtain ⟨change, write, keeps, inPlace, _, rfl⟩ := quiet
  exact held.map inPlace keeps

theorem cancelUpdate_acked (error : Text) (narrow : Delivery → Bool) (row : Delivery)
    (acked : ((cancelUpdate error narrow).apply row).acked = true) : row.acked = true := by
  cases taken : (cancelUpdate error narrow).takes row with
  | false => rwa [DeliveryUpdate.apply_of_not_takes taken] at acked
  | true =>
      rw [DeliveryUpdate.apply_of_takes taken] at acked
      have rejected : ((cancelUpdate error narrow).set row).rejected = true :=
        beq_self_eq_true _
      rw [(Delivery.acked_terminal acked).2.2] at rejected
      cases rejected

theorem closeClaimed_quiet (store : MailStore) (input : CloseInput) :
    Quiet store (closeClaimed store input).1 := by
  have first : ∃ change, KeepsClaim change ∧
      (if input.viaClosing then advanceInner store.runs input.runId .closing
        else (store.runs, .ok .unknown .closing)).1 = store.runs.map change := by
    cases input.viaClosing with
    | false => exact ⟨_, KeepsClaim.refl, (List.map_id' store.runs).symm⟩
    | true => exact advanceInner_runs store.runs input.runId .closing
  unfold closeClaimed
  generalize (if input.viaClosing then advanceInner store.runs input.runId .closing
    else (store.runs, .ok .unknown .closing)) = closing at first ⊢
  obtain ⟨closing, closingAdvance⟩ := closing
  obtain ⟨change, keeps, isClosing⟩ := first
  dsimp only at isClosing ⊢
  split
  next => exact Quiet.refl store
  next =>
      obtain ⟨final, keepsFinal, isFinal⟩ :=
        advanceInner_runs closing input.runId input.finalState.runState
      split
      next =>
          rw [isClosing]
          exact Quiet.changeRuns store keeps
      next =>
          refine ⟨final ∘ change, (cancelOutstandingUpdate store.mail input.runId).apply,
            keeps.comp keepsFinal, cancelUpdate_inPlace _ _, cancelUpdate_acked _ _, ?_⟩
          rw [isFinal, isClosing, List.map_map]
          rfl

theorem closeRun_quiet (store : MailStore) (input : CloseInput) :
    Quiet store (closeRun store input).1 := by
  unfold closeRun
  split
  next => exact closeClaimed_quiet store input
  next =>
      split
      next => exact Quiet.refl store
      next =>
          split
          next => exact closeClaimed_quiet store input
          next => exact Quiet.refl store

/-! ## A reclaim -/

theorem mem_displacedBy {runs : List Run} {program target who : Text} :
    who ∈ displacedBy runs program target ↔ Claimed runs program who ∧ who ≠ target := by
  simp only [displacedBy, List.mem_eraseDups, List.mem_map, movedClaims, List.mem_filterMap]
  constructor
  · rintro ⟨⟨id, claimant⟩, ⟨run, member, moved⟩, rfl⟩
    split at moved
    next isProgram =>
        rw [Option.bind_eq_some_iff] at moved
        obtain ⟨found, isClaimed, moved⟩ := moved
        split at moved
        next => cases moved
        next different =>
            cases moved
            exact ⟨⟨run, member, isProgram, isClaimed⟩, different⟩
    next => cases moved
  · rintro ⟨⟨run, member, isProgram, isClaimed⟩, different⟩
    exact ⟨(run.id, who), ⟨run, member, by simp [isProgram, isClaimed, different]⟩, rfl⟩

section Reclaim

variable (program target : Text) (coordProject : Option Text)

theorem reclaim_id (run : Run) : (run.reclaim program target coordProject).id = run.id := by
  unfold Run.reclaim
  split <;> rfl

theorem reclaim_program (run : Run) :
    (run.reclaim program target coordProject).program = run.program := by
  unfold Run.reclaim
  split <;> rfl

theorem reclaim_state (run : Run) :
    (run.reclaim program target coordProject).state = run.state := by
  unfold Run.reclaim
  split <;> rfl

theorem reclaim_other {run : Run} (other : run.program ≠ program) :
    run.reclaim program target coordProject = run := by
  simp [Run.reclaim, other]

/-- A reclaim hands every claim of the program to the new claimant. -/
theorem claimed_reclaim (runs : List Run) (who : Text) :
    Claimed (runs.map (·.reclaim program target coordProject)) program who ↔
      who = target ∧ ∃ former, Claimed runs program former := by
  constructor
  · rintro ⟨run, member, isProgram, isWho⟩
    obtain ⟨former, among, rfl⟩ := List.mem_map.mp member
    rw [reclaim_program] at isProgram
    cases isClaimed : former.claimedBy with
    | none => simp [Run.reclaim, isClaimed] at isWho
    | some claimant =>
        refine ⟨?_, claimant, former, among, isProgram, isClaimed⟩
        simpa [Run.reclaim, isProgram, isClaimed, eq_comm] using isWho
  · rintro ⟨rfl, claimant, former, among, isProgram, isClaimed⟩
    exact ⟨_, List.mem_map_of_mem among, by rw [reclaim_program, isProgram],
      by simp [Run.reclaim, isProgram, isClaimed]⟩

end Reclaim

/-! ## The chair follows a reclaim -/

section Repoint

variable {mail : List Mail} {runs : List Run} {program target : Text} {displaced : List Text}

theorem repoint_columns (row : Delivery) :
    ((repointUpdate mail runs program target displaced).apply row).state = row.state ∧
      ((repointUpdate mail runs program target displaced).apply row).lastError = row.lastError ∧
      (row.outstanding = false →
        (repointUpdate mail runs program target displaced).apply row = row) := by
  cases taken : (repointUpdate mail runs program target displaced).takes row with
  | false =>
      rw [DeliveryUpdate.apply_of_not_takes taken]
      exact ⟨rfl, rfl, fun _ => rfl⟩
  | true =>
      rw [DeliveryUpdate.apply_of_takes taken]
      have outstanding : row.outstanding = true := DeliveryUpdate.takes_guard taken
      refine ⟨rfl, rfl, fun refused => ?_⟩
      rw [outstanding] at refused
      cases refused

theorem repoint_takes {row : Delivery} {found : Mail} {run : Run}
    (outstanding : row.outstanding = true) (isDisplaced : row.toId ∈ displaced)
    (isMail : mailOf mail row = some found) (isChair : found.toId = coordinatorRole)
    (isRun : runOf runs found = some run) (isProgram : run.program = program) :
    ((repointUpdate mail runs program target displaced).apply row).toId = target := by
  have role : (found.toId == Text.lit "coordinator") = true := beq_iff_eq.mpr isChair
  have taken : (repointUpdate mail runs program target displaced).takes row = true := by
    simp [DeliveryUpdate.takes, repointUpdate, DeliveryGuard.admits, outstanding, isDisplaced,
      isMail, role, isRun, isProgram]
  rw [DeliveryUpdate.apply_of_takes taken]
  rfl

theorem repoint_toId (row : Delivery) :
    ((repointUpdate mail runs program target displaced).apply row).toId = row.toId ∨
      ((repointUpdate mail runs program target displaced).apply row).toId = target := by
  unfold DeliveryUpdate.apply
  split
  next => exact Or.inr rfl
  next => exact Or.inl rfl

end Repoint

/-- Once a program's claims are handed over and the chair's outstanding mail has
followed them, every mail of the chair is settled at the new claimant. -/
theorem OneLiveCopy.reclaim {store : MailStore} (held : OneLiveCopy store)
    (program target : Text) (coordProject : Option Text) :
    OneLiveCopy { store with
      runs := store.runs.map (·.reclaim program target coordProject)
      deliveries := store.deliveries.map (repointUpdate store.mail
        (store.runs.map (·.reclaim program target coordProject)) program target
        (displacedBy store.runs program target)).apply } := by
  have state : ∀ row, ((repointUpdate store.mail
      (store.runs.map (·.reclaim program target coordProject)) program target
      (displacedBy store.runs program target)).apply row).state = row.state :=
    fun row => (repoint_columns row).1
  generalize isUpdate : repointUpdate store.mail
    (store.runs.map (·.reclaim program target coordProject)) program target
    (displacedBy store.runs program target) = update at state ⊢
  have outstanding : ∀ row, (update.apply row).outstanding = row.outstanding :=
    fun row => by simp [Delivery.outstanding, state]
  have known : ∀ row, (update.apply row).known = row.known :=
    fun row => by simp [Delivery.known, Delivery.outstanding, Delivery.terminal, state]
  constructor
  · rw [List.pairwise_map]
    exact held.ids.imp fun less => by rwa [update.apply_id, update.apply_id]
  · intro row member parent isParent
    obtain ⟨former, among, rfl⟩ := List.mem_map.mp member
    rw [nextDeliveryId_map update.apply_id]
    exact held.parents former among parent ((update.apply_revivedFrom former) ▸ isParent)
  · intro row member
    obtain ⟨former, among, rfl⟩ := List.mem_map.mp member
    rw [known]
    exact held.known former among
  · intro row member live
    obtain ⟨former, among, rfl⟩ := List.mem_map.mp member
    rw [hasHeir_map update.apply_id update.apply_revivedFrom]
    exact held.heirless former among ((outstanding former) ▸ live)
  · intro first isFirst second isSecond same live other
    obtain ⟨one, oneAmong, rfl⟩ := List.mem_map.mp isFirst
    obtain ⟨two, twoAmong, rfl⟩ := List.mem_map.mp isSecond
    rw [update.apply_mailId, update.apply_mailId] at same
    rw [outstanding] at live other
    rw [held.single one oneAmong two twoAmong same live other]
  · intro first isFirst second isSecond same different firstHeirless secondHeirless mail run
      isMail isChair isRun
    obtain ⟨one, oneAmong, rfl⟩ := List.mem_map.mp isFirst
    obtain ⟨two, twoAmong, rfl⟩ := List.mem_map.mp isSecond
    rw [update.apply_mailId, update.apply_mailId] at same
    rw [hasHeir_map update.apply_id update.apply_revivedFrom] at firstHeirless secondHeirless
    rw [mailOf_congr store.mail (update.apply_mailId one)] at isMail
    have claimedRun := isRun
    rw [runOf_map (reclaim_id program target coordProject), Option.map_eq_some_iff] at isRun
    obtain ⟨former, wasRun, rfl⟩ := isRun
    rw [reclaim_program, outstanding]
    obtain ⟨uniform, settled⟩ := held.chair one oneAmong two twoAmong same
      (fun equal => different (congrArg update.apply equal)) firstHeirless secondHeirless mail
      former isMail isChair wasRun
    by_cases isProgram : former.program = program
    · rw [isProgram] at settled ⊢
      refine ⟨fun x y isX isY => ?_, fun live who isClaimed => ?_⟩
      · rw [((claimed_reclaim program target coordProject store.runs x).mp isX).1,
          ((claimed_reclaim program target coordProject store.runs y).mp isY).1]
      · obtain ⟨rfl, claimant, wasClaimed⟩ :=
          (claimed_reclaim program target coordProject store.runs who).mp isClaimed
        have isHolder : claimant = one.toId := settled live claimant wasClaimed
        by_cases already : one.toId = who
        · subst isUpdate
          cases repoint_toId one with
          | inl kept => rw [kept, already]
          | inr moved => exact moved.symm
        · subst isUpdate
          refine (repoint_takes live ?_ isMail isChair claimedRun ?_).symm
          · exact mem_displacedBy.mpr ⟨isHolder ▸ wasClaimed, already⟩
          · rw [reclaim_program, isProgram]
    · have sameClaims : ∀ who, Claimed (store.runs.map (·.reclaim program target coordProject))
          former.program who ↔ Claimed store.runs former.program who :=
        claimed_map (reclaim_program program target coordProject)
          (fun run same => by
            rw [reclaim_other program target coordProject (same ▸ isProgram)])
          store.runs
      have untaken : update.apply one = one := by
        apply DeliveryUpdate.apply_of_not_takes
        subst isUpdate
        simp [DeliveryUpdate.takes, repointUpdate, isMail, claimedRun, reclaim_program, isProgram]
      rw [untaken]
      refine ⟨fun x y isX isY => ?_, fun live who isClaimed => ?_⟩
      · exact uniform x y ((sameClaims x).mp isX) ((sameClaims y).mp isY)
      · exact settled live who ((sameClaims who).mp isClaimed)

/-! ## What a selection selects -/

/-- A joined row of the store's own tables. -/
structure Joined (store : MailStore) (source : HeirSource) : Prop where
  member : source.delivery ∈ store.deliveries
  mail : mailOf store.mail source.delivery = some source.mail
  run : runOf store.runs source.mail = some source.run

theorem Joined.mailId {store : MailStore} {source : HeirSource} (joined : Joined store source) :
    source.delivery.mailId = source.mail.id := (mailOf_id joined.mail).symm

/-- Every row of a joined row's mail is joined to the same mail. -/
theorem Joined.mailOf_copy {store : MailStore} {source : HeirSource}
    (joined : Joined store source) {row : Delivery} (same : row.mailId = source.mail.id) :
    mailOf store.mail row = some source.mail :=
  (mailOf_congr store.mail (same.trans joined.mailId.symm)).trans joined.mail

theorem mem_joined {store : MailStore} {source : HeirSource} :
    source ∈ store.deliveries.filterMap (heirSource store) ↔ Joined store source := by
  rw [List.mem_filterMap]
  constructor
  · rintro ⟨row, member, isSource⟩
    obtain ⟨rfl, isMail, isRun⟩ := heirSource_some.mp isSource
    exact ⟨member, isMail, isRun⟩
  · rintro ⟨member, isMail, isRun⟩
    exact ⟨source.delivery, member, heirSource_some.mpr ⟨rfl, isMail, isRun⟩⟩

/-- The clauses of the re-queue's selection. -/
structure Requeued (store : MailStore) (role : RequeueRole) (target : Text)
    (displaced : List Text) (source : HeirSource) : Prop where
  joined : Joined store source
  isSource : role.source store.deliveries source = true
  isDisplaced : source.delivery.toId ∈ displaced
  isRole : source.mail.toId = role.text
  isScope : role.scope source = true
  absent : outstandingAt store.deliveries source.mail.id target = false

theorem mem_requeueSources {store : MailStore} {role : RequeueRole} {target : Text}
    {displaced : List Text} {source : HeirSource}
    (member : source ∈ requeueSources store role target displaced) :
    Requeued store role target displaced source := by
  have selected := (firstBy_sublist [] _).subset member
  rw [List.mem_filter, mem_joined] at selected
  obtain ⟨joined, clauses⟩ := selected
  simp only [Bool.and_eq_true, List.contains_iff_mem, beq_iff_eq, Bool.not_eq_true'] at clauses
  obtain ⟨⟨⟨⟨isSource, isDisplaced⟩, isRole⟩, isScope⟩, isAbsent⟩ := clauses
  exact ⟨joined, isSource, isDisplaced, isRole, isScope, isAbsent⟩

theorem Requeued.covered {store : MailStore} {role : RequeueRole} {target : Text}
    {displaced : List Text} {source : HeirSource}
    (selected : Requeued store role target displaced source) :
    ∃ first ∈ requeueSources store role target displaced,
      first.mail.id = source.mail.id := by
  refine firstBy_covers _ (List.mem_filter.mpr ⟨mem_joined.mpr selected.joined, ?_⟩)
    List.not_mem_nil
  simp [selected.isSource, selected.isDisplaced, selected.isRole, selected.isScope,
    selected.absent]

theorem abandonedPark_clauses {rows : List Delivery} {source : HeirSource}
    (abandoned : abandonedPark rows source = true) :
    source.delivery.rejected = true ∧ hasHeir rows source.delivery = false := by
  simp only [abandonedPark, Bool.and_eq_true, Bool.not_eq_true'] at abandoned
  exact ⟨abandoned.1.1.1, abandoned.2⟩

/-- The chair's abandoned mail, where the program has just settled at the heir:
an outstanding copy would lie with the heir, and the selection found none. -/
theorem Requeued.grantable {store : MailStore} (held : OneLiveCopy store)
    {program target : Text} {displaced : List Text} {source : HeirSource}
    (settled : SettledAt store.runs program target)
    (claimed : Claimed store.runs program target)
    (selected : Requeued store (.coordinator program) target displaced source) :
    Grantable store source target none := by
  obtain ⟨joined, isSource, _, isChair, isProgram, isAbsent⟩ := selected
  have inProgram : source.run.program = program := beq_iff_eq.mp isProgram
  obtain ⟨rejected, heirless⟩ := abandonedPark_clauses isSource
  constructor
  · intro row member sameMail
    cases live : row.outstanding with
    | false => rfl
    | true =>
        have different : row ≠ source.delivery := by
          rintro rfl
          rw [(Delivery.not_terminal_of_outstanding live).2] at rejected
          cases rejected
        obtain ⟨_, holder⟩ := held.chair row member source.delivery joined.member
          (sameMail.trans joined.mailId.symm) different (held.heirless row member live) heirless
          source.mail source.run (joined.mailOf_copy sameMail) isChair joined.run
        have there : target = row.toId := holder live target (inProgram ▸ claimed)
        have present : outstandingAt store.deliveries source.mail.id target = true := by
          rw [outstandingAt, List.any_eq_true]
          exact ⟨row, member, by simp [sameMail, there, live]⟩
        rw [present] at isAbsent
        cases isAbsent
  · intro id isParent
    cases isParent
  · intro row member sameMail _ _ mail run isMail _ isRun
    cases (joined.mailOf_copy sameMail).symm.trans isMail
    cases joined.run.symm.trans isRun
    exact inProgram ▸ settled

/-- A revive asks that every copy is rejected, and that a chair's park lies with
the run's claimant. -/
theorem revives_grantable {store : MailStore} (held : OneLiveCopy store)
    {liveIds : List Text} {source : HeirSource} (joined : Joined store source)
    (selected : revives store.deliveries liveIds source = true) :
    Grantable store source source.delivery.toId (some source.delivery.id) := by
  simp only [revives, Bool.and_eq_true] at selected
  obtain ⟨⟨⟨⟨⟨⟨⟨⟨⟨abandoned, _⟩, _⟩, _⟩, _⟩, _⟩, isChair⟩, _⟩, allRejected⟩, _⟩ := selected
  obtain ⟨_, heirless⟩ := abandonedPark_clauses abandoned
  constructor
  · intro row member sameMail
    cases live : row.outstanding with
    | false => rfl
    | true =>
        have refused := (Delivery.not_terminal_of_outstanding live).2
        have copied : store.deliveries.any (fun copy =>
            copy.mailId == source.mail.id && !copy.rejected) = true := by
          rw [List.any_eq_true]
          exact ⟨row, member, by simp [sameMail, refused]⟩
        rw [copied] at allRejected
        cases allRejected
  · intro id isParent
    cases isParent
    exact ⟨source.delivery, joined.member, rfl, joined.mailId⟩
  · intro row member sameMail rowHeirless unretired mail run isMail isRole isRun who isClaimed
    have different : source.delivery ≠ row := fun same => unretired (congrArg (some ·.id) same)
    obtain ⟨uniform, _⟩ := held.chair source.delivery joined.member row member
      (joined.mailId.trans sameMail.symm) different heirless rowHeirless mail run
      ((mailOf_congr store.mail (joined.mailId.trans sameMail.symm)).trans isMail) isRole isRun
    cases (joined.mailOf_copy sameMail).symm.trans isMail
    cases joined.run.symm.trans isRun
    have holder : source.run.claimedBy = some source.delivery.toId := by
      have role : source.mail.toId = Text.lit "coordinator" := isRole
      simpa [role] using isChair
    exact uniform who _ isClaimed ⟨source.run, runOf_mem joined.run, rfl, holder⟩

/-! ## The stores the operations leave -/

/-- The heirs a re-queue appends to a store's rows. -/
def requeueHeirs (store : MailStore) (sources : List HeirSource) (target : Text) :
    List Delivery :=
  heirRows (fun _ => target) (fun _ => none) (nextDeliveryId store.deliveries) sources

theorem requeueAbandonedMail_coordinator (store : MailStore) (program target : Text)
    (displaced : List Text) :
    ∃ reissued, requeueAbandonedMail store (.coordinator program) target displaced =
      some (store.deliveries ++ requeueHeirs store
        (requeueSources store (.coordinator program) target displaced) target, reissued) := by
  obtain ⟨ids, queued⟩ := queueHeirs_eq (fun _ => target) (fun _ => none) store.deliveries
    (requeueSources store (.coordinator program) target displaced)
  rw [requeueAbandonedMail, queued]
  exact ⟨_, rfl⟩

/-- The store of a reclaim as its re-queue reads it: claims handed over, kickoffs
cancelled, outstanding mail of the chair moved. -/
def reclaimed (store : MailStore) (program target : Text) (coordProject : Option Text) :
    MailStore :=
  let displaced := displacedBy store.runs program target
  let runs := store.runs.map (·.reclaim program target coordProject)
  { store with
    runs
    deliveries := (store.deliveries.map (cancelKickoffsUpdate store.mail displaced).apply).map
      (repointUpdate store.mail runs program target displaced).apply }

def reclaimSources (store : MailStore) (program target : Text) (coordProject : Option Text) :
    List HeirSource :=
  requeueSources (reclaimed store program target coordProject) (.coordinator program) target
    (displacedBy store.runs program target)

private theorem map_apply_of_none {update : DeliveryUpdate} (rows : List Delivery)
    (refused : ∀ row, update.narrow row = false) : rows.map update.apply = rows := by
  refine (List.map_congr_left fun row _ => ?_).trans (List.map_id' rows)
  apply DeliveryUpdate.apply_of_not_takes
  rw [DeliveryUpdate.takes, refused, Bool.and_false]

/-- A reclaim that is not refused never throws. -/
theorem reclaimProgram_store {store : MailStore} {runId : Nat} {run : Run} {claimant : Text}
    (found : store.runs.find? (·.id == runId) = some run)
    (claimed : run.claimedBy = some claimant) (target : Text) (coordProject : Option Text) :
    mailStep store (.reclaimProgram runId target coordProject) =
      { reclaimed store run.program target coordProject with
        deliveries := (reclaimed store run.program target coordProject).deliveries ++
          requeueHeirs (reclaimed store run.program target coordProject)
            (reclaimSources store run.program target coordProject) target } := by
  simp only [mailStep, reclaimProgram, found, claimed]
  by_cases none : displacedBy store.runs run.program target = []
  · have unmoved : (reclaimed store run.program target coordProject).deliveries =
        store.deliveries := by
      rw [reclaimed, none]
      exact (map_apply_of_none _ fun _ => rfl).trans (map_apply_of_none _ fun _ => rfl)
    have unselected : reclaimSources store run.program target coordProject = [] := by
      rw [List.eq_nil_iff_forall_not_mem]
      intro source member
      have displaced := (mem_requeueSources member).isDisplaced
      rw [none] at displaced
      cases displaced
    rw [if_pos none, unselected, requeueHeirs, heirRows, List.append_nil, unmoved]
    rfl
  · obtain ⟨reissued, queued⟩ := requeueAbandonedMail_coordinator
      (reclaimed store run.program target coordProject) run.program target
      (displacedBy store.runs run.program target)
    rw [if_neg none]
    simp only [reclaimMail, cancelKickoffsTo, repointCoordinatorMail, writeBulk, writeDeliveries]
    have same : requeueAbandonedMail
        { store with
          runs := store.runs.map (·.reclaim run.program target coordProject)
          deliveries := (store.deliveries.map (cancelKickoffsUpdate store.mail
            (displacedBy store.runs run.program target)).apply).map
            (repointUpdate store.mail (store.runs.map (·.reclaim run.program target coordProject))
              run.program target (displacedBy store.runs run.program target)).apply }
        (.coordinator run.program) target (displacedBy store.runs run.program target) = _ := queued
    simp only [same]
    rfl

theorem reclaimed_held {store : MailStore} (held : OneLiveCopy store) (program target : Text)
    (coordProject : Option Text) :
    OneLiveCopy (reclaimed store program target coordProject) :=
  (held.writeRows (cancelUpdate_inPlace mailReclaimCancelledError _)).reclaim program target
    coordProject

/-- A reclaim is refused where its run is unknown or unclaimed, and writes nothing. -/
theorem reclaimStep_cases (store : MailStore) (runId : Nat) (target : Text)
    (coordProject : Option Text) :
    mailStep store (.reclaimProgram runId target coordProject) = store ∨
      ∃ run claimant, store.runs.find? (·.id == runId) = some run ∧
        run.claimedBy = some claimant := by
  cases found : store.runs.find? (·.id == runId) with
  | none =>
      left
      simp only [mailStep, reclaimProgram, found, Option.map_some, Option.getD_some]
  | some run =>
      cases claimed : run.claimedBy with
      | none =>
          left
          simp only [mailStep, reclaimProgram, found, claimed, Option.map_some,
            Option.getD_some]
      | some claimant => exact Or.inr ⟨run, claimant, rfl, claimed⟩

theorem OneLiveCopy.reclaimStep {store : MailStore} (held : OneLiveCopy store) (runId : Nat)
    (target : Text) (coordProject : Option Text) :
    OneLiveCopy (mailStep store (.reclaimProgram runId target coordProject)) := by
  rcases reclaimStep_cases store runId target coordProject with
    refused | ⟨run, claimant, found, claimed⟩
  · rwa [refused]
  · rw [reclaimProgram_store found claimed]
    have claim : Claimed store.runs run.program claimant :=
      ⟨run, List.mem_of_find?_eq_some found, rfl, claimed⟩
    have handed := claimed_reclaim run.program target coordProject store.runs
    refine (reclaimed_held held run.program target coordProject).appendHeirs
      (firstBy_nodup _ [] _) fun source member => ?_
    refine (mem_requeueSources member).grantable (reclaimed_held held _ _ _) ?_ ?_
    · exact fun other isClaimed => ((handed other).mp isClaimed).1
    · exact (handed target).mpr ⟨rfl, claimant, claim⟩

/-- The mails of a rebind, parked at the predecessor. -/
theorem requeueAbandonedMail_worker (store : MailStore) (runId : Nat)
    {sessionId predecessor : Text} (different : predecessor ≠ sessionId) :
    ∃ reissued, requeueAbandonedMail store (.worker runId) sessionId [predecessor] =
      some (store.deliveries.map (parkSupersededUpdate [predecessor]
          ((requeueSources store (.worker runId) sessionId [predecessor]).map
            (·.mail.id))).apply ++
        requeueHeirs store (requeueSources store (.worker runId) sessionId [predecessor])
          sessionId, reissued) := by
  obtain ⟨ids, queued⟩ := queueHeirs_eq (fun _ => sessionId) (fun _ => none) store.deliveries
    (requeueSources store (.worker runId) sessionId [predecessor])
  refine ⟨(requeueSources store (.worker runId) sessionId [predecessor]).length, ?_⟩
  rw [requeueAbandonedMail, queued]
  simp only [Option.bind_eq_bind, Option.bind_some, Option.pure_def]
  generalize requeueSources store (.worker runId) sessionId [predecessor] = sources
  congr 2
  split
  next none =>
      rw [none, map_apply_of_none]
      · rfl
      · intro row
        simp [parkSupersededUpdate, cancelUpdate]
  next =>
      simp only [parkSupersededDeliveries, writeBulk, writeDeliveries, List.map_append]
      congr 1
      refine (List.map_congr_left fun row member => ?_).trans (List.map_id' _)
      obtain ⟨id, source, _, rfl⟩ := mem_heirRows member
      apply DeliveryUpdate.apply_of_not_takes
      simp [DeliveryUpdate.takes, parkSupersededUpdate, cancelUpdate, heirRow, different.symm]

/-- A run's binding. -/
def Run.bind (runId : Nat) (sessionId : Text) (run : Run) : Run :=
  if run.id = runId then { run with sessionId := some sessionId } else run

theorem bind_keepsClaim (runId : Nat) (sessionId : Text) :
    KeepsClaim (Run.bind runId sessionId) where
  id run := by unfold Run.bind; split <;> rfl
  program run := by unfold Run.bind; split <;> rfl
  claimedBy run := by unfold Run.bind; split <;> rfl

/-- The store of a bind, as its re-queue reads it. -/
def bound (store : MailStore) (runId : Nat) (sessionId : Text) : MailStore :=
  { store with runs := store.runs.map (Run.bind runId sessionId) }

/-- The store of a rebind once the predecessor's rows are parked. -/
def rebound (store : MailStore) (runId : Nat) (sessionId predecessor : Text) : MailStore :=
  let sources := requeueSources (bound store runId sessionId) (.worker runId) sessionId
    [predecessor]
  { bound store runId sessionId with
    deliveries := store.deliveries.map
      (parkSupersededUpdate [predecessor] (sources.map (·.mail.id))).apply }

theorem bindStep_cases (store : MailStore) (runId : Nat) (sessionId : Text) :
    mailStep store (.bindSession runId sessionId) = bound store runId sessionId ∨
      ∃ predecessor, predecessor ≠ sessionId ∧
        mailStep store (.bindSession runId sessionId) =
          { rebound store runId sessionId predecessor with
            deliveries := (rebound store runId sessionId predecessor).deliveries ++
              requeueHeirs (rebound store runId sessionId predecessor)
                (requeueSources (bound store runId sessionId) (.worker runId) sessionId
                  [predecessor]) sessionId } := by
  cases former : (store.runs.find? (·.id == runId)).bind (·.sessionId) with
  | none =>
      left
      simp only [mailStep, bindSession, former]
      rfl
  | some predecessor =>
      by_cases same : predecessor = sessionId
      · left
        simp only [mailStep, bindSession, former, if_pos same]
        rfl
      · refine Or.inr ⟨predecessor, same, ?_⟩
        obtain ⟨reissued, requeued⟩ := requeueAbandonedMail_worker (bound store runId sessionId)
          runId same
        simp only [mailStep, bindSession, former, if_neg same]
        have isBound : { store with
            runs := store.runs.map fun run =>
              if run.id = runId then { run with sessionId := some sessionId } else run } =
            bound store runId sessionId := rfl
        rw [isBound, requeued]
        simp only [requeueHeirs, rebound]
        rw [nextDeliveryId_map (DeliveryUpdate.apply_id _)]
        rfl

theorem parkSuperseded_inPlace (displaced : List Text) (mailIds : List Nat) :
    InPlace (parkSupersededUpdate displaced mailIds).apply :=
  cancelUpdate_inPlace _ _

/-- After the park no copy of a re-issued mail is outstanding. -/
theorem rebound_grantable {store : MailStore} (held : OneLiveCopy store) (runId : Nat)
    (sessionId predecessor : Text) {source : HeirSource}
    (member : source ∈ requeueSources (bound store runId sessionId) (.worker runId) sessionId
      [predecessor]) :
    Grantable (rebound store runId sessionId predecessor) source sessionId none := by
  have parked : source.mail.id ∈ (requeueSources (bound store runId sessionId)
      (.worker runId) sessionId [predecessor]).map (·.mail.id) := List.mem_map_of_mem member
  obtain ⟨joined, isSource, isPredecessor, isWorker, _, _⟩ := mem_requeueSources member
  have live : source.delivery.outstanding = true := isSource
  constructor
  · intro row isRow sameMail
    obtain ⟨former, among, rfl⟩ := List.mem_map.mp isRow
    generalize isUpdate : parkSupersededUpdate [predecessor] _ = update at sameMail ⊢
    rw [update.apply_mailId] at sameMail
    cases taken : update.takes former with
    | true =>
        rw [DeliveryUpdate.apply_of_takes taken]
        subst isUpdate
        exact (Delivery.rejected_terminal (beq_self_eq_true _)).2
    | false =>
        rw [DeliveryUpdate.apply_of_not_takes taken]
        cases outstanding : former.outstanding with
        | false => rfl
        | true =>
            have same := held.single former among source.delivery joined.member
              (sameMail.trans joined.mailId.symm) outstanding live
            subst isUpdate
            rw [same] at taken
            have takes : (parkSupersededUpdate [predecessor]
                ((requeueSources (bound store runId sessionId) (.worker runId) sessionId
                  [predecessor]).map (·.mail.id))).takes source.delivery = true := by
              simp only [DeliveryUpdate.takes, parkSupersededUpdate, cancelUpdate,
                DeliveryGuard.admits, live, Bool.true_and, Bool.and_eq_true,
                List.contains_iff_mem]
              exact ⟨isPredecessor, joined.mailId ▸ parked⟩
            rw [takes] at taken
            cases taken
  · intro id isParent
    cases isParent
  · intro row isRow sameMail _ _ mail run isMail isChair _
    have isSame := (joined.mailOf_copy sameMail).symm.trans isMail
    cases isSame
    have apart : Text.lit "worker" ≠ coordinatorRole := by decide +kernel
    exact absurd (isWorker.symm.trans isChair) apart

theorem OneLiveCopy.bindStep {store : MailStore} (held : OneLiveCopy store) (runId : Nat)
    (sessionId : Text) : OneLiveCopy (mailStep store (.bindSession runId sessionId)) := by
  have isBound := held.changeRuns (bind_keepsClaim runId sessionId)
  rcases bindStep_cases store runId sessionId with first | ⟨predecessor, _, rebinds⟩
  · rw [first]
    exact isBound
  · rw [rebinds]
    have parked := isBound.writeRows (parkSuperseded_inPlace [predecessor]
      ((requeueSources (bound store runId sessionId) (.worker runId) sessionId
        [predecessor]).map (·.mail.id)))
    have isRebound : OneLiveCopy (rebound store runId sessionId predecessor) := parked
    exact isRebound.appendHeirs (firstBy_nodup _ [] _) fun source member =>
      rebound_grantable held runId sessionId predecessor member

/-- The parks a revive brings back, one for each mail. -/
def reviveSources (store : MailStore) (liveIds : List Text) : List HeirSource :=
  firstPerMail
    ((store.deliveries.filterMap (heirSource store)).filter (revives store.deliveries liveIds))

theorem reviveStep_cases (store : MailStore) (liveIds : List Text) :
    mailStep store (.reviveParkedDeliveries liveIds) = store ∨
      mailStep store (.reviveParkedDeliveries liveIds) =
        { store with
          deliveries := store.deliveries ++
            heirRows (·.delivery.toId) (fun source => some source.delivery.id)
              (nextDeliveryId store.deliveries) (reviveSources store liveIds) } := by
  by_cases none : liveIds = []
  · left
    simp only [mailStep, reviveParkedDeliveries, if_pos none, Option.map_some, Option.getD_some]
  · right
    obtain ⟨ids, queued⟩ := queueHeirs_eq (·.delivery.toId)
      (fun source => some source.delivery.id) store.deliveries (reviveSources store liveIds)
    simp only [mailStep, reviveParkedDeliveries, if_neg none]
    rw [reviveSources] at queued
    rw [queued]
    rfl

theorem mem_reviveSources {store : MailStore} {liveIds : List Text} {source : HeirSource}
    (member : source ∈ reviveSources store liveIds) :
    Joined store source ∧ revives store.deliveries liveIds source = true := by
  have selected := (firstBy_sublist [] _).subset member
  rw [List.mem_filter, mem_joined] at selected
  exact selected

theorem OneLiveCopy.reviveStep {store : MailStore} (held : OneLiveCopy store)
    (liveIds : List Text) :
    OneLiveCopy (mailStep store (.reviveParkedDeliveries liveIds)) := by
  cases reviveStep_cases store liveIds with
  | inl none => rwa [none]
  | inr revived =>
      rw [revived]
      refine held.appendHeirs (firstBy_nodup _ [] _) fun source member => ?_
      obtain ⟨joined, selected⟩ := mem_reviveSources member
      exact revives_grantable held joined selected

/-- The UPDATE of a write step. -/
theorem writeStep_update (store : MailStore)
    (call : { call : DeliveryCall // call.inPlace = true }) :
    ∃ update, call.1.update = some update ∧ InPlace update.apply ∧
      mailStep store (.write call) =
        { store with deliveries := store.deliveries.map update.apply } := by
  obtain ⟨call, inPlace⟩ := call
  cases sends : call.update with
  | none =>
      cases call with
      | queueDelivery => cases inPlace
      | _ => cases sends
  | some update =>
      refine ⟨update, rfl, inPlace_of_call inPlace sends, ?_⟩
      rw [mailStep, runCall_update sends]

theorem OneLiveCopy.step {store : MailStore} (held : OneLiveCopy store) (step : MailStep) :
    OneLiveCopy (mailStep store step) := by
  cases step with
  | write call =>
      obtain ⟨update, _, inPlace, written⟩ := writeStep_update store call
      rw [written]
      exact held.writeRows inPlace
  | advance runId target =>
      obtain ⟨change, keeps, changed⟩ := advanceInner_runs store.runs runId target
      rw [mailStep, changed]
      exact held.changeRuns keeps
  | closeRun input => exact (closeRun_quiet store input).keeps held
  | reclaimProgram runId target coordProject =>
      exact held.reclaimStep runId target coordProject
  | bindSession runId sessionId => exact held.bindStep runId sessionId
  | reviveParkedDeliveries liveIds => exact held.reviveStep liveIds

end Ccrc.Coord
