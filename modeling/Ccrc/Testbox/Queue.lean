import Ccrc.Library.Text
import Ccrc.Library.Lists

/-! The box's own queue: first come first served across sessions, a session and the
box bounded in what they run at once, and at most one pristine build running. -/

set_option autoImplicit false

namespace Ccrc.Testbox

open Library

inductive QueueKind where
  | run
  | pristine
  deriving DecidableEq, Repr

structure QueueEntry where
  id : Text
  session : Text
  kind : QueueKind
  deriving DecidableEq, Repr

structure QueueState where
  /-- In arrival order. -/
  waiting : List QueueEntry
  running : List QueueEntry
  deriving DecidableEq, Repr

structure QueueLimits where
  runs : Nat
  sessionRuns : Nat
  deriving DecidableEq, Repr

def emptyQueue : QueueState := { waiting := [], running := [] }

namespace QueueState

def known (queue : QueueState) (id : Text) : Bool :=
  queue.waiting.any (fun entry => entry.id = id) || queue.running.any (fun entry => entry.id = id)

def enqueue (queue : QueueState) (entry : QueueEntry) : Option QueueState :=
  if queue.known entry.id then none
  else some { waiting := queue.waiting ++ [entry], running := queue.running }

end QueueState

/-- Whether an entry may start beside `running`. -/
def mayStart (running : List QueueEntry) (entry : QueueEntry) (limits : QueueLimits) : Bool :=
  if limits.runs ≤ running.length then false
  else
    match entry.kind with
    | .pristine => !running.any fun other => other.kind = .pristine
    | .run =>
        (running.filter fun other => other.kind = .run && other.session = entry.session).length <
          limits.sessionRuns

structure Admission where
  state : QueueState
  started : List QueueEntry
  deriving DecidableEq, Repr

/-- The loop of `admit`. -/
def admitEach (limits : QueueLimits) : List QueueEntry → Admission → Admission
  | [], admission => admission
  | entry :: rest, admission =>
      if mayStart admission.state.running entry limits then
        admitEach limits rest
          { state := { admission.state with running := admission.state.running ++ [entry] }
            started := admission.started ++ [entry] }
      else
        admitEach limits rest
          { admission with
            state := { admission.state with waiting := admission.state.waiting ++ [entry] } }

namespace QueueState

/-- `admit`: every waiting entry that may start, in arrival order. -/
def admitWaiting (queue : QueueState) (limits : QueueLimits) : Admission :=
  admitEach limits queue.waiting
    { state := { waiting := [], running := queue.running }, started := [] }

def finish (queue : QueueState) (id : Text) : QueueState :=
  { waiting := queue.waiting, running := queue.running.filter fun entry => entry.id ≠ id }

/-- `cancel`, of an entry that waits. -/
def cancel (queue : QueueState) (id : Text) : QueueState :=
  { waiting := queue.waiting.filter fun entry => entry.id ≠ id, running := queue.running }

/-- Every entry of the queue, waiting or running. -/
def entries (queue : QueueState) : List QueueEntry := queue.waiting ++ queue.running

/-- The running builds of pristine installs. -/
def building (queue : QueueState) : List QueueEntry :=
  queue.running.filter fun entry => entry.kind = .pristine

end QueueState

/-- No id twice, and one build at a time. -/
structure QueueKept (queue : QueueState) : Prop where
  distinct : (queue.entries.map (·.id)).Nodup
  one : queue.building.length ≤ 1

theorem emptyQueue_kept : QueueKept emptyQueue := ⟨List.nodup_nil, Nat.zero_le _⟩

section Enqueue

variable {queue next : QueueState} {entry : QueueEntry}

theorem not_known_iff {id : Text} :
    queue.known id = false ↔ ∀ held ∈ queue.entries, held.id ≠ id := by
  simp only [QueueState.known, QueueState.entries, Bool.or_eq_false_iff, List.any_eq_false,
    decide_eq_true_eq, List.mem_append, or_imp, forall_and, ne_eq]

theorem enqueue_some (queued : queue.enqueue entry = some next) :
    (∀ held ∈ queue.entries, held.id ≠ entry.id) ∧
      next = { waiting := queue.waiting ++ [entry], running := queue.running } := by
  unfold QueueState.enqueue at queued
  split at queued
  · cases queued
  · next fresh =>
      cases queued
      exact ⟨not_known_iff.mp (Bool.eq_false_iff.mpr fresh), rfl⟩

theorem mem_entries_enqueue (queued : queue.enqueue entry = some next) {held : QueueEntry} :
    held ∈ next.entries ↔ held ∈ queue.entries ∨ held = entry := by
  obtain ⟨_, rfl⟩ := enqueue_some queued
  simp only [QueueState.entries, List.mem_append, List.mem_singleton]
  tauto

theorem QueueKept.enqueue (kept : QueueKept queue) (queued : queue.enqueue entry = some next) :
    QueueKept next := by
  obtain ⟨fresh, rfl⟩ := enqueue_some queued
  refine ⟨?_, kept.one⟩
  have moved : (queue.waiting ++ [entry] ++ queue.running).Perm (entry :: queue.entries) := by
    rw [List.append_assoc]
    exact List.perm_middle
  refine ((moved.map (·.id)).nodup_iff).mpr (List.nodup_cons.mpr ⟨?_, kept.distinct⟩)
  intro member
  obtain ⟨held, isHeld, same⟩ := List.mem_map.mp member
  exact fresh held isHeld same

end Enqueue

section Admit

variable {limits : QueueLimits}

/-- What the loop keeps, with the entries it has still to look at. -/
theorem admitEach_spec (left : List QueueEntry) (admission : Admission) :
    (admitEach limits left admission).state.entries.Perm (left ++ admission.state.entries) ∧
      ∃ more, (admitEach limits left admission).state.running = admission.state.running ++ more ∧
        (admitEach limits left admission).started = admission.started ++ more := by
  induction left generalizing admission with
  | nil => exact ⟨List.Perm.refl _, [], by simp [admitEach]⟩
  | cons entry rest ih =>
      unfold admitEach
      split
      · obtain ⟨moved, more, running, started⟩ := ih
          { state := { admission.state with running := admission.state.running ++ [entry] }
            started := admission.started ++ [entry] }
        refine ⟨moved.trans ?_, entry :: more, by simpa using running, by simpa using started⟩
        simp only [QueueState.entries, ← List.append_assoc]
        exact List.perm_append_singleton _ _
      · obtain ⟨moved, more, running, started⟩ := ih { admission with
            state := { admission.state with waiting := admission.state.waiting ++ [entry] } }
        refine ⟨moved.trans ?_, more, running, started⟩
        simp only [QueueState.entries, List.append_assoc, List.singleton_append]
        rw [← List.append_assoc rest, List.cons_append, ← List.append_assoc rest]
        exact List.perm_middle

theorem mayStart_building {running : List QueueEntry} {entry : QueueEntry}
    (starts : mayStart running entry limits = true) (build : entry.kind = .pristine) :
    running.filter (fun other => other.kind = .pristine) = [] := by
  unfold mayStart at starts
  split at starts
  · cases starts
  · simp only [build, Bool.not_eq_true', List.any_eq_false, decide_eq_true_eq] at starts
    exact List.filter_eq_nil_iff.mpr (by simpa using starts)

theorem admitEach_one (left : List QueueEntry) {admission : Admission}
    (one : admission.state.building.length ≤ 1) :
    (admitEach limits left admission).state.building.length ≤ 1 := by
  induction left generalizing admission with
  | nil => exact one
  | cons entry rest ih =>
      unfold admitEach
      split
      · next starts =>
          apply ih
          simp only [QueueState.building, List.filter_append, List.length_append]
          cases kind : entry.kind with
          | run => simpa [kind, QueueState.building] using one
          | pristine => simp [mayStart_building starts kind, kind]
      · exact ih one

variable {queue : QueueState}

theorem admitWaiting_entries : (queue.admitWaiting limits).state.entries.Perm queue.entries := by
  obtain ⟨moved, _⟩ := admitEach_spec queue.waiting
    { state := { waiting := [], running := queue.running }, started := [] }
  exact moved

theorem admitWaiting_running :
    (queue.admitWaiting limits).state.running = queue.running ++ (queue.admitWaiting limits).started := by
  obtain ⟨_, more, running, started⟩ := admitEach_spec queue.waiting
    { state := { waiting := [], running := queue.running }, started := [] }
  rw [QueueState.admitWaiting, running, started, List.nil_append]

theorem QueueKept.admitWaiting (kept : QueueKept queue) : QueueKept (queue.admitWaiting limits).state :=
  ⟨((admitWaiting_entries.map (·.id)).nodup_iff).mpr kept.distinct, admitEach_one _ kept.one⟩

end Admit

section Leave

variable {queue : QueueState} {id : Text}

theorem finish_sublist : (queue.finish id).entries.Sublist queue.entries :=
  List.Sublist.append (List.Sublist.refl _) List.filter_sublist

theorem cancel_sublist : (queue.cancel id).entries.Sublist queue.entries :=
  List.Sublist.append List.filter_sublist (List.Sublist.refl _)

theorem finish_building :
    (queue.finish id).building = queue.building.filter fun entry => entry.id ≠ id := by
  rw [QueueState.building, QueueState.finish, QueueState.building, List.filter_comm]

theorem QueueKept.finish (kept : QueueKept queue) : QueueKept (queue.finish id) := by
  refine ⟨(finish_sublist.map (·.id)).nodup kept.distinct, ?_⟩
  rw [finish_building]
  exact (List.length_filter_le _ _).trans kept.one

theorem QueueKept.cancel (kept : QueueKept queue) : QueueKept (queue.cancel id) :=
  ⟨(cancel_sublist.map (·.id)).nodup kept.distinct, kept.one⟩

/-- Of an id there is one entry. -/
theorem QueueKept.same (kept : QueueKept queue) {first second : QueueEntry}
    (isFirst : first ∈ queue.entries) (isSecond : second ∈ queue.entries)
    (same : first.id = second.id) : first = second :=
  List.inj_on_of_nodup_map kept.distinct isFirst isSecond same

theorem mem_entries_of_building {entry : QueueEntry} (member : entry ∈ queue.building) :
    entry ∈ queue.entries ∧ entry.kind = .pristine := by
  obtain ⟨runs, kind⟩ := List.mem_filter.mp member
  exact ⟨List.mem_append_right _ runs, of_decide_eq_true kind⟩

end Leave

end Ccrc.Testbox
