import Ccrc.CodexBridge.ReducerProperties
import Ccrc.CodexBridge.StreamProperties
import Ccrc.Library.Run

/-! The request's thread and the drain together: whatever their order, the client
gets the start of a script. -/

set_option autoImplicit false

namespace Ccrc.CodexBridge

open Library
open Library.Str (lit)
open AnthropicStream (Aligned)

/-- Events taken from a reducer that stand between the writer and it. -/
def Pending (s : AnthropicStream) (red : Reducer) (events : List BlockEvent) : Prop :=
  red.Sound ∧ red.out = [] ∧ ∃ status, s.Aligned status ∧ Follows status events red.status

/-- What the thread relies on while the stream is open. -/
def ThreadSound (s : AnthropicStream) : Thread → Prop
  | .preparing => s.committed = false ∧ s.base = 0
  | .posting | .waiting => s.Aligned (0, none)
  | .reading red | .checking red _ => Pending s red []
  | .released red events _ => Pending s red events
  | .writing red events _ => Pending s red events ∧ (s.committed = true ∨ events = [])
  | .drained red events _ =>
      Pending s red events ∧ (s.committed = true ∨ events = []) ∧ red.terminal.isSome
  | .concluding red _ _ => Pending s red [] ∧ red.live = none
  | .replying red _ => Pending s red [] ∧ red.live = none ∧ s.committed = true
  | .finishing _ _ => s.opened = none
  | .folding _ _ | .answering => s.buffered = true
  | .failing _ | .ended => True

namespace World

structure Sound (client : Client) (w : World) : Prop where
  writer : w.out.Sound client
  thread : w.out.closed = false → ThreadSound w.out w.thread
  unfinished : w.out.finished = false ∨ w.thread = .ended ∨
    w.out.buffered = true ∧ w.thread ≠ .preparing

variable {client : Client} {w : World}

theorem Sound.running (sound : w.Sound client) (running : w.thread ≠ .ended) :
    w.out.buffered = true ∨ w.out.finished = false := by
  cases sound.unfinished with
  | inl finished => exact .inr finished
  | inr other => exact .inl (other.resolve_left running).1

/-- A step of the thread that makes a call of the writer. -/
theorem Sound.write {out : AnthropicStream} {thread : Thread} {continued outputSum : Nat}
    {last : Usage} (sound : w.Sound client) (running : w.thread ≠ .ended) (left : thread ≠ .preparing)
    (writer : out.Sound client) (buffered : out.buffered = w.out.buffered)
    (finished : out.finished = w.out.finished)
    (next : out.closed = false → ThreadSound out thread) :
    (World.mk out thread continued outputSum last).Sound client := by
  refine ⟨writer, next, ?_⟩
  cases sound.running running with
  | inl buffer => exact .inr (.inr ⟨buffered.trans buffer, left⟩)
  | inr still => exact .inl (finished.trans still)

/-- A step of the thread that leaves the writer as it is. -/
theorem Sound.move {thread : Thread} {continued outputSum : Nat} {last : Usage}
    (sound : w.Sound client) (running : w.thread ≠ .ended)
    (left : thread ≠ .preparing) (next : w.out.closed = false → ThreadSound w.out thread) :
    (World.mk w.out thread continued outputSum last).Sound client :=
  sound.write running left sound.writer rfl rfl next

/-- Nothing was released yet where the stream is not committed. -/
theorem Pending.uncommitted {red : Reducer} {events : List BlockEvent}
    (sound : w.out.Sound client) (pending : Pending w.out red events)
    (uncommitted : w.out.committed = false) (quiet : red.committable = false) : events = [] := by
  obtain ⟨redSound, -, ⟨number, live⟩, aligned, follows⟩ := pending
  obtain ⟨next, opened⟩ := sound.uncommitted uncommitted
  have released : red.releasedAny = false := by
    simp only [Reducer.committable, Bool.or_eq_false_iff] at quiet
    exact quiet.1
  have blocks : red.blocks = 0 := by
    have started := redSound.started
    rw [released] at started
    simpa using started
  have zero : number = 0 := by
    have here := aligned.1
    simp only at here
    omega
  have none : live = none := by
    have here := aligned.2
    rw [opened] at here
    exact Option.map_eq_none_iff.mp here.symm
  subst zero none
  unfold Reducer.status at follows
  rw [blocks] at follows
  exact follows.empty

/-- With nothing pending the writer stands where the reducer does. -/
theorem Pending.aligned {s : AnthropicStream} {red : Reducer} (pending : Pending s red []) :
    s.Aligned red.status := by
  obtain ⟨-, -, status, aligned, follows⟩ := pending
  cases follows
  exact aligned

end World

end Ccrc.CodexBridge
