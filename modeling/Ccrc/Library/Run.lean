import Mathlib

/-! Runs of a deterministic step function over a list of inputs. A run is the
left fold of its inputs, so every law below is one induction over that list,
stated once for all the components that take step after step. -/

set_option autoImplicit false

namespace Ccrc.Library

variable {State Input : Type*}

/-- The state that a run of `inputs` leaves behind. -/
def runFrom (step : State → Input → State) (state : State) (inputs : List Input) : State :=
  inputs.foldl step state

@[simp] theorem runFrom_nil (step : State → Input → State) (state : State) :
    runFrom step state [] = state := rfl

@[simp] theorem runFrom_cons (step : State → Input → State) (state : State)
    (input : Input) (inputs : List Input) :
    runFrom step state (input :: inputs) = runFrom step (step state input) inputs := rfl

theorem runFrom_append (step : State → Input → State) (state : State)
    (before after : List Input) :
    runFrom step state (before ++ after) =
      runFrom step (runFrom step state before) after :=
  List.foldl_append

/-- What every single step preserves, every run preserves. -/
theorem runFrom_invariant {step : State → Input → State} {invariant : State → Prop}
    (preserved : ∀ state input, invariant state → invariant (step state input))
    {state : State} (start : invariant state) (inputs : List Input) :
    invariant (runFrom step state inputs) := by
  induction inputs generalizing state with
  | nil => exact start
  | cons input inputs ih => exact ih (preserved state input start)

/-- A reflexive and transitive relation that holds across every step from a
state of the invariant holds between the two ends of every run. -/
theorem runFrom_relates {step : State → Input → State} {invariant : State → Prop}
    {related : State → State → Prop}
    (refl : ∀ state, related state state)
    (trans : ∀ {first second third}, related first second → related second third →
      related first third)
    (preserved : ∀ state input, invariant state → invariant (step state input))
    (advances : ∀ state input, invariant state → related state (step state input))
    {state : State} (start : invariant state) (inputs : List Input) :
    related state (runFrom step state inputs) := by
  induction inputs generalizing state with
  | nil => exact refl state
  | cons input inputs ih =>
      exact trans (advances state input start) (ih (preserved state input start))

/-- Every step of the run is taken where `allowed` holds of the state before it
and of its input. -/
def Guarded (step : State → Input → State) (allowed : State → Input → Prop) :
    State → List Input → Prop
  | _, [] => True
  | state, input :: inputs =>
      allowed state input ∧ Guarded step allowed (step state input) inputs

@[simp] theorem guarded_nil (step : State → Input → State)
    (allowed : State → Input → Prop) (state : State) :
    Guarded step allowed state [] := trivial

@[simp] theorem guarded_cons {step : State → Input → State}
    {allowed : State → Input → Prop} {state : State} {input : Input}
    {inputs : List Input} :
    Guarded step allowed state (input :: inputs) ↔
      allowed state input ∧ Guarded step allowed (step state input) inputs := Iff.rfl

theorem guarded_append {step : State → Input → State} {allowed : State → Input → Prop}
    {state : State} {before after : List Input} :
    Guarded step allowed state (before ++ after) ↔
      Guarded step allowed state before ∧
        Guarded step allowed (runFrom step state before) after := by
  induction before generalizing state with
  | nil => exact (and_iff_right trivial).symm
  | cons input before ih => rw [List.cons_append, guarded_cons, ih, guarded_cons, and_assoc,
      runFrom_cons]

instance Guarded.decidable (step : State → Input → State)
    (allowed : State → Input → Prop) [∀ state input, Decidable (allowed state input)] :
    (state : State) → (inputs : List Input) →
      Decidable (Guarded step allowed state inputs)
  | _, [] => .isTrue trivial
  | state, input :: inputs =>
      have := Guarded.decidable step allowed (step state input) inputs
      inferInstanceAs (Decidable (_ ∧ _))

/-- The invariant rule for runs whose steps all meet a condition. -/
theorem Guarded.invariant {step : State → Input → State}
    {allowed : State → Input → Prop} {invariant : State → Prop}
    (preserved : ∀ state input, allowed state input → invariant state →
      invariant (step state input))
    {state : State} (start : invariant state) {inputs : List Input}
    (guarded : Guarded step allowed state inputs) :
    invariant (runFrom step state inputs) := by
  induction inputs generalizing state with
  | nil => exact start
  | cons input inputs ih =>
      exact ih (preserved state input guarded.1 start) guarded.2

/-- Where a condition on one step decides whether a good state stays good, the
condition on a whole run decides whether every state it reaches is good. -/
theorem guarded_iff {step : State → Input → State} {allowed : State → Input → Prop}
    {invariant good : State → Prop}
    (preserved : ∀ state input, invariant state → invariant (step state input))
    (decides : ∀ state input, invariant state → good state →
      (allowed state input ↔ good (step state input)))
    {state : State} (start : invariant state) (sound : good state) (inputs : List Input) :
    Guarded step allowed state inputs ↔
      ∀ before after, inputs = before ++ after → good (runFrom step state before) := by
  induction inputs generalizing state with
  | nil =>
      refine ⟨fun _ before after split => ?_, fun _ => trivial⟩
      rw [(List.append_eq_nil_iff.mp split.symm).1]
      exact sound
  | cons input inputs ih =>
      constructor
      · intro guarded before after split
        cases before with
        | nil => exact sound
        | cons first before =>
            obtain ⟨rfl, rest⟩ := List.cons_eq_cons.mp split
            have next := (decides state input start sound).mp guarded.1
            exact (ih (preserved state input start) next).mp guarded.2 before after rest
      · intro reached
        have next := reached [input] inputs rfl
        refine ⟨(decides state input start sound).mpr next, ?_⟩
        refine (ih (preserved state input start) next).mpr fun before after split => ?_
        exact reached (input :: before) after (congrArg (input :: ·) split)

end Ccrc.Library
