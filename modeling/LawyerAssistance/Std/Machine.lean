import Mathlib.Data.List.Basic

/-!
# Labelled machines

A machine advances by one labelled event at a time; the label carries every
choice which the environment makes, so a step is a partial function and a run
is a list of labels. `Machine.run_invariant` and `Machine.along_of_step` package
the two inductions on runs: a predicate which every step preserves holds at the
end of a run, and a step property which an invariant implies holds at every
step of it.
-/

namespace LawyerAssistance

universe u v

/-- A partial, labelled transition function. A disabled label steps to `none`. -/
structure Machine (σ : Type u) (ι : Type v) where
  step : σ → ι → Option σ

namespace Machine

variable {σ : Type u} {ι : Type v}

/-- Run the labels in order; the run exists only when every label is enabled. -/
def run (machine : Machine σ ι) (state : σ) : List ι → Option σ
  | [] => some state
  | event :: rest => (machine.step state event).bind fun next => run machine next rest

variable (machine : Machine σ ι)

@[simp] theorem run_nil (state : σ) : machine.run state [] = some state := rfl

/-- A nonempty run is its first step followed by the run of the other labels. -/
theorem run_cons_eq_some {state final : σ} {event : ι} {rest : List ι} :
    machine.run state (event :: rest) = some final ↔
      ∃ next, machine.step state event = some next ∧ machine.run next rest = some final := by
  simp [run, Option.bind_eq_some_iff]

/-- Runs compose at the state where the first one ends. -/
theorem run_append_eq_some {state final : σ} {first second : List ι} :
    machine.run state (first ++ second) = some final ↔
      ∃ middle, machine.run state first = some middle ∧
        machine.run middle second = some final := by
  induction first generalizing state with
  | nil => simp
  | cons event rest inductionHypothesis =>
      simp only [List.cons_append, run_cons_eq_some, inductionHypothesis]
      constructor
      · rintro ⟨next, step, middle, before, after⟩
        exact ⟨middle, ⟨next, step, before⟩, after⟩
      · rintro ⟨middle, ⟨next, step, before⟩, after⟩
        exact ⟨next, step, middle, before, after⟩

@[simp] theorem run_singleton (state : σ) (event : ι) :
    machine.run state [event] = machine.step state event := by
  simp [run]

variable {machine}

/-- A predicate which every step preserves holds at the end of every run. -/
theorem run_invariant (invariant : σ → Prop)
    (preserved : ∀ {state event next}, invariant state →
      machine.step state event = some next → invariant next)
    {state final : σ} {events : List ι} (holds : invariant state)
    (runs : machine.run state events = some final) : invariant final := by
  induction events generalizing state with
  | nil =>
      cases runs
      exact holds
  | cons event rest inductionHypothesis =>
      obtain ⟨next, step, runsRest⟩ := machine.run_cons_eq_some.mp runs
      exact inductionHypothesis (preserved holds step) runsRest

/-- A reflexive and transitive relation which every step satisfies, where an
invariant holds, relates the ends of a run. -/
theorem run_relation (invariant : σ → Prop) (relation : σ → σ → Prop)
    (reflexive : ∀ state, relation state state)
    (transitive : ∀ {a b c}, relation a b → relation b c → relation a c)
    (stepped : ∀ {state event next}, invariant state → machine.step state event = some next →
      invariant next ∧ relation state next)
    {state final : σ} {events : List ι} (holds : invariant state)
    (runs : machine.run state events = some final) : relation state final := by
  induction events generalizing state with
  | nil =>
      cases runs
      exact reflexive _
  | cons event rest inductionHypothesis =>
      obtain ⟨next, step, runsRest⟩ := machine.run_cons_eq_some.mp runs
      obtain ⟨holdsNext, related⟩ := stepped holds step
      exact transitive related (inductionHypothesis holdsNext runsRest)

/-- Every step which the labels take from a state satisfies a step property. A
disabled label ends the run, and nothing is asked after it. -/
def Along (machine : Machine σ ι) (property : σ → ι → σ → Prop) : σ → List ι → Prop
  | _, [] => True
  | state, event :: rest => ∀ next, machine.step state event = some next →
      property state event next ∧ Along machine property next rest

/-- A step property which the invariant implies, at the labels of a run, holds at every step. -/
theorem along_of_step_mem {invariant : σ → Prop} {property : σ → ι → σ → Prop} {events : List ι}
    (stepped : ∀ {state event next}, event ∈ events → invariant state →
      machine.step state event = some next → invariant next ∧ property state event next)
    {state : σ} (holds : invariant state) : machine.Along property state events := by
  induction events generalizing state with
  | nil => trivial
  | cons event rest inductionHypothesis =>
      intro next step
      obtain ⟨holdsNext, here⟩ := stepped List.mem_cons_self holds step
      exact ⟨here, inductionHypothesis (fun member => stepped (List.mem_cons_of_mem _ member))
        holdsNext⟩

/-- A step property which the invariant implies holds at every step of a run. -/
theorem along_of_step {invariant : σ → Prop} {property : σ → ι → σ → Prop}
    (stepped : ∀ {state event next}, invariant state → machine.step state event = some next →
      invariant next ∧ property state event next)
    {state : σ} (events : List ι) (holds : invariant state) :
    machine.Along property state events :=
  along_of_step_mem (fun _ => stepped) holds

/-- Two step properties agree along a run when they agree at every step from a state of the
invariant, and the second one keeps the invariant. -/
theorem along_congr {invariant : σ → Prop} {first second : σ → ι → σ → Prop}
    (stepped : ∀ {state event next}, invariant state → machine.step state event = some next →
      (first state event next ↔ second state event next) ∧
        (second state event next → invariant next))
    {state : σ} (events : List ι) (holds : invariant state) :
    machine.Along first state events ↔ machine.Along second state events := by
  induction events generalizing state with
  | nil => exact Iff.rfl
  | cons event rest inductionHypothesis =>
      refine forall_congr' fun next => forall_congr' fun step => ?_
      obtain ⟨agree, kept⟩ := stepped holds step
      rw [agree]
      exact and_congr_right fun here => inductionHypothesis (kept here)

/-- The states which some run reaches from an initial state. -/
def Reachable (machine : Machine σ ι) (initial state : σ) : Prop :=
  ∃ events, machine.run initial events = some state

theorem Reachable.refl (initial : σ) : machine.Reachable initial initial := ⟨[], rfl⟩

theorem Reachable.run {initial state final : σ} {events : List ι}
    (reachable : machine.Reachable initial state) (runs : machine.run state events = some final) :
    machine.Reachable initial final := by
  obtain ⟨before, runsBefore⟩ := reachable
  exact ⟨before ++ events, machine.run_append_eq_some.mpr ⟨state, runsBefore, runs⟩⟩

/-- A predicate which holds initially and which every step preserves holds of every
reachable state. -/
theorem Reachable.invariant {initial state : σ} (reachable : machine.Reachable initial state)
    (invariant : σ → Prop) (start : invariant initial)
    (preserved : ∀ {state event next}, invariant state →
      machine.step state event = some next → invariant next) : invariant state := by
  obtain ⟨events, runs⟩ := reachable
  exact run_invariant invariant preserved start runs

end Machine

end LawyerAssistance
