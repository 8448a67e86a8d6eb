import Mathlib.Data.List.Basic
import Mathlib.Data.List.Induction

/-!
# Runs of a state machine

The states that a machine reaches by steps which all meet a condition, and the
rule that a property of the start which every such step keeps holds in all of
them.
-/

namespace Run

open List

variable {σ α : Type*}

/-- The states reached from `start` by permitted steps. -/
inductive Reach
    (step : σ → α → σ)
    (permitted : σ → α → Prop)
    (start : σ) : σ → Prop
  | start : Reach step permitted start start
  | step
      {state : σ}
      {action : α}
      (reached : Reach step permitted start state)
      (allowed : permitted state action) :
      Reach step permitted start (step state action)

section Reach

variable {step : σ → α → σ} {permitted : σ → α → Prop} {start state : σ}

theorem Reach.invariant {property : σ → Prop} (reach : Reach step permitted start state)
    (initially : property start)
    (preserved : ∀ state action, property state → permitted state action →
      property (step state action)) :
    property state := by
  induction reach with
  | start => exact initially
  | step _ allowed ih => exact preserved _ _ ih allowed

/-- A list of steps, each permitted where it is taken. -/
def PermittedAll (step : σ → α → σ)
    (permitted : σ → α → Prop) : σ → List α → Prop
  | _, [] => True
  | state, action :: actions =>
    permitted state action ∧ PermittedAll step permitted (step state action) actions

instance decidablePermittedAll (step : σ → α → σ) (permitted : σ → α → Prop)
    [∀ state action, Decidable (permitted state action)] (state : σ) :
    (actions : List α) → Decidable (PermittedAll step permitted state actions)
  | [] => isTrue trivial
  | action :: actions =>
    have := decidablePermittedAll step permitted (step state action) actions
    inferInstanceAs (Decidable (_ ∧ _))

theorem Reach.foldl (reach : Reach step permitted start state) (actions : List α)
    (allowed : PermittedAll step permitted state actions) :
    Reach step permitted start (actions.foldl step state) := by
  induction actions generalizing state with
  | nil => exact reach
  | cons action actions ih => exact ih (reach.step allowed.1) allowed.2

end Reach

/-- A property of the histories of a run that one more step keeps under a
condition. -/
theorem forall_prefix_iff {property : List α → Prop} {condition : List α → α → Prop}
    (initially : property [])
    (next : ∀ made, property made → ∀ action, property (made ++ [action]) ↔ condition made action)
    (actions : List α) :
    (∀ made, made <+: actions → property made) ↔
      ∀ made action, made ++ [action] <+: actions → condition made action := by
  refine ⟨fun holds made action taken => ?_, fun allowed made => ?_⟩
  · exact (next made (holds made ((made.prefix_append _).trans taken)) action).mp (holds _ taken)
  · induction made using List.reverseRecOn with
    | nil => exact fun _ => initially
    | append_singleton made action ih =>
      intro taken
      have before := ih ((made.prefix_append _).trans taken)
      exact (next made before action).mpr (allowed made action taken)

end Run
