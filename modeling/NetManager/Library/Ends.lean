import Mathlib.Data.List.Basic

/-!
# Total correctness of programs that may have no result

A program that may run out of some resource is an `Option`. It ends in a property
when it has a result and the result has the property.
-/

namespace Ends

universe u

variable {σ τ : Type u}

/-- The program has a result with a property. -/
def Within (program : Option σ) (property : σ → Prop) : Prop :=
  ∃ result, program = some result ∧ property result

theorem done (holds : property result) :
    Within (.some result) property :=
  ⟨result, rfl, holds⟩

theorem Within.mono (ends : Within program property)
    (weaken : ∀ result, property result → weaker result) :
    Within program weaker := by
  obtain ⟨result, equation, holds⟩ := ends
  exact ⟨result, equation, weaken result holds⟩

theorem Within.bind (first : Within program between)
    (second : ∀ result, between result → Within (next result) property) :
    Within (program >>= next) property := by
  obtain ⟨result, rfl, holds⟩ := first
  exact second result holds

/-- Steps that are permitted end in an invariant, so a list of them does. -/
theorem foldlM {α : Type*} {step : σ → α → Option σ} {permitted : α → Prop} {invariant : σ → Prop}
    (preserved : ∀ state action, invariant state → permitted action →
      Within (step state action) invariant)
    {start : σ} (initially : invariant start) (actions : List α)
    (allowed : ∀ action ∈ actions, permitted action) :
    Within (actions.foldlM step start) invariant := by
  induction actions generalizing start with
  | nil => exact Ends.done initially
  | cons action actions ih =>
    refine (preserved start action initially
      (allowed action List.mem_cons_self)).bind fun state holds => ?_
    exact ih holds (List.forall_mem_cons.mp allowed).2

end Ends
