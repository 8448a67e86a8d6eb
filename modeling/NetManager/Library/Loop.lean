import Mathlib.Data.Nat.Basic

/-!
# Loops with fuel

A loop body either continues with a new state or leaves the loop with a
result. Running it takes fuel, one unit for each turn, and `none` means that
the fuel ran out. A loop returns when some amount of fuel gives a result; it
diverges when none does.
-/

namespace Loop

variable {σ β : Type*}

/-- Run a loop body until it leaves the loop. -/
def run (body : σ → σ ⊕ β) : Nat → σ → Option β
  | 0, _ => none
  | fuel + 1, state =>
    match body state with
    | .inl next => run body fuel next
    | .inr result => some result

@[simp] theorem run_zero : run body 0 state = none := rfl

variable {body : σ → σ ⊕ β} {state : σ}

theorem run_mono (le : fuel ≤ more) (returns : run body fuel state = some result) :
    run body more state = some result := by
  induction fuel generalizing more state with
  | zero => simp at returns
  | succ fuel ih =>
    cases more with
    | zero => omega
    | succ more =>
      unfold run at returns ⊢
      cases turn : body state with
      | inl next =>
        rw [turn] at returns
        exact ih (Nat.le_of_succ_le_succ le) returns
      | inr value =>
        rw [turn] at returns
        exact returns

theorem run_eq_none (Invariant : σ → Prop)
    (continues : ∀ state, Invariant state → ∃ next, body state = .inl next ∧ Invariant next)
    (fuel : Nat) (state : σ) (holds : Invariant state) :
    run body fuel state = none := by
  induction fuel generalizing state with
  | zero => rfl
  | succ fuel ih =>
    obtain ⟨next, turn, nextHolds⟩ := continues state holds
    unfold run
    rw [turn]
    exact ih next nextHolds

/-- A loop in which each turn keeps an invariant and decreases a measure, or leaves with a
result, returns. -/
theorem run_returns {Invariant : σ → Prop} {Result : β → Prop} (bound : σ → Nat)
    (turn : ∀ state, Invariant state →
      (∃ next, body state = .inl next ∧ Invariant next ∧ bound next < bound state) ∨
        ∃ result, body state = .inr result ∧ Result result) (holds : Invariant state)
    (enough : bound state < fuel) :
    ∃ result, run body fuel state = some result ∧ Result result := by
  induction fuel generalizing state with
  | zero => omega
  | succ fuel ih =>
    unfold run
    rcases turn state holds with ⟨next, isNext, nextHolds, decreases⟩ | ⟨result, isResult, good⟩
    · rw [isNext]
      exact ih nextHolds (by omega)
    · rw [isResult]
      exact ⟨result, rfl, good⟩

end Loop
