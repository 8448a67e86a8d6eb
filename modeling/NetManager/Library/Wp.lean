import Mathlib.Logic.Basic

/-!
# Weakest preconditions

Programs that have a state and may fail. `Ends` says that a program ends without a
failure and that what it returns and leaves meets a condition.
-/

namespace Wp

variable {σ ε α β : Type}

/-- The program ends without a failure, with a value and a state that meet `post`. -/
def Ends (program : StateT σ (Except ε) α) (state : σ) (post : α → σ → Prop) : Prop :=
  match program state with
  | .ok (value, after) => post value after
  | .error _ => False

@[simp] theorem ends_pure :
    Ends (pure value : StateT σ (Except ε) α) state post ↔ post value state := .rfl

@[simp] theorem ends_get : Ends (get : StateT σ (Except ε) σ) state post ↔ post state state := .rfl

@[simp] theorem ends_modify :
    Ends (modify change : StateT σ (Except ε) Unit) state post ↔ post () (change state) := .rfl

@[simp] theorem ends_throw : Ends (throw fault : StateT σ (Except ε) α) state post ↔ False := .rfl

@[simp] theorem ends_bind :
    Ends (first >>= next) state post ↔
      Ends first state fun value after => Ends (next value) after post := by
  unfold Ends
  change (match (first state >>= fun result => next result.1 result.2) with
    | .ok (value, after) => post value after
    | .error _ => False) ↔ _
  cases first state with
  | ok result => exact .rfl
  | error fault => exact .rfl

theorem ends_lift {result : Except ε α} (is : result = .ok value) (holds : post value state) :
    Ends (liftM result : StateT σ (Except ε) α) state post := by
  subst is
  exact holds

theorem ends_ite [Decidable condition] (onTrue : condition → Ends first state post)
    (onFalse : ¬ condition → Ends second state post) :
    Ends (if condition then first else second) state post := by
  split
  next holds => exact onTrue holds
  next fails => exact onFalse fails

theorem Ends.mono (ends : Ends program state post)
    (implies : ∀ value after, post value after → weaker value after) :
    Ends program state weaker := by
  unfold Ends at ends ⊢
  split at ends
  next value after _ => exact implies value after ends
  · exact ends.elim

theorem Ends.exists_ok (ends : Ends program state post) :
    ∃ value after, program state = .ok (value, after) ∧ post value after := by
  unfold Ends at ends
  split at ends
  next value after is => exact ⟨value, after, is, ends⟩
  · exact ends.elim

theorem bind_eq_ok {first : Except ε α} (is : first >>= next = .ok result) :
    ∃ value, first = .ok value ∧ next value = .ok result := by
  cases first with
  | ok value => exact ⟨value, rfl, is⟩
  | error fault => cases is

end Wp
