import Mathlib.Data.List.Basic

/-!
# Countdown timers

Tasks wait for a number of ticks. A tick brings each one closer; those that are due run
one after the other on a shared state, and each says after how many ticks it wants to run
again, if at all.
-/

namespace Countdown

open List

variable {τ σ : Type*}

/-- The timers that are not due at the next tick, as they stand behind it. -/
def waiting (timers : List (τ × Nat)) : List (τ × Nat) :=
  timers.filterMap fun timer => if timer.2 ≤ 1 then none else some (timer.1, timer.2 - 1)

/-- The tasks that are due at the next tick. -/
def due (timers : List (τ × Nat)) : List τ := (timers.filter (·.2 ≤ 1)).map Prod.fst

/-- The timer of a task that has run, if it wants to run again. -/
def rearmed (task : τ) (delay : Nat) : List (τ × Nat) := if 0 < delay then [(task, delay)] else []

theorem mem_rearmed (again : 0 < delay) :
    (task, delay) ∈ rearmed task delay := by
  rw [rearmed, if_pos again]
  exact mem_singleton_self _

/-- Run tasks in order. `run` gives the task and the state afterwards, and the delay to
the next run. -/
def fire (run : τ → σ → τ × σ × Nat) : List τ → σ → List (τ × Nat) × σ
  | [], state => ([], state)
  | task :: tasks, state =>
    let (task, state, delay) := run task state
    let (timers, state) := fire run tasks state
    (rearmed task delay ++ timers, state)

theorem mem_waiting_or_mem_due (member : timer ∈ timers) :
    (∃ left, timer.2 = left + 2 ∧ (timer.1, left + 1) ∈ waiting timers) ∨
      timer.2 ≤ 1 ∧ timer.1 ∈ due timers := by
  by_cases soon : timer.2 ≤ 1
  · exact .inr ⟨soon, mem_map_of_mem (mem_filter.mpr ⟨member, by simpa using soon⟩)⟩
  · refine .inl ⟨timer.2 - 2, by omega, mem_filterMap.mpr ⟨timer, member, ?_⟩⟩
    rw [if_neg soon]
    congr 2
    omega

/-- The rule for a run of tasks: what holds of the timers that are done, the tasks that
are left and the state is kept by each run. -/
theorem fire_invariant (property : List (τ × Nat) → List τ → σ → Prop)
    (preserved : ∀ timers task tasks state, property timers (task :: tasks) state →
      property (timers ++ rearmed (run task state).1 (run task state).2.2) tasks
        (run task state).2.1) (initially : property timers tasks state) :
    property (timers ++ (fire run tasks state).1) [] (fire run tasks state).2 := by
  induction tasks generalizing timers state with
  | nil => simpa [fire] using initially
  | cons task tasks ih =>
    have next := ih (preserved timers task tasks state initially)
    rw [append_assoc] at next
    exact next

end Countdown
