import Mathlib.Algebra.Order.Ring.Int
import Mathlib.Data.List.Induction

/-!
# The best candidate of a list

A list is searched for an eligible candidate with the greatest positive score; the
first one wins.
-/

namespace Best

open List

variable {α : Type*}

/-- One turn of the search. -/
def turn (eligible : α → Bool) (score : α → Int) (best : Int × Option α) (candidate : α) :
    Int × Option α :=
  if eligible candidate then
    if best.1 < score candidate then (score candidate, some candidate) else best
  else best

/-- The search. -/
def pick (eligible : α → Bool) (score : α → Int) (candidates : List α) : Int × Option α :=
  candidates.foldl (turn eligible score) (0, none)

section Pick

variable {eligible : α → Bool} {score : α → Int}

/-- What a best candidate of a list is. -/
structure IsBest (eligible : α → Bool) (score : α → Int) (candidates : List α) (best : α) :
    Prop where
  mem : best ∈ candidates
  isEligible : eligible best = true
  positive : 0 < score best
  maximal : ∀ other ∈ candidates, eligible other = true → score other ≤ score best

/-- No candidate of a list can be best. -/
def NoBest (eligible : α → Bool) (score : α → Int) (candidates : List α) : Prop :=
  ∀ other ∈ candidates, eligible other = true → score other ≤ 0

/-- The search so far. -/
structure Searched (eligible : α → Bool) (score : α → Int) (seen : List α)
    (best : Int × Option α) : Prop where
  bound : ∀ other ∈ seen, eligible other = true → score other ≤ best.1
  none : best.2 = none → best.1 = 0
  some : ∀ winner, best.2 = some winner →
    winner ∈ seen ∧ eligible winner = true ∧ 0 < score winner ∧ best.1 = score winner

theorem Searched.positive (searched : Searched eligible score seen best) : 0 ≤ best.1 := by
  cases found : best.2 with
  | none => rw [searched.none found]
  | some winner =>
    obtain ⟨-, -, positive, equal⟩ := searched.some winner found
    rw [equal]
    exact positive.le

theorem Searched.keep (searched : Searched eligible score seen best)
    (worse : eligible candidate = true → score candidate ≤ best.1) :
    Searched eligible score (seen ++ [candidate]) best := by
  refine ⟨?_, searched.none, fun winner found => ?_⟩
  · exact forall_mem_append.mpr ⟨searched.bound, forall_mem_singleton.mpr worse⟩
  · obtain ⟨member, rest⟩ := searched.some winner found
    exact ⟨mem_append_left _ member, rest⟩

theorem Searched.turn (searched : Searched eligible score seen best) :
    Searched eligible score (seen ++ [candidate]) (turn eligible score best candidate) := by
  unfold Best.turn
  split
  next isEligible =>
    split
    next better =>
      refine ⟨fun other member isOther => ?_, fun missing => by simp at missing, ?_⟩
      · rcases mem_append.mp member with old | new
        · exact (searched.bound other old isOther).trans better.le
        · rw [mem_singleton.mp new]
      · rintro winner ⟨⟩
        exact ⟨mem_append_right _ mem_cons_self, isEligible, searched.positive.trans_lt better, rfl⟩
    next worse => exact searched.keep fun _ => not_lt.mp worse
  next ineligible => exact searched.keep fun isEligible => absurd isEligible ineligible

theorem searched_pick (eligible : α → Bool) (score : α → Int) (candidates : List α) :
    Searched eligible score candidates (pick eligible score candidates) := by
  induction candidates using reverseRecOn with
  | nil => exact ⟨nofun, fun _ => rfl, nofun⟩
  | append_singleton candidates candidate ih =>
    rw [pick, foldl_append]
    exact ih.turn

theorem isBest_of_pick (found : (pick eligible score candidates).2 = some best) :
    IsBest eligible score candidates best := by
  have searched := searched_pick eligible score candidates
  obtain ⟨member, isEligible, positive, equal⟩ := searched.some best found
  refine ⟨member, isEligible, positive, fun other otherMember otherEligible => ?_⟩
  have bound := searched.bound other otherMember otherEligible
  rw [equal] at bound
  exact bound

theorem noBest_of_pick (missing : (pick eligible score candidates).2 = none) :
    NoBest eligible score candidates := by
  intro other member isOther
  have searched := searched_pick eligible score candidates
  have bound := searched.bound other member isOther
  rw [searched.none missing] at bound
  exact bound

end Pick

end Best
