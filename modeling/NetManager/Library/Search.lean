import Mathlib.Data.List.Basic

/-!
# Nested searches

A loop in a loop that looks for the first good position is one search through the
positions in order. In a sorted list it finds the least good position.
-/

namespace Search

open List

variable {α β γ : Type*} {good : γ → Bool}

variable {outer : List α}

theorem findSome?_eq_find?_flatMap (looks : ∀ i ∈ outer, look i = (positions i).find? good) :
    outer.findSome? look = (outer.flatMap positions).find? good := by
  induction outer with
  | nil => rfl
  | cons i outer ih =>
    rw [findSome?_cons, flatMap_cons, find?_append,
      looks i mem_cons_self,
      ih fun other member => looks other (mem_cons_of_mem i member)]
    cases (positions i).find? good <;> rfl

theorem findSome?_eq_find? {inner : List β}
    (looks : ∀ j ∈ inner, look j = if good (position j) then some (position j) else none) :
    inner.findSome? look = (inner.map position).find? good := by
  rw [map_eq_flatMap]
  exact findSome?_eq_find?_flatMap fun j member => (looks j member).trans find?_singleton.symm

theorem findSome?_findSome? {inner : α → List β} {position : α → β → γ} {look : α → β → Option γ}
    (looks : ∀ i ∈ outer, ∀ j ∈ inner i,
      look i j = if good (position i j) then some (position i j) else none) :
    outer.findSome? (fun i => (inner i).findSome? (look i)) =
      (outer.flatMap fun i => (inner i).map (position i)).find? good :=
  findSome?_eq_find?_flatMap fun i member => findSome?_eq_find? (looks i member)

/-- What a search in a sorted list finds comes before every other good element. -/
theorem not_good_of_find? (asymmetric : ∀ x y, relation x y → ¬ relation y x) {list : List γ}
    (sorted : list.Pairwise relation) (finds : list.find? good = some found) (member : other ∈ list)
    (before : relation other found) :
    good other = false := by
  obtain ⟨-, front, back, rfl, passed⟩ := find?_eq_some_iff_append.mp finds
  rcases mem_append.mp member with early | late
  · simpa using passed other early
  · have rest := pairwise_append.mp sorted
    rcases mem_cons.mp late with rfl | after
    · exact absurd before (asymmetric _ _ before)
    · exact absurd before (asymmetric _ _ ((pairwise_cons.mp rest.2.1).1 other after))

end Search
