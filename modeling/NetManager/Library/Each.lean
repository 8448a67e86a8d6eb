import Mathlib.Data.List.Basic

/-!
# Loops that update each element of a list

A loop goes over a list, replaces each element and passes a state on. When each round
concerns only the part of the state that belongs to its element, what a round achieves
for its element is still there at the end.
-/

namespace Each

open List

variable {α σ κ : Type*}

/-- The loop. -/
def run (body : α → σ → α × σ) : List α → σ → List α × σ
  | [], state => ([], state)
  | element :: elements, state =>
    let (element, state) := body element state
    let (elements, state) := run body elements state
    (element :: elements, state)

section Rules

variable {body : α → σ → α × σ}

@[simp] theorem run_nil : run body [] state = ([], state) := rfl

theorem run_cons :
    run body (element :: elements) state =
      ((body element state).1 :: (run body elements (body element state).2).1,
        (run body elements (body element state).2).2) := rfl

variable {elements : List α} {state : σ}

theorem run_invariant (Invariant : σ → Prop) (initially : Invariant state)
    (preserved : ∀ element ∈ elements, ∀ state, Invariant state →
      Invariant (body element state).2) :
    Invariant (run body elements state).2 := by
  induction elements generalizing state with
  | nil => exact initially
  | cons element elements ih =>
    exact ih (preserved element mem_cons_self state initially)
      (forall_mem_cons.mp preserved).2

theorem exists_of_mem_run (member : result ∈ (run body elements state).1) :
    ∃ element ∈ elements, ∃ before, result = (body element before).1 := by
  induction elements generalizing state with
  | nil => cases member
  | cons element elements ih =>
    rcases mem_cons.mp member with rfl | later
    · exact ⟨element, mem_cons_self, state, rfl⟩
    · obtain ⟨other, found, before, equal⟩ := ih later
      exact ⟨other, mem_cons_of_mem _ found, before, equal⟩

theorem exists_mem_run (member : element ∈ elements) :
    ∃ before, (body element before).1 ∈ (run body elements state).1 := by
  induction elements generalizing state with
  | nil => cases member
  | cons first elements ih =>
    rcases mem_cons.mp member with rfl | later
    · exact ⟨state, mem_cons_self⟩
    · obtain ⟨before, found⟩ := ih later
      exact ⟨before, mem_cons_of_mem _ found⟩

theorem map_run (same : ∀ element state, view (body element state).1 = view element) :
    (run body elements state).1.map view = elements.map view := by
  induction elements generalizing state with
  | nil => rfl
  | cons element elements ih => rw [run_cons, map_cons, map_cons, same, ih]

/-- Rounds for elements with different keys: a round makes its own element good and
keeps what is ready or good for the others. -/
theorem run_good (Invariant : σ → Prop)
    (Ready Good : σ → α → Prop)
    (own : ∀ element state, Invariant state → Ready state element →
      Invariant (body element state).2 ∧ Good (body element state).2 (body element state).1 ∧
        key (body element state).1 = key element)
    (other : ∀ element state, Invariant state → Ready state element →
      ∀ different, key different ≠ key element →
        (Ready state different → Ready (body element state).2 different) ∧
          (Good state different → Good (body element state).2 different))
    (distinct : (elements.map key).Nodup)
    (initially : Invariant state)
    (ready : ∀ element ∈ elements, Ready state element) :
    Invariant (run body elements state).2 ∧
      (∀ element ∈ (run body elements state).1, Good (run body elements state).2 element) ∧
      (run body elements state).1.map key = elements.map key ∧
      ∀ different, key different ∉ elements.map key →
        Good state different → Good (run body elements state).2 different := by
  induction elements generalizing state with
  | nil => exact ⟨initially, nofun, rfl, fun _ _ good => good⟩
  | cons element elements ih =>
    rw [map_cons, nodup_cons] at distinct
    obtain ⟨fresh, distinct⟩ := distinct
    have elementReady := ready element mem_cons_self
    obtain ⟨invariant, good, sameKey⟩ := own element state initially elementReady
    have rest := ih distinct invariant fun later member => by
      have different : key later ≠ key element := fun same => fresh (same ▸ mem_map_of_mem member)
      exact (other element state initially elementReady later different).1
        (ready later (mem_cons_of_mem _ member))
    obtain ⟨invariantEnd, goods, keys, kept⟩ := rest
    rw [run_cons]
    refine ⟨invariantEnd, ?_, ?_, ?_⟩
    · exact forall_mem_cons.mpr ⟨kept _ (sameKey ▸ fresh) good, goods⟩
    · rw [map_cons, map_cons, sameKey, keys]
    · intro different notMember goodBefore
      rw [map_cons, mem_cons, not_or] at notMember
      exact kept different notMember.2
        ((other element state initially elementReady different notMember.1).2 goodBefore)

end Rules

end Each
