import Mathlib.Data.List.Basic

/-!
# Sets that are kept element by element

A store to which elements are added and from which they are removed one by one, and
what runs of such calls leave.
-/

namespace Inventory

open List

variable {α β : Type*}

/-- Elements leave a store and others come. It holds the new ones, those that stay and those
that come, if and only if no other one is left and none that stays is removed for good. -/
theorem forall_after_iff {before after old new staying removed fresh : α → Prop}
    (had : ∀ key, before key ↔ old key)
    (has : ∀ key, after key ↔ (before key ∧ ¬ removed key) ∨ fresh key)
    (isNew : ∀ key, new key ↔ staying key ∨ fresh key) (stays : ∀ key, staying key → old key) :
    (∀ key, after key ↔ new key) ↔
      (∀ key, old key → ¬ removed key → new key) ∧
        ∀ key, staying key → removed key → fresh key := by
  constructor
  · intro right
    refine ⟨fun key isOld left => ?_, fun key here isRemoved => ?_⟩
    · exact (right key).mp ((has key).mpr (.inl ⟨(had key).mpr isOld, left⟩))
    · rcases (has key).mp ((right key).mpr ((isNew key).mpr (.inl here))) with ⟨-, left⟩ | comes
      · exact absurd isRemoved left
      · exact comes
  · rintro ⟨left, replaced⟩ key
    rw [has, had]
    constructor
    · rintro (⟨isOld, notRemoved⟩ | comes)
      · exact left key isOld notRemoved
      · exact (isNew key).mpr (.inr comes)
    · intro announced
      rcases (isNew key).mp announced with here | comes
      · by_cases isRemoved : removed key
        · exact .inr (replaced key here isRemoved)
        · exact .inl ⟨stays key here, isRemoved⟩
      · exact .inr comes

variable [DecidableEq α]

/-- Add an element, unless it is there. -/
def add (store : List α) (element : α) : List α :=
  if element ∈ store then store else element :: store

/-- Remove an element. -/
def remove (store : List α) (element : α) : List α := store.filter (· ≠ element)

variable {element other : α}

@[simp] theorem mem_add_iff : other ∈ add store element ↔ other ∈ store ∨ other = element := by
  unfold add
  split
  next present =>
    refine ⟨Or.inl, ?_⟩
    rintro (member | rfl)
    · exact member
    · exact present
  · rw [mem_cons, or_comm]

@[simp] theorem mem_remove_iff :
    other ∈ remove store element ↔ other ∈ store ∧ other ≠ element := by
  unfold remove
  rw [mem_filter, decide_eq_true_eq]

/-- Add elements in turn. -/
def addAll (store elements : List α) : List α := elements.foldl add store

/-- Remove elements in turn. -/
def removeAll (store elements : List α) : List α := elements.foldl remove store

variable {store elements : List α}

@[simp] theorem mem_addAll_iff :
    other ∈ addAll store elements ↔ other ∈ store ∨ other ∈ elements := by
  unfold addAll
  induction elements generalizing store with
  | nil => simp
  | cons element elements ih => rw [foldl_cons, ih, mem_add_iff, mem_cons, or_assoc]

@[simp] theorem mem_removeAll_iff :
    other ∈ removeAll store elements ↔ other ∈ store ∧ other ∉ elements := by
  unfold removeAll
  induction elements generalizing store with
  | nil => simp
  | cons element elements ih => rw [foldl_cons, ih, mem_remove_iff, mem_cons, not_or, and_assoc]

variable {call : List α → β → List α} {inputs : List β}

theorem mem_foldl_remove_iff {removed : β → List α}
    (removes : ∀ input ∈ inputs, ∀ store, call store input = removeAll store (removed input)) :
    other ∈ inputs.foldl call store ↔ other ∈ store ∧ ∀ input ∈ inputs, other ∉ removed input := by
  induction inputs generalizing store with
  | nil => simp
  | cons input inputs ih =>
    rw [foldl_cons, removes input mem_cons_self,
      ih fun later member => removes later (mem_cons_of_mem input member),
      mem_removeAll_iff, forall_mem_cons, and_assoc]

theorem mem_foldl_add_iff {added : β → List α}
    (adds : ∀ input ∈ inputs, ∀ store, call store input = addAll store (added input)) :
    other ∈ inputs.foldl call store ↔ other ∈ store ∨ ∃ input ∈ inputs, other ∈ added input := by
  induction inputs generalizing store with
  | nil => simp
  | cons input inputs ih =>
    rw [foldl_cons, adds input mem_cons_self,
      ih fun later member => adds later (mem_cons_of_mem input member),
      mem_addAll_iff, or_assoc]
    simp only [mem_cons, exists_eq_or_imp]

end Inventory
