import Mathlib.Data.List.Count
import Mathlib.Data.Set.Insert

/-!
# Ledgers

A ledger is a list of entries that is changed from outside: an entry is added at
the end, or the first entry that a pattern covers is removed. It keeps a set of
entries of some kind when it holds exactly these of the kind, each once.
-/

namespace Ledger

open List

variable {ρ : Type*}

/-- What happens to a ledger. -/
inductive Action (ρ : Type*)
  | add (entry : ρ)
  | remove (pattern : ρ)

section

variable (covers : ρ → ρ → Bool) (entries : List ρ)

/-- The ledger after an action. -/
def apply : Action ρ → List ρ
  | .add entry => entries ++ [entry]
  | .remove pattern => entries.eraseP (covers pattern)

/-- The ledger after some actions. -/
def run (actions : List (Action ρ)) : List ρ :=
  actions.foldl (apply covers) entries

theorem run_append :
    run covers entries (first ++ second) = run covers (run covers entries first) second :=
  foldl_append

end

variable [DecidableEq ρ]

/-- Of some kind, the ledger holds the entries of a set, each once. -/
structure Keeps (ofKind : ρ → Prop) (entries : List ρ) (expected : Set ρ) : Prop where
  mem_iff : ∀ entry, ofKind entry → (entry ∈ entries ↔ entry ∈ expected)
  once : ∀ entry, ofKind entry → entries.count entry ≤ 1

section Keeps

variable {covers : ρ → ρ → Bool} {ofKind : ρ → Prop} {entries : List ρ} {expected : Set ρ}

theorem Keeps.congr (keeps : Keeps ofKind entries expected)
    (same : ∀ entry, ofKind entry → (entry ∈ expected ↔ entry ∈ other)) :
    Keeps ofKind entries other where
  mem_iff entry isKind := (keeps.mem_iff entry isKind).trans (same entry isKind)
  once := keeps.once

variable {entry : ρ}

theorem Keeps.add (keeps : Keeps ofKind entries expected) (isKind : ofKind entry)
    (fresh : entry ∉ expected) :
    Keeps ofKind (entries ++ [entry]) (insert entry expected) where
  mem_iff other otherKind := by
    rw [mem_append, mem_singleton, keeps.mem_iff other otherKind, Set.mem_insert_iff, or_comm]
  once other otherKind := by
    by_cases same : entry = other
    · subst same
      have absent : entries.count entry = 0 :=
        count_eq_zero.mpr fun member => fresh ((keeps.mem_iff entry isKind).mp member)
      simp [absent]
    · simpa [same] using keeps.once other otherKind

theorem Keeps.add_other (keeps : Keeps ofKind entries expected) (notKind : ¬ ofKind entry) :
    Keeps ofKind (entries ++ [entry]) expected where
  mem_iff other otherKind := by
    have different : other ≠ entry := fun same => notKind (same ▸ otherKind)
    rw [mem_append, mem_singleton, or_iff_left different]
    exact keeps.mem_iff other otherKind
  once other otherKind := by
    have different : entry ≠ other := fun same => notKind (same ▸ otherKind)
    simpa [different] using keeps.once other otherKind

theorem eraseP_eq_erase (covered : matching entry = true)
    (only : ∀ other ∈ entries, matching other = true → other = entry) :
    entries.eraseP matching = entries.erase entry := by
  induction entries with
  | nil => rfl
  | cons first entries ih =>
    by_cases same : first = entry
    · subst same
      rw [eraseP_cons_of_pos covered, erase_cons_head]
    · have notCovered : ¬ matching first = true := fun matched =>
        same (only first mem_cons_self matched)
      rw [eraseP_cons_of_neg notCovered,
        erase_cons_tail (by simpa using same),
        ih (forall_mem_cons.mp only).2]

section

variable (keeps : Keeps ofKind entries expected)
include keeps

/-- Removing by a pattern that covers itself, entries of the kind only, and no other
expected entry. -/
theorem Keeps.remove (covered : covers pattern pattern = true)
    (ofKindOnly : ∀ other, covers pattern other = true → ofKind other)
    (only : ∀ other ∈ expected, covers pattern other = true → other = pattern) :
    Keeps ofKind (entries.eraseP (covers pattern)) (expected \ {pattern}) := by
  have erased : entries.eraseP (covers pattern) = entries.erase pattern :=
    eraseP_eq_erase covered fun other member matched =>
      only other ((keeps.mem_iff other (ofKindOnly other matched)).mp member) matched
  rw [erased]
  refine ⟨fun other otherKind => ?_, fun other otherKind => ?_⟩
  · rw [Set.mem_sdiff, Set.mem_singleton_iff, ← keeps.mem_iff other otherKind]
    by_cases same : other = pattern
    · subst same
      have gone : (entries.erase other).count other = 0 := by
        have atMost := keeps.once other otherKind
        rw [count_erase_self]
        omega
      rw [← one_le_count_iff, gone]
      simp
    · rw [mem_erase_of_ne same, and_iff_left same]
  · exact (erase_sublist.count_le other).trans (keeps.once other otherKind)

theorem Keeps.remove_other (notKind : ∀ other, ofKind other → ¬ matching other = true) :
    Keeps ofKind (entries.eraseP matching) expected where
  mem_iff other otherKind := by
    rw [mem_eraseP_of_neg (notKind other otherKind)]
    exact keeps.mem_iff other otherKind
  once other otherKind := (eraseP_sublist.count_le other).trans (keeps.once other otherKind)

/-! ## Several actions -/

theorem Keeps.run_add {added : List ρ} (nodup : added.Nodup)
    (isKind : ∀ entry ∈ added, ofKind entry) (fresh : ∀ entry ∈ added, entry ∉ expected) :
    Keeps ofKind (run covers entries (added.map .add)) (expected ∪ {entry | entry ∈ added}) := by
  induction added generalizing entries expected with
  | nil => exact keeps.congr fun entry _ => by simp
  | cons first added ih =>
    obtain ⟨notLater, laterNodup⟩ := nodup_cons.mp nodup
    have start := keeps.add (isKind first mem_cons_self) (fresh first mem_cons_self)
    have rest := ih start laterNodup (forall_mem_cons.mp isKind).2
      fun entry member isExpected => ?_
    · refine rest.congr fun entry _ => ?_
      simp only [Set.mem_union, Set.mem_insert_iff, Set.mem_ofPred_eq, mem_cons]
      tauto
    · rcases Set.mem_insert_iff.mp isExpected with rfl | old
      · exact notLater member
      · exact fresh entry (mem_cons_of_mem _ member) old

/-- Removing entries of the kind by patterns that cover nothing else expected. -/
theorem Keeps.run_remove {removed : List ρ}
    (covered : ∀ pattern ∈ removed, covers pattern pattern = true)
    (ofKindOnly : ∀ pattern ∈ removed, ∀ other, covers pattern other = true → ofKind other)
    (only : ∀ pattern ∈ removed, ∀ other ∈ expected, covers pattern other = true → other = pattern) :
    Keeps ofKind (run covers entries (removed.map .remove))
      (expected \ {entry | entry ∈ removed}) := by
  induction removed generalizing entries expected with
  | nil => exact keeps.congr fun entry _ => by simp
  | cons first removed ih =>
    have start := keeps.remove (covered first mem_cons_self)
      (ofKindOnly first mem_cons_self) (only first mem_cons_self)
    have rest := ih start (forall_mem_cons.mp covered).2 (forall_mem_cons.mp ofKindOnly).2
      fun pattern member other isExpected =>
        only pattern (mem_cons_of_mem _ member) other isExpected.1
    refine rest.congr fun entry _ => ?_
    simp only [Set.mem_sdiff, Set.mem_singleton_iff, Set.mem_ofPred_eq, mem_cons]
    tauto

end

/-- The action concerns no entry of the kind. -/
def Action.Foreign (covers : ρ → ρ → Bool) (ofKind : ρ → Prop) : Action ρ → Prop
  | .add entry => ¬ ofKind entry
  | .remove pattern => ∀ other, ofKind other → ¬ covers pattern other = true

theorem Keeps.run_foreign (keeps : Keeps ofKind entries expected)
    (foreign : ∀ action ∈ actions, action.Foreign covers ofKind) :
    Keeps ofKind (run covers entries actions) expected := by
  induction actions generalizing entries with
  | nil => exact keeps
  | cons action actions ih =>
    have isForeign := foreign action mem_cons_self
    refine ih ?_ (forall_mem_cons.mp foreign).2
    cases action with
    | add entry => exact keeps.add_other isForeign
    | remove pattern => exact keeps.remove_other isForeign

end Keeps

end Ledger
