import Mathlib.Algebra.GroupWithZero.Nat
import Mathlib.Data.List.Induction
import Mathlib.Data.List.Nodup

/-!
# Caches of recently used entries

A cache is a list of entries with a weight, the most recently used one first. Putting an
entry makes it the first one, and takes entries from the end until the weights fit into a
limit.
-/

namespace Lru

open List

variable {κ ν : Type} (weight : ν → Nat)

/-- The weight of entries. -/
def total (entries : List (κ × ν)) : Nat := (entries.map fun entry => weight entry.2).sum

/-- Entries are taken from the end until the rest fits. -/
def evict (limit : Nat) (entries : List (κ × ν)) : List (κ × ν) :=
  if total weight entries ≤ limit then entries else evict limit entries.dropLast
  termination_by entries.length
  decreasing_by
    rename_i heavy
    cases entries with
    | nil => exact absurd (Nat.zero_le limit) heavy
    | cons entry entries =>
      rw [length_dropLast]
      exact Nat.sub_lt (Nat.succ_pos _) Nat.one_pos

/-- No key has two entries. -/
def Distinct (entries : List (κ × ν)) : Prop := (entries.map Prod.fst).Nodup

variable {weight}

@[simp] theorem total_nil : total weight ([] : List (κ × ν)) = 0 := rfl

@[simp] theorem total_cons :
    total weight (entry :: entries) = weight entry.2 + total weight entries := by
  unfold total
  rw [map_cons, sum_cons]

@[simp] theorem total_append :
    total weight (first ++ second) = total weight first + total weight second := by
  unfold total
  rw [map_append, sum_append]

/-! ## Eviction -/

variable {entries : List (κ × ν)} {limit : Nat}

theorem evict_of_le (fits : total weight entries ≤ limit) :
    evict weight limit entries = entries := by
  rw [evict, if_pos fits]

theorem evict_of_lt (heavy : limit < total weight entries) :
    evict weight limit entries = evict weight limit entries.dropLast := by
  rw [evict, if_neg (Nat.not_le.mpr heavy)]

theorem total_evict_le : total weight (evict weight limit entries) ≤ limit := by
  induction entries using List.reverseRecOn with
  | nil =>
    rw [evict_of_le (Nat.zero_le limit)]
    exact Nat.zero_le limit
  | append_singleton entries entry ih =>
    rw [evict]
    split
    next fits => exact fits
    · rw [dropLast_concat]
      exact ih

/-! ## Lookup -/

section Lookup

variable [BEq κ] [LawfulBEq κ]

theorem Distinct.lookup_eq_some_iff (distinct : Distinct entries) :
    entries.lookup key = some value ↔ (key, value) ∈ entries := by
  induction entries with
  | nil => exact iff_of_false (Option.some_ne_none value).symm not_mem_nil
  | cons entry entries ih =>
    obtain ⟨other, otherValue⟩ := entry
    obtain ⟨absent, rest⟩ := nodup_cons.mp distinct
    rw [lookup_cons, mem_cons, Prod.mk.injEq]
    by_cases same : key = other
    · subst same
      rw [BEq.rfl]
      rw [Option.some_inj]
      refine ⟨fun is => .inl ⟨rfl, is.symm⟩, ?_⟩
      rintro (⟨-, is⟩ | member)
      · exact is.symm
      · exact absurd (mem_map_of_mem member) absent
    · rw [beq_false_of_ne same]
      dsimp only
      rw [ih rest]
      exact ⟨.inr, fun either => either.resolve_left fun is => same is.1⟩

end Lookup

variable [DecidableEq κ]

/-! ## Entries of other keys -/

/-- The entries of other keys. -/
def remove (key : κ) (entries : List (κ × ν)) : List (κ × ν) := entries.filter (·.1 ≠ key)

variable {key : κ}

theorem remove_of_not_mem (absent : key ∉ entries.map Prod.fst) : remove key entries = entries := by
  refine filter_eq_self.mpr fun entry member => decide_eq_true ?_
  rintro rfl
  exact absent (mem_map_of_mem member)

theorem remove_append : remove key (first ++ second) = remove key first ++ remove key second :=
  filter_append ..

theorem total_remove (distinct : Distinct entries) (member : (key, value) ∈ entries) :
    weight value + total weight (remove key entries) = total weight entries := by
  obtain ⟨before, after, rfl⟩ := append_of_mem member
  unfold Distinct at distinct
  rw [map_append, nodup_append] at distinct
  obtain ⟨-, notAfter, notBefore⟩ := distinct
  have before_eq : Lru.remove key before = before :=
    remove_of_not_mem fun inBefore => notBefore key inBefore key mem_cons_self rfl
  have after_eq : Lru.remove key after = after := remove_of_not_mem (nodup_cons.mp notAfter).1
  have here : Lru.remove key ((key, value) :: after) = Lru.remove key after :=
    filter_cons_of_neg (by simp)
  rw [remove_append, here, before_eq, after_eq, total_append, total_append, total_cons]
  dsimp only
  omega

/-! ## Entries that are put -/

/-- An entry that is there becomes the first one. -/
def touch [BEq κ] (key : κ) (entries : List (κ × ν)) : List (κ × ν) :=
  match entries.lookup key with
  | none => entries
  | some value => (key, value) :: remove key entries

theorem total_touch [BEq κ] [LawfulBEq κ] (distinct : Distinct entries) :
    total weight (touch key entries) = total weight entries := by
  unfold touch
  cases is : entries.lookup key with
  | none => rfl
  | some value => exact total_remove distinct (distinct.lookup_eq_some_iff.mp is)

variable (weight) in
/-- An entry is put to others. -/
def put (limit : Nat) (key : κ) (value : ν) (entries : List (κ × ν)) : List (κ × ν) :=
  evict weight limit ((key, value) :: remove key entries)

end Lru
