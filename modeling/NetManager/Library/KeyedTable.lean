import Mathlib.Data.List.Count
import Mathlib.Data.List.Nodup

/-!
# Tables with a primary key

A table is a list of rows with different keys. Statements insert a row, delete the rows
that meet a condition or change the rows with one key; the number of rows that meet a
condition follows them.
-/

/-- A list of rows with different keys. -/
structure KeyedTable {ρ κ : Type*} (key : ρ → κ) where
  rows : List ρ := []
  /-- The keys are different. -/
  distinct : (rows.map key).Nodup := by exact List.nodup_nil

namespace KeyedTable

open List

variable {ρ κ : Type*} [DecidableEq κ] {key : ρ → κ}

section

variable (table : KeyedTable key) (condition : ρ → Bool)

/-- The number of rows that meet a condition. -/
def count : Nat := table.rows.countP condition

/-- The row with a key. -/
def find (value : κ) : Option ρ :=
  table.rows.find? fun row => key row = value

/-- Insert a row, unless its key is in use. -/
def insert (row : ρ) : Option (KeyedTable key) :=
  if used : key row ∈ table.rows.map key then none
  else some
    { rows := row :: table.rows
      distinct := nodup_cons.mpr ⟨used, table.distinct⟩ }

/-- Delete the rows that meet a condition. -/
def delete : KeyedTable key where
  rows := table.rows.filter (! condition ·)
  distinct := table.distinct.sublist (filter_sublist.map key)

/-- Change the rows with a key by a change that keeps keys. -/
def update (value : κ) (change : ρ → ρ) (keeps : ∀ row, key (change row) = key row) :
    KeyedTable key where
  rows := table.rows.map fun row => if key row = value then change row else row
  distinct := by
    have same : key ∘ (fun row => if key row = value then change row else row) = key := by
      funext row
      rw [Function.comp_apply]
      split
      · exact keeps row
      · rfl
    rw [map_map, same]
    exact table.distinct

end

variable {table : KeyedTable key} {row : ρ} {value : κ}

theorem find_eq_some_iff : table.find value = some row ↔ row ∈ table.rows ∧ key row = value := by
  constructor
  · intro found
    exact ⟨mem_of_find?_eq_some found, by simpa using find?_some found⟩
  · rintro ⟨member, rfl⟩
    unfold find
    cases found : table.rows.find? fun other => key other = key row with
    | none =>
      have absent := find?_eq_none.mp found row member
      exact absurd (decide_eq_true rfl) absent
    | some other =>
      have same : key other = key row := by simpa using find?_some found
      rw [inj_on_of_nodup_map table.distinct (mem_of_find?_eq_some found) member same]

theorem count_insert {after : KeyedTable key} (inserted : table.insert row = some after) :
    after.count condition = table.count condition + if condition row then 1 else 0 := by
  unfold insert at inserted
  split at inserted
  · cases inserted
  · cases inserted
    exact countP_cons

omit [DecidableEq κ] in
theorem count_delete (table : KeyedTable key) (condition deleted : ρ → Bool) :
    (table.delete deleted).count condition +
      table.count (fun row => condition row && deleted row) = table.count condition := by
  have parts := countP_eq_countP_filter_add table.rows condition deleted
  simp only [countP_filter] at parts
  simp only [count, delete, countP_filter]
  omega

/-- A key belongs to one row, so at most this row meets a condition on the key. -/
theorem count_and_key (found : table.find value = some row) (condition : ρ → Bool) :
    table.count (fun other => condition other && decide (key other = value)) =
      if condition row then 1 else 0 := by
  obtain ⟨member, rfl⟩ := find_eq_some_iff.mp found
  have only : table.rows.filter (fun other => decide (key other = key row)) = [row] := by
    obtain ⟨before, after, split⟩ := append_of_mem member
    have distinct := table.distinct
    rw [split, map_append, map_cons, nodup_middle, nodup_cons, ← map_append] at distinct
    have elsewhere : (before ++ after).filter (fun other => decide (key other = key row)) = [] := by
      refine filter_eq_nil_iff.mpr fun other otherMember same => distinct.1 ?_
      exact of_decide_eq_true same ▸ mem_map_of_mem otherMember
    rw [filter_append, append_eq_nil_iff] at elsewhere
    rw [split, filter_append, elsewhere.1, filter_cons, elsewhere.2, decide_eq_true rfl]
    rfl
  rw [count, ← countP_filter, only, countP_singleton]

theorem count_update (keeps : ∀ row, key (change row) = key row)
    (same : ∀ row, table.find value = some row → condition (change row) = condition row) :
    (table.update value change keeps).count condition = table.count condition := by
  unfold count update
  rw [countP_map]
  refine countP_congr fun row member => ?_
  rw [Function.comp_apply]
  split
  next here => rw [same row (find_eq_some_iff.mpr ⟨member, here⟩)]
  · rfl

end KeyedTable
