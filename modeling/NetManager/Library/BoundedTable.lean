import Mathlib.Data.List.Basic
import Mathlib.Data.List.Induction
import Mathlib.Data.Nat.Basic

/-!
# Tables with a limited number of entries

A table holds one entry for each key, where a relation says which keys are the
same. Writing an entry replaces the entry of the same key. A bounded table
refuses a new key once it is full; a run of writes goes through unchanged
exactly when the table it would build without the limit fits.
-/

namespace BoundedTable

open List

variable {κ α : Type*} (same : κ → κ → Prop) [DecidableRel same]

/-- Write one entry, replacing the entry of the same key. -/
def update (entry : κ × α) : List (κ × α) → List (κ × α)
  | [] => [entry]
  | old :: table =>
    if same old.1 entry.1 then entry :: table
    else old :: update entry table

/-- Write a list of entries in order into an empty table without a limit. -/
def writeAll (entries : List (κ × α)) : List (κ × α) :=
  entries.foldl (fun table entry => update same entry table) []

/-- Write one entry, unless its key is new and the table is full. -/
def write (maxEntries : Nat) (table : List (κ × α)) (entry : κ × α) : List (κ × α) :=
  if (∃ old ∈ table, same old.1 entry.1) ∨ table.length < maxEntries then update same entry table
  else table

/-- Write a list of entries in order into an empty bounded table. -/
def boundedWriteAll (maxEntries : Nat) (entries : List (κ × α)) : List (κ × α) :=
  entries.foldl (write same maxEntries) []

theorem update_of_new (table : List (κ × α)) (new : ∀ old ∈ table, ¬ same old.1 entry.1) :
    update same entry table = table ++ [entry] := by
  induction table with
  | nil => rfl
  | cons old table ih =>
    rw [update, if_neg (new old mem_cons_self), ih]
    · rfl
    · exact (forall_mem_cons.mp new).2

variable {entries : List (κ × α)}

theorem writeAll_of_pairwise
    (distinct : entries.Pairwise fun first second => ¬ same first.1 second.1) :
    writeAll same entries = entries := by
  induction entries using reverseRecOn with
  | nil => rfl
  | append_singleton entries entry ih =>
    obtain ⟨before, -, new⟩ := pairwise_append.mp distinct
    rw [writeAll, foldl_append, ← writeAll, ih before]
    exact update_of_new same entries fun old member => new old member entry mem_cons_self

theorem length_update :
    (update same entry table).length =
      if ∃ old ∈ table, same old.1 entry.1 then table.length
      else table.length + 1 := by
  induction table with
  | nil => simp [update]
  | cons old table ih =>
    unfold update
    split
    next here => simp [here]
    next elsewhere =>
      rw [length_cons, ih]
      simp only [exists_mem_cons_iff, elsewhere, false_or]
      split <;> rfl

theorem length_le_length_update : table.length ≤ (update same entry table).length := by
  rw [length_update]
  split <;> omega

theorem length_le_length_foldl_update (entries table : List (κ × α)) :
    table.length ≤ (entries.foldl (fun table entry => update same entry table) table).length := by
  induction entries generalizing table with
  | nil => exact le_rfl
  | cons entry entries ih =>
    exact Nat.le_trans (length_le_length_update same) (ih _)

variable {table : List (κ × α)} {maxEntries : Nat}

theorem length_write_le (fits : table.length ≤ maxEntries) :
    (write same maxEntries table entry).length ≤ maxEntries := by
  unfold write
  split
  next accepted =>
    rw [length_update]
    split
    · exact fits
    next new => exact accepted.resolve_left new
  · exact fits

theorem length_foldl_write_le (fits : table.length ≤ maxEntries) :
    (entries.foldl (write same maxEntries) table).length ≤ maxEntries := by
  induction entries generalizing table with
  | nil => exact fits
  | cons entry entries ih => exact ih (length_write_le same fits)

theorem foldl_write_eq (fits : (entries.foldl (fun table entry => update same entry table)
      table).length ≤ maxEntries) :
    entries.foldl (write same maxEntries) table =
      entries.foldl (fun table entry => update same entry table) table := by
  induction entries generalizing table with
  | nil => rfl
  | cons entry entries ih =>
    have next : (update same entry table).length ≤ maxEntries :=
      Nat.le_trans (length_le_length_foldl_update same entries _) fits
    have accepted : write same maxEntries table entry = update same entry table := by
      unfold write
      split
      · rfl
      next refused =>
        rw [length_update, if_neg fun old => refused (Or.inl old)] at next
        exact absurd (Or.inr next) refused
    rw [foldl_cons, accepted]
    exact ih fits

/-- The limit does not show exactly when the table without it fits. -/
theorem boundedWriteAll_eq_iff :
    boundedWriteAll same maxEntries entries = writeAll same entries ↔
      (writeAll same entries).length ≤ maxEntries := by
  constructor
  · intro equal
    rw [← equal]
    exact length_foldl_write_le same (Nat.zero_le _)
  · exact foldl_write_eq same

theorem mem_update (member : held ∈ update same entry table) :
    held = entry ∨ held ∈ table := by
  induction table with
  | nil => exact .inl (mem_singleton.mp member)
  | cons old table ih =>
    unfold update at member
    split at member
    · obtain here | later := mem_cons.mp member
      · exact .inl here
      · exact .inr (mem_cons_of_mem _ later)
    · obtain here | later := mem_cons.mp member
      · exact .inr (here ▸ mem_cons_self)
      · exact (ih later).imp_right (mem_cons_of_mem _)

theorem mem_boundedWriteAll (member : held ∈ boundedWriteAll same maxEntries entries) :
    held ∈ entries := by
  induction entries using reverseRecOn with
  | nil => exact member
  | append_singleton entries entry ih =>
    rw [boundedWriteAll, foldl_append, ← boundedWriteAll, foldl_cons, foldl_nil, write] at member
    split at member
    · obtain rfl | old := mem_update same member
      · exact mem_append_right _ mem_cons_self
      · exact mem_append_left _ (ih old)
    · exact mem_append_left _ (ih member)

theorem eraseDups_append_singleton [DecidableEq κ] {keys : List κ} (key : κ) :
    (keys ++ [key]).eraseDups = if key ∈ keys then keys.eraseDups else keys.eraseDups ++ [key] := by
  rw [eraseDups_append]
  split
  next old => simp [List.removeAll, old]
  next new => simp [List.removeAll, new, eraseDups_cons]

end BoundedTable
