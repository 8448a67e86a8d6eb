import Mathlib.Data.List.Infix
import NetManager.Library.BoundedTable

/-!
# Longest-prefix-match tables over strings

A table maps strings to values. Looking a string up returns the value of the longest
key that is a prefix of it. A bounded table keeps the keys that were written first.
-/

namespace StringTrie

open List

variable {β α : Type*} [DecidableEq β]

/-- The entry with the longest key that is a prefix of a string. -/
def longest (string : List β) : List (List β × α) → Option (List β × α)
  | [] => none
  | entry :: table =>
    if entry.1 <+: string then
      match longest string table with
      | none => some entry
      | some best => if entry.1.length < best.1.length then some best else some entry
    else longest string table

/-- Look a string up. -/
def lookup (string : List β) (table : List (List β × α)) : Option α :=
  (longest string table).map Prod.snd

variable {table : List (List β × α)}

theorem longest_mem (is : longest string table = some found) :
    found ∈ table ∧ found.1 <+: string := by
  induction table with
  | nil => cases is
  | cons entry table ih =>
    unfold longest at is
    split at is
    case isFalse =>
      obtain ⟨member, covers⟩ := ih is
      exact ⟨mem_cons_of_mem _ member, covers⟩
    case isTrue covers =>
      split at is
      · obtain rfl := Option.some.inj is
        exact ⟨mem_cons_self, covers⟩
      next best later =>
        split at is
        · obtain rfl := Option.some.inj is
          obtain ⟨member, coversLater⟩ := ih later
          exact ⟨mem_cons_of_mem _ member, coversLater⟩
        · obtain rfl := Option.some.inj is
          exact ⟨mem_cons_self, covers⟩

theorem longest_eq_none_iff :
    longest string table = none ↔ ∀ entry ∈ table, ¬entry.1 <+: string := by
  induction table with
  | nil => simp [longest]
  | cons entry table ih =>
    unfold longest
    split
    case isFalse covers => simp [covers, ih]
    case isTrue covers =>
      refine iff_of_false ?_ fun none => none entry mem_cons_self covers
      split
      · simp
      · split <;> simp

/-- In a table with one value, a lookup finds it exactly when a key is a prefix. -/
theorem lookup_eq_some_iff (values : ∀ entry ∈ table, entry.2 = value) :
    lookup string table = some value ↔ ∃ key ∈ table.map Prod.fst, key <+: string := by
  unfold lookup
  cases is : longest string table with
  | none =>
    have uncovered := longest_eq_none_iff.mp is
    refine iff_of_false (by simp) ?_
    rintro ⟨key, member, covers⟩
    obtain ⟨entry, entryMember, rfl⟩ := mem_map.mp member
    exact uncovered entry entryMember covers
  | some found =>
    obtain ⟨member, covers⟩ := longest_mem is
    refine iff_of_true ?_ ⟨found.1, mem_map_of_mem member, covers⟩
    rw [Option.map_some, values found member]

end StringTrie

namespace BoundedTable

open List

variable {κ α : Type*} [DecidableEq κ]

theorem keys_update (table : List (κ × α)) :
    (update Eq entry table).map Prod.fst =
      if entry.1 ∈ table.map Prod.fst then table.map Prod.fst
      else table.map Prod.fst ++ [entry.1] := by
  induction table with
  | nil => rfl
  | cons old table ih =>
    unfold update
    by_cases here : old.1 = entry.1
    · simp [here]
    · rw [if_neg here, map_cons, ih]
      have elsewhere : entry.1 ≠ old.1 := Ne.symm here
      simp only [map_cons, mem_cons, elsewhere, false_or]
      split <;> rfl

variable (maxEntries : Nat)

theorem keys_write (entry : κ × α) :
    (write Eq maxEntries table entry).map Prod.fst =
      if entry.1 ∈ table.map Prod.fst then table.map Prod.fst
      else if table.length < maxEntries then table.map Prod.fst ++ [entry.1]
      else table.map Prod.fst := by
  have held : (∃ old ∈ table, old.1 = entry.1) ↔ entry.1 ∈ table.map Prod.fst := by
    simp
  unfold write
  by_cases old : entry.1 ∈ table.map Prod.fst
  · rw [if_pos (.inl (held.mpr old)), keys_update]
    simp [old]
  · by_cases room : table.length < maxEntries
    · rw [if_pos (.inr room), keys_update, if_neg old, if_neg old, if_pos room]
    · rw [if_neg (by rw [held]; exact not_or.mpr ⟨old, room⟩), if_neg old, if_neg room]

/-- The first distinct keys of a list, up to a number of them. -/
def firstKeys (keys : List κ) : List κ := keys.eraseDups.take maxEntries

theorem mem_of_mem_firstKeys {maxEntries : Nat} {keys : List κ} {key : κ}
    (member : key ∈ firstKeys maxEntries keys) :
    key ∈ keys :=
  mem_eraseDups.mp (mem_of_mem_take member)

theorem keys_boundedWriteAll (entries : List (κ × α)) :
    (boundedWriteAll Eq maxEntries entries).map Prod.fst =
      firstKeys maxEntries (entries.map Prod.fst) := by
  unfold firstKeys
  induction entries using List.reverseRecOn with
  | nil => simp [boundedWriteAll]
  | append_singleton entries entry ih =>
    have last : boundedWriteAll Eq maxEntries (entries ++ [entry]) =
        write Eq maxEntries (boundedWriteAll Eq maxEntries entries) entry := by
      simp [boundedWriteAll]
    have length : (boundedWriteAll Eq maxEntries entries).length =
        min maxEntries (entries.map Prod.fst).eraseDups.length := by
      rw [← length_map Prod.fst, ih, length_take]
    rw [last, keys_write, length, ih, map_append, map_cons, map_nil, eraseDups_append_singleton]
    generalize entries.map Prod.fst = keys
    by_cases held : entry.1 ∈ keys.eraseDups.take maxEntries
    · have old : entry.1 ∈ keys := mem_eraseDups.mp (mem_of_mem_take held)
      rw [if_pos held, if_pos old]
    · rw [if_neg held]
      by_cases room : keys.eraseDups.length < maxEntries
      · -- Nothing was refused so far.
        have all : keys.eraseDups.take maxEntries = keys.eraseDups := take_of_length_le room.le
        have new : entry.1 ∉ keys := by
          rw [all, mem_eraseDups] at held
          exact held
        rw [if_pos (by omega), if_neg new, all, take_of_length_le]
        rw [length_append]
        exact room
      · have full : maxEntries ≤ keys.eraseDups.length := Nat.le_of_not_lt room
        rw [if_neg (by omega)]
        split
        · rfl
        · rw [take_append_of_le_length full]

end BoundedTable
