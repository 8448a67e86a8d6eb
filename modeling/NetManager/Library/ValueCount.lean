import Mathlib.Data.List.AList

/-!
# Values of an association list

How often a value stands in an association list, under any key, and how insertions and
removals change that.
-/

namespace ValueCount

open List

variable {α β : Type*} [DecidableEq α] [DecidableEq β]

/-- How often a value stands in the list. -/
def valueCount (table : AList fun _ : α => β) (value : β) : Nat :=
  (table.entries.map Sigma.snd).count value

theorem valueCount_erase (table : AList fun _ : α => β) (key : α) (value : β) :
    valueCount table value =
      valueCount (table.erase key) value + if table.lookup key = some value then 1 else 0 := by
  by_cases present : key ∈ table
  · obtain ⟨found, before, after, -, isEntries, isErased⟩ :=
      exists_of_kerase (AList.mem_keys.mp present)
    have isFound : table.lookup key = some found := by
      apply AList.mem_lookup_iff.mpr
      rw [isEntries]
      exact mem_append_right before mem_cons_self
    have isRest : (table.erase key).entries = before ++ after := isErased
    unfold valueCount
    rw [isFound, isRest, isEntries, map_append, map_append, map_cons,
      count_append, count_append, count_cons, Nat.add_assoc]
    simp
  · have absent : table.lookup key = none := AList.lookup_eq_none.mpr present
    have same : (table.erase key).entries = table.entries := kerase_of_notMem_keys present
    unfold valueCount
    rw [absent, same, if_neg (Option.some_ne_none value).symm, Nat.add_zero]

theorem valueCount_insert (table : AList fun _ : α => β) :
    valueCount (table.insert key value) other =
      valueCount (table.erase key) other + if value = other then 1 else 0 := by
  have entries : (table.insert key value).entries = ⟨key, value⟩ :: (table.erase key).entries :=
    AList.entries_insert
  unfold valueCount
  rw [entries, map_cons, count_cons]
  simp

omit [DecidableEq β] in
theorem insert_erase (table : AList fun _ : α => β) :
    (table.erase key).insert key value = table.insert key value := by
  apply AList.ext
  have absent : key ∉ table.erase key := by
    rw [AList.mem_erase]
    exact fun present => present.1 rfl
  rw [AList.entries_insert_of_notMem absent]
  rfl

end ValueCount
