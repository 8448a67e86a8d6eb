import Mathlib.Data.List.Basic

/-!
# The cache of lists

`LRUCache` keeps a list of values for each key, the key that was used last in front. A
new key beyond the capacity removes the one at the end.
-/

namespace NetManager.Common

open List

def defaultCapability : Nat := 100

/-- `LRUCache`: `nodeList_`, with `cache_` as the search in it. -/
structure LruCache (ρ : Type) where
  nodeList : List (String × List ρ) := []

namespace LruCache

variable {ρ : Type}

section

variable (cache : LruCache ρ) (key : String)

/-- The values of a key. -/
def values : List ρ :=
  match cache.nodeList.find? (·.1 = key) with
  | none => []
  | some node => node.2

/-- The nodes of other keys. -/
def others : List (String × List ρ) :=
  cache.nodeList.filter (·.1 ≠ key)

/-- `cache_.find(key) != cache_.end()`. -/
def contains : Bool := cache.nodeList.any (·.1 = key)

/-- `Get`: the values, with the node in front. -/
def get : List ρ × LruCache ρ :=
  if cache.contains key then
    (cache.values key, { nodeList := (key, cache.values key) :: cache.others key })
  else ([], cache)

/-- `EraseTailNode`, if there are too many nodes. -/
def trim (nodeList : List (String × List ρ)) : LruCache ρ where
  nodeList := if nodeList.length > defaultCapability then nodeList.dropLast else nodeList

def put (value : ρ) : LruCache ρ :=
  if cache.contains key then trim ((key, cache.values key ++ [value]) :: cache.others key)
  else trim ((key, [value]) :: cache.nodeList)

def delete : LruCache ρ where
  nodeList := cache.others key

end

def clear (_ : LruCache ρ) : LruCache ρ := {}

/-! ## Values -/

variable {cache : LruCache ρ} {key other : String} {value : ρ}

theorem values_cons :
    values { nodeList := (key, list) :: nodes } other =
      if key = other then list else values { nodeList := nodes } other := by
  unfold values
  by_cases here : key = other
  · simp [here]
  · simp [here]

theorem values_others :
    values { nodeList := cache.others key } other =
      if key = other then [] else cache.values other := by
  obtain ⟨nodes⟩ := cache
  induction nodes with
  | nil => split <;> rfl
  | cons node nodes ih =>
    unfold others at ih ⊢
    rw [values_cons]
    by_cases here : node.1 = key
    · rw [filter_cons_of_neg (by simpa using here), ih, here]
      split <;> rfl
    · rw [filter_cons_of_pos (by simpa using here), values_cons, ih]
      by_cases same : node.1 = other
      · rw [if_pos same, if_neg fun is => here (same.trans is.symm), if_pos same]
      · rw [if_neg same, if_neg same]

theorem values_eq_nil_of_not_contains (absent : cache.contains key = false) :
    cache.values key = [] := by
  have none : cache.nodeList.find? (·.1 = key) = none := by
    refine find?_eq_none.mpr fun node member here => ?_
    exact Bool.false_ne_true (absent.symm.trans (any_eq_true.mpr ⟨node, member, here⟩))
  unfold values
  rw [none]

theorem get_fst : (cache.get key).1 = cache.values key := by
  unfold get
  split
  · rfl
  next absent => exact (values_eq_nil_of_not_contains (Bool.eq_false_iff.mpr absent)).symm

theorem values_get : (cache.get key).2.values other = cache.values other := by
  unfold get
  split
  · rw [values_cons, values_others]
    split
    next here => rw [here]
    · rfl
  · rfl

theorem mem_values_trim (member : value ∈ (trim nodes).values key) :
    value ∈ values { nodeList := nodes } key := by
  unfold trim at member
  split at member
  case isFalse => exact member
  case isTrue =>
    unfold values at member ⊢
    rcases eq_nil_or_concat nodes with rfl | ⟨front, last, rfl⟩
    · exact member
    · rw [concat_eq_append] at member ⊢
      rw [dropLast_concat] at member
      rw [find?_append]
      cases found : front.find? (·.1 = key) with
      | none =>
        rw [found] at member
        cases member
      | some node =>
        rw [found] at member
        exact member

theorem mem_values_put (member : value ∈ (cache.put key new).values other) :
    value ∈ cache.values other ∨ key = other ∧ value = new := by
  unfold put at member
  split at member
  · have untrimmed := mem_values_trim member
    rw [values_cons, values_others] at untrimmed
    split at untrimmed
    next here =>
      rw [mem_append, mem_singleton, here] at untrimmed
      exact untrimmed.imp_right fun is => ⟨here, is⟩
    · exact .inl untrimmed
  · have untrimmed := mem_values_trim member
    rw [values_cons] at untrimmed
    split at untrimmed
    next here => exact .inr ⟨here, mem_singleton.mp untrimmed⟩
    · exact .inl untrimmed

theorem mem_values_delete (member : value ∈ (cache.delete key).values other) :
    key ≠ other ∧ value ∈ cache.values other := by
  rw [delete, values_others] at member
  split at member
  · cases member
  next different => exact ⟨different, member⟩

end LruCache

end NetManager.Common
