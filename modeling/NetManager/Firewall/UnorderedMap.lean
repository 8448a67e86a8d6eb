import NetManager.Firewall.Bitmap

/-!
# Maps from fields to rules

`BpfUnorderedMap` maps the value of one field of a rule to the rules that have
it. The order in which the map is walked does not matter, so an association
list with one entry for each key stands for it. The kernel map it is written to
is a function.
-/

namespace NetManager.Firewall

open List

abbrev BpfUnorderedMap (κ : Type) := List (κ × Bitmap)

namespace BpfUnorderedMap

variable {κ : Type} [DecidableEq κ]

/-- `BpfUnorderedMap::OrInsert`. -/
def orInsert (key : κ) (val : Bitmap) : BpfUnorderedMap κ → BpfUnorderedMap κ
  | [] => [(key, val)]
  | entry :: map =>
    if entry.1 = key then (entry.1, entry.2.or val) :: map
    else entry :: orInsert key val map

/-- `BpfUnorderedMap::OrForEach`. -/
def orForEach (map : BpfUnorderedMap κ) (other : Bitmap) : BpfUnorderedMap κ :=
  map.map fun entry => (entry.1, entry.2.or other)

/-- The value of a key. -/
def find (key : κ) : BpfUnorderedMap κ → Option Bitmap
  | [] => none
  | entry :: map => if entry.1 = key then some entry.2 else find key map

@[simp] theorem find_nil (key : κ) : find key [] = none := rfl

variable {map : BpfUnorderedMap κ}

theorem find_ne_none_of_mem (member : entry ∈ map) : find entry.1 map ≠ none := by
  induction map with
  | nil => cases member
  | cons head map ih =>
    unfold find
    split
    · exact Option.some_ne_none _
    next other =>
      rcases mem_cons.mp member with rfl | later
      · exact absurd rfl other
      · exact ih later

theorem find_orInsert :
    find other (orInsert key val map) =
      if other = key then some (((find key map).getD Bitmap.clear).or val)
      else find other map := by
  induction map with
  | nil =>
    by_cases same : other = key
    · simp [orInsert, find, same]
    · simp [orInsert, find, same, Ne.symm same]
  | cons entry map ih =>
    by_cases here : entry.1 = key
    · by_cases same : other = key
      · simp [orInsert, find, here, same]
      · simp [orInsert, find, here, same, Ne.symm same]
    · by_cases same : other = key
      · subst same
        simpa [orInsert, find, here] using ih
      · by_cases found : entry.1 = other
        · simp [orInsert, find, same, found]
        · simp [orInsert, find, here, same, found, ih]

theorem find_orForEach :
    find key (orForEach map other) = (find key map).map fun bitmap => bitmap.or other := by
  induction map with
  | nil => rfl
  | cons entry map ih =>
    by_cases here : entry.1 = key
    · simp [orForEach, find, here]
    · simpa [orForEach, find, here] using ih

/-- Every key has one entry. -/
def DistinctKeys (map : BpfUnorderedMap κ) : Prop :=
  map.Pairwise fun first second => first.1 ≠ second.1

theorem mem_keys_orInsert (member : entry ∈ orInsert key val map) :
    entry.1 = key ∨ ∃ old ∈ map, old.1 = entry.1 := by
  induction map with
  | nil => exact Or.inl (congrArg Prod.fst (mem_singleton.mp member))
  | cons head map ih =>
    unfold orInsert at member
    split at member
    · rcases mem_cons.mp member with rfl | later
      · exact Or.inr ⟨head, mem_cons_self, rfl⟩
      · exact Or.inr ⟨entry, mem_cons_of_mem _ later, rfl⟩
    · rcases mem_cons.mp member with rfl | later
      · exact Or.inr ⟨_, mem_cons_self, rfl⟩
      · rcases ih later with here | ⟨old, oldMember, same⟩
        · exact Or.inl here
        · exact Or.inr ⟨old, mem_cons_of_mem _ oldMember, same⟩

theorem DistinctKeys.orInsert (distinct : DistinctKeys map) :
    DistinctKeys (orInsert key val map) := by
  induction map with
  | nil => exact pairwise_singleton _ _
  | cons head map ih =>
    obtain ⟨headNew, rest⟩ := pairwise_cons.mp distinct
    unfold BpfUnorderedMap.orInsert
    split
    · exact pairwise_cons.mpr ⟨headNew, rest⟩
    next other =>
      refine pairwise_cons.mpr ⟨fun entry member => ?_, ih rest⟩
      rcases mem_keys_orInsert member with here | ⟨old, oldMember, same⟩
      · exact here ▸ other
      · exact same ▸ headNew old oldMember

omit [DecidableEq κ] in
theorem orForEach_orForEach (map : BpfUnorderedMap κ) (first second : Bitmap) :
    orForEach (orForEach map first) second = orForEach map (first.or second) := by
  simp [orForEach, Bitmap.or_assoc]

omit [DecidableEq κ] in
@[simp] theorem orForEach_clear (map : BpfUnorderedMap κ) : orForEach map Bitmap.clear = map := by
  simp [orForEach]

end BpfUnorderedMap

end NetManager.Firewall
