import NetManager.Library.BoundedTable
import NetManager.Library.Prefix

/-!
# Longest-prefix-match tables

A table maps networks to values. Writing a prefix replaces the entry of the
same network, whatever its host bits, and looking an address up returns the
value of the longest prefix that covers it. `Wins` says which of a list of
writes a lookup finds: the last among the longest covering ones.
-/

namespace PrefixTable

open List AddressPrefix
open BoundedTable (update)

variable {w : Nat} {α : Type*}

/-- The contents of a table, one entry for each network. -/
abbrev Table (w : Nat) (α : Type*) := List (Prefix w × α)

/-- The longest prefix that covers an address, with its value. -/
def longest (a : BitVec w) : Table w α → Option (Prefix w × α)
  | [] => none
  | entry :: table =>
    if entry.1.Covers a then
      match longest a table with
      | none => some entry
      | some best => if entry.1.len < best.1.len then some best else some entry
    else longest a table

/-- Look an address up. -/
def lookup (a : BitVec w) (table : Table w α) : Option α := (longest a table).map Prod.snd

/-- Write a list of entries in order into an empty table. -/
def writeAll (entries : List (Prefix w × α)) : Table w α :=
  BoundedTable.writeAll Prefix.SameNetwork entries

@[simp] theorem writeAll_nil : writeAll ([] : List (Prefix w × α)) = [] := rfl

@[simp] theorem writeAll_append_singleton :
    writeAll (entries ++ [entry]) = update Prefix.SameNetwork entry (writeAll entries) := by
  simp [writeAll, BoundedTable.writeAll]

/-- The entry a later write competes with: a covering write beats every entry
that is not longer. -/
def challenge (a : BitVec w) (entry : Prefix w × α)
    (best : Option (Prefix w × α)) : Option (Prefix w × α) :=
  if entry.1.Covers a ∧ ∀ old ∈ best, old.1.len ≤ entry.1.len then some entry
  else best

theorem longest_update :
    longest a (update Prefix.SameNetwork new table) = challenge a new (longest a table) := by
  obtain ⟨p, value⟩ := new
  induction table with
  | nil => simp [update, longest, challenge]
  | cons entry table ih =>
    by_cases same : entry.1.SameNetwork p
    · have covers := same.covers_iff a
      have len : entry.1.len = p.len := same.1
      by_cases inside : p.Covers a
      · cases rest : longest a table with
        | none => simp [update, same, longest, rest, covers, inside, challenge, len]
        | some best =>
          by_cases shorter : p.len < best.1.len
          · simp [update, same, longest, rest, covers, inside, challenge, len, shorter]
          · simp [update, same, longest, rest, covers, inside, challenge, len, shorter]
      · simp [update, same, longest, covers, inside, challenge]
    · simp only [update, same, if_false, longest, ih]
      by_cases inside : entry.1.Covers a
      · simp only [inside, if_true]
        by_cases covers : p.Covers a
        · -- both cover `a`, so their lengths differ
          have lengths : entry.1.len ≠ p.len := fun equal =>
            same (Prefix.sameNetwork_of_covers equal inside covers)
          cases rest : longest a table with
          | none =>
            by_cases shorter : entry.1.len < p.len
            · simp [challenge, covers, shorter, Nat.le_of_lt shorter]
            · simp [challenge, covers, shorter, show ¬ entry.1.len ≤ p.len by omega]
          | some best =>
            simp only [challenge, covers, true_and, Option.mem_some_iff, forall_eq']
            by_cases bestLe : best.1.len ≤ p.len
            · by_cases shorter : entry.1.len < best.1.len
              · simp [bestLe, shorter, show entry.1.len < p.len by omega]
              · by_cases below : entry.1.len < p.len
                · simp [bestLe, shorter, below, Nat.le_of_lt below]
                · simp [bestLe, shorter, below, show ¬ entry.1.len ≤ p.len by omega]
            · by_cases shorter : entry.1.len < best.1.len
              · simp [bestLe, shorter]
              · simp [bestLe, shorter, show ¬ entry.1.len ≤ p.len by omega]
        · simp [challenge, covers]
      · simp [inside]

/-- The element of a list of writes that a lookup of `a` finds: it covers `a`,
no other covering write is longer, and no later one is as long. -/
def Wins {β : Type*} (key : β → Prefix w) (entries : List β) (a : BitVec w) (entry : β) : Prop :=
  ∃ earlier later, entries = earlier ++ entry :: later ∧ (key entry).Covers a ∧
    (∀ other ∈ earlier, (key other).Covers a → (key other).len ≤ (key entry).len) ∧
    (∀ other ∈ later, (key other).Covers a → (key other).len < (key entry).len)

section Wins

variable {β : Type*} {key : β → Prefix w} {entries : List β} {a : BitVec w} {entry other : β}

section

variable (wins : Wins key entries a entry)
include wins

theorem Wins.covers : (key entry).Covers a := by
  obtain ⟨_, _, _, covers, _, _⟩ := wins
  exact covers

theorem Wins.mem : entry ∈ entries := by
  obtain ⟨_, _, rfl, _, _, _⟩ := wins
  simp

theorem Wins.len_le (member : other ∈ entries) (covers : (key other).Covers a) :
    (key other).len ≤ (key entry).len := by
  obtain ⟨earlier, later, rfl, _, before, after⟩ := wins
  rcases mem_append.mp member with early | late
  · exact before other early covers
  · rcases mem_cons.mp late with rfl | late
    · exact le_rfl
    · exact (after other late covers).le

end

theorem Wins.map (f : β → γ)
    (sameKey : ∀ element, newKey (f element) = key element) (wins : Wins key entries a entry) :
    Wins newKey (entries.map f) a (f entry) := by
  obtain ⟨earlier, later, rfl, covers, before, after⟩ := wins
  refine ⟨earlier.map f, later.map f, by simp, ?_, ?_, ?_⟩
  · rw [sameKey]
    exact covers
  · simpa only [forall_mem_map, sameKey] using before
  · simpa only [forall_mem_map, sameKey] using after

theorem Wins.unique (first : Wins key entries a entry) (second : Wins key entries a other) :
    entry = other := by
  have sameLen : (key entry).len = (key other).len :=
    le_antisymm (second.len_le first.mem first.covers) (first.len_le second.mem second.covers)
  obtain ⟨earlier, later, split, covers, before, after⟩ := first
  obtain ⟨earlier', later', split', covers', before', after'⟩ := second
  rw [split] at split'
  -- the two splits are at the same place, or one winner is after the other
  rcases append_eq_append_iff.mp split' with
    ⟨between, rfl, tail⟩ | ⟨between, rfl, tail⟩
  · cases between with
    | nil => exact (List.cons.inj tail).1
    | cons head between =>
      obtain ⟨rfl, rfl⟩ := List.cons.inj tail
      have shorter := after other (by simp) covers'
      omega
  · cases between with
    | nil => exact (List.cons.inj tail).1.symm
    | cons head between =>
      obtain ⟨rfl, rfl⟩ := List.cons.inj tail
      have shorter := after' entry (by simp) covers
      omega

theorem Wins.append_singleton (wins : Wins key entries a entry) (new : β) :
    if (key new).Covers a ∧ (key entry).len ≤ (key new).len then Wins key (entries ++ [new]) a new
    else Wins key (entries ++ [new]) a entry := by
  split
  next takes =>
    refine ⟨entries, [], rfl, takes.1, ?_, by simp⟩
    intro other member covers
    exact (wins.len_le member covers).trans takes.2
  next keeps =>
    obtain ⟨earlier, later, rfl, covers, before, after⟩ := wins
    refine ⟨earlier, later ++ [new], by simp, covers, before, ?_⟩
    intro other member otherCovers
    rcases mem_append.mp member with late | last
    · exact after other late otherCovers
    · rw [mem_singleton.mp last] at otherCovers ⊢
      by_contra notShorter
      exact keeps ⟨otherCovers, Nat.not_lt.mp notShorter⟩

theorem wins_append_singleton_of_uncovered
    (uncovered : ∀ element ∈ entries, ¬ (key element).Covers a) (covers : (key entry).Covers a) :
    Wins key (entries ++ [entry]) a entry := by
  refine ⟨entries, [], rfl, covers, ?_, by simp⟩
  intro other member otherCovers
  exact absurd otherCovers (uncovered other member)

theorem exists_wins (covered : ∃ element ∈ entries, (key element).Covers a) :
    ∃ element, Wins key entries a element := by
  induction entries using List.reverseRecOn with
  | nil => simp at covered
  | append_singleton entries new ih =>
    by_cases before : ∃ element ∈ entries, (key element).Covers a
    · obtain ⟨winner, wins⟩ := ih before
      have next := wins.append_singleton new
      split at next
      · exact ⟨new, next⟩
      · exact ⟨winner, next⟩
    · have uncovered : ∀ element ∈ entries, ¬ (key element).Covers a :=
        fun element member covers => before ⟨element, member, covers⟩
      obtain ⟨element, member, covers⟩ := covered
      rcases mem_append.mp member with early | last
      · exact absurd covers (uncovered element early)
      · rw [mem_singleton.mp last] at covers
        exact ⟨new, wins_append_singleton_of_uncovered uncovered covers⟩

end Wins

theorem longest_writeAll :
    (∀ entry ∈ longest a (writeAll entries), Wins Prod.fst entries a entry) ∧
    (longest a (writeAll entries) = none → ∀ entry ∈ entries, ¬ entry.1.Covers a) := by
  induction entries using List.reverseRecOn with
  | nil => simp [longest]
  | append_singleton entries new ih =>
    rw [writeAll_append_singleton, longest_update]
    cases found : longest a (writeAll entries) with
    | none =>
      have uncovered := ih.2 found
      by_cases covers : new.1.Covers a
      · have wins := wins_append_singleton_of_uncovered uncovered covers
        simpa [challenge, covers] using wins
      · simpa [challenge, covers, or_imp, forall_and] using uncovered
    | some best =>
      have next := (ih.1 best found).append_singleton new
      simp only [challenge, Option.mem_some_iff, forall_eq']
      split at next
      next takes => simpa [takes] using next
      next keeps => simpa [keeps] using next

theorem lookup_writeAll_eq_none_iff :
    lookup a (writeAll entries) = none ↔ ∀ entry ∈ entries, ¬ entry.1.Covers a := by
  rw [lookup, Option.map_eq_none_iff]
  refine ⟨longest_writeAll.2, fun uncovered => ?_⟩
  cases found : longest a (writeAll entries) with
  | none => rfl
  | some entry =>
    have wins := longest_writeAll.1 entry found
    exact absurd wins.covers (uncovered entry wins.mem)

theorem lookup_writeAll_of_wins (wins : Wins Prod.fst entries a entry) :
    lookup a (writeAll entries) = some entry.2 := by
  cases found : longest a (writeAll entries) with
  | none =>
    exact absurd wins.covers (longest_writeAll.2 found entry wins.mem)
  | some best =>
    have bestWins := longest_writeAll.1 best found
    rw [lookup, found, Option.map_some, bestWins.unique wins]

end PrefixTable
