import Mathlib.Data.List.Basic

/-!
# Searches in texts

Functions of `CommonUtils` that walk through a text from one position to the next.
-/

namespace NetManager.CommonUtils

open List

/-- `find` of a character, from a position on. -/
def findChar (c : Char) (text : List Char) (pos : Nat) : Option Nat :=
  ((text.drop pos).findIdx? (· == c)).map (pos + ·)

/-- `find` of a text, from a position on. -/
def find (pattern text : List Char) (pos : Nat) : Option Nat :=
  (range' pos (text.length + 1 - pos)).find? fun i => pattern.isPrefixOf (text.drop i)

theorem findChar_spec (c : Char) (text : List Char) (pos : Nat) :
    ∃ item, c ∉ item ∧
      ((findChar c text pos = none ∧ text.drop pos = item) ∨
        ∃ rest, findChar c text pos = some (pos + item.length) ∧
          text.drop pos = item ++ c :: rest) := by
  unfold findChar
  cases found : (text.drop pos).findIdx? (· == c) with
  | none =>
    rw [findIdx?_eq_none_iff] at found
    exact ⟨_, fun member => by simpa using found c member, .inl ⟨rfl, rfl⟩⟩
  | some i =>
    obtain ⟨inside, isChar, before⟩ := findIdx?_eq_some_iff_getElem.mp found
    refine ⟨(text.drop pos).take i, fun member => ?_, .inr ⟨(text.drop pos).drop (i + 1), ?_, ?_⟩⟩
    · obtain ⟨j, within, same⟩ := mem_take_iff_getElem.mp member
      exact before j (by omega) (by simpa using same)
    · rw [Option.map_some, length_take_of_le (Nat.le_of_lt inside)]
    · rw [← beq_iff_eq.mp isChar, getElem_cons_drop, take_append_drop]

theorem find_eq_self_iff (pattern : List Char) (inside : pos ≤ text.length) :
    find pattern text pos = some pos ↔ pattern <+: text.drop pos := by
  unfold find
  rw [Nat.sub_add_comm inside, range'_succ, find?_cons, ← isPrefixOf_iff_prefix]
  split
  next here => simp [here]
  next notHere =>
    rw [notHere]
    refine ⟨fun found => ?_, nofun⟩
    have later := mem_of_find?_eq_some found
    rw [mem_range'_1] at later
    omega

/-! ## Pinned keys -/

def sha256Base64Len : Nat := 44

def pinnedPrefixLen : Nat := 8

/-- What a pinned key starts with. -/
def sha256 : List Char := "sha256//".toList

variable (certPubKeyDigest pinnedPubkey : List Char)

/-- The end of the item at a position. -/
def itemEnd (start : Nat) : Nat := (findChar ';' pinnedPubkey start).getD pinnedPubkey.length

theorem le_itemEnd (start : Nat) (inside : start ≤ pinnedPubkey.length) :
    start ≤ itemEnd pinnedPubkey start := by
  unfold itemEnd
  obtain ⟨item, -, ⟨none, -⟩ | ⟨rest, some, -⟩⟩ := findChar_spec ';' pinnedPubkey start
  · rw [none]
    exact inside
  · rw [some]
    exact Nat.le_add_right start item.length

/-- The rounds of `IsCertPubKeyInPinned` from a position on. -/
def isInPinnedFrom (start : Nat) : Bool :=
  if start < pinnedPubkey.length then
    let last := itemEnd pinnedPubkey start
    if find sha256 pinnedPubkey start ≠ some start then isInPinnedFrom (last + 1)
    else if last - start ≠ pinnedPrefixLen + sha256Base64Len then isInPinnedFrom (last + 1)
    else
      let candidate := (pinnedPubkey.drop (start + pinnedPrefixLen)).take sha256Base64Len
      if candidate = certPubKeyDigest then true else isInPinnedFrom (last + 1)
  else false
termination_by pinnedPubkey.length - start
decreasing_by
  all_goals
    have := le_itemEnd pinnedPubkey start (by omega)
    omega

def isCertPubKeyInPinned : Bool :=
  if find sha256 pinnedPubkey 0 ≠ some 0 then false
  else isInPinnedFrom certPubKeyDigest pinnedPubkey 0

variable {certPubKeyDigest pinnedPubkey}

/-- The three tests of a round, for an item and what follows on it. -/
theorem isItem_iff (digest : certPubKeyDigest.length = sha256Base64Len) :
    (sha256 <+: item ++ rest ∧ item.length = pinnedPrefixLen + sha256Base64Len ∧
        ((item ++ rest).drop pinnedPrefixLen).take sha256Base64Len = certPubKeyDigest) ↔
      item = sha256 ++ certPubKeyDigest := by
  have eight : sha256.length = pinnedPrefixLen := rfl
  constructor
  · rintro ⟨starts, length, same⟩
    obtain ⟨more, rfl⟩ : sha256 <+: item :=
      prefix_of_prefix_length_le starts (prefix_append item rest) (by omega)
    rw [length_append] at length
    rw [append_assoc, ← eight, drop_left, take_left' (by omega)] at same
    rw [same]
  · rintro rfl
    refine ⟨⟨certPubKeyDigest ++ rest, (append_assoc ..).symm⟩, ?_, ?_⟩
    · rw [length_append, digest, eight]
    · rw [append_assoc, ← eight, drop_left, take_left' digest]

theorem exists_item :
    ∃ item rest, pinnedPubkey.drop start = item ++ rest ∧
      itemEnd pinnedPubkey start - start = item.length ∧
      ∀ other ≠ [], other ∈ (pinnedPubkey.drop start).splitOn ';' ↔ item = other ∨
          other ∈ (pinnedPubkey.drop (itemEnd pinnedPubkey start + 1)).splitOn ';' := by
  unfold itemEnd
  obtain ⟨item, noSeparator, ⟨none, all⟩ | ⟨rest, some, split⟩⟩ :=
    findChar_spec ';' pinnedPubkey start
  · refine ⟨item, [], all.trans (append_nil item).symm, ?_, fun other nonempty => ?_⟩
    · rw [none, ← all, length_drop]
      rfl
    · rw [none, Option.getD_none, drop_eq_nil_of_le (Nat.le_succ _), all,
        splitOn_eq_singleton noSeparator, splitOn_nil, mem_singleton, mem_singleton, eq_comm,
        or_iff_left nonempty]
  · refine ⟨item, ';' :: rest, split, ?_, fun other _ => ?_⟩
    · rw [some, Option.getD_some, Nat.add_sub_cancel_left]
    · have rest_eq : pinnedPubkey.drop (start + item.length + 1) = rest := by
        rw [Nat.add_assoc, ← drop_drop, split, ← drop_drop, drop_left]
        rfl
      rw [some, Option.getD_some, rest_eq, split, splitOn_append_cons_self_of_not_mem noSeparator,
        mem_cons, eq_comm]

theorem isInPinnedFrom_iff (digest : certPubKeyDigest.length = sha256Base64Len) (start : Nat) :
    isInPinnedFrom certPubKeyDigest pinnedPubkey start = true ↔
      sha256 ++ certPubKeyDigest ∈ (pinnedPubkey.drop start).splitOn ';' := by
  have nonempty : sha256 ++ certPubKeyDigest ≠ [] := nofun
  rw [isInPinnedFrom]
  split
  next inside =>
    have later := isInPinnedFrom_iff digest (itemEnd pinnedPubkey start + 1)
    obtain ⟨item, rest, split, length, items⟩ := exists_item
    rw [items _ nonempty, ← isItem_iff digest, ← later, ← split, ← length,
      ← find_eq_self_iff sha256 (Nat.le_of_lt inside), drop_drop]
    grind
  next outside =>
    rw [drop_eq_nil_of_le (Nat.not_lt.mp outside), splitOn_nil, mem_singleton]
    exact iff_of_false Bool.false_ne_true nonempty
termination_by pinnedPubkey.length - start
decreasing_by
  have := le_itemEnd pinnedPubkey start (by omega)
  omega

/-- A key is pinned if the text starts as a pin does and has the key among its items. -/
theorem isCertPubKeyInPinned_iff (digest : certPubKeyDigest.length = sha256Base64Len) :
    isCertPubKeyInPinned certPubKeyDigest pinnedPubkey = true ↔
      sha256 <+: pinnedPubkey ∧ sha256 ++ certPubKeyDigest ∈ pinnedPubkey.splitOn ';' := by
  have starts := find_eq_self_iff sha256 (Nat.zero_le pinnedPubkey.length)
  unfold isCertPubKeyInPinned
  split
  next other => exact iff_of_false Bool.false_ne_true fun both => other (starts.mpr both.1)
  next isStart =>
    rw [isInPinnedFrom_iff digest]
    exact (and_iff_right (starts.mp (not_not.mp isStart))).symm

/-- A pin that is not of this form is passed over. -/
theorem isCertPubKeyInPinned_second : let digest := replicate 44 'A'
    isCertPubKeyInPinned digest ("sha256//x;y;sha256//".toList ++ digest) = true := by
  refine (isCertPubKeyInPinned_iff (length_replicate ..)).mpr ⟨by decide, by decide⟩

end NetManager.CommonUtils
