import Mathlib.Data.BitVec
import Mathlib.Data.Nat.Log
import Mathlib.Tactic.Ring

/-!
# Address prefixes

A prefix of a `w`-bit address is an address together with the number of its
leading bits that count. The remaining host bits may be arbitrary, so that two
different prefixes can denote the same network. A prefix covers the addresses
that agree with it on the leading bits; two prefixes are nested or disjoint.

Aligned blocks, the prefixes whose host bits are zero, are intervals of
addresses.
-/

namespace AddressPrefix

open List BitVec

/-- An address and the number of its leading bits that count. -/
@[ext] structure Prefix (w : Nat) where
  /-- Number of leading bits. -/
  len : Nat
  /-- The address; bits beyond `len` are host bits. -/
  addr : BitVec w
  deriving DecidableEq

variable {w : Nat}

/-- Two addresses have the same leading `len` bits. -/
def Agree (len : Nat) (a b : BitVec w) : Prop := a >>> (w - len) = b >>> (w - len)
deriving Decidable

variable {a b : BitVec w} {len : Nat}

theorem agree_iff_div : Agree len a b ↔ a.toNat / 2 ^ (w - len) = b.toNat / 2 ^ (w - len) := by
  rw [Agree, ← toNat_inj, toNat_ushiftRight,
    toNat_ushiftRight, Nat.shiftRight_eq_div_pow,
    Nat.shiftRight_eq_div_pow]

theorem Agree.refl : Agree len a a := rfl

theorem Agree.symm (agree : Agree len a b) : Agree len b a := Eq.symm agree

theorem Agree.trans (first : Agree len a b) (second : Agree len b c) :
    Agree len a c := Eq.trans first second

theorem Agree.shorten (le : short ≤ long) (agree : Agree long a b) :
    Agree short a b := by
  rw [agree_iff_div] at agree ⊢
  obtain ⟨extra, split⟩ : ∃ extra, w - short = (w - long) + extra :=
    ⟨(w - short) - (w - long), by omega⟩
  rw [split, pow_add, ← Nat.div_div_eq_div_mul, ← Nat.div_div_eq_div_mul, agree]

theorem agree_full (full : w ≤ len) : Agree len a b ↔ a = b := by
  rw [Agree, Nat.sub_eq_zero_of_le full]
  simp

theorem getLsbD_mask (inside : i < w) :
    (a &&& (allOnes w <<< (w - len))).getLsbD i = (decide (w - len ≤ i) && a.getLsbD i) := by
  by_cases host : i < w - len
  · simp [host, Nat.not_le.mpr host]
  · simp [host, inside, Nat.not_lt.mp host]

/-- Comparing the leading bits is comparing the masked addresses. -/
theorem mask_eq_mask_iff :
    a &&& (allOnes w <<< (w - len)) = b &&& (allOnes w <<< (w - len)) ↔
      Agree len a b := by
  constructor
  · intro masked
    apply eq_of_getLsbD_eq
    intro i _
    simp only [getLsbD_ushiftRight]
    by_cases inside : w - len + i < w
    · have bit := congrArg (fun v => v.getLsbD (w - len + i)) masked
      simpa [getLsbD_mask inside] using bit
    · rw [getLsbD_of_ge _ _ (by omega), getLsbD_of_ge _ _ (by omega)]
  · intro agree
    apply eq_of_getLsbD_eq
    intro i inside
    rw [getLsbD_mask inside, getLsbD_mask inside]
    by_cases host : w - len ≤ i
    · have bit := congrArg (fun v => v.getLsbD (i - (w - len))) agree
      simp only [getLsbD_ushiftRight] at bit
      rw [show w - len + (i - (w - len)) = i by omega] at bit
      rw [bit]
    · simp [host]

namespace Prefix

/-- A prefix covers the addresses that agree with it on its leading bits. -/
def Covers (p : Prefix w) (a : BitVec w) : Prop := Agree p.len a p.addr
deriving Decidable

theorem covers_addr (p : Prefix w) : p.Covers p.addr := Agree.refl

variable {p q : Prefix w}

/-- Inside a longer prefix, a shorter one covers all addresses or none. -/
theorem covers_iff_of_covers (le : p.len ≤ q.len) (covers : q.Covers a) :
    p.Covers a ↔ p.Covers q.addr :=
  ⟨(covers.shorten le).symm.trans, (covers.shorten le).trans⟩

/-- Two prefixes denote the same network. -/
def SameNetwork (p q : Prefix w) : Prop := p.len = q.len ∧ Agree p.len p.addr q.addr
deriving Decidable

theorem SameNetwork.covers_iff (same : p.SameNetwork q) (a : BitVec w) :
    p.Covers a ↔ q.Covers a := by
  obtain ⟨len, agree⟩ := same
  rw [Covers, Covers, ← len]
  exact ⟨fun h => h.trans agree, fun h => h.trans agree.symm⟩

theorem sameNetwork_of_covers (len : p.len = q.len) (left : p.Covers a) (right : q.Covers a) :
    p.SameNetwork q := by
  refine ⟨len, left.symm.trans ?_⟩
  rw [len]
  exact right

theorem covers_aligned (len : w - p.len = bits) (aligned : 2 ^ bits ∣ p.addr.toNat) :
    p.Covers a ↔ p.addr.toNat ≤ a.toNat ∧ a.toNat < p.addr.toNat + 2 ^ bits := by
  rw [Covers, agree_iff_div, len]
  obtain ⟨k, multiple⟩ := aligned
  have positive : 0 < 2 ^ bits := Nat.two_pow_pos bits
  rw [multiple, Nat.mul_div_cancel_left _ positive, Nat.div_eq_iff positive]
  constructor
  · rintro ⟨lower, upper⟩
    exact ⟨by rw [Nat.mul_comm]; exact lower, by rw [Nat.mul_comm]; omega⟩
  · rintro ⟨lower, upper⟩
    exact ⟨by rw [Nat.mul_comm]; exact lower, by rw [Nat.mul_comm k]; omega⟩

end Prefix

/-! ## Cutting an interval into blocks -/

/-- The blocks cover the addresses from `start` up to `current`, the latter
not included. -/
structure CutUpTo (start current : Nat)
    (blocks : List (Prefix w)) : Prop where
  start_le : start ≤ current
  covers : ∀ a : BitVec w, (∃ block ∈ blocks, block.Covers a) ↔ start ≤ a.toNat ∧ a.toNat < current
  len_le : ∀ block ∈ blocks, block.len ≤ w

theorem CutUpTo.nil : CutUpTo start start ([] : List (Prefix w)) := by
  refine ⟨le_rfl, fun a => ?_, by simp⟩
  constructor
  · rintro ⟨block, member, _⟩
    simp at member
  · omega

variable {blocks : List (Prefix w)} {start current : Nat} {addr : BitVec w}

theorem CutUpTo.append_block (cut : CutUpTo start current blocks) (small : bits ≤ w)
    (here : addr.toNat = current) (aligned : 2 ^ bits ∣ current) :
    CutUpTo start (current + 2 ^ bits) (blocks ++ [⟨w - bits, addr⟩]) := by
  have startLe := cut.start_le
  refine ⟨by omega, fun a => ?_, ?_⟩
  · have block : (⟨w - bits, addr⟩ : Prefix w).Covers a ↔
        current ≤ a.toNat ∧ a.toNat < current + 2 ^ bits := by
      rw [← here] at aligned ⊢
      exact Prefix.covers_aligned (Nat.sub_sub_self small) aligned
    simp only [mem_append, mem_singleton, or_and_right, exists_or,
      exists_eq_left, cut.covers a, block]
    omega
  · exact forall_mem_append.mpr ⟨cut.len_le, forall_mem_singleton.mpr (Nat.sub_le w bits)⟩

/-- No address lies in both prefixes. -/
def Prefix.Apart (p q : Prefix w) : Prop := ∀ a, p.Covers a → ¬ q.Covers a

/-- A prefix without host bits. -/
def Prefix.Aligned (p : Prefix w) : Prop := 2 ^ (w - p.len) ∣ p.addr.toNat

/-- A cut whose blocks are aligned and have no address in common. -/
structure TiledUpTo (start current : Nat)
    (blocks : List (Prefix w)) : Prop where
  cut : CutUpTo start current blocks
  aligned : ∀ block ∈ blocks, block.Aligned
  apart : blocks.Pairwise Prefix.Apart

theorem TiledUpTo.nil : TiledUpTo start start ([] : List (Prefix w)) :=
  ⟨CutUpTo.nil, by simp, List.Pairwise.nil⟩

theorem TiledUpTo.append_block (tiled : TiledUpTo start current blocks) (small : bits ≤ w)
    (here : addr.toNat = current) (aligned : 2 ^ bits ∣ current) :
    TiledUpTo start (current + 2 ^ bits) (blocks ++ [⟨w - bits, addr⟩]) := by
  have size : w - (w - bits) = bits := Nat.sub_sub_self small
  refine ⟨tiled.cut.append_block small here aligned, ?_, ?_⟩
  · refine forall_mem_append.mpr ⟨tiled.aligned, forall_mem_singleton.mpr ?_⟩
    rwa [Prefix.Aligned, size, here]
  · refine pairwise_append.mpr ⟨tiled.apart, pairwise_singleton _ _, ?_⟩
    intro block member other new a inside outside
    rw [mem_singleton.mp new, Prefix.covers_aligned size (here ▸ aligned), here] at outside
    have below := ((tiled.cut.covers a).mp ⟨block, member, inside⟩).2
    omega

/-- The blocks of a list are aligned, have no address in common and cover
exactly the addresses between two. -/
structure Tiles (blocks : List (Prefix w))
    (first last : BitVec w) : Prop where
  len_le : ∀ block ∈ blocks, block.len ≤ w
  aligned : ∀ block ∈ blocks, block.Aligned
  apart : blocks.Pairwise Prefix.Apart
  covers : ∀ a, (∃ block ∈ blocks, block.Covers a) ↔ first ≤ a ∧ a ≤ last

theorem TiledUpTo.tiles (tiled : TiledUpTo first.toNat (last.toNat + 1) blocks) :
    Tiles blocks first last := by
  refine ⟨tiled.cut.len_le, tiled.aligned, tiled.apart, fun a => ?_⟩
  rw [tiled.cut.covers a, le_def, le_def, Nat.lt_succ_iff]

end AddressPrefix
