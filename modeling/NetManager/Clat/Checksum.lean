import Mathlib.Data.Nat.ModEq
import Mathlib.Data.List.OfFn

/-!
# Checksums of translated addresses

CLAT picks an IPv6 address whose words, together with those of the NAT64 prefix, have the
sum of the IPv4 address it stands for, so that translated packets keep their checksums. The
sums are those of a little-endian host.
-/

namespace NetManager.Clat

open List BitVec

/-- `in6_addr` and `in_addr`: the bytes in the order of the network. -/
abbrev In6Addr := Fin 16 → BitVec 8
abbrev InAddr := Fin 4 → BitVec 8

def clatV6AddrRandomizeOffset : Nat := 8
def clatV6AddrNeutralizeOffset : Nat := 3

variable (sum32 : BitVec 32)

theorem toNat_foldOnce :
    ((sum32 &&& 0xffff#32) + (sum32 >>> 16)).toNat = sum32.toNat % 65536 + sum32.toNat / 65536 := by
  have low : (sum32 &&& 0xffff#32).toNat = sum32.toNat % 65536 :=
    Nat.and_two_pow_sub_one_eq_mod sum32.toNat 16
  have high : (sum32 >>> 16).toNat = sum32.toNat / 65536 := by
    rw [toNat_ushiftRight, Nat.shiftRight_eq_div_pow]
  rw [toNat_add]
  omega

theorem ushiftRight_eq_zero_iff : sum32 >>> 16 = 0 ↔ sum32.toNat < 65536 := by
  rw [← toNat_inj, toNat_ushiftRight, Nat.shiftRight_eq_div_pow]
  exact Nat.div_eq_zero_iff_lt (by decide)

def checksum32To16 (sum32 : BitVec 32) : BitVec 16 :=
  if sum32 >>> 16 = 0 then sum32.setWidth 16
  else checksum32To16 ((sum32 &&& 0xffff#32) + (sum32 >>> 16))
  termination_by sum32.toNat
  decreasing_by
    rename_i more
    rw [ushiftRight_eq_zero_iff] at more
    rw [toNat_foldOnce]
    omega

def adjustChecksum (oldSum16 : BitVec 16) (oldSumHdr newSumHdr : BitVec 32) : BitVec 16 :=
  let oldSum16 := ~~~oldSum16
  let sumFolded := checksum32To16 (newSumHdr + oldSum16.setWidth 32)
  let oldFolded := checksum32To16 oldSumHdr
  if sumFolded > oldFolded then ~~~(sumFolded - oldFolded) else ~~~(sumFolded - oldFolded - 1)

def addChecksum (sum : BitVec 32) : List (BitVec 8) → BitVec 32
  | low :: high :: data => addChecksum (sum + (high ++ low).setWidth 32) data
  | [single] => sum + single.setWidth 32
  | [] => sum

/-- `MakeChecksumNeutral`, where `random` is what `arc4random_buf` writes. -/
def makeChecksumNeutral (random : Fin 8 → BitVec 8) (v6Addr : In6Addr) (v4Addr : InAddr)
    (nat64Prefix : In6Addr) : In6Addr :=
  let v6Addr : In6Addr := fun i =>
    if clatV6AddrRandomizeOffset ≤ i then random (Fin.ofNat 8 (i - clatV6AddrRandomizeOffset))
    else v6Addr i
  let adjustOffset : Fin 16 := Fin.ofNat 16 (clatV6AddrRandomizeOffset + clatV6AddrNeutralizeOffset)
  let middleBytes := v6Addr adjustOffset ++ v6Addr (adjustOffset + 1)
  let v4Checksum := addChecksum 0 (List.ofFn v4Addr)
  let v6Checksum := addChecksum 0 (List.ofFn nat64Prefix) + addChecksum 0 (List.ofFn v6Addr)
  let delta := adjustChecksum middleBytes v4Checksum v6Checksum
  fun i =>
    if i = adjustOffset + 1 then delta.extractLsb' 0 8
    else if i = adjustOffset then delta.extractLsb' 8 8
    else v6Addr i

/-! ## Sums modulo `0xffff` -/

/-- The sum of the words of some bytes. -/
def wordSum : List (BitVec 8) → Nat
  | low :: high :: data => low.toNat + 256 * high.toNat + wordSum data
  | [single] => single.toNat
  | [] => 0

theorem toNat_word (high low : BitVec 8) : (high ++ low).toNat = low.toNat + 256 * high.toNat := by
  rw [toNat_append, Nat.shiftLeft_eq, Nat.mul_comm high.toNat]
  have small := low.isLt
  rw [← Nat.two_pow_add_eq_or_of_lt small high.toNat]
  omega

theorem toNat_checksum32To16 : (checksum32To16 sum32).toNat ≡ sum32.toNat [MOD 65535] := by
  induction sum32 using checksum32To16.induct with
  | case1 sum32 done =>
    rw [checksum32To16, if_pos done, toNat_setWidth,
      Nat.mod_eq_of_lt ((ushiftRight_eq_zero_iff sum32).mp done)]
  | case2 sum32 more ih =>
    rw [checksum32To16, if_neg more]
    refine ih.trans ?_
    rw [toNat_foldOnce, Nat.ModEq]
    omega

theorem toNat_adjustChecksum (oldSum16 : BitVec 16) (oldSumHdr : BitVec 32)
    (small : newSumHdr.toNat + 65535 < 4294967296) :
    (adjustChecksum oldSum16 oldSumHdr newSumHdr).toNat + newSumHdr.toNat ≡
      oldSumHdr.toNat + oldSum16.toNat [MOD 65535] := by
  have inverse : (newSumHdr + (~~~oldSum16).setWidth 32).toNat =
      newSumHdr.toNat + (65535 - oldSum16.toNat) := by
    rw [toNat_add, toNat_setWidth, toNat_not]
    omega
  have sumFolded := toNat_checksum32To16 (newSumHdr + (~~~oldSum16).setWidth 32)
  have oldFolded := toNat_checksum32To16 oldSumHdr
  rw [inverse] at sumFolded
  unfold adjustChecksum
  dsimp only
  generalize checksum32To16 (newSumHdr + (~~~oldSum16).setWidth 32) = new at *
  generalize checksum32To16 oldSumHdr = old at *
  have folded : new.toNat + oldSum16.toNat ≡ newSumHdr.toNat [MOD 65535] := by
    have added := sumFolded.add_right oldSum16.toNat
    rw [Nat.add_assoc, Nat.sub_add_cancel (Nat.le_of_lt_succ oldSum16.isLt)] at added
    exact added.trans Nat.add_modEq_right
  split
  next more =>
    have value : (~~~(new - old)).toNat + new.toNat = 65535 + old.toNat := by bv_omega
    refine (folded.symm.add_left _).trans ?_
    rw [← Nat.add_assoc, value]
    exact (Nat.add_modEq_left.trans oldFolded).add_right _
  next less =>
    have value : (~~~(new - old - 1)).toNat + new.toNat = old.toNat := by bv_omega
    refine (folded.symm.add_left _).trans ?_
    rw [← Nat.add_assoc, value]
    exact oldFolded.add_right _

theorem toNat_addChecksum {sum : BitVec 32} (small : sum.toNat + wordSum data < 4294967296) :
    (addChecksum sum data).toNat = sum.toNat + wordSum data := by
  induction sum, data using addChecksum.induct with
  | case1 sum low high data ih =>
    have word := toNat_word high low
    rw [wordSum] at small ⊢
    have added : (sum + (high ++ low).setWidth 32).toNat =
        sum.toNat + (low.toNat + 256 * high.toNat) := by
      rw [toNat_add, toNat_setWidth]
      omega
    rw [addChecksum]
    omega
  | case2 sum single =>
    rw [wordSum] at small ⊢
    rw [addChecksum, toNat_add, toNat_setWidth]
    omega
  | case3 sum => rfl

theorem wordSum_ofFn (addr : In6Addr) :
    wordSum (List.ofFn addr) =
      (addr 0).toNat + 256 * (addr 1).toNat + ((addr 2).toNat + 256 * (addr 3).toNat +
      ((addr 4).toNat + 256 * (addr 5).toNat + ((addr 6).toNat + 256 * (addr 7).toNat +
      ((addr 8).toNat + 256 * (addr 9).toNat + ((addr 10).toNat + 256 * (addr 11).toNat +
      ((addr 12).toNat + 256 * (addr 13).toNat +
      ((addr 14).toNat + 256 * (addr 15).toNat))))))) := by
  rfl

/-- The words that the two middle bytes are in change by as much as the pair of them does. -/
theorem wordSum_replaceMiddle (addr : In6Addr) (delta : BitVec 16) :
    wordSum (List.ofFn fun i =>
        if i = 12 then delta.extractLsb' 0 8 else if i = 11 then delta.extractLsb' 8 8 else addr i) +
      (addr 11 ++ addr 12).toNat = wordSum (List.ofFn addr) + delta.toNat := by
  have parts : (delta.extractLsb' 0 8).toNat + 256 * (delta.extractLsb' 8 8).toNat = delta.toNat := by
    rw [extractLsb'_toNat, extractLsb'_toNat]
    omega
  rw [wordSum_ofFn, wordSum_ofFn, toNat_word]
  simp only [Fin.isValue, Fin.reduceEq, if_true, if_false]
  omega

theorem wordSum_le (data : List (BitVec 8)) : wordSum data ≤ 65535 * data.length := by
  induction data using wordSum.induct with
  | case1 low high data ih =>
    rw [wordSum, length_cons, length_cons]
    omega
  | case2 single =>
    rw [wordSum, length_singleton]
    omega
  | case3 => exact Nat.zero_le _

theorem toNat_addChecksum_ofFn (few : n ≤ 16) (addr : Fin n → BitVec 8) :
    (addChecksum 0 (List.ofFn addr)).toNat = wordSum (List.ofFn addr) ∧
      wordSum (List.ofFn addr) ≤ 1048560 := by
  have bound := wordSum_le (List.ofFn addr)
  rw [length_ofFn] at bound
  have small : wordSum (List.ofFn addr) ≤ 1048560 := by omega
  refine ⟨(toNat_addChecksum ?_).trans (Nat.zero_add _), small⟩
  change 0 + wordSum (List.ofFn addr) < 4294967296
  omega

/-- The address is neutral, and only its interface identifier is another one. -/
theorem makeChecksumNeutral_neutral (random : Fin 8 → BitVec 8) (v6Addr : In6Addr)
    (v4Addr : InAddr) (nat64Prefix : In6Addr) :
    let neutral := makeChecksumNeutral random v6Addr v4Addr nat64Prefix
    wordSum (List.ofFn neutral) + wordSum (List.ofFn nat64Prefix) ≡
        wordSum (List.ofFn v4Addr) [MOD 0xffff] ∧
      ∀ i : Fin 16, i < 8 → neutral i = v6Addr i := by
  intro neutral
  constructor
  · -- Only the two middle bytes of the randomized address are adjusted.
    let addr : In6Addr := fun i =>
      if clatV6AddrRandomizeOffset ≤ i then random (Fin.ofNat 8 (i - clatV6AddrRandomizeOffset))
      else v6Addr i
    let v4Checksum := addChecksum 0 (List.ofFn v4Addr)
    let v6Checksum := addChecksum 0 (List.ofFn nat64Prefix) + addChecksum 0 (List.ofFn addr)
    obtain ⟨ofPrefix, few⟩ := toNat_addChecksum_ofFn (le_refl 16) nat64Prefix
    obtain ⟨ofAddr, few'⟩ := toNat_addChecksum_ofFn (le_refl 16) addr
    have sums : v6Checksum.toNat = wordSum (List.ofFn nat64Prefix) + wordSum (List.ofFn addr) := by
      rw [toNat_add]
      omega
    have adjusted := toNat_adjustChecksum (addr 11 ++ addr 12) v4Checksum
      (show v6Checksum.toNat + 65535 < 4294967296 by omega)
    rw [sums, (toNat_addChecksum_ofFn (by decide) v4Addr).1] at adjusted
    have replaced : wordSum (List.ofFn neutral) + (addr 11 ++ addr 12).toNat =
        wordSum (List.ofFn addr) +
          (adjustChecksum (addr 11 ++ addr 12) v4Checksum v6Checksum).toNat :=
      wordSum_replaceMiddle addr _
    apply Nat.ModEq.add_right_cancel' (addr 11 ++ addr 12).toNat
    have same : wordSum (List.ofFn neutral) + wordSum (List.ofFn nat64Prefix) +
        (addr 11 ++ addr 12).toNat =
          (adjustChecksum (addr 11 ++ addr 12) v4Checksum v6Checksum).toNat +
            (wordSum (List.ofFn nat64Prefix) + wordSum (List.ofFn addr)) := by
      omega
    rw [same]
    exact adjusted
  · intro i low
    have notLast : ¬ i = 12 := by omega
    have notMiddle : ¬ i = 11 := by omega
    have kept : ¬ clatV6AddrRandomizeOffset ≤ i := Nat.not_le.mpr low
    exact (if_neg notLast).trans ((if_neg notMiddle).trans (if_neg kept))

end NetManager.Clat
