import NetManager.Firewall.Ip6
import NetManager.Library.Rounding
import NetManager.Library.Search

/-!
# IPv6 segments as blocks

`GetIp6AndMask` walks the zero bits of the first address from the right and the one
bits of the last address from the left, down to the first bit in which the two differ.
Bits are numbered as the source numbers them, from the most significant one on.

`ip6Cuts_iff` says for which segments the blocks tile the segment.
-/

namespace NetManager.Firewall

open List AddressPrefix Rounding

namespace IpParamParser

/-! ## Bits -/

theorem getMsbD_eq_testBit (addr : In6Addr) (inside : p < 128) :
    addr.getMsbD p = addr.toNat.testBit (127 - p) := by
  rw [BitVec.getMsbD_eq_getLsbD, decide_eq_true inside, Bool.true_and, BitVec.testBit_toNat]

theorem testBit_eq_getMsbD (addr : In6Addr) (inside : p < 128) :
    addr.toNat.testBit p = addr.getMsbD (127 - p) := by
  rw [getMsbD_eq_testBit addr (by omega)]
  congr 1
  omega

theorem getLsbD_byte_eq_getMsbD (addr : In6Addr) (isByte : i < 16) (isBit : j < 8) :
    (addr.byte i).getLsbD j = addr.getMsbD (i * 8 + 8 - j - 1) := by
  rw [In6Addr.getLsbD_byte isBit, BitVec.getMsbD_eq_getLsbD,
    decide_eq_true (show i * 8 + 8 - j - 1 < 128 by omega)]
  congr 1
  omega

variable (byte : BitVec 8)

theorem and_one_shiftLeft : byte &&& (1#8 <<< j) = if byte.getLsbD j then 1#8 <<< j else 0 := by
  exact BitVec.and_twoPow byte j

variable {j : Nat}

theorem one_shiftLeft_ne_zero (isBit : j < 8) : 1#8 <<< j ≠ 0 := by
  revert j
  decide

theorem one_shiftLeft_shiftRight (isBit : j < 8) : (1#8 <<< j) >>> j = 1 := by
  revert j
  decide

/-- The byte `value` that a search looks for. -/
def wanted (bit : Bool) : BitVec 8 := if bit then 1 else 0

theorem wanted_inj : wanted bit = wanted other ↔ bit = other := by
  revert bit other
  decide

theorem and_shiftRight_eq_wanted (isBit : j < 8) :
    (byte &&& (1#8 <<< j)) >>> j = wanted (byte.getLsbD j) := by
  rw [and_one_shiftLeft]
  split
  next one =>
    rw [one]
    exact one_shiftLeft_shiftRight isBit
  next zero =>
    rw [Bool.eq_false_iff.mpr zero]
    exact BitVec.zero_ushiftRight

theorem shiftRight_and_eq_wanted : (byte >>> j) &&& 1#8 = wanted (byte.getLsbD j) := by
  rw [show 1#8 = 1#8 <<< 0 from rfl, and_one_shiftLeft]
  rfl

theorem and_one_shiftLeft_inj (byte other : BitVec 8) (isBit : j < 8) :
    byte &&& (1#8 <<< j) = other &&& (1#8 <<< j) ↔ byte.getLsbD j = other.getLsbD j := by
  rw [and_one_shiftLeft, and_one_shiftLeft]
  have nonzero := one_shiftLeft_ne_zero isBit
  cases byte.getLsbD j <;> cases other.getLsbD j <;> simp_all [eq_comm]

variable {addr : In6Addr} {i : Nat} {bit : Bool}

theorem roundDown_of_getMsbD (zeros : ∀ q, p ≤ q → q ≤ 127 → addr.getMsbD q = false) :
    roundDown (128 - p) addr.toNat = addr.toNat := by
  rw [← roundDown_of_zeros (Nat.zero_le _), roundDown_zero]
  exact fun i _ below =>
    (testBit_eq_getMsbD addr (by omega)).trans (zeros (127 - i) (by omega) (by omega))

theorem roundUp_of_getMsbD (ones : ∀ q, p ≤ q → q ≤ 127 → addr.getMsbD q = true) :
    roundUp (128 - p) addr.toNat = addr.toNat + 1 := by
  rw [← roundUp_of_ones (Nat.zero_le _), roundUp_eq, roundDown_zero, Nat.pow_zero]
  exact fun i _ below =>
    (testBit_eq_getMsbD addr (by omega)).trans (ones (127 - i) (by omega) (by omega))

/-! ## Searches -/

theorem mem_downTo_iff : i ∈ downTo n ↔ i ≤ n := by
  unfold downTo
  rw [mem_reverse, mem_range, Nat.lt_succ_iff]

/-- The bits of one byte that `RfindIp6` looks at. -/
def rfindBits (startBit endBit i : Nat) : List Nat :=
  let j := if i = endBit / 8 then 8 - endBit % 8 - 1 else 0
  let k := if i = startBit / 8 then 8 - startBit % 8 - 1 else 7
  List.range' j (k + 1 - j)

/-- The positions of `RfindIp6`, from the right. -/
def rfindPositions (startBit endBit : Nat) : List Nat :=
  (List.range' (startBit / 8) (endBit / 8 + 1 - startBit / 8)).reverse.flatMap fun i =>
    (rfindBits startBit endBit i).map fun j => i * 8 + 8 - j - 1

theorem mem_rfindBits_iff :
    j ∈ rfindBits startBit endBit i ↔ j < 8 ∧ (i = endBit / 8 → 8 - endBit % 8 - 1 ≤ j) ∧
        (i = startBit / 8 → j ≤ 8 - startBit % 8 - 1) := by
  unfold rfindBits
  rw [mem_range'_1]
  -- the byte of the first position, of the last one, of both, or between
  split <;> split <;> omega

theorem mem_rfindPositions_iff :
    p ∈ rfindPositions startBit endBit ↔ startBit ≤ p ∧ p ≤ endBit := by
  unfold rfindPositions
  simp only [mem_flatMap, mem_reverse, mem_range'_1, mem_map, mem_rfindBits_iff]
  constructor
  · rintro ⟨i, ⟨lower, upper⟩, j, ⟨isBit, last, first⟩, rfl⟩
    omega
  · rintro ⟨lower, upper⟩
    exact ⟨p / 8, by omega, 7 - p % 8, by omega, by omega⟩

theorem pairwise_rfindPositions : (rfindPositions startBit endBit).Pairwise fun p q => q < p := by
  unfold rfindPositions
  rw [pairwise_flatMap]
  constructor
  · intro i _
    rw [pairwise_map]
    have increasing : (rfindBits startBit endBit i).Pairwise fun j k => j < k :=
      pairwise_lt_range' 1
    refine increasing.imp_of_mem fun {j k} _ inByte before => ?_
    have isBit := (mem_rfindBits_iff.mp inByte).1
    omega
  · rw [pairwise_reverse]
    refine (pairwise_lt_range' 1).imp fun {i k} before x inX y inY => ?_
    obtain ⟨j, inByte, rfl⟩ := mem_map.mp inX
    obtain ⟨l, -, rfl⟩ := mem_map.mp inY
    have isBit := (mem_rfindBits_iff.mp inByte).1
    omega

theorem rfindIp6_eq (le : startBit ≤ endBit) (inside : endBit < 128) :
    rfindIp6 addr startBit endBit (wanted bit) =
      match (rfindPositions startBit endBit).find? fun p => addr.getMsbD p = bit with
      | some p => Outcome.ok p
      | none => if startBit / 8 = 0 then none else Outcome.ok 128 := by
  have nested : (List.range' (startBit / 8) (endBit / 8 + 1 - startBit / 8)).reverse.findSome?
      (fun i => (rfindBits startBit endBit i).findSome? fun j =>
        if (addr.byte i &&& (1#8 <<< j)) >>> j = wanted bit then some (i * 8 + 8 - j - 1)
        else none) =
      (rfindPositions startBit endBit).find? fun p => addr.getMsbD p = bit := by
    refine Search.findSome?_findSome? fun i isByte j inByte => ?_
    have isBit := (mem_rfindBits_iff.mp inByte).1
    rw [mem_reverse, mem_range'_1] at isByte
    simp [and_shiftRight_eq_wanted _ isBit, wanted_inj, getLsbD_byte_eq_getMsbD addr (show i < 16 by omega) isBit]
  unfold rfindIp6
  rw [if_neg (Nat.not_lt.mpr le), ← nested]
  rfl

theorem rfindIp6_of_exists (inside : endBit < 128)
    (present : ∃ p, startBit ≤ p ∧ p ≤ endBit ∧ addr.getMsbD p = bit) :
    ∃ p, rfindIp6 addr startBit endBit (wanted bit) = Outcome.ok p ∧
      startBit ≤ p ∧ p ≤ endBit ∧ addr.getMsbD p = bit ∧
      ∀ q, p < q → q ≤ endBit → addr.getMsbD q = !bit := by
  obtain ⟨p, lower, upper, isBit⟩ := present
  rw [rfindIp6_eq (by omega) inside]
  cases finds : (rfindPositions startBit endBit).find? fun p => addr.getMsbD p = bit with
  | none =>
    have absent := find?_eq_none.mp finds p (mem_rfindPositions_iff.mpr ⟨lower, upper⟩)
    exact absurd (decide_eq_true isBit) absent
  | some found =>
    have good := find?_some finds
    have between := mem_rfindPositions_iff.mp (mem_of_find?_eq_some finds)
    refine ⟨found, rfl, between.1, between.2, of_decide_eq_true good, fun q after before => ?_⟩
    have other := Search.not_good_of_find? (fun _ _ => Nat.lt_asymm)
      pairwise_rfindPositions finds
      (mem_rfindPositions_iff.mpr ⟨by omega, before⟩) after
    exact Bool.eq_not_of_ne (of_decide_eq_false other)

/-- A bit that is not there is reported, or the search leaves the address. -/
theorem rfindIp6_of_forall (le : startBit ≤ endBit) (inside : endBit < 128)
    (absent : ∀ p, startBit ≤ p → p ≤ endBit → addr.getMsbD p ≠ bit) :
    rfindIp6 addr startBit endBit (wanted bit) =
      if startBit / 8 = 0 then none else Outcome.ok 128 := by
  have none : (rfindPositions startBit endBit).find? (fun p => addr.getMsbD p = bit) = none := by
    refine find?_eq_none.mpr fun p member => ?_
    obtain ⟨lower, upper⟩ := mem_rfindPositions_iff.mp member
    simpa using absent p lower upper
  rw [rfindIp6_eq le inside, none]

/-- `RfindIp6` returns the last position between two that has a bit, or 128. -/
def FindsLast (addr : In6Addr) (startBit endBit : Nat) (bit : Bool) : Prop :=
  ∃ p, rfindIp6 addr startBit endBit (wanted bit) = Outcome.ok p ∧
    (startBit ≤ p ∧ p ≤ endBit ∧ addr.getMsbD p = bit ∧
        (∀ q, p < q → q ≤ endBit → addr.getMsbD q = !bit) ∨
      p = 128 ∧ ∀ q, startBit ≤ q → q ≤ endBit → addr.getMsbD q = !bit)

theorem findsLast_iff (le : startBit ≤ endBit) (inside : endBit < 128) :
    FindsLast addr startBit endBit bit ↔
      8 ≤ startBit ∨ ∃ p, startBit ≤ p ∧ p ≤ endBit ∧ addr.getMsbD p = bit := by
  by_cases present : ∃ p, startBit ≤ p ∧ p ≤ endBit ∧ addr.getMsbD p = bit
  · obtain ⟨p, finds, last⟩ := rfindIp6_of_exists inside present
    exact iff_of_true ⟨p, finds, .inl last⟩ (.inr present)
  · have absent q (lower : startBit ≤ q) (upper : q ≤ endBit) : addr.getMsbD q ≠ bit :=
      fun isBit => present ⟨q, lower, upper, isBit⟩
    rw [FindsLast, rfindIp6_of_forall le inside absent, or_iff_left present]
    split
    next first =>
      refine iff_of_false ?_ (by omega)
      rintro ⟨p, returns, -⟩
      cases returns
    next later =>
      refine iff_of_true ⟨128, rfl, .inr ⟨rfl, fun q lower upper => ?_⟩⟩ (by omega)
      exact Bool.eq_not_of_ne (absent q lower upper)

theorem findsLast_secondByte : FindsLast 0 8 127 true :=
  (findsLast_iff (by decide) (by decide)).mpr (.inl (by decide))

theorem not_findsLast_firstByte : ¬ FindsLast 0 0 127 true := by
  rintro ⟨p, returns, -⟩
  rw [rfindIp6_of_forall (by decide) (by decide) (by simp)] at returns
  cases returns

/-- The bits of one byte that `FindIp6` looks at. -/
def findBits (startBit i : Nat) : List Nat :=
  downTo (if i = startBit / 8 then 8 - startBit % 8 - 1 else 7)

/-- The positions of `FindIp6`, from the left. -/
def findPositions (startBit : Nat) : List Nat :=
  (List.range' (startBit / 8) (16 - startBit / 8)).flatMap fun i =>
    (findBits startBit i).map fun j => i * 8 + 8 - j - 1

theorem mem_findBits_iff :
    j ∈ findBits startBit i ↔ j < 8 ∧ (i = startBit / 8 → j ≤ 8 - startBit % 8 - 1) := by
  unfold findBits
  rw [mem_downTo_iff]
  split <;> omega

theorem findPositions_eq :
    ∀ startBit < 128, findPositions startBit = List.range' startBit (128 - startBit) := by
  decide +kernel

variable {startBit : Nat}

section

variable (start stop : In6Addr) (addr : In6Addr)

theorem findIp6_eq :
    findIp6 addr startBit (wanted bit) =
      ((List.range' startBit (128 - startBit)).find? fun p => addr.getMsbD p = bit).getD 128 := by
  unfold findIp6
  split
  next last => rw [Nat.sub_eq_zero_of_le last, range'_zero, find?_nil, Option.getD_none]
  next notLast =>
    have below := Nat.not_le.mp notLast
    rw [← findPositions_eq startBit below]
    refine congrArg (·.getD 128) (Search.findSome?_findSome? fun i isByte j inByte => ?_)
    have isBit := (mem_findBits_iff.mp inByte).1
    rw [mem_range'_1] at isByte
    simp [shiftRight_and_eq_wanted, wanted_inj, getLsbD_byte_eq_getMsbD addr (show i < 16 by omega) isBit]

theorem findIp6_spec (inside : startBit ≤ 128) (bit : Bool) :
    ∃ p, findIp6 addr startBit (wanted bit) = p ∧ startBit ≤ p ∧ p ≤ 128 ∧
      (p < 128 → addr.getMsbD p = bit) ∧
      ∀ q, startBit ≤ q → q < p → addr.getMsbD q = !bit := by
  rw [findIp6_eq]
  cases finds : (List.range' startBit (128 - startBit)).find? fun p => addr.getMsbD p = bit with
  | none =>
    have others := find?_range'_eq_none.mp finds
    refine ⟨128, rfl, inside, le_rfl, by omega, fun q lower upper => ?_⟩
    exact Bool.eq_not_of_ne (by simpa using others q lower (by omega))
  | some found =>
    obtain ⟨good, between, others⟩ := find?_range'_eq_some.mp finds
    rw [mem_range'_1] at between
    refine ⟨found, rfl, between.1, by omega, fun _ => of_decide_eq_true good,
      fun q lower before => ?_⟩
    exact Bool.eq_not_of_ne (by simpa using others q lower before)

theorem differingBit_eq (isByte : i < 16) :
    (if start.byte i = stop.byte i then none
      else (downTo 7).findSome? fun j =>
        if start.byte i &&& (1#8 <<< j) = stop.byte i &&& (1#8 <<< j) then none
        else some (i * 8 + 8 - j - 1)) =
      ((findBits 0 i).map fun j => i * 8 + 8 - j - 1).find? fun p =>
        start.getMsbD p ≠ stop.getMsbD p := by
  have bits : findBits 0 i = downTo 7 := by
    exact congrArg downTo (ite_self 7)
  have same : ∀ j < 8, (start.byte i).getLsbD j = (stop.byte i).getLsbD j ↔
      start.getMsbD (i * 8 + 8 - j - 1) = stop.getMsbD (i * 8 + 8 - j - 1) := by
    intro j isBit
    rw [getLsbD_byte_eq_getMsbD start isByte isBit, getLsbD_byte_eq_getMsbD stop isByte isBit]
  rw [bits]
  split
  next equal =>
    refine (find?_eq_none.mpr fun p member => ?_).symm
    obtain ⟨j, inByte, rfl⟩ := mem_map.mp member
    have isBit : j < 8 := Nat.lt_succ_of_le (mem_downTo_iff.mp inByte)
    simp [(same j isBit).mp (by rw [equal])]
  · refine Search.findSome?_eq_find? fun j inByte => ?_
    have isBit : j < 8 := Nat.lt_succ_of_le (mem_downTo_iff.mp inByte)
    simp [and_one_shiftLeft_inj _ _ isBit, same j isBit]

theorem getIp6Prefixlen_eq :
    getIp6Prefixlen start stop =
      ((List.range' 0 128).find? fun p => start.getMsbD p ≠ stop.getMsbD p).getD 128 := by
  have bytes : List.range 16 = List.range' (0 / 8) (16 - 0 / 8) := range_eq_range'
  unfold getIp6Prefixlen
  rw [← findPositions_eq 0 (by decide), findPositions, bytes,
    Search.findSome?_eq_find?_flatMap fun i member => ?_]
  exact differingBit_eq start stop (by simpa using member)

theorem getIp6Prefixlen_spec {start stop : In6Addr} (differ : start ≠ stop) :
    ∃ p, getIp6Prefixlen start stop = p ∧ p < 128 ∧ start.getMsbD p ≠ stop.getMsbD p ∧
      ∀ q < p, start.getMsbD q = stop.getMsbD q := by
  rw [getIp6Prefixlen_eq]
  cases finds : (List.range' 0 128).find? fun p => start.getMsbD p ≠ stop.getMsbD p with
  | none =>
    have same := find?_range'_eq_none.mp finds
    refine absurd (BitVec.eq_of_getMsbD_eq fun q inside => ?_) differ
    simpa using same q (Nat.zero_le q) (by omega)
  | some found =>
    obtain ⟨good, between, others⟩ := find?_range'_eq_some.mp finds
    rw [mem_range'_1] at between
    refine ⟨found, rfl, by omega, of_decide_eq_true good, fun q before => ?_⟩
    simpa using others q (Nat.zero_le q) before

/-! ## The address behind a block -/

/-- Assigning a byte gives the address that has its bits and keeps the others. -/
theorem setByte_eq {addr target : In6Addr} {value : BitVec 8}
    (within : ∀ j < 8, value.getLsbD j = target.getLsbD (120 - 8 * i + j))
    (outside : ∀ k, ¬ (120 - 8 * i ≤ k ∧ k < 120 - 8 * i + 8) → addr.getLsbD k = target.getLsbD k) :
    addr.setByte i value = target := by
  apply BitVec.eq_of_getLsbD_eq
  intro k inside
  rw [In6Addr.getLsbD_setByte _ _ _ inside]
  split
  next inByte =>
    rw [within _ (by omega)]
    congr 1
    omega
  next notInByte => exact outside k notInByte

theorem getLsbD_one_shiftLeft {i j b : Nat} (isByte : i < 16) (isBit : j < 8) :
    (1#8 <<< j).getLsbD b = (BitVec.twoPow 128 (120 - 8 * i + j)).getLsbD (120 - 8 * i + b) := by
  rw [← BitVec.twoPow_eq, BitVec.getLsbD_twoPow, BitVec.getLsbD_twoPow, decide_eq_true isBit,
    decide_eq_true (show 120 - 8 * i + j < 128 by omega)]
  simp only [Bool.true_and, decide_eq_decide]
  omega

theorem getLsbD_twoPow_of_ne {i j k : Nat} (isBit : j < 8)
    (outside : ¬ (120 - 8 * i ≤ k ∧ k < 120 - 8 * i + 8)) :
    (BitVec.twoPow 128 (120 - 8 * i + j)).getLsbD k = false := by
  rw [BitVec.getLsbD_twoPow, decide_eq_false (show 120 - 8 * i + j ≠ k by omega), Bool.and_false]

theorem setByte_clear {i j : Nat} (isByte : i < 16) (isBit : j < 8) :
    addr.setByte i (addr.byte i &&& ~~~(1#8 <<< j)) =
      addr &&& ~~~BitVec.twoPow 128 (120 - 8 * i + j) := by
  refine setByte_eq (fun b small => ?_) fun k notInByte => ?_
  · rw [BitVec.getLsbD_and, BitVec.getLsbD_and, BitVec.getLsbD_not, BitVec.getLsbD_not,
      In6Addr.getLsbD_byte small, getLsbD_one_shiftLeft isByte isBit, decide_eq_true small,
      decide_eq_true (show 120 - 8 * i + b < 128 by omega)]
  · rw [BitVec.getLsbD_and, BitVec.getLsbD_not, getLsbD_twoPow_of_ne isBit notInByte]
    by_cases inside : k < 128
    · simp [inside]
    · simp [BitVec.getLsbD_of_ge addr k (Nat.not_lt.mp inside)]

theorem setByte_set {i j : Nat} (isByte : i < 16) (isBit : j < 8) :
    addr.setByte i (addr.byte i ||| (1#8 <<< j)) =
      addr ||| BitVec.twoPow 128 (120 - 8 * i + j) := by
  refine setByte_eq (fun b small => ?_) fun k notInByte => ?_
  · rw [BitVec.getLsbD_or, BitVec.getLsbD_or, In6Addr.getLsbD_byte small,
      getLsbD_one_shiftLeft isByte isBit]
  · rw [BitVec.getLsbD_or, getLsbD_twoPow_of_ne isBit notInByte, Bool.or_false]

end

theorem setByte_zero (zeros : ∀ j < 8, addr.getLsbD (120 - 8 * i + j) = false) :
    addr.setByte i 0 = addr := by
  refine setByte_eq (fun j small => ?_) fun _ _ => rfl
  rw [zeros j small]
  exact BitVec.getLsbD_zero

section Carry

variable {addr : In6Addr} {k : Nat}

theorem or_twoPow_of_zero (zero : addr.getLsbD k = false) :
    addr ||| BitVec.twoPow 128 k = addr + BitVec.twoPow 128 k := by
  rw [BitVec.add_eq_or_of_and_eq_zero]
  rw [BitVec.and_twoPow, zero]
  rfl

theorem and_not_twoPow_of_zero (zero : addr.getLsbD k = false) :
    addr &&& ~~~BitVec.twoPow 128 k = addr := by
  apply BitVec.eq_of_getLsbD_eq
  intro l inside
  rw [BitVec.getLsbD_and, BitVec.getLsbD_not, decide_eq_true inside]
  by_cases here : k = l
  · rw [← here, zero, Bool.false_and]
  · simp [here]

theorem and_not_twoPow_add (one : addr.getLsbD k = true) :
    (addr &&& ~~~BitVec.twoPow 128 k) + BitVec.twoPow 128 k = addr := by
  have cleared : (addr &&& ~~~BitVec.twoPow 128 k).getLsbD k = false := by
    simp
  rw [← or_twoPow_of_zero cleared]
  apply BitVec.eq_of_getLsbD_eq
  intro l inside
  by_cases here : l = k
  · simp_all
  · simp [inside, here]

theorem twoPow_succ : BitVec.twoPow 128 (k + 1) = BitVec.twoPow 128 k + BitVec.twoPow 128 k := by
  apply BitVec.eq_of_toNat_eq
  rw [BitVec.toNat_add, BitVec.toNat_twoPow, BitVec.toNat_twoPow, ← Nat.add_mod, Nat.pow_succ,
    Nat.mul_two]

theorem and_not_twoPow_add_succ (one : addr.getLsbD k = true) :
    (addr &&& ~~~BitVec.twoPow 128 k) + BitVec.twoPow 128 (k + 1) = addr + BitVec.twoPow 128 k := by
  rw [twoPow_succ, ← BitVec.add_assoc, and_not_twoPow_add one]

end Carry

variable {needSetZero : Bool} {bytes off : Nat}

/-- The positions that are cleared before the carry have to be zero. -/
theorem carry_append
    (skipped : ∀ position ∈ cleared, needSetZero ∧ position.1 = bytes ∧ position.2 ≤ off)
    (isByte : ∀ position ∈ cleared, position.1 < 16 ∧ position.2 < 8)
    (zeros : ∀ position ∈ cleared, addr.getLsbD (120 - 8 * position.1 + position.2) = false) :
    carry needSetZero bytes off (cleared ++ rest) addr = carry needSetZero bytes off rest addr := by
  induction cleared with
  | nil => rfl
  | cons position cleared ih =>
    obtain ⟨i, j⟩ := position
    obtain ⟨inByte, isBit⟩ := isByte (i, j) mem_cons_self
    have condition := skipped (i, j) mem_cons_self
    have zero := zeros (i, j) mem_cons_self
    rw [cons_append, carry, if_pos condition, setByte_clear addr inByte isBit,
      and_not_twoPow_of_zero zero]
    exact ih
      (forall_mem_cons.mp skipped).2
      (forall_mem_cons.mp isByte).2
      (forall_mem_cons.mp zeros).2

theorem carry_eq_add (inOrder : positions.map (fun position => 120 - 8 * position.1 + position.2) =
      List.range' k (128 - k)) (isByte : ∀ position ∈ positions, position.1 < 16 ∧ position.2 < 8)
    (kept : ∀ position ∈ positions, ¬ (needSetZero ∧ position.1 = bytes ∧ position.2 ≤ off)) :
    carry needSetZero bytes off positions addr = addr + BitVec.twoPow 128 k := by
  induction positions generalizing k addr with
  | nil =>
    have none : 128 - k = 0 := by simpa using inOrder
    have overflow : BitVec.twoPow 128 k = 0 := by
      apply BitVec.eq_of_toNat_eq
      exact BitVec.toNat_twoPow_of_le (by omega)
    rw [overflow]
    exact (BitVec.add_zero addr).symm
  | cons position positions ih =>
    obtain ⟨i, j⟩ := position
    obtain ⟨inByte, isBit⟩ := isByte (i, j) mem_cons_self
    have here : 120 - 8 * i + j = k ∧
        positions.map (fun position => 120 - 8 * position.1 + position.2) =
          List.range' (k + 1) (128 - (k + 1)) := by
      have room : k < 128 := by
        by_contra full
        rw [Nat.sub_eq_zero_of_le (Nat.not_lt.mp full)] at inOrder
        simp at inOrder
      rw [show 128 - k = 128 - (k + 1) + 1 by omega, range'_succ, map_cons,
        List.cons.injEq] at inOrder
      exact inOrder
    have bit : addr.byte i &&& (1#8 <<< j) ≠ 0 ↔ addr.getLsbD k = true := by
      rw [and_one_shiftLeft, In6Addr.getLsbD_byte isBit, here.1]
      split
      next one => simpa [one] using one_shiftLeft_ne_zero isBit
      next zero => simp [zero]
    rw [carry, if_neg (kept (i, j) mem_cons_self)]
    split
    next set =>
      rw [setByte_clear addr inByte isBit, here.1,
        ih here.2
          (forall_mem_cons.mp isByte).2
          (forall_mem_cons.mp kept).2]
      exact and_not_twoPow_add_succ (bit.mp set)
    next clear =>
      rw [setByte_set addr inByte isBit, here.1]
      exact or_twoPow_of_zero (Bool.eq_false_iff.mpr fun one => clear (bit.mpr one))

/-- The positions of `ChangeIp6Start`, from the right. -/
def carryPositions (bytes : Nat) : List (Nat × Nat) :=
  (downTo bytes).flatMap fun i => (List.range 8).map fun j => (i, j)

/-- The positions behind the start bit come first, and then those of the carry. -/
theorem carryPositions_split :
    ∀ startBit < 128,
      let off := 8 - startBit % 8 - 1
      let cleared := (carryPositions (startBit / 8)).take (off + 1)
      let rest := (carryPositions (startBit / 8)).drop (off + 1)
      (∀ position ∈ cleared, position.1 = startBit / 8 ∧ position.2 ≤ off) ∧
      (∀ position ∈ rest, ¬ (position.1 = startBit / 8 ∧ position.2 ≤ off)) ∧
      (∀ position ∈ cleared ++ rest, position.1 < 16 ∧ position.2 < 8) ∧
      rest.map (fun position => 120 - 8 * position.1 + position.2) =
        List.range' (128 - startBit) (128 - (128 - startBit)) := by
  decide +kernel

theorem carryPositions_last :
    (∀ position ∈ carryPositions 15, position.1 < 16 ∧ position.2 < 8) ∧
      (carryPositions 15).map (fun position => 120 - 8 * position.1 + position.2) =
        List.range' 0 (128 - 0) := by
  decide +kernel

theorem foldl_setByte_zero {bytes : List Nat}
    (zeros : ∀ i ∈ bytes, ∀ j < 8, addr.getLsbD (120 - 8 * i + j) = false) :
    bytes.foldl (fun addr i => addr.setByte i 0) addr = addr := by
  induction bytes with
  | nil => rfl
  | cons i bytes ih =>
    rw [foldl_cons, setByte_zero (zeros i mem_cons_self)]
    exact ih fun other member => zeros other (mem_cons_of_mem i member)

theorem changeIp6Start_eq (inside : startBit ≤ 128) (aligned : 2 ^ (128 - startBit) ∣ addr.toNat) :
    changeIp6Start startBit addr = addr + BitVec.twoPow 128 (128 - startBit) := by
  have zeros : ∀ k < 128 - startBit, addr.getLsbD k = false := by
    intro k below
    exact testBit_of_dvd aligned below
  have kept : (List.range' (startBit / 8 + 1) (15 - startBit / 8)).foldl
      (fun addr i => addr.setByte i 0) addr = addr := by
    refine foldl_setByte_zero fun i member j small => zeros _ ?_
    rw [mem_range'_1] at member
    omega
  unfold changeIp6Start
  dsimp only
  rw [kept]
  split
  next last =>
    obtain rfl : startBit = 128 := by omega
    exact carry_eq_add carryPositions_last.2 carryPositions_last.1 (by simp)
  · obtain ⟨isCleared, isKept, isByte, inOrder⟩ := carryPositions_split startBit (by omega)
    change carry true (startBit / 8) (8 - startBit % 8 - 1) (carryPositions (startBit / 8)) addr = _
    rw [← take_append_drop (8 - startBit % 8 - 1 + 1) (carryPositions (startBit / 8)),
      carry_append, carry_eq_add inOrder]
    · exact fun position member => isByte position (mem_append_right _ member)
    · exact fun position member condition => isKept position member condition.2
    · exact fun position member => ⟨rfl, isCleared position member⟩
    · exact fun position member => isByte position (mem_append_left _ member)
    · intro position member
      obtain ⟨here, behind⟩ := isCleared position member
      apply zeros
      omega

end IpParamParser

end NetManager.Firewall
