import NetManager.Firewall.Ip6Segment

/-!
# Which IPv6 segments are cut

Let `p` be the first bit in which the two addresses differ. The first loop of
`GetIp6AndMask` fills the addresses from the first one up to the next multiple of
`2 ^ (127 - p)`, the second loop goes on from there to the last address. When the first
address has no one bit from `p` on, the first loop is left out, and the second one
starts at the first address instead of the multiple above it.
-/

namespace NetManager.Firewall

open AddressPrefix Rounding Outcome

namespace IpParamParser

theorem tiled_changeIp6Start (tiled : TiledUpTo start tmpAddr.toNat list) (inside : off < 128)
    (aligned : 2 ^ (127 - off) ∣ tmpAddr.toNat) (room : tmpAddr.toNat + 2 ^ (127 - off) < 2 ^ 128) :
    (changeIp6Start (off + 1) tmpAddr).toNat = tmpAddr.toNat + 2 ^ (127 - off) ∧
      TiledUpTo start (changeIp6Start (off + 1) tmpAddr).toNat (list ++ [⟨off + 1, tmpAddr⟩]) := by
  have size : 128 - (off + 1) = 127 - off := by omega
  have next : (changeIp6Start (off + 1) tmpAddr).toNat = tmpAddr.toNat + 2 ^ (127 - off) := by
    rw [← size] at aligned room ⊢
    rw [changeIp6Start_eq inside aligned, BitVec.toNat_add, BitVec.toNat_twoPow_of_lt (by omega)]
    exact Nat.mod_eq_of_lt room
  have appended := tiled.append_block (by omega) rfl aligned
  rw [show 128 - (127 - off) = off + 1 by omega, ← next] at appended
  exact ⟨next, appended⟩

/-! ## From the first address -/

section Start

variable {addr6Start : In6Addr} {prefixlen : Nat}

/-- What the first loop knows: the next block starts at the first multiple of its size
above the first address. -/
structure StartWalk (addr6Start : In6Addr) (prefixlen : Nat)
    (state : Nat × In6Addr × List Ip6Data) : Prop where
  prefixlen_le : prefixlen ≤ state.1
  inside : state.1 < 128
  zero : addr6Start.getMsbD state.1 = false
  next : state.2.1.toNat = roundUp (127 - state.1) addr6Start.toNat
  tiled : TiledUpTo addr6Start.toNat state.2.1.toNat state.2.2

/-- The last zero bit before a position, and the multiples between. -/
theorem rfindIp6_zero (inside : off < 128) (zeroAt : addr6Start.getMsbD prefixlen = false)
    (le : prefixlen ≤ off) :
    ∃ p, rfindIp6 addr6Start prefixlen off 0 = ok p ∧ prefixlen ≤ p ∧ p ≤ off ∧
      addr6Start.getMsbD p = false ∧
      roundUp (127 - off) addr6Start.toNat = roundUp (127 - p) addr6Start.toNat ∧
      roundUp (127 - p) addr6Start.toNat < 2 ^ 128 := by
  obtain ⟨p, finds, lower, upper, zero, ones⟩ :=
    rfindIp6_of_exists inside ⟨prefixlen, le_rfl, le, zeroAt⟩
  refine ⟨p, finds, lower, upper, zero, ?_, ?_⟩
  · exact roundUp_of_ones (by omega) fun i above below =>
      (testBit_eq_getMsbD _ (by omega)).trans (ones (127 - i) (by omega) (by omega))
  · refine roundUp_lt addr6Start.isLt (by omega) ?_
    rw [← getMsbD_eq_testBit _ (by omega)]
    exact zero

theorem StartWalk.turn (zeroAt : addr6Start.getMsbD prefixlen = false)
    (state : Nat × In6Addr × List Ip6Data) (walk : StartWalk addr6Start prefixlen state) :
    (∃ next, ip6StartTurn addr6Start prefixlen state = .inl next ∧
        StartWalk addr6Start prefixlen next ∧ next.1 < state.1) ∨
      ∃ result, ip6StartTurn addr6Start prefixlen state = .inr result ∧
        ∃ tmpAddr list, result = ok (tmpAddr, list) ∧
          tmpAddr.toNat = roundUp (127 - prefixlen) addr6Start.toNat ∧
          TiledUpTo addr6Start.toNat tmpAddr.toNat list := by
  obtain ⟨off, tmpAddr, list⟩ := state
  obtain ⟨le, inside, zero, isNext, tiled⟩ := walk
  dsimp only at le inside zero isNext tiled
  by_cases proceeds : off ≠ 128 ∧ off ≠ prefixlen
  case neg =>
    obtain rfl : off = prefixlen := by omega
    exact .inr ⟨_, if_neg proceeds, tmpAddr, list, rfl, isNext, tiled⟩
  case pos =>
    have before : off - 1 < 128 := by omega
    obtain ⟨p, finds, lower, upper, zeroThere, same, room⟩ := rfindIp6_zero before zeroAt (by omega)
    have above : roundUp (127 - off) addr6Start.toNat + 2 ^ (127 - off) =
        roundUp (127 - p) addr6Start.toNat := by
      rw [getMsbD_eq_testBit _ inside] at zero
      rw [roundUp_of_zero zero, ← same]
      congr 1
      omega
    obtain ⟨moved, appended⟩ := tiled_changeIp6Start tiled inside
      (isNext ▸ dvd_roundUp _ _) (by omega)
    refine .inl ⟨(p, changeIp6Start (off + 1) tmpAddr, _), ?_,
      ⟨lower, by dsimp only; omega, zeroThere, ?_, appended⟩, by dsimp only; omega⟩
    · rw [ip6StartTurn, if_pos proceeds, finds]
      rfl
    · rw [moved, isNext, above]

/-- The blocks from the first address to the middle, when it has a one bit behind the
common prefix. -/
theorem startBlocks_spec (zeroAt : addr6Start.getMsbD prefixlen = false)
    (one : ∃ p, prefixlen ≤ p ∧ p ≤ 127 ∧ addr6Start.getMsbD p = true) :
    ∃ off, rfindIp6 addr6Start prefixlen 127 1 = ok off ∧ off < 128 ∧
      ∃ next, rfindIp6 addr6Start prefixlen off 0 = ok next ∧
      ∃ tmpAddr list,
        Loop.run (ip6StartTurn addr6Start prefixlen) 130
          (next, changeIp6Start (off + 1) addr6Start, [⟨off + 1, addr6Start⟩]) =
            some (ok (tmpAddr, list)) ∧
        tmpAddr.toNat = roundUp (127 - prefixlen) addr6Start.toNat ∧
        TiledUpTo addr6Start.toNat tmpAddr.toNat list := by
  obtain ⟨off, finds, lower, upper, isOne, zeros⟩ := rfindIp6_of_exists (by omega) one
  obtain ⟨next, findsNext, lowerNext, upperNext, zeroNext, same, room⟩ :=
    rfindIp6_zero (show off < 128 by omega) zeroAt lower
  have whole : roundDown (127 - off) addr6Start.toNat = addr6Start.toNat := by
    rw [show 127 - off = 128 - (off + 1) by omega]
    exact roundDown_of_getMsbD zeros
  have above : addr6Start.toNat + 2 ^ (127 - off) = roundUp (127 - off) addr6Start.toNat := by
    rw [roundUp_eq, whole]
  have aligned : 2 ^ (127 - off) ∣ addr6Start.toNat := by
    rw [← whole]
    exact dvd_roundDown _ _
  obtain ⟨moved, tiled⟩ := tiled_changeIp6Start TiledUpTo.nil
    (show off < 128 by omega) aligned (by omega)
  have walk : StartWalk addr6Start prefixlen
      (next, changeIp6Start (off + 1) addr6Start, [⟨off + 1, addr6Start⟩]) :=
    ⟨lowerNext, by dsimp only; omega, zeroNext, by rw [moved, above, same], tiled⟩
  obtain ⟨result, run, tmpAddr, list, rfl, reached⟩ := Loop.run_returns
    (fun state => state.1) (StartWalk.turn zeroAt) walk (show next < 130 by omega)
  exact ⟨off, finds, by omega, next, findsNext, tmpAddr, list, run, reached⟩

end Start

/-! ## To the last address -/

section Stop

variable {start missing prefixlen : Nat} {addr6End : In6Addr}

/-- What the second loop knows: `missing` addresses short of it, the next block starts
where the bits of the last address behind the position are cleared. -/
structure StopWalk (start missing prefixlen : Nat) (addr6End : In6Addr)
    (state : Nat × In6Addr × List Ip6Data) : Prop where
  prefixlen_lt : prefixlen < state.1
  inside : state.1 ≤ 128
  one : state.1 < 128 → addr6End.getMsbD state.1 = true
  next : state.2.1.toNat + missing = roundDown (128 - state.1) addr6End.toNat
  tiled : TiledUpTo start state.2.1.toNat state.2.2

theorem findIp6_one (inside : off < 128) :
    ∃ p, findIp6 addr6End (off + 1) 1 = p ∧ off < p ∧ p ≤ 128 ∧
      (p < 128 → addr6End.getMsbD p = true) ∧
      roundDown (127 - off) addr6End.toNat = roundDown (128 - p) addr6End.toNat := by
  obtain ⟨p, finds, lower, upper, one, zeros⟩ :=
    findIp6_spec addr6End (show off + 1 ≤ 128 by omega) true
  refine ⟨p, finds, lower, upper, one, (roundDown_of_zeros (by omega) ?_).symm⟩
  exact fun i above below =>
    (testBit_eq_getMsbD _ (by omega)).trans (zeros (127 - i) (by omega) (by omega))

theorem StopWalk.turn (whole : 2 ^ (127 - prefixlen) ∣ missing)
    (state : Nat × In6Addr × List Ip6Data)
    (walk : StopWalk start missing prefixlen addr6End state) :
    (∃ next, ip6EndTurn addr6End state = .inl next ∧
        StopWalk start missing prefixlen addr6End next ∧ 128 - next.1 < 128 - state.1) ∨
      ∃ result, ip6EndTurn addr6End state = .inr result ∧
        result.1.toNat + missing = addr6End.toNat ∧ TiledUpTo start result.1.toNat result.2 := by
  obtain ⟨off, tmpAddr, list⟩ := state
  obtain ⟨lt, inside, one, isNext, tiled⟩ := walk
  dsimp only at lt inside one isNext tiled
  by_cases proceeds : off ≠ 128
  case neg =>
    obtain rfl : off = 128 := not_not.mp proceeds
    rw [Nat.sub_self, roundDown_zero] at isNext
    exact .inr ⟨_, by rw [ip6EndTurn, if_neg proceeds], isNext, tiled⟩
  case pos =>
    obtain ⟨p, finds, lower, upper, isOne, same⟩ := findIp6_one (show off < 128 by omega)
    have bit := one (by omega)
    rw [getMsbD_eq_testBit _ (by omega)] at bit
    have above : roundDown (128 - off) addr6End.toNat + 2 ^ (127 - off) =
        roundDown (127 - off) addr6End.toNat := by
      rw [roundDown_of_one bit, show 127 - off + 1 = 128 - off by omega]
    have aligned : 2 ^ (127 - off) ∣ tmpAddr.toNat := by
      have sum : 2 ^ (127 - off) ∣ tmpAddr.toNat + missing := by
        rw [isNext]
        exact (Nat.pow_dvd_pow 2 (by omega)).trans (dvd_roundDown _ _)
      exact (Nat.dvd_add_left ((Nat.pow_dvd_pow 2 (by omega)).trans whole)).mp sum
    have below := roundDown_le (127 - off) addr6End.toNat
    obtain ⟨moved, appended⟩ := tiled_changeIp6Start tiled (by omega) aligned (by omega)
    refine .inl ⟨_, if_pos proceeds, ?_⟩
    rw [finds]
    refine ⟨⟨by dsimp only; omega, upper, isOne, ?_, appended⟩, by dsimp only; omega⟩
    rw [moved, ← same]
    omega

theorem ip6EndBlocks_spec (inside : prefixlen < 128) (oneAt : addr6End.getMsbD prefixlen = true)
    (whole : 2 ^ (127 - prefixlen) ∣ missing)
    (reached : tmpAddr.toNat + missing = roundDown (127 - prefixlen) addr6End.toNat)
    (tiled : TiledUpTo start tmpAddr.toNat list) :
    ∃ (last : In6Addr) (blocks : List Ip6Data),
      ip6EndBlocks addr6End prefixlen tmpAddr list =
        (if last = addr6End then ok (blocks ++ [⟨128, last⟩])
          else ok blocks) ∧
      last.toNat + missing = addr6End.toNat ∧
      TiledUpTo start last.toNat blocks := by
  have here : findIp6 addr6End prefixlen (wanted true) = prefixlen := by
    obtain ⟨p, rfl, lower, -, -, zeros⟩ := findIp6_spec addr6End inside.le true
    by_contra other
    have zero := zeros prefixlen le_rfl (by omega)
    rw [oneAt] at zero
    cases zero
  obtain ⟨p, finds, lower, upper, isOne, same⟩ := findIp6_one inside
  have walk : StopWalk start missing prefixlen addr6End (p, tmpAddr, list) :=
    ⟨lower, upper, isOne, reached.trans same, tiled⟩
  obtain ⟨⟨last, blocks⟩, run, ends, tiledLast⟩ := Loop.run_returns
    (fun state => 128 - state.1) (StopWalk.turn whole) walk (show 128 - p < 130 by omega)
  refine ⟨last, blocks, ?_, ends, tiledLast⟩
  change (if findIp6 addr6End prefixlen (wanted true) = 128 then _ else _) = _
  rw [if_neg (by omega)]
  change ExceptT.lift (Loop.run (ip6EndTurn addr6End) 130
    (findIp6 addr6End (findIp6 addr6End prefixlen (wanted true) + 1) 1, tmpAddr, list)) >>= _ = _
  rw [here, finds, run]
  rfl

end Stop

/-! ## The segment -/

section Segment

variable {addr6Start addr6End : In6Addr} {p : Nat}

/-- The first bit in which two addresses differ. -/
structure DifferFirstAt (addr6Start addr6End : In6Addr) (p : Nat) : Prop where
  inside : p < 128
  differ : addr6Start.getMsbD p ≠ addr6End.getMsbD p
  agree : ∀ q < p, addr6Start.getMsbD q = addr6End.getMsbD q

section

variable (first : DifferFirstAt addr6Start addr6End p)

include first

theorem DifferFirstAt.ne : addr6Start ≠ addr6End := by
  rintro rfl
  exact first.differ rfl

theorem DifferFirstAt.unique (second : DifferFirstAt addr6Start addr6End other) :
    p = other := by
  rcases Nat.lt_trichotomy p other with before | same | after
  · exact absurd (second.agree p before) first.differ
  · exact same
  · exact absurd (first.agree other after) second.differ

theorem DifferFirstAt.getIp6Prefixlen_eq : getIp6Prefixlen addr6Start addr6End = p := by
  obtain ⟨found, isFound, inside, differs, agree⟩ := getIp6Prefixlen_spec first.ne
  rw [isFound]
  exact DifferFirstAt.unique ⟨inside, differs, agree⟩ first

theorem DifferFirstAt.div_eq :
    addr6Start.toNat / 2 ^ (128 - p) = addr6End.toNat / 2 ^ (128 - p) := by
  apply Nat.eq_of_testBit_eq
  intro i
  rw [Nat.testBit_div_two_pow, Nat.testBit_div_two_pow]
  have inside := first.inside
  by_cases high : i < p
  · rw [testBit_eq_getMsbD _ (by omega), testBit_eq_getMsbD _ (by omega)]
    exact first.agree _ (by omega)
  · rw [BitVec.testBit_toNat, BitVec.testBit_toNat, BitVec.getLsbD_of_ge _ _ (by omega),
      BitVec.getLsbD_of_ge _ _ (by omega)]

theorem DifferFirstAt.bits (le : addr6Start ≤ addr6End) :
    addr6Start.getMsbD p = false ∧ addr6End.getMsbD p = true := by
  have inside := first.inside
  have differ := first.differ
  have ordered : addr6Start.toNat / 2 ^ (127 - p) ≤ addr6End.toNat / 2 ^ (127 - p) :=
    Nat.div_le_div_right le
  rw [div_two_pow_eq (127 - p) addr6Start.toNat, div_two_pow_eq (127 - p) addr6End.toNat,
    show 127 - p + 1 = 128 - p by omega, first.div_eq,
    ← getMsbD_eq_testBit _ inside, ← getMsbD_eq_testBit _ inside] at ordered
  cases start : addr6Start.getMsbD p <;> cases stop : addr6End.getMsbD p <;> simp_all

/-- The first multiple above the one address is the last one below the other. -/
theorem DifferFirstAt.roundUp_eq (le : addr6Start ≤ addr6End) :
    roundUp (127 - p) addr6Start.toNat = roundDown (127 - p) addr6End.toNat := by
  obtain ⟨zero, one⟩ := first.bits le
  have inside := first.inside
  rw [getMsbD_eq_testBit _ inside] at zero one
  unfold roundUp roundDown
  rw [div_two_pow_eq (127 - p) addr6Start.toNat, div_two_pow_eq (127 - p) addr6End.toNat,
    show 127 - p + 1 = 128 - p by omega, first.div_eq, zero, one]
  rfl

end

/-- `GetIp6AndMask` returns, and its blocks tile the segment. -/
def Ip6Cuts (addr6Start addr6End : In6Addr) : Prop :=
  ∃ list, getIp6AndMask addr6Start addr6End = ok list ∧ Tiles list addr6Start addr6End

theorem ip6Cuts_self : Ip6Cuts addr addr := by
  refine ⟨[⟨128, addr⟩], ?_, ?_⟩
  · rw [getIp6AndMask, if_neg (BitVec.lt_irrefl addr), if_pos rfl]
  · have tiled := TiledUpTo.nil.append_block (Nat.zero_le 128) rfl
      (Nat.one_dvd addr.toNat)
    exact tiled.tiles

section

variable (first : DifferFirstAt addr6Start addr6End p)

include first

section

variable (le : addr6Start ≤ addr6End)

include le

theorem ip6Cuts_of_one (one : ∃ q, p ≤ q ∧ q ≤ 127 ∧ addr6Start.getMsbD q = true) :
    Ip6Cuts addr6Start addr6End := by
  obtain ⟨zeroAt, oneAt⟩ := first.bits le
  obtain ⟨off, finds, inside, next, findsNext, tmpAddr, list, run, reached, tiled⟩ :=
    startBlocks_spec zeroAt one
  obtain ⟨last, blocks, result, ends, tiledLast⟩ := ip6EndBlocks_spec first.inside oneAt
    (Nat.dvd_zero _) (reached.trans (first.roundUp_eq le)) tiled
  obtain rfl : last = addr6End := BitVec.eq_of_toNat_eq ends
  rw [if_pos rfl] at result
  have tiledAll := tiledLast.append_block (Nat.zero_le 128) rfl (Nat.one_dvd _)
  refine ⟨_, ?_, tiledAll.tiles⟩
  rw [getIp6AndMask, if_neg (BitVec.not_lt.mpr le), if_neg first.ne]
  dsimp only
  rw [first.getIp6Prefixlen_eq, finds, ok_bind, if_pos (by omega), findsNext, ok_bind, run]
  exact result

section

variable (zeros : ∀ q, p ≤ q → q ≤ 127 → addr6Start.getMsbD q = false)

include zeros

/-- The blocks of a first address without a one bit behind the common prefix. A search
in the first byte leaves the address. -/
theorem getIp6AndMask_of_zeros :
    getIp6AndMask addr6Start addr6End = if p / 8 = 0 then none else (do
      let lastZero ← rfindIp6 addr6End p 127 (wanted false)
      if lastZero = 128 then ok [⟨p, addr6Start⟩]
      else ip6EndBlocks addr6End p addr6Start [] : Outcome (List Ip6Data)) := by
  have inside := first.inside
  have finds := rfindIp6_of_forall (show p ≤ 127 by omega) (by omega)
    (fun q lower upper => ne_true_of_eq_false (zeros q lower upper))
  rw [getIp6AndMask, if_neg (BitVec.not_lt.mpr le), if_neg first.ne]
  dsimp only
  rw [first.getIp6Prefixlen_eq]
  change (rfindIp6 addr6Start p 127 (wanted true) >>= _) = _
  rw [finds]
  split <;> rfl

theorem not_ip6Cuts_of_firstByte (firstByte : p < 8) : ¬ Ip6Cuts addr6Start addr6End := by
  rintro ⟨list, returns, -⟩
  rw [getIp6AndMask_of_zeros first le zeros, if_pos (by omega)] at returns
  cases returns

theorem ip6Cuts_of_ones (second : 8 ≤ p) (ones : ∀ q, p ≤ q → q ≤ 127 → addr6End.getMsbD q = true) :
    Ip6Cuts addr6Start addr6End := by
  have inside := first.inside
  have finds := rfindIp6_of_forall (show p ≤ 127 by omega) (by omega)
    (fun q lower upper => ne_false_of_eq_true (ones q lower upper))
  rw [if_neg (by omega)] at finds
  have low := roundDown_of_getMsbD zeros
  have last : addr6Start.toNat + 2 ^ (128 - p) = addr6End.toNat + 1 := by
    rw [← roundUp_of_getMsbD ones, roundUp_eq, ← low]
    unfold roundDown
    rw [first.div_eq]
  have tiled := TiledUpTo.nil.append_block
    (show 128 - p ≤ 128 by omega) rfl (low ▸ dvd_roundDown _ _)
  rw [last, show 128 - (128 - p) = p by omega] at tiled
  refine ⟨[⟨p, addr6Start⟩], ?_, tiled.tiles⟩
  rw [getIp6AndMask_of_zeros first le zeros, if_neg (by omega), finds]
  rfl

/-- A last address with a zero bit behind the common prefix is not covered. -/
theorem not_ip6Cuts_of_zero
    (second : 8 ≤ p) (zero : ∃ q, p ≤ q ∧ q ≤ 127 ∧ addr6End.getMsbD q = false) :
    ¬ Ip6Cuts addr6Start addr6End := by
  rintro ⟨list, returns, tiles⟩
  obtain ⟨lastZero, finds, -, upper, -⟩ := rfindIp6_of_exists (by omega) zero
  obtain ⟨zeroAt, oneAt⟩ := first.bits le
  have inside := first.inside
  have low : roundDown (127 - p) addr6Start.toNat = addr6Start.toNat := by
    rw [show 127 - p = 128 - (p + 1) by omega]
    exact roundDown_of_getMsbD fun q lower upper => zeros q (by omega) upper
  have reached : addr6Start.toNat + 2 ^ (127 - p) = roundDown (127 - p) addr6End.toNat := by
    rw [← first.roundUp_eq le, roundUp_eq, low]
  obtain ⟨last, blocks, result, ends, tiled⟩ := ip6EndBlocks_spec inside oneAt
    (Nat.dvd_refl _) reached TiledUpTo.nil
  have positive := Nat.two_pow_pos (127 - p)
  have short : last ≠ addr6End := by
    rintro rfl
    omega
  rw [if_neg short] at result
  rw [getIp6AndMask_of_zeros first le zeros, if_neg (by omega), finds, ok_bind,
    if_neg (by omega), result, ok_inj] at returns
  subst returns
  have covered := (tiles.covers addr6End).mpr ⟨le, BitVec.le_refl _⟩
  have before := ((tiled.cut.covers addr6End).mp covered).2
  omega

end

end

end

/-- Exactly these segments are cut: one address; a first address with a one bit from the
first differing bit on; or a first address without and a last address with one bits only
from there on, where this bit is not in the first byte. -/
theorem ip6Cuts_iff (le : addr6Start ≤ addr6End) :
    Ip6Cuts addr6Start addr6End ↔ addr6Start = addr6End ∨ ∃ p, DifferFirstAt addr6Start addr6End p ∧
          ((∃ q, p ≤ q ∧ q ≤ 127 ∧ addr6Start.getMsbD q = true) ∨
            8 ≤ p ∧ ∀ q, p ≤ q → q ≤ 127 → addr6End.getMsbD q = true) := by
  constructor
  · intro cuts
    by_cases same : addr6Start = addr6End
    · exact .inl same
    · obtain ⟨p, -, inside, differ, agree⟩ := getIp6Prefixlen_spec same
      have first : DifferFirstAt addr6Start addr6End p := ⟨inside, differ, agree⟩
      refine .inr ⟨p, first, ?_⟩
      by_contra neither
      rw [not_or] at neither
      have zeros : ∀ q, p ≤ q → q ≤ 127 → addr6Start.getMsbD q = false :=
        fun q lower upper => Bool.eq_false_iff.mpr fun isOne => neither.1 ⟨q, lower, upper, isOne⟩
      by_cases second : 8 ≤ p
      · refine not_ip6Cuts_of_zero first le zeros second ?_ cuts
        by_contra noZero
        exact neither.2 ⟨second, fun q lower upper =>
          Bool.ne_false_iff.mp fun isZero => noZero ⟨q, lower, upper, isZero⟩⟩
      · exact not_ip6Cuts_of_firstByte first le zeros (Nat.not_le.mp second) cuts
  · rintro (rfl | ⟨p, first, one | ⟨second, ones⟩⟩)
    · exact ip6Cuts_self
    · exact ip6Cuts_of_one first le one
    · by_cases one : ∃ q, p ≤ q ∧ q ≤ 127 ∧ addr6Start.getMsbD q = true
      · exact ip6Cuts_of_one first le one
      · refine ip6Cuts_of_ones first le (fun q lower upper => ?_) second ones
        exact Bool.eq_false_iff.mpr fun isOne => one ⟨q, lower, upper, isOne⟩

end Segment

/-- 2001:db8::1 to 2001:db8::6 is cut. -/
theorem ip6Cuts_small :
    Ip6Cuts 0x20010DB8000000000000000000000001 0x20010DB8000000000000000000000006 :=
  (ip6Cuts_iff (by decide)).mpr (.inr ⟨125,
    ⟨by decide, by decide, by decide +kernel⟩, .inl ⟨127, by decide, by decide, by decide⟩⟩)

/-- From 2001:db8:: to 2001:db8::2 there is no block, and from :: to the last address of
all the search leaves the address. -/
theorem not_ip6Cuts_zeros :
    (getIp6AndMask 0x20010DB8000000000000000000000000 0x20010DB8000000000000000000000002 =
        ok [] ∧
      ¬ Ip6Cuts 0x20010DB8000000000000000000000000 0x20010DB8000000000000000000000002) ∧
    ¬ Ip6Cuts 0 (BitVec.allOnes 128) := by
  have none : getIp6AndMask 0x20010DB8000000000000000000000000
      0x20010DB8000000000000000000000002 = ok [] := rfl
  refine ⟨⟨none, ?_⟩, ?_⟩
  · rintro ⟨list, returns, tiles⟩
    rw [none, ok_inj] at returns
    subst returns
    obtain ⟨block, member, -⟩ := (tiles.covers 0x20010DB8000000000000000000000000).mpr (by decide)
    cases member
  · exact not_ip6Cuts_of_firstByte (p := 0)
      ⟨by decide, by decide, by decide⟩ (by decide) (by decide +kernel) (by decide)

end IpParamParser

end NetManager.Firewall
