import NetManager.Firewall.Rule
import NetManager.Library.Bits
import NetManager.Library.Loop

/-!
# IPv4 segments and the IPv4 rule map

`IpParamParser::GetIp4AndMask` cuts a segment of addresses into aligned blocks,
and `Ip4RuleMap::OrInsert` keeps a vector of prefixes with the rules each
stands for. Because the kernel answers a lookup from one prefix only, an
insertion also hands its rules to the longer prefixes inside the new one and
collects the rules of the shorter prefixes around it.

`Ip4RuleMap.Represents` says what a vector then holds: every entry has the
rules inserted under exactly its spelling and those of every shorter prefix
around it.
-/

namespace NetManager.Firewall

open List AddressPrefix RuleBitmap

/-! ## Segments -/

/-- `Ip4Data`: a mask and an address. -/
abbrev Ip4Data := Prefix 32

/-- `1 << n` on a 32-bit word. The processors take the count modulo 32; the
language leaves a count of 32 undefined. -/
def shiftOne (n : Nat) : BitVec 32 := 1#32 <<< (n % 32)

namespace IpParamParser

def getCidrBlockBits (cidrSize : BitVec 32) : Nat := BitCount.leadingBit 31 cidrSize.toNat

def getSuffixZeroLength (ip : BitVec 32) : Nat :=
  if ip = 0 then 32 else BitCount.trailingZeros 32 ip.toNat

/-- `std::min(maxCidrSize, remainingCidrSize)` in `GetIp4AndMask`. -/
def cidrSize (startIp endIp : BitVec 32) : BitVec 32 :=
  if endIp - startIp + 1 < shiftOne (getSuffixZeroLength startIp) then endIp - startIp + 1
  else shiftOne (getSuffixZeroLength startIp)

/-- One turn of the loop of `GetIp4AndMask`. -/
def ip4Turn (endIp : BitVec 32) :
    BitVec 32 × List Ip4Data → (BitVec 32 × List Ip4Data) ⊕ List Ip4Data
  | (startIp, list) =>
    if startIp ≤ endIp then
      let cidrBits := getCidrBlockBits (cidrSize startIp endIp)
      .inl (startIp + shiftOne cidrBits, list ++ [⟨32 - cidrBits, startIp⟩])
    else .inr list

def getIp4AndMask (fuel : Nat) (startAddr endAddr : BitVec 32) : Outcome (List Ip4Data) :=
  if endAddr < startAddr then throw .err
  else ExceptT.lift (Loop.run (ip4Turn endAddr) fuel (startAddr, []))

theorem toNat_shiftOne (small : n < 32) : (shiftOne n).toNat = 2 ^ n := by
  rw [shiftOne, Nat.mod_eq_of_lt small, ← BitVec.twoPow_eq, BitVec.toNat_twoPow]
  exact Nat.mod_eq_of_lt (Nat.pow_lt_pow_right (by decide) small)

theorem getCidrBlockBits_le (cidrSize : BitVec 32) : getCidrBlockBits cidrSize ≤ 31 :=
  BitCount.leadingBit_le cidrSize.isLt

theorem two_pow_getCidrBlockBits_le (positive : 0 < bound) (le : size.toNat ≤ bound) :
    2 ^ getCidrBlockBits size ≤ bound := by
  by_cases empty : size.toNat = 0
  · rw [getCidrBlockBits, empty]
    exact positive
  · exact (BitCount.two_pow_leadingBit_le (by omega) size.isLt).trans le

theorem cidrSize_le_remaining (le : startIp.toNat ≤ endIp.toNat) (room : endIp.toNat + 1 < 2 ^ 32) :
    (cidrSize startIp endIp).toNat ≤ endIp.toNat + 1 - startIp.toNat := by
  have remaining : (endIp - startIp + 1).toNat = endIp.toNat + 1 - startIp.toNat := by
    bv_omega
  unfold cidrSize
  split
  next less => rw [remaining]
  next notLess =>
    rw [← remaining]
    exact BitVec.not_lt.mp notLess

theorem cidrSize_le_max (startIp endIp : BitVec 32) :
    (cidrSize startIp endIp).toNat ≤ (shiftOne (getSuffixZeroLength startIp)).toNat := by
  unfold cidrSize
  split
  next less => exact Nat.le_of_lt less
  next notLess => exact le_rfl

theorem two_pow_cidrBits_dvd (startIp endIp : BitVec 32) :
    2 ^ getCidrBlockBits (cidrSize startIp endIp) ∣ startIp.toNat := by
  by_cases zero : startIp = 0
  · simp [zero]
  have positive : 0 < startIp.toNat := by
    have : startIp.toNat ≠ 0 := fun h => zero (BitVec.eq_of_toNat_eq h)
    omega
  have bound := cidrSize_le_max startIp endIp
  have width := BitCount.trailingZeros_lt positive startIp.isLt
  rw [getSuffixZeroLength, if_neg zero, toNat_shiftOne width] at bound
  have le := two_pow_getCidrBlockBits_le (Nat.two_pow_pos _) bound
  exact (Nat.pow_dvd_pow 2
    ((Nat.pow_le_pow_iff_right (by decide)).mp le)).trans
    (BitCount.two_pow_trailingZeros_dvd 32 startIp.toNat)

/-- The blocks cut so far cover the segment up to the current address. -/
def Ip4Progress (startAddr endAddr : BitVec 32) (state : BitVec 32 × List Ip4Data) : Prop :=
  state.1.toNat ≤ endAddr.toNat + 1 ∧ CutUpTo startAddr.toNat state.1.toNat state.2

variable {list : List Ip4Data}

theorem ip4Turn_advances (room : endAddr.toNat + 1 < 2 ^ 32) (inside : current ≤ endAddr)
    (isBits : getCidrBlockBits (cidrSize current endAddr) = bits) :
    bits ≤ 31 ∧ 2 ^ bits ∣ current.toNat ∧ current.toNat + 2 ^ bits ≤ endAddr.toNat + 1 ∧
      (current + shiftOne bits).toNat = current.toNat + 2 ^ bits := by
  have le : current.toNat ≤ endAddr.toNat := inside
  have fits := two_pow_getCidrBlockBits_le (by omega) (cidrSize_le_remaining le room)
  have aligned := two_pow_cidrBits_dvd current endAddr
  have small := getCidrBlockBits_le (cidrSize current endAddr)
  rw [isBits] at fits aligned small
  refine ⟨small, aligned, by omega, ?_⟩
  rw [BitVec.toNat_add, toNat_shiftOne (by omega)]
  exact Nat.mod_eq_of_lt (by omega)

variable {startAddr endAddr : BitVec 32}

/-- The blocks of a list cover exactly the addresses of a segment. -/
def CoversSegment (list : List Ip4Data) (startAddr endAddr : BitVec 32) : Prop :=
  ∀ a, (∃ block ∈ list, block.Covers a) ↔ startAddr ≤ a ∧ a ≤ endAddr

theorem Ip4Progress.finish (progress : Ip4Progress startAddr endAddr (current, list))
    (past : ¬ current ≤ endAddr) :
    CoversSegment list startAddr endAddr ∧ ∀ block ∈ list, block.len ≤ 32 := by
  have reached : current.toNat ≤ endAddr.toNat + 1 := progress.1
  refine ⟨fun a => (progress.2.covers a).trans ?_, progress.2.len_le⟩
  have beyond : endAddr.toNat < current.toNat := BitVec.not_le.mp past
  simp only [BitVec.le_def]
  omega

variable {fuel : Nat}

/-- The blocks cut so far tile the segment up to the current address. -/
def Ip4Tiled (startAddr endAddr : BitVec 32) (state : BitVec 32 × List Ip4Data) : Prop :=
  state.1.toNat ≤ endAddr.toNat + 1 ∧ TiledUpTo startAddr.toNat state.1.toNat state.2

theorem Ip4Tiled.turn (room : endAddr.toNat + 1 < 2 ^ 32) (state : BitVec 32 × List Ip4Data)
    (tiled : Ip4Tiled startAddr endAddr state) :
    (∃ next, ip4Turn endAddr state = .inl next ∧ Ip4Tiled startAddr endAddr next ∧
        endAddr.toNat + 1 - next.1.toNat < endAddr.toNat + 1 - state.1.toNat) ∨
      ∃ result, ip4Turn endAddr state = .inr result ∧ Tiles result startAddr endAddr ∧
        CoversSegment result startAddr endAddr ∧ ∀ block ∈ result, block.len ≤ 32 := by
  obtain ⟨current, list⟩ := state
  by_cases inside : current ≤ endAddr
  · obtain ⟨small, aligned, fits, advances⟩ := ip4Turn_advances room inside rfl
    refine .inl ⟨_, if_pos inside, ?_⟩
    unfold Ip4Tiled
    dsimp only
    rw [advances]
    exact ⟨⟨fits, tiled.2.append_block (by omega) rfl aligned⟩, by omega⟩
  · have reached : current.toNat = endAddr.toNat + 1 :=
      Nat.le_antisymm tiled.1 (BitVec.not_le.mp inside)
    have done := tiled.2
    rw [reached] at done
    exact .inr ⟨list, if_neg inside, done.tiles,
      Ip4Progress.finish ⟨tiled.1, tiled.2.cut⟩ inside⟩

/-- A segment that does not end at the last address of all is cut into blocks that tile it
and cover exactly its addresses. -/
theorem getIp4AndMask_tiles (le : startAddr ≤ endAddr)
    (room : endAddr.toNat + 1 < 2 ^ 32) (enough : 2 ^ 32 < fuel) :
    ∃ list, getIp4AndMask fuel startAddr endAddr = Outcome.ok list ∧
      Tiles list startAddr endAddr ∧ CoversSegment list startAddr endAddr ∧
      ∀ block ∈ list, block.len ≤ 32 := by
  have start : Ip4Tiled startAddr endAddr (startAddr, []) :=
    ⟨Nat.le_succ_of_le le, TiledUpTo.nil⟩
  obtain ⟨list, run, cut⟩ := Loop.run_returns
    (fun state => endAddr.toNat + 1 - state.1.toNat) (Ip4Tiled.turn room) start
    (lt_of_le_of_lt (Nat.sub_le _ _) (room.trans enough))
  refine ⟨list, ?_, cut⟩
  rw [getIp4AndMask, if_neg (BitVec.not_lt.mpr le), run]
  rfl

theorem le_allOnes : a ≤ BitVec.allOnes 32 := by
  exact Nat.le_pred_of_lt a.isLt

/-- A segment that ends at 255.255.255.255 is never finished: the start wraps
around to 0 and stays below the end. -/
theorem getIp4AndMask_diverges : getIp4AndMask fuel startAddr (BitVec.allOnes 32) = none := by
  have continues : ∀ state : BitVec 32 × List Ip4Data, True →
      ∃ next, ip4Turn (BitVec.allOnes 32) state = .inl next ∧ True := by
    rintro ⟨current, list⟩ _
    exact ⟨_, if_pos le_allOnes, trivial⟩
  have run := Loop.run_eq_none (fun _ => True) continues fuel (startAddr, []) trivial
  rw [getIp4AndMask, if_neg (BitVec.not_lt.mpr le_allOnes), run]
  rfl

theorem getIp4AndMask_mono (le : fuel ≤ more)
    (returns : getIp4AndMask fuel startAddr endAddr = Outcome.ok list) :
    getIp4AndMask more startAddr endAddr = Outcome.ok list := by
  unfold getIp4AndMask at returns ⊢
  split
  next reversed =>
    rw [if_pos reversed] at returns
    exact absurd returns Outcome.throw_ne_ok
  next ordered =>
    rw [if_neg ordered] at returns
    rw [Outcome.lift_eq_ok_iff] at returns ⊢
    exact Loop.run_mono le returns

theorem le_of_getIp4AndMask (returns : getIp4AndMask fuel startAddr endAddr = Outcome.ok list) :
    startAddr ≤ endAddr := by
  by_contra reversed
  rw [getIp4AndMask, if_pos (BitVec.not_le.mp reversed)] at returns
  exact absurd returns Outcome.throw_ne_ok

theorem ne_top_of_getIp4AndMask (returns : getIp4AndMask fuel startAddr endAddr = Outcome.ok list) :
    endAddr ≠ BitVec.allOnes 32 := by
  rintro rfl
  rw [getIp4AndMask_diverges] at returns
  cases returns

theorem toNat_succ_lt (notTop : addr ≠ BitVec.allOnes 32) :
    addr.toNat + 1 < 2 ^ 32 := by
  have : addr.toNat ≠ 2 ^ 32 - 1 := fun top =>
    notTop (BitVec.eq_of_toNat_eq (by rw [top, BitVec.toNat_allOnes]))
  omega

theorem getIp4AndMask_enough (returns : getIp4AndMask fuel startAddr endAddr = Outcome.ok list) :
    getIp4AndMask (2 ^ 32 + 1) startAddr endAddr = Outcome.ok list := by
  obtain ⟨other, otherReturns, _⟩ :=
    getIp4AndMask_tiles (le_of_getIp4AndMask returns)
      (toNat_succ_lt (ne_top_of_getIp4AndMask returns))
      (Nat.lt_succ_self (2 ^ 32))
  have first := getIp4AndMask_mono (Nat.le_max_left fuel (2 ^ 32 + 1)) returns
  have second := getIp4AndMask_mono (Nat.le_max_right fuel (2 ^ 32 + 1)) otherReturns
  rw [first] at second
  rw [second]
  exact otherReturns

/-! ### Tilings -/

/-- `GetIp4AndMask` returns, and its blocks tile the segment. -/
def Ip4Cuts (startAddr endAddr : BitVec 32) : Prop :=
  ∃ fuel list, getIp4AndMask fuel startAddr endAddr = Outcome.ok list ∧ Tiles list startAddr endAddr

/-- Exactly the segments that end before 255.255.255.255 are cut. -/
theorem ip4Cuts_iff {startAddr endAddr : BitVec 32} (le : startAddr ≤ endAddr) :
    Ip4Cuts startAddr endAddr ↔ endAddr ≠ BitVec.allOnes 32 := by
  constructor
  · rintro ⟨fuel, list, returns, -⟩
    exact ne_top_of_getIp4AndMask returns
  · intro notTop
    obtain ⟨list, returns, tiles, -⟩ :=
      getIp4AndMask_tiles le (toNat_succ_lt notTop) (Nat.lt_succ_self (2 ^ 32))
    exact ⟨2 ^ 32 + 1, list, returns, tiles⟩

/-- 10.0.0.1 to 10.0.0.6 is cut. -/
theorem ip4Cuts_small : Ip4Cuts 0x0A000001 0x0A000006 := (ip4Cuts_iff (by decide)).mpr (by decide)

/-- 255.255.255.254 to 255.255.255.255 is not. -/
theorem not_ip4Cuts_top : ¬ Ip4Cuts 0xFFFFFFFE 0xFFFFFFFF := by
  rintro ⟨fuel, list, returns, -⟩
  exact absurd getIp4AndMask_diverges
    (by
      rw [show BitVec.allOnes 32 = 0xFFFFFFFF from rfl, returns]
      exact Option.some_ne_none _)

end IpParamParser

/-! ## The rule map -/

abbrev Ip4RuleBitmap := RuleBitmap 32

namespace Ip4RuleMap

/-- `Ip4RuleMap::GetNetworkAddress`. -/
def getNetworkAddress (addr : BitVec 32) (mask : Nat) : BitVec 32 :=
  addr &&& (0xFFFFFFFF#32 <<< (32 - mask))

/-- One turn of the loop of `Ip4RuleMap::OrInsert`: the visited entry and the
copy of the bitmap after it. -/
def visit (addr : BitVec 32) (mask : Nat) (it : Ip4RuleBitmap)
    (bitmapCopy : Bitmap) : Ip4RuleBitmap × Bitmap :=
  let networkAddr := getNetworkAddress addr mask
  let existingIp := it.key.addr
  let existingNetworkAddr := getNetworkAddress existingIp it.key.len
  -- the same rule
  let it :=
    if it.key.addr = addr ∧ it.key.len = mask then { it with bitmap := it.bitmap.or bitmapCopy }
    else it
  -- the new mask is smaller
  let it :=
    if mask < it.key.len ∧ getNetworkAddress existingIp mask = networkAddr then
      { it with bitmap := it.bitmap.or bitmapCopy }
    else it
  -- the new mask is larger
  let bitmapCopy :=
    if it.key.len < mask ∧
        getNetworkAddress addr it.key.len = existingNetworkAddr then
      bitmapCopy.or it.bitmap
    else bitmapCopy
  (it, bitmapCopy)

/-- The loop of `Ip4RuleMap::OrInsert`: the visited entries, the copy of the
bitmap, and whether no entry was the same rule. -/
def visitAll (addr : BitVec 32) (mask : Nat) :
    List Ip4RuleBitmap → Bitmap → List Ip4RuleBitmap × Bitmap × Bool
  | [], bitmapCopy => ([], bitmapCopy, true)
  | it :: rest, bitmapCopy =>
    let visited := visit addr mask it bitmapCopy
    let result := visitAll addr mask rest visited.2
    (visited.1 :: result.1, result.2.1,
      result.2.2 && !decide (it.key.addr = addr ∧ it.key.len = mask))

/-- `Ip4RuleMap::OrInsert`. -/
def orInsert (ruleBitmapVec : List Ip4RuleBitmap) (addr : BitVec 32) (mask : Nat)
    (bitmap : Bitmap) : List Ip4RuleBitmap :=
  let visited := visitAll addr mask ruleBitmapVec bitmap
  if visited.2.2 then visited.1 ++ [⟨⟨mask, addr⟩, visited.2.1⟩]
  else visited.1

theorem getNetworkAddress_eq_iff :
    getNetworkAddress addr mask = getNetworkAddress other mask ↔ Agree mask addr other :=
  mask_eq_mask_iff

/-- The entries that an insertion of `p` hands its rules to: `p` itself and
the longer prefixes inside it. -/
def Receives (p : Prefix 32) (key : Prefix 32) : Prop :=
  key = p ∨ p.len < key.len ∧ p.Covers key.addr
deriving Decidable

theorem visit_eq :
    visit p.addr p.len it bitmapCopy =
      (if Receives p it.key then { it with bitmap := it.bitmap.or bitmapCopy }
      else it,
      if it.key.len < p.len ∧ it.key.Covers p.addr then bitmapCopy.or it.bitmap
      else bitmapCopy) := by
  obtain ⟨⟨len, addr⟩, bitmap⟩ := it
  obtain ⟨mask, target⟩ := p
  simp only [visit, Receives, Prefix.mk.injEq, Prefix.Covers, getNetworkAddress_eq_iff]
  by_cases same : addr = target ∧ len = mask
  · obtain ⟨rfl, rfl⟩ := same
    simp
  · have different : ¬ (len = mask ∧ addr = target) := fun h => same h.symm
    simp only [same, different, if_false, false_or]
    by_cases inner : mask < len ∧ Agree mask addr target
    · have notOuter : ¬ len < mask := by omega
      simp [inner, notOuter]
    · by_cases outer : len < mask ∧ Agree len target addr
      · simp [inner, outer, getNetworkAddress_eq_iff]
      · simp [inner, outer, getNetworkAddress_eq_iff]

/-- What a vector holds after the insertions `inserted`: each spelling once, in
the order in which it was first inserted, with the rules inserted under that
spelling and those of every shorter prefix around it. -/
structure Represents
    (inserted ruleBitmapVec : List Ip4RuleBitmap) : Prop where
  keys : ruleBitmapVec.map key = (inserted.map key).eraseDups
  bits : ∀ entry ∈ ruleBitmapVec, ∀ n, entry.bitmap.test n = true ↔
    ∃ event ∈ inserted, event.bitmap.test n = true ∧ Receives event.key entry.key

/-- The rules that shorter prefixes around `p` contributed. -/
def Inherits (inserted : List Ip4RuleBitmap) (p : Prefix 32) (n : Nat) : Prop :=
  ∃ event ∈ inserted, event.bitmap.test n = true ∧ event.key.len < p.len ∧ event.key.Covers p.addr

variable {inserted ruleBitmapVec : List Ip4RuleBitmap}

theorem Represents.mem_keys_iff (represents : Represents inserted ruleBitmapVec) (key : Prefix 32) :
    (∃ entry ∈ ruleBitmapVec, entry.key = key) ↔ ∃ event ∈ inserted, event.key = key := by
  rw [← mem_map, ← mem_map, represents.keys, mem_eraseDups]

variable {p : Prefix 32} {n : Nat}

/-- What shorter prefixes contributed to an entry around `p` they also
contributed to `p`. -/
theorem Receives.inherits {event entry : Ip4RuleBitmap} (member : event ∈ inserted)
    (set : event.bitmap.test n = true) (receives : Receives event.key entry.key)
    (shorter : entry.key.len < p.len) (covers : entry.key.Covers p.addr) :
    Inherits inserted p n := by
  refine ⟨event, member, set, ?_⟩
  rcases receives with same | ⟨less, inside⟩
  · rw [← same]
    exact ⟨shorter, covers⟩
  · exact ⟨less.trans shorter, (Prefix.covers_iff_of_covers less.le covers).mpr inside⟩

/-- An entry that receives the rules of `p` already has what `p` inherits. -/
theorem Represents.test_of_inherits (represents : Represents inserted ruleBitmapVec)
    (member : entry ∈ ruleBitmapVec) (receives : Receives p entry.key)
    (inherits : Inherits inserted p n) :
    entry.bitmap.test n = true := by
  obtain ⟨event, eventMember, set, shorter, covers⟩ := inherits
  refine (represents.bits entry member n).mpr ⟨event, eventMember, set, ?_⟩
  rcases receives with same | ⟨less, inside⟩
  · rw [same]
    exact Or.inr ⟨shorter, covers⟩
  · exact Or.inr ⟨shorter.trans less, (Prefix.covers_iff_of_covers shorter.le inside).mpr covers⟩

section

variable (p : Prefix 32) (bitmap : Bitmap) (it : Ip4RuleBitmap)

/-- The entries after an insertion that is not new. -/
def mark : Ip4RuleBitmap :=
  if Receives p it.key then { it with bitmap := it.bitmap.or bitmap }
  else it

@[simp] theorem mark_key : (mark p bitmap it).key = it.key := by
  unfold mark
  split <;> rfl

theorem test_mark_bitmap :
    (mark p bitmap it).bitmap.test n = true ↔
      it.bitmap.test n = true ∨ bitmap.test n = true ∧ Receives p it.key := by
  unfold mark
  split
  next receives => simp [receives]
  next excluded => simp [excluded]

end

/-- The copy of the bitmap holds the inserted rules and, besides them, only
rules that `p` inherits. -/
structure Gathers (inserted : List Ip4RuleBitmap) (p : Prefix 32)
    (bitmap bitmapCopy : Bitmap) : Prop where
  complete : ∀ n, bitmap.test n = true → bitmapCopy.test n = true
  sound : ∀ n, bitmapCopy.test n = true → bitmap.test n = true ∨ Inherits inserted p n

theorem visit_fst {inserted : List Ip4RuleBitmap} {bitmap bitmapCopy : Bitmap}
    {it : Ip4RuleBitmap} (gathers : Gathers inserted p bitmap bitmapCopy)
    (inherited : Receives p it.key → ∀ n, Inherits inserted p n → it.bitmap.test n = true) :
    (visit p.addr p.len it bitmapCopy).1 = mark p bitmap it := by
  rw [visit_eq]
  unfold mark
  split
  case isFalse excluded => rfl
  case isTrue receives =>
    simp only [mk.injEq, true_and]
    apply Bitmap.ext_test
    intro n
    rw [Bool.eq_iff_iff, Bitmap.test_or, Bitmap.test_or, Bool.or_eq_true, Bool.or_eq_true]
    constructor
    · rintro (old | new)
      · exact Or.inl old
      · rcases gathers.sound n new with own | inherits
        · exact Or.inr own
        · exact Or.inl (inherited receives n inherits)
    · rintro (old | new)
      · exact Or.inl old
      · exact Or.inr (gathers.complete n new)

theorem test_visit_snd :
    (visit p.addr p.len it bitmapCopy).2.test n = true ↔ bitmapCopy.test n = true ∨
        it.bitmap.test n = true ∧ it.key.len < p.len ∧ it.key.Covers p.addr := by
  rw [visit_eq]
  simp only
  split
  next outer => simp [outer]
  next notOuter => simp [notOuter]

/-- Along the loop the copy of the bitmap gathers what `p` inherits, while the
visited entries gain the inserted rules only. -/
theorem visitAll_eq {inserted : List Ip4RuleBitmap} {bitmap : Bitmap}
    (outer : ∀ entry ∈ entries, ∀ n, entry.bitmap.test n = true →
      entry.key.len < p.len → entry.key.Covers p.addr →
      Inherits inserted p n)
    (inner : ∀ entry ∈ entries, Receives p entry.key →
      ∀ n, Inherits inserted p n → entry.bitmap.test n = true)
    (bitmapCopy : Bitmap)
    (gathers : Gathers inserted p bitmap bitmapCopy) :
    (visitAll p.addr p.len entries bitmapCopy).1 = entries.map (mark p bitmap) ∧
      (∀ n, (visitAll p.addr p.len entries bitmapCopy).2.1.test n = true ↔
        bitmapCopy.test n = true ∨ ∃ entry ∈ entries, entry.bitmap.test n = true ∧
            entry.key.len < p.len ∧ entry.key.Covers p.addr) ∧
      ((visitAll p.addr p.len entries bitmapCopy).2.2 = true ↔
        ∀ entry ∈ entries, entry.key ≠ p) := by
  induction entries generalizing bitmapCopy with
  | nil => simp [visitAll]
  | cons it rest ih =>
    have next : Gathers inserted p bitmap (visit p.addr p.len it bitmapCopy).2 := by
      refine ⟨fun n set => ?_, fun n set => ?_⟩
      · exact test_visit_snd.mpr (Or.inl (gathers.complete n set))
      · rcases test_visit_snd.mp set with old | new
        · exact gathers.sound n old
        · exact Or.inr (outer it mem_cons_self n new.1 new.2.1 new.2.2)
    obtain ⟨visited, copied, fresh⟩ := ih
      (forall_mem_cons.mp outer).2
      (forall_mem_cons.mp inner).2
      (visit p.addr p.len it bitmapCopy).2 next
    refine ⟨?_, fun n => ?_, ?_⟩
    · simp only [visitAll, map_cons, visited]
      rw [visit_fst gathers (inner it mem_cons_self)]
    · simp only [visitAll, copied, test_visit_snd, mem_cons, exists_eq_or_imp, or_assoc]
    · have key : it.key ≠ p ↔ ¬ (it.key.addr = p.addr ∧ it.key.len = p.len) := by
        rw [Ne, Prefix.ext_iff, and_comm]
      simp only [visitAll, Bool.and_eq_true, fresh, Bool.not_eq_true',
        decide_eq_false_iff_not, forall_mem_cons, key, and_comm]

section

variable (represents : Represents inserted ruleBitmapVec) (p : Prefix 32) (bitmap : Bitmap)
include represents

theorem Represents.visitAll_eq :
    (visitAll p.addr p.len ruleBitmapVec bitmap).1 = ruleBitmapVec.map (mark p bitmap) ∧
      (∀ n, (visitAll p.addr p.len ruleBitmapVec bitmap).2.1.test n = true ↔
        bitmap.test n = true ∨ Inherits inserted p n) ∧
      ((visitAll p.addr p.len ruleBitmapVec bitmap).2.2 = true ↔
        ∀ entry ∈ ruleBitmapVec, entry.key ≠ p) := by
  have outer : ∀ entry ∈ ruleBitmapVec, ∀ n, entry.bitmap.test n = true →
      entry.key.len < p.len → entry.key.Covers p.addr →
      Inherits inserted p n := by
    intro entry member n set shorter covers
    obtain ⟨event, eventMember, eventSet, receives⟩ := (represents.bits entry member n).mp set
    exact receives.inherits eventMember eventSet shorter covers
  obtain ⟨visited, copied, fresh⟩ := Ip4RuleMap.visitAll_eq outer
    (fun entry member receives n => represents.test_of_inherits member receives)
    bitmap ⟨fun _ => id, fun _ => Or.inl⟩
  refine ⟨visited, fun n => (copied n).trans (or_congr_right ?_), fresh⟩
  constructor
  · rintro ⟨entry, member, set, shorter, covers⟩
    exact outer entry member n set shorter covers
  · rintro ⟨event, eventMember, set, shorter, covers⟩
    obtain ⟨entry, member, key⟩ := (represents.mem_keys_iff event.key).mpr ⟨event, eventMember, rfl⟩
    refine ⟨entry, member, ?_, key ▸ shorter, key ▸ covers⟩
    exact (represents.bits entry member n).mpr ⟨event, eventMember, set, Or.inl key⟩

theorem Represents.orInsert :
    Represents (inserted ++ [⟨p, bitmap⟩]) (orInsert ruleBitmapVec p.addr p.len bitmap) := by
  obtain ⟨visited, copied, fresh⟩ := represents.visitAll_eq p bitmap
  have marked : ∀ entry ∈ ruleBitmapVec.map (mark p bitmap), ∀ n, entry.bitmap.test n = true ↔
        ∃ event ∈ inserted ++ [⟨p, bitmap⟩],
          event.bitmap.test n = true ∧ Receives event.key entry.key := by
    refine forall_mem_map.mpr fun old oldMember n => ?_
    rw [test_mark_bitmap, represents.bits old oldMember n]
    simp [or_and_right, exists_or]
  have keys : (ruleBitmapVec.map (mark p bitmap)).map key =
      (inserted.map key).eraseDups := by
    rw [map_map, ← represents.keys]
    exact map_congr_left fun entry _ => mark_key p bitmap entry
  simp only [Ip4RuleMap.orInsert, visited]
  split
  next new =>
    have absent : ∀ event ∈ inserted, event.key ≠ p := by
      intro event member same
      obtain ⟨entry, entryMember, key⟩ := (represents.mem_keys_iff p).mpr ⟨event, member, same⟩
      exact fresh.mp new entry entryMember key
    refine ⟨?_, fun entry member n => ?_⟩
    · have notMember : p ∉ inserted.map key := by
        simpa using absent
      rw [map_append, map_append, keys, map_singleton,
        map_singleton, BoundedTable.eraseDups_append_singleton, if_neg notMember]
    · rcases mem_append.mp member with old | last
      · exact marked entry old n
      · rw [mem_singleton.mp last]
        simp only [copied, Inherits, mem_append, mem_singleton]
        constructor
        · rintro (own | ⟨event, eventMember, set, inherits⟩)
          · exact ⟨_, Or.inr rfl, own, Or.inl rfl⟩
          · exact ⟨event, Or.inl eventMember, set, Or.inr inherits⟩
        · rintro ⟨event, eventMember | rfl, set, receives⟩
          · rcases receives with same | inherits
            · exact absurd same.symm (absent event eventMember)
            · exact Or.inr ⟨event, eventMember, set, inherits⟩
          · exact Or.inl set
  next notNew =>
    refine ⟨?_, marked⟩
    have member : p ∈ inserted.map key := by
      by_contra notMember
      refine notNew (fresh.mpr fun entry entryMember same => notMember ?_)
      obtain ⟨event, eventMember, key⟩ := (represents.mem_keys_iff p).mp ⟨entry, entryMember, same⟩
      exact mem_map.mpr ⟨event, eventMember, key⟩
    rw [keys, map_append, map_singleton, BoundedTable.eraseDups_append_singleton, if_pos member]

end

/-- Insert a list of prefixes with their rules in order. -/
def orInsertAll (ruleBitmapVec events : List Ip4RuleBitmap) : List Ip4RuleBitmap :=
  events.foldl
    (fun vec event => orInsert vec event.key.addr event.key.len event.bitmap)
    ruleBitmapVec

theorem orInsertAll_append :
    orInsertAll ruleBitmapVec (first ++ second) =
      orInsertAll (orInsertAll ruleBitmapVec first) second := by
  simp [orInsertAll]

theorem Represents.nil : Represents [] [] := by
  refine ⟨rfl, ?_⟩
  simp

theorem Represents.orInsertAll (represents : Represents inserted ruleBitmapVec) :
    Represents (inserted ++ events) (orInsertAll ruleBitmapVec events) := by
  induction events generalizing inserted ruleBitmapVec with
  | nil =>
    rw [append_nil]
    exact represents
  | cons event events ih =>
    have next := ih (represents.orInsert event.key event.bitmap)
    rw [append_assoc] at next
    exact next

end Ip4RuleMap

end NetManager.Firewall
