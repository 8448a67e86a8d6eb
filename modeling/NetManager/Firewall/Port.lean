import NetManager.Firewall.Rule
import NetManager.Firewall.Segment
import NetManager.Library.Bits
import NetManager.Library.Loop

/-!
# The port map

`GetPortRangeAndMask` cuts a segment of ports into aligned blocks, and
`OrInsertPortBitmap` makes the blocks of all segments the keys of the port map.
Unlike an IPv4 segment, a segment that ends at the last port is finished: the
start is kept in a wider word.
-/

namespace NetManager.Firewall

open List AddressPrefix BitCount

abbrev PortRuleBitmap := RuleBitmap 16

namespace BitmapManager

/-- The block size of one turn of `GetPortRangeAndMask`, computed in 32-bit
words; no number here passes 65536. -/
def blockSize (start stop : Nat) : Nat :=
  let suffixZeros := if 0 < start then trailingZeros 32 start else 0
  let maxBlock := 1 <<< suffixZeros
  let remaining := stop - start + 1
  halveTo 32 remaining maxBlock

/-- One turn of the loop of `GetPortRangeAndMask`. -/
def portTurn (stop : Nat) :
    Nat × List (Prefix 16) → (Nat × List (Prefix 16)) ⊕ List (Prefix 16)
  | (start, list) =>
    if start ≤ stop then
      let size := blockSize start stop
      let mask := countDown 32 16 size
      .inl (start + size, list ++ [⟨mask, BitVec.ofNat 16 start⟩])
    else .inr list

/-- `GetPortRangeAndMask`: the return code and the blocks. The start grows with
every turn, so that 65537 turns are enough. -/
def getPortRangeAndMask (startPort endPort : BitVec 16) : Option (Int × List (Prefix 16)) :=
  if endPort < startPort then some (-1, [])
  else (Loop.run (portTurn endPort.toNat) 65537 (startPort.toNat, [])).map fun list => (0, list)

variable (portMap : List PortRuleBitmap)

/-- `OrInsert` of `BpfPortMap` for the blocks of one segment. -/
def pushBlocks (portRules : List (Prefix 16)) (bitmap : Bitmap) : List PortRuleBitmap :=
  portRules.foldl
    (fun portMap rule => if 16 < rule.len then portMap else portMap ++ [⟨rule, bitmap⟩])
    portMap

/-- `OrInsertPortBitmap` for one segment. -/
def insertSegment
    (item : SegmentBitmap) : Option (List PortRuleBitmap) := do
  let (ret, portRules) ← getPortRangeAndMask item.start item.stop
  if ret ≠ 0 then some portMap
  else some (pushBlocks portMap portRules item.bitmap)

def orInsertPortBitmap (portSegMap : List SegmentBitmap)
    (portMap : List PortRuleBitmap) : Option (List PortRuleBitmap) :=
  portSegMap.foldlM insertSegment portMap

theorem blockSize_eq (le : start ≤ stop) (small : stop < 2 ^ 16) :
    ∃ bits ≤ 16, blockSize start stop = 2 ^ bits ∧ 2 ^ bits ∣ start ∧
      start + 2 ^ bits ≤ stop + 1 := by
  obtain ⟨zeros, maxBlock, width, dvd⟩ : ∃ zeros,
      (1 <<< if 0 < start then trailingZeros 32 start else 0) =
        2 ^ zeros ∧ zeros ≤ 32 ∧ 2 ^ zeros ∣ start := by
    refine ⟨_, Nat.one_shiftLeft _, ?_, ?_⟩
    · split
      next positive => exact (trailingZeros_lt positive (by omega)).le
      · omega
    · split
      · exact two_pow_trailingZeros_dvd 32 start
      · simp
  obtain ⟨bits, fewer, halved, within⟩ :=
    halveTo_two_pow (Nat.succ_pos (stop - start)) width
  refine ⟨bits, ?_, ?_, (Nat.pow_dvd_pow 2 fewer).trans dvd, by omega⟩
  · exact (Nat.pow_le_pow_iff_right (by decide : 1 < 2)).mp (by omega)
  · simp only [blockSize, maxBlock, halved]

/-- The blocks cut so far cover the segment up to the current port. -/
def PortProgress (startPort endPort : BitVec 16) (state : Nat × List (Prefix 16)) : Prop :=
  state.1 ≤ endPort.toNat + 1 ∧ CutUpTo startPort.toNat state.1 state.2

theorem PortProgress.turn (state : Nat × List (Prefix 16))
    (progress : PortProgress startPort endPort state ∧
      TiledUpTo startPort.toNat state.1 state.2) :
    (∃ next, portTurn endPort.toNat state = .inl next ∧
        (PortProgress startPort endPort next ∧ TiledUpTo startPort.toNat next.1 next.2) ∧
        endPort.toNat + 1 - next.1 < endPort.toNat + 1 - state.1) ∨
      ∃ result, portTurn endPort.toNat state = .inr result ∧ Tiles result startPort endPort := by
  obtain ⟨current, list⟩ := state
  by_cases inside : current ≤ endPort.toNat
  · obtain ⟨bits, small, size, aligned, fits⟩ := blockSize_eq inside endPort.isLt
    have here : (BitVec.ofNat 16 current).toNat = current := by
      exact Nat.mod_eq_of_lt (lt_of_le_of_lt inside endPort.isLt)
    have tiled := progress.2.append_block small here aligned
    refine .inl ⟨_, if_pos inside, ?_⟩
    rw [size, countDown_two_pow (by omega)]
    exact ⟨⟨⟨fits, tiled.cut⟩, tiled⟩, by simp only; omega⟩
  · have reached : current = endPort.toNat + 1 :=
      Nat.le_antisymm progress.1.1 (Nat.lt_of_not_le inside)
    subst reached
    exact .inr ⟨list, if_neg inside, progress.2.tiles⟩

theorem run_portTurn (le : startPort ≤ endPort) :
    ∃ list, Loop.run (portTurn endPort.toNat) 65537 (startPort.toNat, []) = some list ∧
      Tiles list startPort endPort :=
  Loop.run_returns (fun state => endPort.toNat + 1 - state.1) PortProgress.turn
    ⟨⟨Nat.le_succ_of_le le, CutUpTo.nil⟩, TiledUpTo.nil⟩ (show _ < 65537 by simp only; omega)

theorem getPortRangeAndMask_eq (le : startPort ≤ endPort) :
    getPortRangeAndMask startPort endPort = (Loop.run (portTurn endPort.toNat) 65537
      (startPort.toNat, [])).map fun list => (0, list) :=
  if_neg (BitVec.not_lt.mpr le)

/-- Every segment of ports is cut into aligned blocks without a port in common
that cover exactly its ports. -/
theorem getPortRangeAndMask_tiles (le : startPort ≤ endPort) :
    ∃ list, getPortRangeAndMask startPort endPort = some (0, list) ∧
      Tiles list startPort endPort := by
  obtain ⟨list, run, tiles⟩ := run_portTurn le
  exact ⟨list, by rw [getPortRangeAndMask_eq le, run]; rfl, tiles⟩

theorem getPortRangeAndMask_allPorts :
    ∃ list, getPortRangeAndMask 0 65535 = some (0, list) ∧ Tiles list 0 65535 :=
  getPortRangeAndMask_tiles (by decide)

theorem pushBlocks_eq (proper : ∀ rule ∈ portRules, rule.len ≤ 16) :
    pushBlocks portMap portRules bitmap = portMap ++ portRules.map fun rule => ⟨rule, bitmap⟩ := by
  induction portRules generalizing portMap with
  | nil => simp [pushBlocks]
  | cons rule portRules ih =>
    have here := proper rule (by simp)
    have next := ih (portMap ++ [⟨rule, bitmap⟩])
      (forall_mem_cons.mp proper).2
    unfold pushBlocks at next ⊢
    rw [foldl_cons, if_neg (Nat.not_lt.mpr here), next]
    simp

/-- The entries that stand for some segments: each carries the rules of a
segment that contains its block, and every port of a segment has one. -/
structure Blocks (segments : List SegmentBitmap)
    (entries : List PortRuleBitmap) : Prop where
  sound : ∀ entry ∈ entries, entry.key.len ≤ 16 ∧
    ∃ segment ∈ segments, entry.bitmap = segment.bitmap ∧
      ∀ port, entry.key.Covers port → segment.Contains port
  complete : ∀ segment ∈ segments, ∀ port, segment.Contains port →
    ∃ entry ∈ entries, entry.key.Covers port

theorem Blocks.nil : Blocks [] [] := ⟨by simp, by simp⟩

theorem Blocks.append (first : Blocks firstSegments firstEntries)
    (second : Blocks secondSegments secondEntries) :
    Blocks (firstSegments ++ secondSegments) (firstEntries ++ secondEntries) := by
  refine ⟨fun entry member => ?_, fun segment member port contains => ?_⟩
  · rcases mem_append.mp member with early | late
    · obtain ⟨len, segment, segmentMember, rest⟩ := first.sound entry early
      exact ⟨len, segment, mem_append_left _ segmentMember, rest⟩
    · obtain ⟨len, segment, segmentMember, rest⟩ := second.sound entry late
      exact ⟨len, segment, mem_append_right _ segmentMember, rest⟩
  · rcases mem_append.mp member with early | late
    · obtain ⟨entry, entryMember, covers⟩ := first.complete segment early port contains
      exact ⟨entry, mem_append_left _ entryMember, covers⟩
    · obtain ⟨entry, entryMember, covers⟩ := second.complete segment late port contains
      exact ⟨entry, mem_append_right _ entryMember, covers⟩

theorem insertSegment_returns {segment : SegmentBitmap} (valid : segment.IsValid) :
    ∃ entries, insertSegment portMap segment = some (portMap ++ entries) ∧
      Blocks [segment] entries := by
  obtain ⟨list, run, proper, -, -, covers⟩ := run_portTurn valid
  refine ⟨list.map fun rule => ⟨rule, segment.bitmap⟩, ?_,
    fun entry member => ?_, fun other member port contains => ?_⟩
  · rw [insertSegment, getPortRangeAndMask_eq valid, run, ← pushBlocks_eq portMap proper]
    rfl
  · obtain ⟨rule, ruleMember, rfl⟩ := mem_map.mp member
    exact ⟨proper rule ruleMember, segment, by simp, rfl,
      fun port inside => (covers port).mp ⟨rule, ruleMember, inside⟩⟩
  · rw [mem_singleton.mp member] at contains
    obtain ⟨rule, ruleMember, inside⟩ := (covers port).mpr contains
    exact ⟨_, mem_map_of_mem ruleMember, inside⟩

theorem orInsertPortBitmap_returns (segments : List SegmentBitmap)
    (valid : ∀ segment ∈ segments, segment.IsValid) (portMap : List PortRuleBitmap) :
    ∃ entries, orInsertPortBitmap segments portMap = some (portMap ++ entries) ∧
      Blocks segments entries := by
  induction segments generalizing portMap with
  | nil => exact ⟨[], by simp [orInsertPortBitmap], Blocks.nil⟩
  | cons segment segments ih =>
    obtain ⟨first, inserted, blocks⟩ := insertSegment_returns portMap (valid segment (by simp))
    obtain ⟨rest, returns, restBlocks⟩ := ih
      (forall_mem_cons.mp valid).2
      (portMap ++ first)
    refine ⟨first ++ rest, ?_, blocks.append restBlocks⟩
    rw [orInsertPortBitmap, foldlM_cons, inserted, ← append_assoc]
    exact returns

end BitmapManager

end NetManager.Firewall
