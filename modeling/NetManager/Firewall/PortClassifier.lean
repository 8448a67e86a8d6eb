import NetManager.Firewall.Build

/-!
# The port dimension of the classifier

The port table is written from the blocks of all segments, followed by the entry
for all other ports. That entry has the key of port 65535, so it is also the
entry of that port, and it carries none of the rules whose range ends there.
-/

namespace NetManager.Firewall

open List AddressPrefix

namespace BitmapManager

/-- The port map of one side as `BuildBitmapMap` builds it. -/
def builtPortMap (isSrc : Bool) (rules : List NetFirewallIpRule) : Option (List PortRuleBitmap) :=
  (markedPortMap isSrc rules).map fun entries =>
    rules.zipIdx.foldl
      (fun portMap entry =>
        noMarkPorts entry.1 (entry.1.ports isSrc) (Bitmap.single entry.2) portMap)
      (insertOtherPort entries)

theorem portMap_buildNoMarkBitmap :
    (buildNoMarkBitmap manager rules).portMap isSrc =
      rules.zipIdx.foldl
        (fun portMap entry =>
          noMarkPorts entry.1 (entry.1.ports isSrc) (Bitmap.single entry.2) portMap)
        (manager.portMap isSrc) := by
  refine (foldl_hom (fun manager : BitmapManager => manager.portMap isSrc)
    fun manager entry => ?_).symm
  cases isSrc <;> rfl

variable {rules : List NetFirewallIpRule}

theorem builtPortMap_of_buildBitmapMap (returns : buildBitmapMap fuel rules = Outcome.ok manager) :
    builtPortMap isSrc rules = some (manager.portMap isSrc) := by
  obtain ⟨state, _, srcPorts, src, dstPorts, dst, rfl⟩ := buildBitmapMap_eq_ok_iff.mp returns
  rw [assemble, portMap_buildNoMarkBitmap, builtPortMap]
  cases isSrc
  · rw [dst]
    rfl
  · rw [src]
    rfl

/-- The ports of one side do not constrain the rule. -/
def portFree (isSrc : Bool) (rule : NetFirewallIpRule) : Bool :=
  decide (rule.ports isSrc = [] ∨ isNotNeedPort rule.protocol = true)

variable {isSrc : Bool}

theorem builtPortMap_eq (marked : markedPortMap isSrc rules = some entries) :
    builtPortMap isSrc rules =
      some (orForEach (insertOtherPort entries) (indicesOf (portFree isSrc) rules.zipIdx)) := by
  rw [builtPortMap, marked, Option.map_some, ← foldl_orForEach]
  simp [noMarkPorts, portFree]

/-! ## Lookups -/

/-- The entry for all other ports. -/
def otherPortEntry : PortRuleBitmap := ⟨⟨16, otherPortKey⟩, Bitmap.clear⟩

variable {port : BitVec 16}

theorem otherPortEntry_covers_iff : otherPortEntry.key.Covers port ↔ port = otherPortKey :=
  agree_full le_rfl

section Lookup

variable {ranges segments : List SegmentBitmap} {entries : List PortRuleBitmap}

theorem lookup_insertOtherPort_of_answers
    (answers : Answers (insertOtherPort entries) port winner) :
    PrefixTable.lookup port
        (writeLpm (orForEach (insertOtherPort entries) unconstrained)) =
      some (winner.bitmap.or unconstrained) := by
  have marked : Answers (orForEach (insertOtherPort entries) unconstrained) port
      { winner with bitmap := winner.bitmap.or unconstrained } :=
    answers.map _ fun _ => rfl
  exact lookup_writeLpm_of_answers marked

section

variable (blocks : Blocks segments entries)
include blocks

theorem answers_otherPortKey : Answers (insertOtherPort entries) otherPortKey otherPortEntry := by
  refine ⟨entries, [], rfl, otherPortEntry.key.covers_addr, ?_, by simp⟩
  intro entry member _
  exact (blocks.sound entry member).1

theorem answers_of_contains (notOther : port ≠ otherPortKey) {segment : SegmentBitmap}
    (member : segment ∈ segments) (contains : segment.Contains port) :
    ∃ winner, Answers (insertOtherPort entries) port winner ∧
      ∃ segment ∈ segments, segment.Contains port ∧ winner.bitmap = segment.bitmap := by
  obtain ⟨entry, entryMember, covers⟩ := blocks.complete segment member port contains
  obtain ⟨winner, answers⟩ : ∃ winner, Answers (insertOtherPort entries) port winner :=
    PrefixTable.exists_wins ⟨entry, mem_append_left _ entryMember, covers⟩
  refine ⟨winner, answers, ?_⟩
  rcases mem_append.mp answers.mem with marked | last
  · obtain ⟨_, found, foundMember, same, inside⟩ := blocks.sound winner marked
    exact ⟨found, foundMember, inside port answers.covers, same⟩
  · have covers := answers.covers
    rw [mem_singleton.mp last] at covers
    exact absurd (otherPortEntry_covers_iff.mp covers) notOther

theorem lookup_insertOtherPort_eq_none (notOther : port ≠ otherPortKey)
    (outside : ∀ segment ∈ segments, ¬ segment.Contains port) :
    PrefixTable.lookup port
        (writeLpm (orForEach (insertOtherPort entries) unconstrained)) =
      none := by
  refine lookup_writeLpm_eq_none fun it member covers => ?_
  obtain ⟨entry, entryMember, rfl⟩ := mem_map.mp member
  rcases mem_append.mp entryMember with marked | last
  · obtain ⟨_, segment, segmentMember, _, inside⟩ := blocks.sound entry marked
    exact outside segment segmentMember (inside port covers)
  · rw [mem_singleton.mp last] at covers
    exact notOther (otherPortEntry_covers_iff.mp covers)

end

/-- What a port finds: the ranges that contain it, except at the last port. -/
theorem lookupMap_insertOtherPort (represents : SegmentBitmapMap.Represents ranges segments)
    (blocks : Blocks segments entries) :
    ∃ result,
      lookupMap (writeLpm (orForEach (insertOtherPort entries) unconstrained))
        port otherPortKey = some result ∧
      ∀ n, result.test n = true ↔ unconstrained.test n = true ∨ port ≠ otherPortKey ∧
            SegmentBitmapMap.Holds (fun bitmap => bitmap.test n = true) ranges
              port := by
  have fallback : PrefixTable.lookup otherPortKey
      (writeLpm (orForEach (insertOtherPort entries) unconstrained)) = some unconstrained := by
    rw [lookup_insertOtherPort_of_answers (answers_otherPortKey blocks)]
    exact congrArg some (Bitmap.clear_or unconstrained)
  unfold lookupMap
  by_cases other : port = otherPortKey
  · rw [other, fallback]
    exact ⟨unconstrained, rfl, by simp⟩
  by_cases inside : ∃ segment ∈ segments, segment.Contains port
  · obtain ⟨first, firstMember, firstContains⟩ := inside
    obtain ⟨winner, answers, segment, member, contains, same⟩ :=
      answers_of_contains blocks other firstMember firstContains
    rw [lookup_insertOtherPort_of_answers answers]
    refine ⟨_, rfl, fun n => ?_⟩
    rw [Bitmap.test_or, Bool.or_eq_true, same,
      represents.test_iff member contains, or_comm, and_iff_right other]
  · have outside : ∀ segment ∈ segments, ¬ segment.Contains port :=
      fun segment member contains => inside ⟨segment, member, contains⟩
    rw [lookup_insertOtherPort_eq_none blocks other outside, fallback]
    refine ⟨unconstrained, rfl, fun n => ?_⟩
    rw [← represents.holds _ SegmentBitmapMap.additive_test port]
    refine (or_iff_left ?_).symm
    rintro ⟨_, segment, member, contains, _⟩
    exact outside segment member contains

end Lookup

/-! ## Exactness -/

/-- A rule matches a port on one side when its protocol has no ports, when it
has no ranges there, or when one of them contains the port. -/
def MatchesPort (rule : NetFirewallIpRule) (isSrc : Bool) (port : BitVec 16) : Prop :=
  isNotNeedPort rule.protocol = true ∨ rule.ports isSrc = [] ∨
    ∃ item ∈ rule.ports isSrc, item.startPort ≤ port ∧ port ≤ item.endPort

/-- The port map is built, and the lookup of a port returns the rules that
match. -/
def PortExact (rules : List NetFirewallIpRule) (isSrc : Bool) (port : BitVec 16) : Prop :=
  ∃ portMap, builtPortMap isSrc rules = some portMap ∧
    ∃ result, lookupMap (writeLpm portMap) port otherPortKey = some result ∧
      ∀ i, result.test i = true ↔ ∃ rule, rules[i]? = some rule ∧ MatchesPort rule isSrc port

theorem matchesPort_iff :
    MatchesPort rule isSrc port ↔ portFree isSrc rule = true ∨ isNotNeedPort rule.protocol = false ∧
          ∃ item ∈ rule.ports isSrc, item.startPort ≤ port ∧ port ≤ item.endPort := by
  cases unused : isNotNeedPort rule.protocol <;> simp [MatchesPort, portFree, unused]

theorem le_otherPortKey_iff : otherPortKey ≤ port ↔ port = otherPortKey := by
  unfold otherPortKey
  bv_omega

section Exact

variable (size : rules.length ≤ bitmapBits)
  (proper : ∀ rule ∈ rules, ∀ item ∈ rule.ports isSrc,
    1 ≤ item.startPort ∧ item.startPort ≤ item.endPort)

include size proper

theorem holds_portRanges_iff :
    SegmentBitmapMap.Holds (fun bitmap => bitmap.test i = true)
        (rules.zipIdx.flatMap (portRanges isSrc)) port ↔
      ∃ rule, rules[i]? = some rule ∧ isNotNeedPort rule.protocol = false ∧
        ∃ item ∈ rule.ports isSrc, item.startPort ≤ port ∧ port ≤ item.endPort := by
  have range : ∀ rule ∈ rules, ∀ item ∈ rule.ports isSrc, ∀ bitmap,
      portRange bitmap item = some ⟨item.startPort, item.endPort, bitmap⟩ := by
    intro rule member item itemMember bitmap
    obtain ⟨positive, ordered⟩ := proper rule member item itemMember
    have set : item.startPort ≠ 0 := by
      rintro unset
      rw [unset] at positive
      exact absurd positive (by decide)
    rw [portRange, if_neg set, if_pos ordered]
  constructor
  · rintro ⟨segment, member, contains, set⟩
    obtain ⟨⟨rule, j⟩, entryMember, here⟩ := mem_flatMap.mp member
    have found := mem_zipIdx_iff_getElem?.mp entryMember
    unfold portRanges at here
    split at here
    · simp at here
    next needed =>
      obtain ⟨item, itemMember, made⟩ := mem_filterMap.mp here
      rw [range rule (mem_of_getElem? found) item itemMember] at made
      cases made
      obtain ⟨rfl, _⟩ : i = j ∧ j < bitmapBits := by simpa using set
      exact ⟨rule, found, by simpa using needed, item, itemMember, contains⟩
  · rintro ⟨rule, found, needed, item, itemMember, contains⟩
    have inside := (List.getElem?_eq_some_iff.mp found).1
    have bound : i < bitmapBits := by omega
    refine ⟨⟨item.startPort, item.endPort, Bitmap.single i⟩, ?_, contains, by simp [bound]⟩
    refine mem_flatMap.mpr ⟨(rule, i), mem_zipIdx_iff_getElem?.mpr found, ?_⟩
    simp only [portRanges, needed, Bool.false_eq_true, if_false]
    exact mem_filterMap.mpr ⟨item, itemMember, range rule (mem_of_getElem? found) item itemMember _⟩

theorem lookup_builtPortMap :
    ∃ portMap, builtPortMap isSrc rules = some portMap ∧
      ∃ result, lookupMap (writeLpm portMap) port otherPortKey = some result ∧
        ∀ i, result.test i = true ↔ ∃ rule, rules[i]? = some rule ∧
            (portFree isSrc rule = true ∨
              port ≠ otherPortKey ∧ isNotNeedPort rule.protocol = false ∧
                ∃ item ∈ rule.ports isSrc, item.startPort ≤ port ∧ port ≤ item.endPort) := by
  obtain ⟨entries, marked, blocks⟩ := markedPortMap_returns isSrc rules
  obtain ⟨result, found, bits⟩ := lookupMap_insertOtherPort
    (represents_segments rules.zipIdx isSrc) blocks
  refine ⟨_, builtPortMap_eq marked, result, found, fun i => ?_⟩
  rw [bits, test_indicesOf_zipIdx _ size, holds_portRanges_iff size proper]
  simp [and_or_left, exists_or, and_left_comm]

/-- A range that ends at 65535 is missing from the answer for that port. -/
theorem not_portExact_otherPortKey (member : rule ∈ rules)
    (needed : isNotNeedPort rule.protocol = false) (itemMember : item ∈ rule.ports isSrc)
    (ends : item.endPort = otherPortKey) :
    ¬ PortExact rules isSrc otherPortKey := by
  rintro ⟨portMap, built, result, found, exactly⟩
  obtain ⟨portMap', built', result', found', bits⟩ := lookup_builtPortMap size proper
  rw [built] at built'
  cases built'
  rw [found] at found'
  cases found'
  obtain ⟨i, here⟩ := getElem?_of_mem member
  have inside : item.startPort ≤ otherPortKey ∧ otherPortKey ≤ item.endPort := by
    rw [← ends]
    exact ⟨(proper rule member item itemMember).2, BitVec.le_refl _⟩
  have set := (exactly i).mpr ⟨rule, here, Or.inr (Or.inr ⟨item, itemMember, inside⟩)⟩
  obtain ⟨other, otherHere, free | ⟨notOther, _⟩⟩ := (bits i).mp set
  · rw [here] at otherHere
    cases otherHere
    have used : rule.ports isSrc ≠ [] := ne_nil_of_mem itemMember
    simp [portFree, used, needed] at free
  · exact notOther rfl

end Exact

/-- The lookup of a port is exact unless the port is 65535 and a rule whose
protocol has ports has a range that ends there. -/
theorem portExact_iff (rules : List NetFirewallIpRule) (size : rules.length ≤ bitmapBits)
    (isSrc : Bool)
    (proper : ∀ rule ∈ rules, ∀ item ∈ rule.ports isSrc,
      1 ≤ item.startPort ∧ item.startPort ≤ item.endPort)
    (port : BitVec 16) :
    PortExact rules isSrc port ↔ port ≠ otherPortKey ∨
        ∀ rule ∈ rules, isNotNeedPort rule.protocol = false →
          ∀ item ∈ rule.ports isSrc, item.endPort ≠ otherPortKey := by
  constructor
  · intro exactly
    rw [or_iff_not_imp_left, not_not]
    rintro rfl rule member needed item itemMember ends
    exact not_portExact_otherPortKey size proper member needed itemMember ends exactly
  · intro condition
    obtain ⟨portMap, built, result, found, bits⟩ := lookup_builtPortMap size proper
    refine ⟨portMap, built, result, found, fun i => (bits i).trans ?_⟩
    refine exists_congr fun rule => and_congr_right fun here => ?_
    rw [matchesPort_iff]
    refine or_congr_right ?_
    rcases condition with notOther | none
    · exact and_iff_right notOther
    · refine ⟨fun both => both.2, fun inside => ⟨?_, inside⟩⟩
      rintro rfl
      obtain ⟨needed, item, itemMember, _, last⟩ := inside
      exact none rule (mem_of_getElem? here) needed item itemMember (le_otherPortKey_iff.mp last)

/-- A rule that denies TCP from a range of remote ports. -/
def denyRemotePorts (startPort endPort : BitVec 16) : NetFirewallIpRule where
  userId := 0
  appUid := 0
  ruleDirection := NetFirewallRuleDirection.ruleIn
  ruleAction := FirewallRuleAction.ruleDeny
  protocol := NetworkProtocol.tcp
  localIps := []
  remoteIps := []
  localPorts := []
  remotePorts := [⟨startPort, endPort⟩]
  interface := ""

/-- A range below 65535 is classified exactly, also at that port. -/
theorem portExact_denyRemotePorts : PortExact [denyRemotePorts 60000 65534] true 65535 :=
  (portExact_iff [denyRemotePorts 60000 65534] (by decide) true (by decide)
    65535).mpr (Or.inr (by decide))

/-- The port 65535 of a range that ends there is not matched. -/
theorem not_portExact_denyRemotePorts : ¬ PortExact [denyRemotePorts 60000 65535] true 65535 :=
  not_portExact_otherPortKey (by decide) (by decide) mem_cons_self rfl mem_cons_self rfl

end BitmapManager

end NetManager.Firewall
