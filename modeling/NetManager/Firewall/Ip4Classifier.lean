import NetManager.Firewall.Build

/-!
# The IPv4 dimension of the classifier

An address is looked up in the table written from a map, first by its own value
and then, when nothing covers it, by the other key. Here the looked-up bitmap is
compared with the rules: bit `i` should be set exactly when rule `i` has no
addresses on that side or one that covers the address.
-/

namespace NetManager.Firewall

open List AddressPrefix PrefixTable

/-! ## Lookups in a table built by insertions -/

namespace Ip4RuleMap

variable {inserted ruleBitmapVec : List Ip4RuleBitmap} {a : BitVec 32}

section

variable (represents : Represents inserted ruleBitmapVec) (unconstrained : Bitmap)
include represents

theorem Represents.lookup_of_wins
    (wins : PrefixTable.Wins id (inserted.map RuleBitmap.key).eraseDups a winner) :
    ∃ result,
      lookup a (writeLpm (orForEach ruleBitmapVec unconstrained)) = some result ∧
      ∀ n, result.test n = true ↔ unconstrained.test n = true ∨
          ∃ event ∈ inserted, event.bitmap.test n = true ∧ Receives event.key winner := by
  rw [← represents.keys] at wins
  obtain ⟨covering, member, key⟩ := mem_map.mp wins.mem
  obtain ⟨entry, answers⟩ : ∃ entry, Answers ruleBitmapVec a entry :=
    exists_wins ⟨covering, member, key ▸ wins.covers⟩
  have keyWins : PrefixTable.Wins id (ruleBitmapVec.map RuleBitmap.key) a
      entry.key := answers.map _ fun _ => rfl
  have sameKey : entry.key = winner := keyWins.unique wins
  have marked : Answers (orForEach ruleBitmapVec unconstrained) a
      { entry with bitmap := entry.bitmap.or unconstrained } :=
    answers.map _ fun _ => rfl
  refine ⟨_, lookup_writeLpm_of_answers marked, fun n => ?_⟩
  rw [Bitmap.test_or, Bool.or_eq_true, represents.bits entry answers.mem n, sameKey, or_comm]

theorem Represents.lookup_eq_none (uncovered : ∀ event ∈ inserted, ¬ event.key.Covers a) :
    lookup a (writeLpm (orForEach ruleBitmapVec unconstrained)) = none := by
  refine lookup_writeLpm_eq_none fun it member covers => ?_
  obtain ⟨entry, entryMember, rfl⟩ := mem_map.mp member
  obtain ⟨event, eventMember, key⟩ :=
    (represents.mem_keys_iff entry.key).mp ⟨entry, entryMember, rfl⟩
  exact uncovered event eventMember (key ▸ covers)

end

end Ip4RuleMap

/-! ## IPv4 parameters -/

namespace NetFirewallIpParam

/-- The addresses a parameter stands for in the IPv4 dimension. -/
def CoversIp4 (item : NetFirewallIpParam) (a : BitVec 32) : Prop :=
  item.family = familyIpv4 ∧
    (item.type = singleIp ∧
        (⟨item.mask.toNat, item.ipv4.startIp⟩ : Ip4Data).Covers a ∨
      item.type = multipleIp ∧ item.ipv4.startIp ≤ a ∧ a ≤ item.ipv4.endIp)

/-- A mask in range for a single IPv4 address, a segment in order, and only
IPv6 segments that the parser cuts. -/
def WellFormed (item : NetFirewallIpParam) : Prop :=
  item.family = familyIpv4 ∧ (item.type = singleIp → 1 ≤ item.mask.toNat ∧ item.mask.toNat ≤ 32) ∧
    (item.type = multipleIp → item.ipv4.startIp ≤ item.ipv4.endIp) ∨
  item.family = familyIpv6 ∧
    (item.type = multipleIp → ∃ list,
      IpParamParser.getIp6AndMask item.ipv6.startIp item.ipv6.endIp = Outcome.ok list)

/-- An IPv4 segment up to the last address of all. -/
def EndsAtTop (item : NetFirewallIpParam) : Prop :=
  item.family = familyIpv4 ∧ item.type = multipleIp ∧ item.ipv4.endIp = otherIp4Key
deriving Decidable

theorem singleIp_ne_multipleIp : singleIp ≠ multipleIp := by
  decide

variable {item : NetFirewallIpParam}

/-- A well-formed parameter is accepted unless it is a segment up to the last
address. -/
theorem WellFormed.accepted_iff (wellFormed : item.WellFormed) :
    item.Accepted ↔ ¬ item.EndsAtTop := by
  have families : familyIpv4 ≠ familyIpv6 := by decide
  rcases wellFormed with ⟨ipv4, _, ordered⟩ | ⟨ipv6, segment⟩
  · have notIpv6 : item.family ≠ familyIpv6 := ipv4 ▸ families
    constructor
    · rintro (⟨_, accepted⟩ | ⟨other, _⟩) ⟨_, multiple, top⟩
      · exact (accepted multiple).2 top
      · exact notIpv6 other
    · intro notTop
      exact Or.inl ⟨ipv4, fun multiple =>
        ⟨ordered multiple, fun top => notTop ⟨ipv4, multiple, top⟩⟩⟩
  · have notIpv4 : item.family ≠ familyIpv4 := ipv6 ▸ families.symm
    exact iff_of_true (Or.inr ⟨ipv6, segment⟩) fun top => notIpv4 top.1

theorem Accepted.ip4Blocks_spec (accepted : item.Accepted) :
    (∀ a, item.CoversIp4 a ↔ ∃ block ∈ item.ip4Blocks, block.Covers a) ∧
      (item.WellFormed → ∀ block ∈ item.ip4Blocks, block.len ≤ 32) := by
  unfold CoversIp4 ip4Blocks
  split
  case isFalse notIpv4 => simp [notIpv4]
  case isTrue ipv4 =>
    have notIpv6 : item.family ≠ familyIpv6 := by
      rw [ipv4]
      decide
    split
    next single =>
      refine ⟨by simp [ipv4, single, singleIp_ne_multipleIp], fun wellFormed block member => ?_⟩
      rw [mem_singleton.mp member]
      exact ((wellFormed.resolve_right fun ipv6 => notIpv6 ipv6.1).2.1 single).2
    next notSingle =>
      split
      case isFalse other => simp [ipv4, notSingle, other]
      case isTrue multiple =>
        obtain ⟨ordered, notTop⟩ := (accepted.resolve_right fun ipv6 => notIpv6 ipv6.1).2 multiple
        obtain ⟨list, returns, -, covers, lens⟩ :=
          IpParamParser.getIp4AndMask_tiles ordered
            (IpParamParser.toNat_succ_lt notTop) (Nat.lt_succ_self (2 ^ 32))
        rw [returns]
        refine ⟨fun a => ?_, fun _ => lens⟩
        simp only [ipv4, multiple, singleIp_ne_multipleIp.symm, true_and, false_and, false_or]
        exact (covers a).symm

end NetFirewallIpParam

/-! ## The IPv4 dimension -/

namespace BitmapManager

/-- `match_addrs` for one IPv4 address. -/
def lookupIp4 (manager : BitmapManager) (isSrc : Bool) (a : BitVec 32) : Option Bitmap :=
  lookupMap (writeLpm (manager.ips isSrc).ip4) a otherIp4Key

section

variable (isSrc : Bool) (rules : List NetFirewallIpRule)

/-- The prefixes of all rules on one side, in the order of insertion. -/
def prefixes : List Ip4Data :=
  rules.flatMap (rulePrefixes isSrc)

/-- The entry that `Insert` adds for all other addresses. -/
def otherIp4Prefix : Ip4Data := ⟨32, otherIp4Key⟩

/-- All insertions into the IPv4 map of one side. -/
def ip4Inserted : List Ip4RuleBitmap :=
  rules.zipIdx.flatMap (ip4Events isSrc) ++ [⟨otherIp4Prefix, Bitmap.clear⟩]

theorem keys_ip4Inserted :
    (ip4Inserted isSrc rules).map RuleBitmap.key = prefixes isSrc rules ++ [otherIp4Prefix] := by
  have perRule (entry : NetFirewallIpRule × Nat) :
      (ip4Events isSrc entry).map RuleBitmap.key = rulePrefixes isSrc entry.1 := by
    simp [ip4Events, Function.comp_def]
  rw [ip4Inserted, map_append, map_flatMap, prefixes, ← zipIdx_map_fst 0 rules, flatMap_map]
  simp [perRule, zipIdx_map_fst]

end

variable {rules : List NetFirewallIpRule}

theorem exists_ip4Inserted_iff (size : rules.length ≤ bitmapBits)
    (property : Ip4Data → Prop) :
    (∃ event ∈ ip4Inserted isSrc rules, event.bitmap.test i = true ∧ property event.key) ↔
      ∃ rule, rules[i]? = some rule ∧ ∃ block ∈ rulePrefixes isSrc rule, property block := by
  constructor
  · rintro ⟨event, member, set, holds⟩
    rcases mem_append.mp member with marked | last
    · obtain ⟨⟨rule, j⟩, entryMember, here⟩ := mem_flatMap.mp marked
      obtain ⟨block, blockMember, rfl⟩ := mem_map.mp here
      obtain ⟨rfl, _⟩ : i = j ∧ j < bitmapBits := by simpa using set
      exact ⟨rule, mem_zipIdx_iff_getElem?.mp entryMember, block, blockMember, holds⟩
    · rw [mem_singleton.mp last] at set
      simp at set
  · rintro ⟨rule, here, block, member, holds⟩
    have inside := (List.getElem?_eq_some_iff.mp here).1
    refine ⟨⟨block, Bitmap.single i⟩, ?_, ?_, holds⟩
    · refine mem_append_left _ (mem_flatMap.mpr ⟨(rule, i), ?_, ?_⟩)
      · exact mem_zipIdx_iff_getElem?.mpr here
      · exact mem_map.mpr ⟨block, member, rfl⟩
    · have bound : i < bitmapBits := by omega
      simp [bound]

variable {manager : BitmapManager} {fuel : Nat}

/-- The IPv4 map of one side: the insertions, then the rules without addresses
in every entry. -/
theorem ip4_of_buildBitmapMap (returns : buildBitmapMap fuel rules = Outcome.ok manager) :
    ∃ vec, Ip4RuleMap.Represents (ip4Inserted isSrc rules) vec ∧
      (manager.ips isSrc).ip4 =
        orForEach vec (indicesOf (fun rule => decide (rule.ips isSrc = [])) rules.zipIdx) := by
  obtain ⟨state, run, srcPorts, _, dstPorts, _, rfl⟩ := buildBitmapMap_eq_ok_iff.mp returns
  have marked := (markRules_spec _ run).2.1 isSrc
  have empty : (MarkState.empty.ips isSrc).ip4 = [] := by
    cases isSrc <;> rfl
  rw [empty] at marked
  refine ⟨Ip4RuleMap.orInsert (state.ips isSrc).ip4 otherIp4Key 32 Bitmap.clear, ?_, ?_⟩
  · rw [marked]
    exact Ip4RuleMap.Represents.nil.orInsertAll.orInsert otherIp4Prefix Bitmap.clear
  · rw [assemble, ips_buildNoMarkBitmap]
    cases isSrc <;> rfl

/-- The looked-up bitmap of an address that is answered for by the entry of
`winner`. -/
def Ip4Result (rules : List NetFirewallIpRule) (isSrc : Bool) (winner : Ip4Data)
    (result : Bitmap) : Prop :=
  ∀ i, result.test i = true ↔ ∃ rule, rules[i]? = some rule ∧
      (rule.ips isSrc = [] ∨ ∃ block ∈ rulePrefixes isSrc rule, Ip4RuleMap.Receives block winner)

variable {a : BitVec 32} {isSrc : Bool} {winner : Ip4Data}

theorem lookupIp4_of_wins (size : rules.length ≤ bitmapBits)
    (returns : buildBitmapMap fuel rules = Outcome.ok manager)
    (wins : PrefixTable.Wins id (prefixes isSrc rules ++ [otherIp4Prefix]).eraseDups a winner) :
    ∃ result, manager.lookupIp4 isSrc a = some result ∧ Ip4Result rules isSrc winner result := by
  obtain ⟨vec, represents, built⟩ := ip4_of_buildBitmapMap returns
  rw [← keys_ip4Inserted] at wins
  obtain ⟨result, found, bits⟩ := represents.lookup_of_wins
    (indicesOf (fun rule => decide (rule.ips isSrc = [])) rules.zipIdx) wins
  refine ⟨result, ?_, fun i => ?_⟩
  · rw [lookupIp4, built, lookupMap, found]
  · rw [bits, test_indicesOf_zipIdx _ size,
      exists_ip4Inserted_iff size (fun block => Ip4RuleMap.Receives block winner)]
    simp [and_or_left, exists_or]

theorem lookupIp4_of_uncovered (returns : buildBitmapMap fuel rules = Outcome.ok manager)
    (uncovered : ∀ block ∈ prefixes isSrc rules ++ [otherIp4Prefix], ¬ block.Covers a) :
    manager.lookupIp4 isSrc a = manager.lookupIp4 isSrc otherIp4Key := by
  obtain ⟨vec, represents, built⟩ := ip4_of_buildBitmapMap returns
  have missing : lookup a (writeLpm (manager.ips isSrc).ip4) = none := by
    rw [built]
    refine represents.lookup_eq_none _ fun event member => ?_
    refine uncovered event.key ?_
    rw [← keys_ip4Inserted]
    exact mem_map_of_mem member
  simp only [lookupIp4, lookupMap, missing]
  cases lookup otherIp4Key (writeLpm (manager.ips isSrc).ip4) <;> rfl

variable {block : Ip4Data}

theorem covers_of_len_eq (len : block.len = 32) (covers : block.Covers a) : block = ⟨32, a⟩ := by
  obtain ⟨len', addr⟩ := block
  cases len
  have same : a = addr := (agree_full le_rfl).mp covers
  rw [same]

theorem otherIp4Prefix_covers_iff : otherIp4Prefix.Covers a ↔ a = otherIp4Key := by
  constructor
  · intro covers
    exact (congrArg Prefix.addr (covers_of_len_eq rfl covers)).symm
  · rintro rfl
    exact otherIp4Prefix.covers_addr

theorem wins_otherIp4Prefix (lens : ∀ block ∈ prefixes isSrc rules, block.len ≤ 32) :
    PrefixTable.Wins id
      (prefixes isSrc rules ++ [otherIp4Prefix]).eraseDups otherIp4Key
      otherIp4Prefix := by
  have member : otherIp4Prefix ∈ (prefixes isSrc rules ++ [otherIp4Prefix]).eraseDups := by
    simp
  obtain ⟨winner, wins⟩ : ∃ winner, PrefixTable.Wins id
      (prefixes isSrc rules ++ [otherIp4Prefix]).eraseDups otherIp4Key winner :=
    exists_wins ⟨_, member, otherIp4Prefix.covers_addr⟩
  have atLeast : 32 ≤ winner.len := wins.len_le member otherIp4Prefix.covers_addr
  have atMost : winner.len ≤ 32 := by
    rcases mem_append.mp (mem_eraseDups.mp wins.mem) with
      marked | last
    · exact lens winner marked
    · rw [mem_singleton.mp last]
      exact le_rfl
  have same : winner = otherIp4Prefix := covers_of_len_eq (le_antisymm atMost atLeast) wins.covers
  rw [same] at wins
  exact wins

/-- Away from its address the entry for all other addresses does not take
part. -/
theorem wins_append_otherIp4Prefix (notOther : a ≠ otherIp4Key)
    (wins : PrefixTable.Wins id list.eraseDups a winner) :
    PrefixTable.Wins id (list ++ [otherIp4Prefix]).eraseDups a winner := by
  rw [BoundedTable.eraseDups_append_singleton]
  split
  · exact wins
  · have next := wins.append_singleton otherIp4Prefix
    have outside : ¬ (id otherIp4Prefix).Covers a := fun covers =>
      notOther (otherIp4Prefix_covers_iff.mp covers)
    rw [if_neg fun both => outside both.1] at next
    exact next

/-- A rule matches an address on one side when it has no addresses there or one
of them covers it. -/
def MatchesIp4 (rule : NetFirewallIpRule) (isSrc : Bool) (a : BitVec 32) : Prop :=
  rule.ips isSrc = [] ∨ ∃ item ∈ rule.ips isSrc, item.CoversIp4 a

section

variable (rules : List NetFirewallIpRule) (isSrc : Bool) (a : BitVec 32)

/-- The maps are built, and the lookup of `a` returns the rules that match. -/
def Ip4Exact : Prop :=
  ∃ fuel manager, buildBitmapMap fuel rules = Outcome.ok manager ∧
    ∃ result, manager.lookupIp4 isSrc a = some result ∧
      ∀ i, result.test i = true ↔ ∃ rule, rules[i]? = some rule ∧ MatchesIp4 rule isSrc a

/-- Every rule that covers `a` has a prefix that the entry of `winner` takes its
bit from. -/
def Gathered (winner : Ip4Data) : Prop :=
  ∀ rule ∈ rules, (∃ block ∈ rulePrefixes isSrc rule, block.Covers a) ↔
      ∃ block ∈ rulePrefixes isSrc rule, Ip4RuleMap.Receives block winner

/-- What the rules must be like for the lookup of `a` to be exact. No segment
ends at the last address. Unless `a` is the last address, either some prefix
covers it or none covers the last address, and every rule that covers `a` has a
prefix equal to the answering one, or a shorter one around it. -/
def Ip4Condition : Prop :=
  (∀ rule ∈ rules, ∀ side, ∀ item ∈ rule.ips side, ¬ item.EndsAtTop) ∧
  (a = otherIp4Key ∨
    ((∃ block ∈ prefixes isSrc rules, block.Covers a) ∨
      ∀ block ∈ prefixes isSrc rules, ¬ block.Covers otherIp4Key) ∧
    ∀ winner, PrefixTable.Wins id (prefixes isSrc rules).eraseDups a winner →
      ∀ rule ∈ rules, (∃ block ∈ rulePrefixes isSrc rule, block.Covers a) →
        ∃ block ∈ rulePrefixes isSrc rule, block = winner ∨ block.len < winner.len ∧ block.Covers a)

end

theorem matchesIp4_iff (accepted : RuleAccepted rule) :
    MatchesIp4 rule isSrc a ↔
      rule.ips isSrc = [] ∨ ∃ block ∈ rulePrefixes isSrc rule, block.Covers a := by
  refine or_congr_right ?_
  constructor
  · rintro ⟨item, member, covers⟩
    obtain ⟨block, blockMember, blockCovers⟩ :=
      ((accepted isSrc item member).ip4Blocks_spec.1 a).mp covers
    exact ⟨block, mem_flatMap.mpr ⟨item, member, blockMember⟩, blockCovers⟩
  · rintro ⟨block, blockMember, blockCovers⟩
    obtain ⟨item, member, here⟩ := mem_flatMap.mp blockMember
    exact ⟨item, member, ((accepted isSrc item member).ip4Blocks_spec.1 a).mpr
      ⟨block, here, blockCovers⟩⟩

/-- A result is exact when the answering entry gathers the covering rules. -/
theorem Ip4Result.exact_iff (accepted : ∀ rule ∈ rules, RuleAccepted rule)
    (bits : Ip4Result rules isSrc winner result) :
    (∀ i, result.test i = true ↔ ∃ rule, rules[i]? = some rule ∧ MatchesIp4 rule isSrc a) ↔
      Gathered rules isSrc a winner := by
  have noPrefixes (rule : NetFirewallIpRule) : rule.ips isSrc = [] →
      rulePrefixes isSrc rule = [] := by
    intro empty
    rw [rulePrefixes, empty, flatMap_nil]
  constructor
  · intro exactly rule member
    obtain ⟨i, here⟩ := getElem?_of_mem member
    have same := (bits i).symm.trans (exactly i)
    simp only [here, Option.some.injEq, exists_eq_left',
      matchesIp4_iff (accepted rule member)] at same
    by_cases empty : rule.ips isSrc = []
    · simp [noPrefixes rule empty]
    · simpa [empty] using same.symm
  · intro gathered i
    refine (bits i).trans (exists_congr fun rule => ?_)
    refine and_congr_right fun here => ?_
    have member := mem_of_getElem? here
    rw [matchesIp4_iff (accepted rule member), gathered rule member]

/-- The entry of a covering prefix receives from a prefix exactly when that
prefix is its own, or a shorter one around `a`. -/
theorem receives_iff_of_covers (covers : winner.Covers a) :
    Ip4RuleMap.Receives block winner ↔
      block = winner ∨ block.len < winner.len ∧ block.Covers a := by
  refine or_congr eq_comm (and_congr_right fun shorter => ?_)
  exact (Prefix.covers_iff_of_covers shorter.le covers).symm

theorem receives_otherIp4Prefix_iff (len : block.len ≤ 32) :
    Ip4RuleMap.Receives block otherIp4Prefix ↔ block.Covers otherIp4Key := by
  rw [receives_iff_of_covers otherIp4Prefix.covers_addr]
  constructor
  · rintro (rfl | ⟨_, covers⟩)
    · exact otherIp4Prefix.covers_addr
    · exact covers
  · intro covers
    rcases len.eq_or_lt with full | shorter
    · exact Or.inl (covers_of_len_eq full covers)
    · exact Or.inr ⟨shorter, covers⟩

/-- Gathering from a covering winner asks only that no covering rule is
missed. -/
theorem gathered_iff_of_covers (covers : winner.Covers a) :
    Gathered rules isSrc a winner ↔
      ∀ rule ∈ rules, (∃ block ∈ rulePrefixes isSrc rule, block.Covers a) →
        ∃ block ∈ rulePrefixes isSrc rule,
          block = winner ∨ block.len < winner.len ∧ block.Covers a := by
  refine forall_congr' fun rule => forall_congr' fun _ => ?_
  simp only [receives_iff_of_covers covers]
  refine ⟨Iff.mp, fun missed => ⟨missed, ?_⟩⟩
  rintro ⟨block, member, rfl | ⟨_, blockCovers⟩⟩
  · exact ⟨block, member, covers⟩
  · exact ⟨block, member, blockCovers⟩

theorem gathered_otherIp4Prefix_iff (lens : ∀ block ∈ prefixes isSrc rules, block.len ≤ 32) :
    Gathered rules isSrc a otherIp4Prefix ↔
      ∀ rule ∈ rules, (∃ block ∈ rulePrefixes isSrc rule, block.Covers a) ↔
          ∃ block ∈ rulePrefixes isSrc rule, block.Covers otherIp4Key := by
  refine forall_congr' fun rule => forall_congr' fun member => ?_
  refine iff_congr Iff.rfl (exists_congr fun block => ?_)
  refine and_congr_right fun blockMember => receives_otherIp4Prefix_iff ?_
  exact lens block (mem_flatMap.mpr ⟨rule, member, blockMember⟩)

/-- Where nothing covers `a`, the fallback is exact when nothing covers the
last address either. -/
theorem gathered_otherIp4Prefix_iff_of_uncovered
    (lens : ∀ block ∈ prefixes isSrc rules, block.len ≤ 32)
    (uncovered : ∀ block ∈ prefixes isSrc rules, ¬ block.Covers a) :
    Gathered rules isSrc a otherIp4Prefix ↔
      ∀ block ∈ prefixes isSrc rules, ¬ block.Covers otherIp4Key := by
  rw [gathered_otherIp4Prefix_iff lens, prefixes, forall_mem_flatMap]
  refine forall₂_congr fun rule member => ?_
  have none : ¬ ∃ block ∈ rulePrefixes isSrc rule, block.Covers a := fun ⟨block, here, covers⟩ =>
    uncovered block (mem_flatMap.mpr ⟨rule, member, here⟩) covers
  rw [iff_false_left none]
  push Not
  rfl

/-- The prefix whose entry answers for `a`. -/
def AnswersIp4 (rules : List NetFirewallIpRule) (isSrc : Bool) (a : BitVec 32)
    (winner : Ip4Data) : Prop :=
  ∀ fuel manager, buildBitmapMap fuel rules = Outcome.ok manager →
    ∃ result, manager.lookupIp4 isSrc a = some result ∧ Ip4Result rules isSrc winner result

theorem AnswersIp4.exact_iff (accepted : ∀ rule ∈ rules, RuleAccepted rule)
    (answers : AnswersIp4 rules isSrc a winner) :
    Ip4Exact rules isSrc a ↔ Gathered rules isSrc a winner := by
  constructor
  · rintro ⟨fuel, manager, returns, result, found, exactly⟩
    obtain ⟨result', found', bits⟩ := answers fuel manager returns
    rw [found] at found'
    cases found'
    exact (bits.exact_iff accepted).mp exactly
  · intro gathered
    obtain ⟨fuel, manager, returns⟩ := (exists_buildBitmapMap_iff rules).mpr accepted
    obtain ⟨result, found, bits⟩ := answers fuel manager returns
    exact ⟨fuel, manager, returns, result, found, (bits.exact_iff accepted).mpr gathered⟩

section Ip4Exact

variable {rules : List NetFirewallIpRule} {isSrc : Bool} {a : BitVec 32}

section

variable (size : rules.length ≤ bitmapBits) (accepted : ∀ rule ∈ rules, RuleAccepted rule)
include size accepted

theorem ip4Exact_otherIp4Key (lens : ∀ block ∈ prefixes isSrc rules, block.len ≤ 32) :
    Ip4Exact rules isSrc otherIp4Key := by
  have answers : AnswersIp4 rules isSrc otherIp4Key otherIp4Prefix :=
    fun _ _ returns => lookupIp4_of_wins size returns (wins_otherIp4Prefix lens)
  rw [answers.exact_iff accepted, gathered_otherIp4Prefix_iff lens]
  exact fun _ _ => Iff.rfl

theorem ip4Exact_iff_of_wins (notOther : a ≠ otherIp4Key)
    (wins : PrefixTable.Wins id (prefixes isSrc rules).eraseDups a winner) :
    Ip4Exact rules isSrc a ↔
      ∀ rule ∈ rules, (∃ block ∈ rulePrefixes isSrc rule, block.Covers a) →
        ∃ block ∈ rulePrefixes isSrc rule,
          block = winner ∨ block.len < winner.len ∧ block.Covers a := by
  have answers : AnswersIp4 rules isSrc a winner := fun _ _ returns =>
    lookupIp4_of_wins size returns (wins_append_otherIp4Prefix notOther wins)
  rw [answers.exact_iff accepted]
  exact gathered_iff_of_covers wins.covers

theorem ip4Exact_iff_of_uncovered (lens : ∀ block ∈ prefixes isSrc rules, block.len ≤ 32)
    (notOther : a ≠ otherIp4Key) (uncovered : ∀ block ∈ prefixes isSrc rules, ¬ block.Covers a) :
    Ip4Exact rules isSrc a ↔ ∀ block ∈ prefixes isSrc rules, ¬ block.Covers otherIp4Key := by
  have answers : AnswersIp4 rules isSrc a otherIp4Prefix := by
    intro fuel manager returns
    rw [lookupIp4_of_uncovered returns]
    · exact lookupIp4_of_wins size returns (wins_otherIp4Prefix lens)
    · exact forall_mem_append.mpr ⟨uncovered, forall_mem_singleton.mpr notOther⟩
  rw [answers.exact_iff accepted, gathered_otherIp4Prefix_iff_of_uncovered lens uncovered]

end

theorem exists_wins_prefixes (covered : ∃ block ∈ prefixes isSrc rules, block.Covers a) :
    ∃ winner, PrefixTable.Wins id (prefixes isSrc rules).eraseDups a winner := by
  obtain ⟨block, member, covers⟩ := covered
  exact exists_wins ⟨block, mem_eraseDups.mpr member, covers⟩

/-- The IPv4 lookup of `a` returns the matching rules exactly when the rules
meet the condition at `a`. -/
theorem ip4Exact_iff_ip4Condition (rules : List NetFirewallIpRule)
    (size : rules.length ≤ bitmapBits)
    (wellFormed : ∀ rule ∈ rules, ∀ side, ∀ item ∈ rule.ips side, item.WellFormed) (isSrc : Bool)
    (a : BitVec 32) :
    Ip4Exact rules isSrc a ↔ Ip4Condition rules isSrc a := by
  have accepted_iff : (∀ rule ∈ rules, RuleAccepted rule) ↔
      ∀ rule ∈ rules, ∀ side, ∀ item ∈ rule.ips side, ¬ item.EndsAtTop :=
    forall₂_congr fun rule member => forall_congr' fun side =>
      forall₂_congr fun item here => (wellFormed rule member side item here).accepted_iff
  unfold Ip4Condition
  rw [← accepted_iff]
  by_cases accepted : ∀ rule ∈ rules, RuleAccepted rule
  · have lens : ∀ block ∈ prefixes isSrc rules, block.len ≤ 32 :=
      forall_mem_flatMap.mpr fun rule member => forall_mem_flatMap.mpr fun item here =>
        (accepted rule member isSrc item here).ip4Blocks_spec.2
          (wellFormed rule member isSrc item here)
    rw [and_iff_right accepted]
    by_cases other : a = otherIp4Key
    · subst other
      exact iff_of_true (ip4Exact_otherIp4Key size accepted lens) (Or.inl rfl)
    rw [or_iff_right other]
    by_cases covered : ∃ block ∈ prefixes isSrc rules, block.Covers a
    · rw [and_iff_right (Or.inl covered)]
      obtain ⟨winner, wins⟩ := exists_wins_prefixes covered
      rw [ip4Exact_iff_of_wins size accepted other wins]
      exact ⟨fun all _ wins' => wins.unique wins' ▸ all, fun all => all winner wins⟩
    · have uncovered : ∀ block ∈ prefixes isSrc rules, ¬ block.Covers a :=
        fun block member covers => covered ⟨block, member, covers⟩
      rw [or_iff_right covered, ip4Exact_iff_of_uncovered size accepted lens other uncovered]
      refine (and_iff_left fun winner wins => ?_).symm
      exact absurd wins.covers (uncovered winner (mem_eraseDups.mp wins.mem))
  · refine iff_of_false ?_ fun condition => accepted condition.1
    rintro ⟨fuel, manager, returns, _⟩
    exact accepted ((exists_buildBitmapMap_iff rules).mp ⟨fuel, manager, returns⟩)

end Ip4Exact

/-- A rule that denies one remote IPv4 network. -/
def denyRemote (mask : BitVec 8) (addr : BitVec 32) : NetFirewallIpRule where
  userId := 0
  appUid := 0
  ruleDirection := NetFirewallRuleDirection.ruleIn
  ruleAction := FirewallRuleAction.ruleDeny
  protocol := ⟨0⟩
  localIps := []
  remoteIps := [⟨familyIpv4, singleIp, mask, ⟨addr, addr⟩, ⟨0, 0⟩⟩]
  localPorts := []
  remotePorts := []
  interface := ""

variable {addr : BitVec 32} {mask : BitVec 8}

theorem wellFormed_denyRemote (bounds : 1 ≤ mask.toNat ∧ mask.toNat ≤ 32) :
    ∀ side, ∀ item ∈ (denyRemote mask addr).ips side, item.WellFormed := by
  intro side item member
  cases side
  · simp [denyRemote, NetFirewallIpRule.ips] at member
  · rw [mem_singleton.mp member]
    exact Or.inl ⟨rfl, fun _ => bounds, fun _ => BitVec.le_refl _⟩

theorem ruleAccepted_denyRemote (bounds : 1 ≤ mask.toNat ∧ mask.toNat ≤ 32) :
    RuleAccepted (denyRemote mask addr) := by
  intro side item member
  refine (wellFormed_denyRemote bounds side item member).accepted_iff.mpr ?_
  rintro ⟨_, multiple, _⟩
  cases side
  · simp [denyRemote, NetFirewallIpRule.ips] at member
  · rw [mem_singleton.mp member] at multiple
    exact NetFirewallIpParam.singleIp_ne_multipleIp multiple

/-- One network denied: the lookup of an address in it is exact. -/
theorem ip4Exact_denyRemote : Ip4Exact [denyRemote 24 0x0a000001] true 0x0a000005 := by
  refine (ip4Exact_iff_ip4Condition [denyRemote 24 0x0a000001] (by decide)
    (by simpa using wellFormed_denyRemote (by decide)) true 0x0a000005).mpr ?_
  refine ⟨?_, Or.inr ⟨Or.inl (by decide), ?_⟩⟩
  · decide
  · intro winner wins rule member _
    have only : winner = ⟨24, 0x0a000001⟩ := by
      simpa [prefixes, rulePrefixes, denyRemote, NetFirewallIpRule.ips,
        NetFirewallIpParam.ip4Blocks] using wins.mem
    rw [mem_singleton.mp member]
    exact ⟨⟨24, 0x0a000001⟩, by decide, Or.inl only.symm⟩

/-- Two rules that write the network 10.0.0.0/24 differently. -/
def twoSpellings : List NetFirewallIpRule := [denyRemote 24 0x0a000001, denyRemote 24 0x0a000002]

/-- The second spelling replaces the first in the kernel, and the first rule is
lost. -/
theorem not_ip4Exact_twoSpellings :
    (∀ rule ∈ twoSpellings, ∀ side, ∀ item ∈ rule.ips side, item.WellFormed) ∧
      ¬ Ip4Exact twoSpellings true 0x0a000005 := by
  have accepted : ∀ rule ∈ twoSpellings, RuleAccepted rule := by
    simpa [twoSpellings] using ⟨ruleAccepted_denyRemote (by decide),
      ruleAccepted_denyRemote (by decide)⟩
  have wins : PrefixTable.Wins id (prefixes true twoSpellings).eraseDups
      0x0a000005 ⟨24, 0x0a000002⟩ := by
    refine ⟨[⟨24, 0x0a000001⟩], [], ?_, ?_, ?_, ?_⟩ <;> decide
  constructor
  · intro rule member
    rcases mem_pair.mp member with rfl | rfl
    · exact wellFormed_denyRemote (by decide)
    · exact wellFormed_denyRemote (by decide)
  · rw [ip4Exact_iff_of_wins (by decide) accepted (by decide) wins]
    decide

end BitmapManager

end NetManager.Firewall
