import Mathlib.Data.List.TakeWhile
import NetManager.Firewall.Match
import NetManager.Firewall.PortClassifier

/-!
# The fields of a packet and its verdict

Protocol, application, user and interface are looked up in hash maps. Each map
has an entry for every value that some rule asks for, and one entry for all
other values; the rules that do not ask for a value are in all of them. For
rules without addresses and ports the intersection of the lookups is the set of
matching rules, and the verdict follows from their actions.
-/

namespace NetManager.Firewall

open List AddressPrefix

namespace BitmapManager

/-! ## One hash map -/

section Dimension

variable {κ : Type} [DecidableEq κ] (keyOf : NetFirewallIpRule → Option κ) (otherKey : κ)

/-- The map of a field before the other key is inserted. -/
def markedMap (indexed : List (NetFirewallIpRule × Nat)) : BpfUnorderedMap κ :=
  indexed.foldl (fun map entry => markKey (keyOf entry.1) (Bitmap.single entry.2) map) []

/-- The map of a field as `BuildBitmapMap` builds it. -/
def fieldMap (rules : List NetFirewallIpRule) : BpfUnorderedMap κ :=
  rules.zipIdx.foldl
    (fun map entry => noMarkKey (keyOf entry.1) (Bitmap.single entry.2) map)
    (BpfUnorderedMap.orInsert otherKey Bitmap.clear (markedMap keyOf rules.zipIdx))

variable (indexed : List (NetFirewallIpRule × Nat))

theorem markedMap_append_singleton :
    markedMap keyOf (indexed ++ [entry]) =
      markKey (keyOf entry.1) (Bitmap.single entry.2) (markedMap keyOf indexed) := by
  simp [markedMap]

theorem find_markedMap_getD (key : κ) :
    (BpfUnorderedMap.find key (markedMap keyOf indexed)).getD Bitmap.clear =
      indicesOf (fun rule => decide (keyOf rule = some key)) indexed := by
  induction indexed using List.reverseRecOn with
  | nil => rfl
  | append_singleton indexed entry ih =>
    rw [markedMap_append_singleton, indicesOf_append_singleton]
    cases asked : keyOf entry.1 with
    | none => simpa [markKey] using ih
    | some other =>
      simp only [markKey, BpfUnorderedMap.find_orInsert]
      by_cases same : key = other
      · subst same
        simp [ih]
      · simp [same, Ne.symm same, ih]

theorem find_markedMap_eq_none_iff :
    BpfUnorderedMap.find key (markedMap keyOf indexed) = none ↔
      ∀ rule ∈ indexed.map Prod.fst, keyOf rule ≠ some key := by
  induction indexed using List.reverseRecOn with
  | nil => simp [markedMap]
  | append_singleton indexed entry ih =>
    rw [markedMap_append_singleton, map_append, forall_mem_append, ← ih, map_singleton,
      forall_mem_singleton]
    cases asked : keyOf entry.1 with
    | none => simp [markKey]
    | some other =>
      simp only [markKey, BpfUnorderedMap.find_orInsert]
      by_cases same : key = other
      · simp [same]
      · simp [same, Ne.symm same]

theorem distinctKeys_markedMap : BpfUnorderedMap.DistinctKeys (markedMap keyOf indexed) := by
  induction indexed using List.reverseRecOn with
  | nil => exact List.Pairwise.nil
  | append_singleton indexed entry ih =>
    rw [markedMap_append_singleton]
    cases keyOf entry.1 with
    | none => exact ih
    | some key => exact ih.orInsert

/-- The rules that do not ask for a value. -/
abbrev fieldFree (rules : List NetFirewallIpRule) : Bitmap :=
  indicesOf (fun rule => decide (keyOf rule = none)) rules.zipIdx

section

variable (rules : List NetFirewallIpRule)

theorem fieldMap_eq : fieldMap keyOf otherKey rules = BpfUnorderedMap.orForEach
        (BpfUnorderedMap.orInsert otherKey Bitmap.clear (markedMap keyOf rules.zipIdx))
        (fieldFree keyOf rules) := by
  rw [fieldMap, ← foldl_mark BpfUnorderedMap.orForEach_orForEach BpfUnorderedMap.orForEach_clear]
  simp [noMarkKey]

theorem writeHash_fieldMap :
    writeHash (fieldMap keyOf otherKey rules) = fieldMap keyOf otherKey rules := by
  refine BoundedTable.writeAll_of_pairwise Eq ?_
  rw [fieldMap_eq]
  exact pairwise_map.mpr
    ((distinctKeys_markedMap keyOf rules.zipIdx).orInsert)

theorem find_fieldMap (key : κ) :
    BpfUnorderedMap.find key (fieldMap keyOf otherKey rules) =
      if key = otherKey ∨ ∃ rule ∈ rules, keyOf rule = some key then
        some ((indicesOf (fun rule => decide (keyOf rule = some key))
          rules.zipIdx).or (fieldFree keyOf rules))
      else
        none := by
  have asked : BpfUnorderedMap.find key (markedMap keyOf rules.zipIdx) = none ↔
      ¬ ∃ rule ∈ rules, keyOf rule = some key := by
    rw [find_markedMap_eq_none_iff, zipIdx_map_fst]
    simp
  have value := find_markedMap_getD keyOf rules.zipIdx key
  rw [fieldMap_eq, BpfUnorderedMap.find_orForEach, BpfUnorderedMap.find_orInsert]
  by_cases other : key = otherKey
  · subst other
    simp [value]
  · rw [if_neg other]
    cases found : BpfUnorderedMap.find key (markedMap keyOf rules.zipIdx) with
    | none => simp [other, asked.mp found]
    | some bitmap =>
      have present : ∃ rule ∈ rules, keyOf rule = some key := by
        by_contra missing
        rw [asked.mpr missing] at found
        cases found
      rw [found] at value
      simp [present, ← value]

end

/-- The lookup of a value returns the rules that ask for it and those that ask
for none, provided no rule asks for the other key itself. -/
theorem lookupHash_fieldMap (size : rules.length ≤ bitmapBits)
    (noOther : ∀ rule ∈ rules, keyOf rule ≠ some otherKey) :
    ∃ result, lookupHash (fieldMap keyOf otherKey rules) key otherKey = some result ∧
      ∀ i, result.test i = true ↔
        ∃ rule, rules[i]? = some rule ∧ ∀ value, keyOf rule = some value → value = key := by
  have bits i :
      ((indicesOf (fun rule => decide (keyOf rule = some key))
        rules.zipIdx).or (fieldFree keyOf rules)).test i = true ↔
      ∃ rule, rules[i]? = some rule ∧ ∀ value, keyOf rule = some value → value = key := by
    rw [Bitmap.test_or, Bool.or_eq_true, test_indicesOf_zipIdx _ size,
      test_indicesOf_zipIdx _ size, ← exists_or]
    refine exists_congr fun rule => ?_
    rw [← and_or_left]
    refine and_congr_right fun _ => ?_
    cases keyOf rule <;> simp
  unfold lookupHash
  rw [find_fieldMap]
  split
  next result found =>
    split at found
    · cases found
      exact ⟨_, rfl, bits⟩
    · cases found
  next missing =>
    split at missing
    · cases missing
    next absent =>
      obtain ⟨_, unasked⟩ := not_or.mp absent
      -- the entry for all other values has the same rules as one for `key`
      have same : indicesOf (fun rule => decide (keyOf rule = some otherKey))
          rules.zipIdx =
          indicesOf (fun rule => decide (keyOf rule = some key))
            rules.zipIdx := by
        apply Bitmap.ext_test
        intro i
        rw [Bool.eq_iff_iff, test_indicesOf_zipIdx _ size, test_indicesOf_zipIdx _ size]
        refine exists_congr fun rule => and_congr_right fun here => ?_
        have member := mem_of_getElem? here
        refine iff_of_false ?_ ?_
        · simpa using noOther rule member
        · simpa using fun asks => unasked ⟨rule, member, asks⟩
      rw [find_fieldMap, if_pos (Or.inl rfl), same]
      exact ⟨_, rfl, bits⟩

end Dimension

/-! ## The maps of rules without addresses and ports -/

/-- `NetworkProtocol` values. -/
def networkProtocols : List NetworkProtocol :=
  [.icmp, .tcp, .udp, .icmpv6, .gre, .ipsecEsp, .ipsecAh, .l2tp, .satExpak]

/-- A rule that constrains neither addresses nor ports, with a known protocol
and a name that fits the key of the interface map. -/
structure Plain (rule : NetFirewallIpRule) : Prop where
  ips : ∀ isSrc, rule.ips isSrc = []
  ports : ∀ isSrc, rule.ports isSrc = []
  protocol : rule.protocol.code = 0 ∨ rule.protocol ∈ networkProtocols
  interfaceLength : rule.interface.utf8ByteSize ≤ 15
  interfaceChars : ∀ c ∈ rule.interface.toList, c ≠ '\x00'

/-- The marked maps of plain rules. -/
def plainState (rules : List NetFirewallIpRule) : MarkState :=
  ⟨⟨[], []⟩, ⟨[], []⟩, rules.zipIdx.foldl markFields MarkState.empty.fields⟩

/-- The maps of plain rules. -/
def plainManager (rules : List NetFirewallIpRule) : BitmapManager :=
  assemble rules (plainState rules) [] []

theorem foldlM_markRule_plain (indexed : List (NetFirewallIpRule × Nat))
    (plain : ∀ entry ∈ indexed, Plain entry.1) (state : MarkState) :
    indexed.foldlM (markRule fuel) state =
      Outcome.ok { state with
        fields := indexed.foldl markFields state.fields } := by
  induction indexed generalizing state with
  | nil => rfl
  | cons entry indexed ih =>
    have remote := (plain entry mem_cons_self).ips true
    have local' := (plain entry mem_cons_self).ips false
    simp only [NetFirewallIpRule.ips, if_true, Bool.false_eq_true, if_false] at remote local'
    refine Outcome.foldlM_cons_eq_ok_iff.mpr
      ⟨{ state with fields := markFields state.fields entry }, ?_, ?_⟩
    · refine markRule_eq_ok_iff.mpr ⟨?_, ?_, rfl⟩
      · rw [remote]
        rfl
      · rw [local']
        rfl
    · exact ih (forall_mem_cons.mp plain).2 _

variable {rules : List NetFirewallIpRule}

theorem markedPortMap_plain (plain : ∀ rule ∈ rules, Plain rule) :
    markedPortMap isSrc rules = some [] := by
  have none : rules.zipIdx.flatMap (portRanges isSrc) = [] := by
    refine flatMap_eq_nil_iff.mpr fun entry member => ?_
    simp [portRanges, (forall_mem_zipIdx_iff.mpr plain entry member).ports isSrc]
  have empty : MarkState.empty.fields.segments isSrc = [] := by
    cases isSrc <;> rfl
  rw [markedPortMap, segments_foldl_markFields, none, empty]
  rfl

theorem buildBitmapMap_plain (plain : ∀ rule ∈ rules, Plain rule) (fuel : Nat) :
    buildBitmapMap fuel rules = Outcome.ok (plainManager rules) := by
  refine buildBitmapMap_eq_ok_iff.mpr ⟨plainState rules, ?_, [],
    markedPortMap_plain plain, [], markedPortMap_plain plain, rfl⟩
  exact foldlM_markRule_plain rules.zipIdx (forall_mem_zipIdx_iff.mpr plain) _

variable {κ : Type}

theorem getMap_plainManager [DecidableEq κ]
    (getField : FieldMaps → BpfUnorderedMap κ)
    (getMap : BitmapManager → BpfUnorderedMap κ)
    (starts : getField MarkState.empty.fields = [] := by rfl)
    (marks : ∀ fields entry, getField (markFields fields entry) =
      markKey (keyOf entry.1) (Bitmap.single entry.2) (getField fields) := by intros; rfl)
    (reads : ∀ state srcPorts dstPorts,
      getMap (marked state srcPorts dstPorts) = getField state.fields := by intros; rfl)
    (inserts : ∀ manager, getMap (insert manager) =
      BpfUnorderedMap.orInsert otherKey Bitmap.clear (getMap manager) := by intros; rfl)
    (noMarks : ∀ manager entry, getMap (noMarkRule manager entry) =
      noMarkKey (keyOf entry.1) (Bitmap.single entry.2) (getMap manager) := by intros; rfl) :
    getMap (plainManager rules) = fieldMap keyOf otherKey rules := by
  have first : getField (plainState rules).fields = markedMap keyOf rules.zipIdx := by
    rw [markedMap, ← starts]
    exact (foldl_hom getField fun fields entry => (marks fields entry).symm).symm
  rw [fieldMap, ← first, ← reads (plainState rules) [] [], ← inserts]
  exact (foldl_hom getMap fun manager entry => (noMarks manager entry).symm).symm

section

variable (manager : BitmapManager) (rules : List NetFirewallIpRule)

theorem protoMap_plainManager :
    (plainManager rules).protoMap = fieldMap protoKey otherProtoKey rules :=
  getMap_plainManager FieldMaps.protoMap BitmapManager.protoMap

theorem appUidMap_plainManager :
    (plainManager rules).appUidMap = fieldMap appUidKey otherAppUidKey rules :=
  getMap_plainManager FieldMaps.appUidMap BitmapManager.appUidMap

theorem uidMap_plainManager : (plainManager rules).uidMap = fieldMap uidKey otherUidKey rules :=
  getMap_plainManager FieldMaps.uidMap BitmapManager.uidMap

theorem interfaceMap_plainManager :
    (plainManager rules).interfaceMap = fieldMap interfaceKey "" rules :=
  getMap_plainManager FieldMaps.interfaceMap BitmapManager.interfaceMap

theorem actionMap_buildNoMarkBitmap :
    (buildNoMarkBitmap manager rules).actionMap = manager.actionMap := by
  unfold buildNoMarkBitmap
  induction rules.zipIdx generalizing manager with
  | nil => rfl
  | cons entry indexed ih => exact ih (noMarkRule manager entry)

theorem find_actionMap_plainManager :
    BpfUnorderedMap.find 1 (writeHash (plainManager rules).actionMap) =
      some (indicesOf (fun rule => decide (actionKey rule = some 1)) rules.zipIdx) := by
  have built : (plainManager rules).actionMap =
      BpfUnorderedMap.orInsert 1 Bitmap.clear (markedMap actionKey rules.zipIdx) := by
    rw [plainManager, assemble, actionMap_buildNoMarkBitmap]
    refine congrArg (BpfUnorderedMap.orInsert 1 Bitmap.clear) ?_
    exact (foldl_hom FieldMaps.actionMap fun _ _ => rfl).symm
  have written : writeHash (plainManager rules).actionMap = (plainManager rules).actionMap := by
    refine BoundedTable.writeAll_of_pairwise Eq ?_
    rw [built]
    exact (distinctKeys_markedMap actionKey rules.zipIdx).orInsert
  rw [written, built, BpfUnorderedMap.find_orInsert, if_pos rfl,
    find_markedMap_getD, Bitmap.or_clear]

end

/-! ## Lookups in the tables of plain rules -/

section Lookup

variable {rules : List NetFirewallIpRule}

theorem lookupMap_writeLpm_singleton (otherKey a : BitVec w) :
    lookupMap (writeLpm [⟨⟨len, otherKey⟩, bitmap⟩]) a otherKey = some bitmap := by
  have self : PrefixTable.lookup otherKey (writeLpm [⟨⟨len, otherKey⟩, bitmap⟩]) = some bitmap :=
    lookup_writeLpm_of_answers ⟨[], [], rfl, Prefix.covers_addr _, by simp, by simp⟩
  unfold lookupMap
  by_cases covers : (⟨len, otherKey⟩ : Prefix w).Covers a
  · have found : PrefixTable.lookup a (writeLpm [⟨⟨len, otherKey⟩, bitmap⟩]) = some bitmap :=
      lookup_writeLpm_of_answers ⟨[], [], rfl, covers, by simp, by simp⟩
    rw [found]
  · have missing : PrefixTable.lookup a (writeLpm [⟨⟨len, otherKey⟩, bitmap⟩]) = none :=
      lookup_writeLpm_eq_none (by simpa using covers)
    rw [missing, self]

section

variable (rules : List NetFirewallIpRule) (isSrc : Bool)

theorem ip4_plainManager :
    ((plainManager rules).ips isSrc).ip4 =
      orForEach [⟨⟨32, otherIp4Key⟩, Bitmap.clear⟩]
        (indicesOf (fun rule => decide (rule.ips isSrc = [])) rules.zipIdx) := by
  rw [plainManager, assemble, ips_buildNoMarkBitmap]
  cases isSrc <;> rfl

theorem ip6_plainManager :
    ((plainManager rules).ips isSrc).ip6 =
      orForEach [⟨⟨128, otherIp6Key⟩, Bitmap.clear⟩]
        (indicesOf (fun rule => decide (rule.ips isSrc = [])) rules.zipIdx) := by
  rw [plainManager, assemble, ips_buildNoMarkBitmap]
  cases isSrc <;> rfl

theorem portMap_plainManager :
    (plainManager rules).portMap isSrc =
      orForEach [⟨⟨16, otherPortKey⟩, Bitmap.clear⟩] (indicesOf (portFree isSrc) rules.zipIdx) := by
  rw [plainManager, assemble, portMap_buildNoMarkBitmap, ← foldl_orForEach]
  simp only [noMarkPorts, portFree, decide_eq_true_eq]
  cases isSrc <;> rfl

/-- The bitmap of all rules of the list. -/
def AllRules (bitmap : Bitmap) : Prop :=
  ∀ i, bitmap.test i = true ↔ ∃ rule, rules[i]? = some rule

end

theorem lookupMap_of_unconstrained (size : rules.length ≤ bitmapBits)
    (holds : ∀ rule ∈ rules, condition rule = true) (len : Nat) (otherKey a : BitVec w) :
    ∃ result,
      lookupMap (writeLpm (orForEach [⟨⟨len, otherKey⟩, Bitmap.clear⟩]
        (indicesOf condition rules.zipIdx))) a otherKey = some result ∧
      AllRules rules result := by
  refine ⟨_, lookupMap_writeLpm_singleton otherKey a, fun i => ?_⟩
  rw [Bitmap.clear_or, test_indicesOf_zipIdx _ size]
  exact exists_congr fun rule => and_iff_left_of_imp fun here => holds rule (mem_of_getElem? here)

theorem test_andFound_allRules (src : ∃ result, first = some result ∧ AllRules rules result)
    (dst : ∃ result, second = some result ∧ AllRules rules result) :
    (andFound (andFound key first) second).test i = true ↔
      key.test i = true ∧ ∃ rule, rules[i]? = some rule := by
  obtain ⟨srcResult, rfl, srcAll⟩ := src
  obtain ⟨dstResult, rfl, dstAll⟩ := dst
  simp [andFound, srcAll i, dstAll i]

section Plain

variable (size : rules.length ≤ bitmapBits) (plain : ∀ rule ∈ rules, Plain rule)
include size plain

theorem test_matchAddrs_plain :
    (matchAddrs (tablesOf (plainManager rules)) tuple key).test i = true ↔
      key.test i = true ∧ ∃ rule, rules[i]? = some rule := by
  have free : ∀ isSrc, ∀ rule ∈ rules,
      decide (rule.ips isSrc = []) = true := fun isSrc rule member =>
    decide_eq_true ((plain rule member).ips isSrc)
  have ip4 := fun isSrc => lookupMap_of_unconstrained size (free isSrc) 32 otherIp4Key
  have ip6 := fun isSrc => lookupMap_of_unconstrained size (free isSrc) 128 otherIp6Key
  simp only [← ip4_plainManager, ← ip6_plainManager] at ip4 ip6
  unfold matchAddrs
  split
  · exact test_andFound_allRules (ip4 true _) (ip4 false _)
  · exact test_andFound_allRules (ip6 true _) (ip6 false _)

theorem test_matchPorts_plain :
    (matchPorts (tablesOf (plainManager rules)) tuple key).test i = true ↔
      key.test i = true ∧ ∃ rule, rules[i]? = some rule := by
  have free : ∀ isSrc, ∀ rule ∈ rules, portFree isSrc rule = true :=
    fun isSrc rule member => decide_eq_true (Or.inl ((plain rule member).ports isSrc))
  have port := fun isSrc => lookupMap_of_unconstrained size (free isSrc) 16 otherPortKey
  simp only [← portMap_plainManager] at port
  exact test_andFound_allRules (port true _) (port false _)

end Plain

/-- A field restricts the rules to those that do not ask for another value. -/
theorem test_andFound_fieldMap [DecidableEq κ]
    (size : rules.length ≤ bitmapBits)
    (noOther : ∀ rule ∈ rules, keyOf rule ≠ some otherKey) (value : κ) :
    (andFound key (lookupHash (writeHash (fieldMap keyOf otherKey rules)) value
        otherKey)).test i = true ↔
      key.test i = true ∧ ∃ rule, rules[i]? = some rule ∧
        ∀ asked, keyOf rule = some asked → asked = value := by
  obtain ⟨result, found, bits⟩ := lookupHash_fieldMap keyOf otherKey size noOther
  rw [writeHash_fieldMap, found, andFound, Bitmap.test_and, Bool.and_eq_true, bits i]

end Lookup

/-! ## Keys that rules ask for -/

theorem protoKey_ne_otherProtoKey (plain : Plain rule) :
    protoKey rule ≠ some otherProtoKey := by
  unfold protoKey
  rcases plain.protocol with none | known
  · simp [none]
  · split
    case isFalse => simp
    case isTrue =>
      have : ∀ protocol ∈ networkProtocols,
          some (protocol.code.setWidth 8) ≠ some otherProtoKey := by
        decide
      exact this rule.protocol known

theorem positive_ne_otherKey (value : BitVec 32) :
    (if 0 < value.toInt then some value else none) ≠ some 0xffffffff := by
  split
  case isFalse => simp
  case isTrue positive =>
    rintro ⟨⟩
    exact absurd positive (by decide)

variable (rule : NetFirewallIpRule)

theorem appUidKey_ne_otherAppUidKey : appUidKey rule ≠ some otherAppUidKey :=
  positive_ne_otherKey rule.appUid

theorem uidKey_ne_otherUidKey : uidKey rule ≠ some otherUidKey := positive_ne_otherKey rule.userId

theorem interfaceKey_ne_empty : interfaceKey rule ≠ some "" := by
  unfold interfaceKey
  split
  case isFalse => simp
  case isTrue named => simpa using named

theorem interfaceMapKey_eq_self (short : name.utf8ByteSize ≤ 15)
    (chars : ∀ c ∈ name.toList, c ≠ '\x00') :
    interfaceMapKey name = some name := by
  have whole : name.toList.takeWhile (fun c => c != '\x00') = name.toList := by
    simpa using chars
  have room : ¬ interfaceNameMaxLen < name.utf8ByteSize := by
    unfold interfaceNameMaxLen
    omega
  have terminated : name.utf8ByteSize < interfaceNameMaxLen := by
    unfold interfaceNameMaxLen
    omega
  simp [interfaceMapKey, room, whole, terminated]

theorem mem_fieldMap [DecidableEq κ] {keyOf : NetFirewallIpRule → Option κ}
    {otherKey : κ} {entry : κ × Bitmap} (member : entry ∈ fieldMap keyOf otherKey rules) :
    entry.1 = otherKey ∨ ∃ rule ∈ rules, keyOf rule = some entry.1 := by
  have found := BpfUnorderedMap.find_ne_none_of_mem member
  rw [find_fieldMap] at found
  by_contra neither
  rw [if_neg neither] at found
  exact found rfl

theorem interfaceEntries_fieldMap (plain : ∀ rule ∈ rules, Plain rule) :
    interfaceEntries (fieldMap interfaceKey "" rules) = fieldMap interfaceKey "" rules := by
  have kept : ∀ entry ∈ fieldMap interfaceKey "" rules,
      (interfaceMapKey entry.1).map (fun name => (name, entry.2)) = some entry := by
    intro entry member
    have self : interfaceMapKey entry.1 = some entry.1 := by
      rcases mem_fieldMap member with other | ⟨rule, ruleMember, asks⟩
      · rw [other]
        exact interfaceMapKey_eq_self (by decide) (by simp)
      · unfold interfaceKey at asks
        split at asks
        case isFalse => cases asks
        case isTrue =>
          rw [← Option.some.inj asks]
          exact interfaceMapKey_eq_self (plain rule ruleMember).interfaceLength
            (plain rule ruleMember).interfaceChars
    rw [self]
    rfl
  unfold interfaceEntries
  rw [filterMap_congr kept]
  exact filterMap_some

end BitmapManager

/-! ## Keys and verdicts -/

open BitmapManager

variable (rule : NetFirewallIpRule)

/-- Every field that the rule constrains has the packet's value. -/
def MatchesFields (tuple : MatchTuple) (device : String) : Prop :=
  (rule.protocol.code = 0 ∨ rule.protocol.code = tuple.protocol.setWidth 32) ∧
  (rule.appUid.toInt ≤ 0 ∨ rule.appUid = tuple.appuid) ∧
  (rule.userId.toInt ≤ 0 ∨ rule.userId = tuple.uid) ∧
  (rule.interface = "" ∨ rule.interface = device)

/-- A rule denies when its action is any but `RULE_ALLOW`. -/
def Denies : Prop := rule.ruleAction ≠ FirewallRuleAction.ruleAllow
deriving Decidable

theorem forall_protoKey_iff {rule : NetFirewallIpRule} (plain : Plain rule) :
    (∀ asked, protoKey rule = some asked → asked = protocol) ↔
      rule.protocol.code = 0 ∨ rule.protocol.code = protocol.setWidth 32 := by
  unfold protoKey
  by_cases none : rule.protocol.code = 0
  · simp [none]
  · have known : rule.protocol ∈ networkProtocols := plain.protocol.resolve_left none
    have small : ∀ known ∈ networkProtocols, known.code.toNat < 256 := by
      decide
    have bound := small rule.protocol known
    simp only [none, ne_eq, not_false_eq_true, if_true, Option.some.injEq, forall_eq', false_or]
    bv_omega

theorem forall_positive_iff (value other : BitVec 32) :
    (∀ asked, (if 0 < value.toInt then some value else none) = some asked → asked = other) ↔
      value.toInt ≤ 0 ∨ value = other := by
  split
  next positive => simp [Int.not_le.mpr positive]
  next free => simp [Int.not_lt.mp free]

theorem forall_interfaceKey_iff :
    (∀ asked, interfaceKey rule = some asked → asked = device) ↔
      rule.interface = "" ∨ rule.interface = device := by
  unfold interfaceKey
  by_cases unnamed : rule.interface = "" <;> simp [unnamed]

section Verdict

variable {rules : List NetFirewallIpRule} {kernel : Kernel} {tuple : MatchTuple} {device : String}

/-- The key of a packet is the set of matching rules. -/
def KeyExact (rules : List NetFirewallIpRule) (tuple : MatchTuple) (device : String)
    (key : Bitmap) : Prop :=
  ∀ i, key.test i = true ↔ ∃ rule, rules[i]? = some rule ∧ MatchesFields rule tuple device

theorem matchActionKey_plain (size : rules.length ≤ bitmapBits) (plain : ∀ rule ∈ rules, Plain rule)
    (installed : kernel.tables tuple.ingress = tablesOf (plainManager rules)) :
    ∃ key, matchActionKey kernel tuple (some device) = some key ∧
      KeyExact rules tuple device key := by
  refine ⟨_, rfl, fun i => ?_⟩
  have iface : (tablesOf (plainManager rules)).iface =
      writeHash (fieldMap interfaceKey "" rules) := by
    rw [tablesOf, interfaceMap_plainManager, interfaceEntries_fieldMap plain]
  have uid : (tablesOf (plainManager rules)).uid =
      writeHash (fieldMap uidKey otherUidKey rules) := by
    rw [tablesOf, uidMap_plainManager]
  have appuid : (tablesOf (plainManager rules)).appuid =
      writeHash (fieldMap appUidKey otherAppUidKey rules) := by
    rw [tablesOf, appUidMap_plainManager]
  have proto : (tablesOf (plainManager rules)).proto =
      writeHash (fieldMap protoKey otherProtoKey rules) := by
    rw [tablesOf, protoMap_plainManager]
  rw [installed, iface,
    test_andFound_fieldMap size fun rule _ => interfaceKey_ne_empty rule,
    matchUid, uid,
    test_andFound_fieldMap size fun rule _ => uidKey_ne_otherUidKey rule,
    matchAppuid, appuid,
    test_andFound_fieldMap size fun rule _ => appUidKey_ne_otherAppUidKey rule,
    test_matchPorts_plain size plain, matchProtocol, proto,
    test_andFound_fieldMap size fun rule member => protoKey_ne_otherProtoKey (plain rule member),
    test_matchAddrs_plain size plain]
  cases here : rules[i]? with
  | none => simp
  | some rule =>
    have inside : i < bitmapBits := by
      have := (List.getElem?_eq_some_iff.mp here).1
      omega
    have member := mem_of_getElem? here
    simp only [Option.some.injEq, exists_eq_left', MatchesFields,
      forall_interfaceKey_iff, forall_protoKey_iff (plain rule member),
      appUidKey, uidKey, forall_positive_iff, Bitmap.test_full, inside,
      decide_true, exists_eq', and_true, true_and, and_assoc]

/-- The verdict agrees with the matching rules, under either default. -/
def VerdictExact (rules : List NetFirewallIpRule) (kernel : Kernel) (tuple : MatchTuple)
    (device : String)
    (key : Bitmap) : Prop :=
  (defaultActionOf kernel tuple = .drop →
    (matchAction kernel tuple key = .pass ↔
      (∃ rule ∈ rules, MatchesFields rule tuple device) ∧
        ∀ rule ∈ rules, MatchesFields rule tuple device → ¬ Denies rule)) ∧
  (defaultActionOf kernel tuple = .pass →
    (matchAction kernel tuple key = .drop ↔
      (∃ rule ∈ rules, MatchesFields rule tuple device) ∧
        ∀ rule ∈ rules, MatchesFields rule tuple device → Denies rule))

theorem exists_test_iff {key : Bitmap} {property : NetFirewallIpRule → Prop}
    (exactly : ∀ i, key.test i = true ↔ ∃ rule, rules[i]? = some rule ∧ property rule) :
    key.positive = true ↔ ∃ rule ∈ rules, property rule := by
  rw [Bitmap.positive_iff]
  constructor
  · rintro ⟨i, set⟩
    obtain ⟨rule, here, holds⟩ := (exactly i).mp set
    exact ⟨rule, mem_of_getElem? here, holds⟩
  · rintro ⟨rule, member, holds⟩
    obtain ⟨i, here⟩ := getElem?_of_mem member
    exact ⟨i, (exactly i).mpr ⟨rule, here, holds⟩⟩

theorem actionKey_eq_some_iff : actionKey rule = some 1 ↔ Denies rule := by
  unfold actionKey Denies
  split
  next denies => simp [denies]
  next allows => simpa using allows

variable {matching denies : NetFirewallIpRule → Prop} {key denied : Bitmap}

section

variable (keyBits : ∀ i, key.test i = true ↔ ∃ rule, rules[i]? = some rule ∧ matching rule)

include keyBits

section

variable (deniedBits : ∀ i, denied.test i = true ↔ ∃ rule, rules[i]? = some rule ∧ denies rule)

include deniedBits

theorem positive_and_iff :
    (key.and denied).positive = true ↔ ∃ rule ∈ rules, matching rule ∧ denies rule := by
  refine exists_test_iff fun i => ?_
  rw [Bitmap.test_and, Bool.and_eq_true, keyBits, deniedBits]
  cases rules[i]? <;> simp

theorem positive_andInv_iff :
    (key.andInv denied).positive = true ↔ ∃ rule ∈ rules, matching rule ∧ ¬ denies rule := by
  refine exists_test_iff fun i => ?_
  rw [Bitmap.test_andInv, Bool.and_eq_true, Bool.not_eq_true',
    ← Bool.not_eq_true, keyBits, deniedBits]
  cases rules[i]? <;> simp

end

end

/-- A verdict that is given when some rule matches, and none that does is against it. -/
theorem verdict_iff {against : NetFirewallIpRule → Prop} (different : other ≠ verdict)
    (matches_ : matched = true ↔ ∃ rule ∈ rules, matching rule)
    (hits : hit = true ↔ ∃ rule ∈ rules, matching rule ∧ against rule) :
    (if matched then if !hit then verdict else other else other) = verdict ↔
      (∃ rule ∈ rules, matching rule) ∧ ∀ rule ∈ rules, matching rule → ¬ against rule := by
  have none : hit = false ↔ ∀ rule ∈ rules, matching rule → ¬ against rule := by
    rw [← Bool.not_eq_true, hits]
    push Not
    rfl
  rw [← matches_, ← none]
  cases matched <;> cases hit <;> simp [different]

theorem matchAction_plain (size : rules.length ≤ bitmapBits)
    (installed : kernel.tables tuple.ingress = tablesOf (plainManager rules))
    (uncached : kernel.domain tuple = none) {key : Bitmap}
    (exactly : KeyExact rules tuple device key) :
    VerdictExact rules kernel tuple device key := by
  have domain : matchDomain kernel tuple = false := by
    rw [matchDomain, uncached]
  have action : BpfUnorderedMap.find 1 (kernel.tables tuple.ingress).action =
      some (indicesOf (fun rule => decide (actionKey rule = some 1)) rules.zipIdx) := by
    rw [installed]
    exact find_actionMap_plainManager rules
  have denied i : (indicesOf (fun rule => decide (actionKey rule = some 1))
      rules.zipIdx).test i = true ↔
      ∃ rule, rules[i]? = some rule ∧ Denies rule := by
    rw [test_indicesOf_zipIdx _ size]
    simp only [decide_eq_true_eq, actionKey_eq_some_iff]
  have matched := exists_test_iff exactly
  have someDenies := positive_and_iff exactly denied
  have someAllows := positive_andInv_iff exactly denied
  refine ⟨fun default => ?_, fun default => ?_⟩
  · simp only [matchAction, action, default, domain, Bool.or_false]
    exact verdict_iff (by decide) matched someDenies
  · simp only [matchAction, action, default, domain, Bool.not_false, Bool.and_true]
    simpa only [not_not, ite_self] using verdict_iff (by decide) matched someAllows

end Verdict

/-- For rules without addresses and ports, over the tables that are built from
them, the key of every packet is the set of matching rules and the verdict
follows from their actions. -/
theorem plain_rules_classified (rules : List NetFirewallIpRule) (size : rules.length ≤ bitmapBits)
    (plain : ∀ rule ∈ rules, Plain rule) :
    ∃ manager, (∀ fuel, buildBitmapMap fuel rules = Outcome.ok manager) ∧
      ∀ (kernel : Kernel) (tuple : MatchTuple) (device : String),
        kernel.tables tuple.ingress = tablesOf manager →
        kernel.domain tuple = none →
        ∃ key, matchActionKey kernel tuple (some device) = some key ∧
          KeyExact rules tuple device key ∧
          VerdictExact rules kernel tuple device key := by
  refine ⟨plainManager rules, buildBitmapMap_plain plain, ?_⟩
  intro kernel tuple device installed uncached
  obtain ⟨key, computed, exactly⟩ := matchActionKey_plain size plain installed
  exact ⟨key, computed, exactly, matchAction_plain size installed uncached exactly⟩

/-- A rule that denies TCP to one application on one interface. -/
def denyTcp : NetFirewallIpRule where
  userId := 0
  appUid := 20010
  ruleDirection := NetFirewallRuleDirection.ruleIn
  ruleAction := FirewallRuleAction.ruleDeny
  protocol := NetworkProtocol.tcp
  localIps := []
  remoteIps := []
  localPorts := []
  remotePorts := []
  interface := "wlan0"

theorem plain_denyTcp : ∀ rule ∈ [denyTcp], Plain rule := by
  refine forall_mem_singleton.mpr ⟨?_, ?_, Or.inr (by decide), by decide, by simp [denyTcp]⟩
  · intro isSrc
    cases isSrc <;> rfl
  · intro isSrc
    cases isSrc <;> rfl

/-- A kernel with that rule for incoming packets and no default action. -/
def denyTcpKernel : Kernel where
  ingress := tablesOf (plainManager [denyTcp])
  egress := ⟨[], [], [], [], [], [], [], [], [], [], []⟩
  defaultAction := fun _ => none
  domainIpv4 := fun _ => none
  domainIpv6 := fun _ => none

/-- A TCP packet of the application. -/
def tcpPacket : MatchTuple where
  ingress := true
  family := afInet
  protocol := 6
  saddr := 0x0a000001
  daddr := 0x0a000002
  saddr6 := 0
  daddr6 := 0
  sport := 443
  dport := 40000
  appuid := 20010
  uid := 100

/-- The packet is dropped. -/
theorem denyTcp_drops_tcpPacket :
    ∃ key, matchActionKey denyTcpKernel tcpPacket (some "wlan0") = some key ∧
      matchAction denyTcpKernel tcpPacket key = .drop := by
  obtain ⟨manager, built, classified⟩ := plain_rules_classified [denyTcp] (by decide) plain_denyTcp
  have same : manager = plainManager [denyTcp] :=
    buildBitmapMap_unique (built 0) (buildBitmapMap_plain plain_denyTcp 0)
  subst same
  obtain ⟨key, computed, _, verdict⟩ := classified denyTcpKernel tcpPacket "wlan0" rfl rfl
  refine ⟨key, computed, (verdict.2 rfl).mpr ⟨?_, ?_⟩⟩
  · exact ⟨denyTcp, mem_singleton.mpr rfl, by unfold MatchesFields; decide⟩
  · exact forall_mem_singleton.mpr fun _ => by decide

end NetManager.Firewall
