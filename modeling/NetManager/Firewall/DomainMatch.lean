import NetManager.Firewall.Domain

/-!
# What a domain rule reaches

A lookup finds the key of a domain exactly when the name of the query, up to its first
zero byte, ends with the domain as it would stand on the wire. Asterisks are dropped
before, so a wildcard domain reaches the same names as the domain below the asterisk:
the domain itself and everything that ends with its bytes.
-/

namespace NetManager.Firewall

open List Labels DomainMaps BoundedTable

/-! ## Keys of domains -/

theorem appendTokens_eq (fits : written.length + (trailed sizeByte parts).length ≤ dnsDomainLen) :
    appendTokens written parts = (written ++ trailed sizeByte parts, true) := by
  induction parts generalizing written with
  | nil => simp [appendTokens, trailed]
  | cons part parts ih =>
    have length := length_trailed_cons sizeByte part parts
    have split : trailed sizeByte (part :: parts) =
        part ++ [sizeByte part.length] ++ trailed sizeByte parts := rfl
    unfold appendTokens
    rw [if_neg (by omega), ih, split]
    · simp
    · simp
      omega

variable (domain : List Byte)

/-- The labels of a domain as they are stored: without asterisks and without an empty
label in front. -/
def storedLabels : List (List Byte) :=
  let parts := (domain.filter (· ≠ asterisk)).splitOn dot
  if parts.length = 1 then parts
  else if parts.head? = some [] then parts.tail
  else parts

/-- A domain as it would stand on the wire. -/
def wireName : List Byte := wire sizeByte (storedLabels domain)

theorem tokens_reverse :
    tokens (domain.reverse.filter (· ≠ asterisk)) =
      ((storedLabels domain).map List.reverse).reverse := by
  unfold tokens storedLabels
  rw [filter_reverse, splitOn_reverse]
  generalize (domain.filter (· ≠ asterisk)).splitOn dot = parts
  have last : ((parts.map List.reverse).reverse.getLast? = some []) ↔ parts.head? = some [] := by
    rw [getLast?_reverse, head?_map]
    cases parts.head? <;> simp
  simp only [length_reverse, length_map, last]
  split
  · rfl
  · split
    · rw [dropLast_reverse, map_tail]
    · rfl

theorem trailed_tokens :
    trailed sizeByte (tokens (domain.reverse.filter (· ≠ asterisk))) =
      (wireName domain).reverse := by
  rw [tokens_reverse, wireName, reverse_wire]

/-- The bytes of a user and an application in a key. -/
def owner (uid appuid : BitVec 32) : List Byte := littleEndian uid ++ littleEndian appuid

theorem take_padded :
    (littleEndian uid ++ littleEndian appuid ++ padded written).take
      (4 + 4 + written.length) = owner uid appuid ++ written := by
  unfold padded owner
  rw [← append_assoc]
  refine take_left' ?_
  simp [littleEndian]
  omega

theorem getDomainHashKey_eq {domain : List Byte} (nonempty : domain ≠ [])
    (fits : (wireName domain).length ≤ dnsDomainLen) :
    getDomainHashKey domain =
      { prefixlen := (4 + 4 + (wireName domain).reverse.length) * 8
        data := padded (wireName domain).reverse } := by
  have appended := trailed_tokens domain
  have room : ([] : List Byte).length + (trailed sizeByte
      (tokens (domain.reverse.filter (· ≠ asterisk)))).length ≤ dnsDomainLen := by
    rw [appended]
    simpa using fits
  unfold getDomainHashKey
  rw [if_neg (by simpa using nonempty)]
  dsimp only
  rw [appendTokens_eq room, appended]
  rfl

variable {param : NetFirewallDomainParam} (rule : NetFirewallDomainRule)

theorem prefixBytes_ruleKey
    (nonempty : param.domain ≠ []) (fits : (wireName param.domain).length ≤ dnsDomainLen) :
    (ruleKey rule param).prefixBytes =
      owner rule.userId rule.appUid ++ (wireName param.domain).reverse := by
  unfold ruleKey DomainHashKey.prefixBytes
  rw [getDomainHashKey_eq nonempty fits]
  rw [Nat.mul_div_cancel _ (by decide)]
  exact take_padded

/-- The key of an empty domain has no bytes, not even those of the user. -/
theorem prefixBytes_ruleKey_of_nil (empty : param.domain = []) :
    (ruleKey rule param).prefixBytes = [] := by
  have zero : getDomainHashKey [] = {} := rfl
  unfold ruleKey DomainHashKey.prefixBytes
  rw [empty, zero, Nat.zero_div, take_zero]

theorem prefixBytes_queryKey :
    (queryKey name uid appuid).prefixBytes = owner uid appuid ++ name := by
  unfold queryKey DomainHashKey.prefixBytes
  rw [Nat.mul_div_cancel _ (by decide), Nat.add_assoc, Nat.add_comm name.length]
  exact take_padded

theorem littleEndian_inj : littleEndian first = littleEndian second ↔ first = second := by
  refine ⟨fun same => ?_, congrArg littleEndian⟩
  simp only [littleEndian, List.cons.injEq, and_true] at same
  obtain ⟨byte0, byte1, byte2, byte3⟩ := same
  have nat0 := congrArg BitVec.toNat byte0
  have nat1 := congrArg BitVec.toNat byte1
  have nat2 := congrArg BitVec.toNat byte2
  have nat3 := congrArg BitVec.toNat byte3
  simp only [BitVec.extractLsb'_toNat, Nat.shiftRight_eq_div_pow] at nat0 nat1 nat2 nat3
  refine BitVec.eq_of_toNat_eq ?_
  omega

/-- A key of a user and an application is a prefix for the same ones only. -/
theorem owner_prefix_iff :
    owner uid appuid ++ key <+: owner otherUid otherAppuid ++ name ↔
      uid = otherUid ∧ appuid = otherAppuid ∧ key <+: name := by
  have sameLength : (owner uid appuid).length = (owner otherUid otherAppuid).length := rfl
  constructor
  · intro covers
    have same : owner uid appuid = owner otherUid otherAppuid := by
      have first := (prefix_append (owner uid appuid) key).trans covers
      exact (prefix_of_prefix_length_le first (prefix_append _ name)
        sameLength.le).eq_of_length sameLength
    have parts := append_inj same rfl
    rw [same] at covers
    exact ⟨littleEndian_inj.mp parts.1, littleEndian_inj.mp parts.2,
      (prefix_append_right_inj _).mp covers⟩
  · rintro ⟨rfl, rfl, covers⟩
    exact (prefix_append_right_inj _).mpr covers

/-! ## Maps -/

/-- The two kinds of domain rules. -/
inductive Verdict
  | allow
  | deny

namespace Verdict

/-- The action of the rules. -/
def action : Verdict → FirewallRuleAction
  | allow => .ruleAllow
  | deny => .ruleDeny

/-- The map of the rules. -/
def table (maps : DomainMaps) : Verdict → List (List Byte × Byte)
  | allow => maps.pass
  | deny => maps.deny

/-- Whether a query hits a rule. -/
def hit (result : DnsQueryResult) : Verdict → Bool
  | allow => result.allowrst
  | deny => result.denyrst

end Verdict

/-- The keys that are written for the rules of one kind, in order. -/
def writtenKeys (verdict : Verdict) (ruleList : List NetFirewallDomainRule) : List (List Byte) :=
  ruleList.flatMap fun rule =>
    if rule.ruleAction = verdict.action then
      rule.domains.map fun param => (ruleKey rule param).prefixBytes
    else []

variable (verdict : Verdict)

theorem table_setBpfFirewallDomainRules :
    verdict.table (maps.setBpfFirewallDomainRules action key) =
      if action = verdict.action then writeBpfMap (verdict.table maps) key
      else verdict.table maps := by
  cases verdict with
  | allow =>
    change (if action = .ruleAllow then _ else _ : DomainMaps).pass =
      if action = .ruleAllow then _ else _
    split
    · rfl
    · split <;> rfl
  | deny =>
    change (if action = .ruleAllow then _ else _ : DomainMaps).deny =
      if action = .ruleDeny then _ else _
    by_cases allows : action = .ruleAllow
    · subst allows
      rfl
    · rw [if_neg allows]
      split <;> rfl

theorem table_foldl_domains (params : List NetFirewallDomainParam) :
    verdict.table (params.foldl (fun maps param =>
      maps.setBpfFirewallDomainRules rule.ruleAction (ruleKey rule param)) maps) =
      ((if rule.ruleAction = verdict.action then
        params.map fun param => (ruleKey rule param).prefixBytes
        else []).map fun key => (key, (1 : Byte))).foldl
          (write Eq mapMaxEntries) (verdict.table maps) := by
  induction params generalizing maps with
  | nil => simp
  | cons param params ih =>
    rw [foldl_cons, ih, table_setBpfFirewallDomainRules]
    split
    · rfl
    · rfl

theorem table_foldl_rules :
    verdict.table (ruleList.foldl (fun maps rule => rule.domains.foldl
      (fun maps param =>
        maps.setBpfFirewallDomainRules rule.ruleAction (ruleKey rule param))
        maps) maps) =
      ((writtenKeys verdict ruleList).map fun key => (key, (1 : Byte))).foldl
        (write Eq mapMaxEntries) (verdict.table maps) := by
  induction ruleList generalizing maps with
  | nil => rfl
  | cons rule ruleList ih =>
    rw [foldl_cons, ih, table_foldl_domains]
    simp [writtenKeys]

variable {ruleList : List NetFirewallDomainRule} {maps : DomainMaps}

theorem table_setFirewallDomainRules (installed : ruleList ≠ [] ∨ maps = {}) :
    verdict.table (maps.setFirewallDomainRules ruleList) =
      boundedWriteAll Eq mapMaxEntries
        ((writtenKeys verdict ruleList).map fun key => (key, (1 : Byte))) := by
  have fromEmpty : verdict.table {} = [] := by cases verdict <;> rfl
  unfold setFirewallDomainRules
  split
  next empty =>
    obtain rfl : ruleList = [] := List.isEmpty_iff.mp empty
    obtain rfl : maps = {} := installed.resolve_left fun nonempty => nonempty rfl
    exact fromEmpty
  · rw [table_foldl_rules, fromEmpty]
    rfl

/-- The keys that the map of one kind holds: those that were written first. -/
def heldKeys (verdict : Verdict) (ruleList : List NetFirewallDomainRule) : List (List Byte) :=
  firstKeys mapMaxEntries (writtenKeys verdict ruleList)

theorem found_iff (installed : ruleList ≠ [] ∨ maps = {}) (key : DomainHashKey) :
    key.found (verdict.table (maps.setFirewallDomainRules ruleList)) = true ↔
      ∃ held ∈ heldKeys verdict ruleList, held <+: key.prefixBytes := by
  unfold DomainHashKey.found heldKeys
  rw [table_setFirewallDomainRules verdict installed, decide_eq_true_iff,
    StringTrie.lookup_eq_some_iff, keys_boundedWriteAll]
  · simp [Function.comp_def]
  · intro entry member
    obtain ⟨_, _, rfl⟩ := mem_map.mp (mem_boundedWriteAll Eq member)
    rfl

/-! ## Names of queries -/

/-- The bytes up to the first zero. -/
def untilZero (bytes : List Byte) : List Byte := bytes.takeWhile (· ≠ 0)

theorem readName_eq (before after read : List Byte)
    (room : (untilZero after).length < remaining) (inRange : before.length + remaining ≤ 256) :
    readName (before ++ after) read (BitVec.ofNat 8 before.length) remaining =
      some (read ++ untilZero after,
        BitVec.ofNat 8 (before.length + (untilZero after).length + 1)) := by
  induction remaining generalizing before after read with
  | zero => exact absurd room (Nat.not_lt_zero _)
  | succ remaining ih =>
    have load : loadByte (before ++ after) (BitVec.ofNat 8 before.length) = after.getD 0 0 := by
      unfold loadByte
      rw [BitVec.toNat_ofNat, Nat.mod_eq_of_lt (by omega), getD_eq_getElem?_getD,
        getElem?_append_right (Nat.le_refl _), Nat.sub_self,
        getD_eq_getElem?_getD]
    have next : BitVec.ofNat 8 before.length + 1 = BitVec.ofNat 8 (before.length + 1) :=
      (BitVec.ofNat_add ..).symm
    unfold readName
    rw [load, next]
    cases after with
    | nil => simp [untilZero]
    | cons byte rest =>
      by_cases zero : byte = 0
      · simp [untilZero, zero]
      · have shorter : untilZero (byte :: rest) = byte :: untilZero rest :=
          takeWhile_cons_of_pos (decide_eq_true zero)
        have moved : before ++ byte :: rest = before ++ [byte] ++ rest := by simp
        have behind : before.length + 1 = (before ++ [byte]).length := by simp
        rw [shorter, length_cons] at room
        rw [getD_cons_zero, if_neg zero, moved, behind,
          ih _ _ (read ++ [byte]) (by omega) (by simp; omega), shorter,
          ← behind, append_assoc, Nat.add_assoc before.length 1, Nat.add_comm 1]
        rfl

theorem swap_eq (before inner after : List Byte) (first last : Byte) :
    let data := before ++ first :: (inner ++ last :: after)
    let second := before.length + inner.length + 1
    (data.set before.length (data.getD second 0)).set second (data.getD before.length 0) =
      before ++ last :: (inner ++ first :: after) := by
  intro data second
  have atFirst : data.getD before.length 0 = first := by simp [data]
  have atSecond : data.getD second 0 = last := by
    simp only [data, second, getD_eq_getElem?_getD]
    rw [getElem?_append_right (by omega), Nat.add_assoc, Nat.add_sub_cancel_left,
      getElem?_cons_succ, getElem?_append_right (Nat.le_refl _), Nat.sub_self]
    rfl
  rw [atFirst, atSecond]
  simp only [data, second, set_append_right _ _ (Nat.le_refl _), Nat.sub_self, set_cons_zero]
  rw [set_append_right _ _ (by omega), Nat.add_assoc, Nat.add_sub_cancel_left,
    set_cons_succ, set_append_right _ _ (Nat.le_refl _), Nat.sub_self,
    set_cons_zero]

/-- The swaps of the outermost bytes, then of the next ones, reverse a part of the
bytes. -/
theorem swapLoop_eq (before middle after : List Byte) (enough : middle.length ≤ remaining) :
    swapLoop (before ++ (middle ++ after)) before.length
      (before.length + middle.length - 1) remaining = before ++ (middle.reverse ++ after) := by
  induction remaining generalizing before middle after with
  | zero =>
    obtain rfl : middle = [] := length_eq_zero_iff.mp (Nat.le_zero.mp enough)
    rfl
  | succ remaining ih =>
    unfold swapLoop
    cases middle with
    | nil =>
      rw [if_neg (by simp)]
      rfl
    | cons first rest =>
      rcases eq_nil_or_concat rest with rfl | ⟨inner, last, split⟩
      · rw [if_neg (by simp)]
        rfl
      · rw [concat_eq_append] at split
        subst split
        have lastPosition : before.length + (first :: (inner ++ [last])).length - 1 =
            before.length + inner.length + 1 := by
          simp
          omega
        have swapped := swap_eq before inner after first last
        have behind : before.length + inner.length + 1 - 1 =
            (before ++ [last]).length + inner.length - 1 := by
          simp
        have rotated : before ++ last :: (inner ++ first :: after) =
            before ++ [last] ++ (inner ++ first :: after) := by simp
        have start : before.length + 1 = (before ++ [last]).length := by simp
        have spread : first :: (inner ++ [last]) ++ after =
            first :: (inner ++ last :: after) := by simp
        have shorter : inner.length ≤ remaining := by
          omega
        rw [lastPosition, if_pos (by omega), spread, swapped, behind, rotated, start,
          ih _ _ _ shorter]
        simp

theorem untilZero_append_zero : untilZero (bytes ++ 0 :: rest) = untilZero bytes := by
  unfold untilZero
  rw [takeWhile_append]
  split
  next whole =>
    rw [(List.takeWhile_prefix _).eq_of_length whole]
    simp
  · rfl

/-- A packet with a query for a name: the headers, the name with a zero behind it, and
what follows. -/
def queryPacket (header : List Byte) (labels : List (List Byte)) (rest : List Byte) : List Byte :=
  header ++ (wire sizeByte labels ++ 0 :: rest)

variable {labels : List (List Byte)} {header : List Byte}

theorem parseQueriesName_queryPacket
    (rest : List Byte) (short : (wire sizeByte labels).length < dnsDomainLen)
    (inRange : header.length + dnsDomainLen ≤ 256) :
    parseQueriesName (queryPacket header labels rest) (BitVec.ofNat 8 header.length) =
      some ((untilZero (wire sizeByte labels)).reverse, BitVec.ofNat 8
        (header.length + (untilZero (wire sizeByte labels)).length + 1)) := by
  have atMost : (untilZero (wire sizeByte labels)).length ≤
      (wire sizeByte labels).length := (List.takeWhile_prefix _).length_le
  have room : (untilZero (wire sizeByte labels ++ 0 :: rest)).length < dnsDomainLen := by
    rw [untilZero_append_zero]
    omega
  have read := readName_eq header (wire sizeByte labels ++ 0 :: rest) [] room inRange
  rw [untilZero_append_zero, nil_append] at read
  unfold parseQueriesName queryPacket
  rw [read]
  generalize untilZero (wire sizeByte labels) = name at *
  dsimp only
  split
  · have fits : name.length ≤ dnsDomainLen := by omega
    simpa using swapLoop_eq [] name [] fits
  next outside =>
    have single : name.length ≤ 1 := by
      simp only [dnsDomainLenMin] at outside
      omega
    have same : name.reverse = name := by
      match name, single with
      | [], _ => rfl
      | [_], _ => rfl
    rw [same]

/-- A name that a query may ask for. -/
structure ValidName (labels : List (List Byte)) : Prop where
  label : ∀ label ∈ labels, 1 ≤ label.length ∧ label.length ≤ 63
  short : (wire sizeByte labels).length < dnsDomainLen

theorem queryResult_queryPacket (headers : header.length = dnsQryOff isIpv4)
    (valid : ValidName labels) :
    queryResult maps (queryPacket header labels rest) (BitVec.ofNat 8 (dnsQryOff isIpv4))
      uid appuid =
        some (lookupName maps (untilZero (wire sizeByte labels)).reverse uid appuid) := by
  have small : header.length ≤ 60 := by
    rw [headers]
    cases isIpv4 <;> decide
  have parsed := parseQueriesName_queryPacket rest valid.short
    (show header.length + 128 ≤ 256 by omega)
  have atMost : (untilZero (wire sizeByte labels)).length < 128 :=
    (List.takeWhile_prefix _).length_le.trans_lt valid.short
  unfold queryResult
  rw [← headers, parsed]
  dsimp only
  rw [if_neg]
  intro zero
  have value := congrArg BitVec.toNat zero
  rw [BitVec.toNat_ofNat, Nat.mod_eq_of_lt (by omega)] at value
  simp at value

/-! ## Hits -/

/-- The key of a domain of a rule lies before the name of a query, for its user and its
application or none. The key of an empty domain lies before every name. -/
def Reaches (rule : NetFirewallDomainRule) (param : NetFirewallDomainParam) (uid appuid : BitVec 32)
    (labels : List (List Byte)) : Prop :=
  param.domain = [] ∨ rule.userId = uid ∧ (rule.appUid = appuid ∨ rule.appUid = 0) ∧
      wireName param.domain <:+ untilZero (wire sizeByte labels)

theorem reaches_iff (rule : NetFirewallDomainRule)
    (fits : (wireName param.domain).length ≤ dnsDomainLen) (uid appuid : BitVec 32)
    (labels : List (List Byte)) :
    let name := (untilZero (wire sizeByte labels)).reverse
    let key := (ruleKey rule param).prefixBytes
    (key <+: (queryKey name uid appuid).prefixBytes ∨
      key <+: (queryKey name uid 0).prefixBytes) ↔ Reaches rule param uid appuid labels := by
  intro name key
  unfold Reaches
  by_cases empty : param.domain = []
  · simp [key, prefixBytes_ruleKey_of_nil rule empty, empty]
  · simp only [key, name, prefixBytes_ruleKey rule empty fits, prefixBytes_queryKey,
      owner_prefix_iff, reverse_prefix, empty, false_or]
    tauto

/-- A domain of a list of rules whose key the map of one kind holds. -/
structure Held (verdict : Verdict) (ruleList : List NetFirewallDomainRule)
    (rule : NetFirewallDomainRule)
    (param : NetFirewallDomainParam) : Prop where
  rule_mem : rule ∈ ruleList
  kind : rule.ruleAction = verdict.action
  param_mem : param ∈ rule.domains
  held : (ruleKey rule param).prefixBytes ∈ heldKeys verdict ruleList

theorem mem_heldKeys_iff {verdict : Verdict} :
    key ∈ heldKeys verdict ruleList ↔
      ∃ rule param, Held verdict ruleList rule param ∧ (ruleKey rule param).prefixBytes = key := by
  constructor
  · intro held
    have written : key ∈ writtenKeys verdict ruleList := mem_of_mem_firstKeys held
    obtain ⟨rule, ruleMember, keyMember⟩ := mem_flatMap.mp written
    split at keyMember
    next kind =>
      obtain ⟨param, paramMember, rfl⟩ := mem_map.mp keyMember
      exact ⟨rule, param, ⟨ruleMember, kind, paramMember, held⟩, rfl⟩
    · cases keyMember
  · rintro ⟨rule, param, held, rfl⟩
    exact held.held

theorem hit_lookupName :
    verdict.hit (lookupName maps name uid appuid) =
      ((queryKey name uid appuid).found (verdict.table maps) ||
        (queryKey name uid 0).found (verdict.table maps)) := by
  cases verdict <;> rfl

/-- A query hits a kind of rules exactly when the map holds a domain that reaches its
name. -/
theorem hit_iff (installed : ruleList ≠ [] ∨ maps = {})
    (fits : ∀ rule ∈ ruleList, ∀ param ∈ rule.domains,
      (wireName param.domain).length ≤ dnsDomainLen) :
    verdict.hit (lookupName (maps.setFirewallDomainRules ruleList)
      (untilZero (wire sizeByte labels)).reverse uid appuid) = true ↔
        ∃ rule param, Held verdict ruleList rule param ∧ Reaches rule param uid appuid labels := by
  rw [hit_lookupName, Bool.or_eq_true_iff, found_iff verdict installed, found_iff verdict installed]
  constructor
  · rintro (⟨key, member, covers⟩ | ⟨key, member, covers⟩) <;>
    obtain ⟨rule, param, held, rfl⟩ := mem_heldKeys_iff.mp member <;>
    have reaches := reaches_iff rule (fits rule held.rule_mem param held.param_mem)
      uid appuid labels
    · exact ⟨rule, param, held, reaches.mp (.inl covers)⟩
    · exact ⟨rule, param, held, reaches.mp (.inr covers)⟩
  · rintro ⟨rule, param, held, reached⟩
    have reaches := reaches_iff rule (fits rule held.rule_mem param held.param_mem)
      uid appuid labels
    exact (reaches.mpr reached).imp (fun covers => ⟨_, held.held, covers⟩)
      fun covers => ⟨_, held.held, covers⟩

theorem untilZero_wire (valid : ValidName labels) (noZero : ∀ label ∈ labels, (0 : Byte) ∉ label) :
    untilZero (wire sizeByte labels) = wire sizeByte labels := by
  refine takeWhile_eq_self_iff.mpr fun byte member => decide_eq_true ?_
  obtain ⟨label, labelMember, byteMember⟩ := mem_flatMap.mp member
  rintro rfl
  obtain size | letter := mem_cons.mp byteMember
  · have value := congrArg BitVec.toNat size
    have bounds := valid.label label labelMember
    have zero : BitVec.toNat (0 : Byte) = 0 := rfl
    rw [sizeByte, BitVec.toNat_ofNat] at value
    omega
  · exact noZero label labelMember letter

theorem length_le_length_wire (member : label ∈ labels) :
    label.length < (wire sizeByte labels).length := by
  obtain ⟨before, after, rfl⟩ := append_of_mem member
  simp [wire]
  omega

/-- In terms of labels: if no length of the domain is a byte of the name and the name
has no zero byte, then a domain reaches the names that end with its labels. Whether the
domain is a wildcard makes no difference. -/
theorem reaches_iff_suffix (fits : (wireName param.domain).length ≤ dnsDomainLen)
    (valid : ValidName labels) (noZero : ∀ label ∈ labels, (0 : Byte) ∉ label)
    (clean : ∀ part ∈ storedLabels param.domain, ∀ label ∈ labels, sizeByte part.length ∉ label) :
    Reaches rule param uid appuid labels ↔ param.domain = [] ∨
        rule.userId = uid ∧ (rule.appUid = appuid ∨ rule.appUid = 0) ∧
          storedLabels param.domain <:+ labels := by
  have apart : ∀ part ∈ storedLabels param.domain, ∀ label ∈ labels,
      sizeByte part.length = sizeByte label.length → part.length = label.length := by
    intro part partMember label labelMember same
    have partShort : part.length < 128 := (length_le_length_wire partMember).trans_le fits
    have labelShort := (valid.label label labelMember).2
    have value := congrArg BitVec.toNat same
    simp only [sizeByte, BitVec.toNat_ofNat] at value
    rwa [Nat.mod_eq_of_lt (by omega), Nat.mod_eq_of_lt (by omega)] at value
  unfold Reaches wireName
  rw [untilZero_wire valid noZero, wire_suffix_iff apart clean]

/-! ## What the rules mean -/

/-- A domain of a rule covers a name: a plain domain the name itself, and a wildcard
domain `*.s` the names below `s`. -/
def NetFirewallDomainParam.Covers (param : NetFirewallDomainParam)
    (labels : List (List Byte)) : Prop :=
  if param.isWildcard then
    let base := (param.domain.drop 2).splitOn dot
    [asterisk, dot] <+: param.domain ∧ base <:+ labels ∧ base ≠ labels
  else param.domain.splitOn dot = labels
deriving Decidable

/-- A rule of one kind covers a name for a user and an application. -/
def Covered (verdict : Verdict) (ruleList : List NetFirewallDomainRule) (uid appuid : BitVec 32)
    (labels : List (List Byte)) : Prop :=
  ∃ rule ∈ ruleList, rule.ruleAction = verdict.action ∧ rule.userId = uid ∧
    (rule.appUid = appuid ∨ rule.appUid = 0) ∧ ∃ param ∈ rule.domains, param.Covers labels
deriving Decidable

variable (verdict : Verdict) (ruleList : List NetFirewallDomainRule) (uid appuid : BitVec 32)

/-- The rule is for the user, and for the application or for all. -/
def NetFirewallDomainRule.IsFor (rule : NetFirewallDomainRule) (uid appuid : BitVec 32) : Prop :=
  rule.userId = uid ∧ (rule.appUid = appuid ∨ rule.appUid = 0)

/-- A plain domain, or `*.s`, from which nothing but this asterisk and its dot is dropped. -/
def NetFirewallDomainParam.Regular (param : NetFirewallDomainParam) : Prop :=
  if param.isWildcard then
    [asterisk, dot] <+: param.domain ∧ storedLabels param.domain = (param.domain.drop 2).splitOn dot
  else storedLabels param.domain = param.domain.splitOn dot

def NoZero (labels : List (List Byte)) : Prop := ∀ label ∈ labels, (0 : Byte) ∉ label

/-- The domain is found for a name, as it is meant. -/
def NetFirewallDomainParam.FoundAsMeant (param : NetFirewallDomainParam)
    (labels : List (List Byte)) : Prop :=
  NoZero labels ∧ storedLabels param.domain <:+ labels ∧ param.Regular ∧
    (storedLabels param.domain = labels ↔ ¬ param.isWildcard)

/-- The domain is found for a name because the name is read up to a zero byte in it, or the
length of a label is taken for a letter, or asterisks are dropped, or because `isWildcard` is
not looked at: for a name below a plain domain, or for the `s` of `*.s`. -/
def NetFirewallDomainParam.Misread (param : NetFirewallDomainParam)
    (labels : List (List Byte)) : Prop :=
  wireName param.domain <:+ untilZero (wire sizeByte labels) ∧
    (¬ NoZero labels ∨ ¬ storedLabels param.domain <:+ labels ∨ ¬ param.Regular ∨
      (storedLabels param.domain = labels ↔ param.isWildcard))

/-- A held domain is found for the name, as it is meant. -/
def Found (labels : List (List Byte)) : Prop :=
  ∃ rule param, Held verdict ruleList rule param ∧ rule.IsFor uid appuid ∧
    param.FoundAsMeant labels

/-- A held domain is empty, or found for a name that it is not meant for. -/
def Misfound (labels : List (List Byte)) : Prop :=
  ∃ rule param, Held verdict ruleList rule param ∧
    (param.domain = [] ∨ rule.IsFor uid appuid ∧ param.Misread labels)

/-- A domain is meant for the name, and its key has no room in the map, or asterisks are
dropped from it, or the name has a zero byte. -/
def Lost (labels : List (List Byte)) : Prop :=
  ∃ rule ∈ ruleList, rule.ruleAction = verdict.action ∧ rule.IsFor uid appuid ∧
    ∃ param ∈ rule.domains, param.Covers labels ∧
      ((ruleKey rule param).prefixBytes ∉ heldKeys verdict ruleList ∨ ¬ param.Regular ∨
        ¬ NoZero labels)

section

variable {labels : List (List Byte)}

theorem covers_iff_foundAsMeant (regular : param.Regular) (noZero : NoZero labels) :
    param.Covers labels ↔ param.FoundAsMeant labels := by
  unfold NetFirewallDomainParam.FoundAsMeant NetFirewallDomainParam.Covers
  rw [and_iff_right noZero, and_iff_right regular]
  unfold NetFirewallDomainParam.Regular at regular
  split at regular
  next wildcard => simp [wildcard, regular]
  next plain =>
    rw [if_neg plain, regular, iff_true_right plain]
    exact ⟨fun same => ⟨same ▸ suffix_rfl, same⟩, And.right⟩

/-- A domain that reaches a name is found as it is meant, or misread. -/
theorem reaches_iff_foundAsMeant (valid : ValidName labels) :
    Reaches rule param uid appuid labels ↔ param.domain = [] ∨
      rule.IsFor uid appuid ∧ (param.FoundAsMeant labels ∨ param.Misread labels) := by
  have found : param.FoundAsMeant labels →
      wireName param.domain <:+ untilZero (wire sizeByte labels) := by
    rintro ⟨noZero, ⟨before, rfl⟩, -⟩
    rw [untilZero_wire valid noZero]
    exact ⟨wire sizeByte before, by simp [wireName, wire]⟩
  have ends : wireName param.domain <:+ untilZero (wire sizeByte labels) ↔
      param.FoundAsMeant labels ∨ param.Misread labels := by
    constructor
    · intro ends
      by_cases meant : param.FoundAsMeant labels
      · exact .inl meant
      · refine .inr ⟨ends, ?_⟩
        unfold NetFirewallDomainParam.FoundAsMeant at meant
        tauto
    · rintro (meant | misread)
      · exact found meant
      · exact misread.1
  unfold Reaches NetFirewallDomainRule.IsFor
  rw [ends, and_assoc]

theorem covered_iff_found_or_lost :
    Covered verdict ruleList uid appuid labels ↔
      Found verdict ruleList uid appuid labels ∨ Lost verdict ruleList uid appuid labels := by
  constructor
  · rintro ⟨rule, member, kind, user, application, param, paramMember, covers⟩
    by_cases kept : (ruleKey rule param).prefixBytes ∈ heldKeys verdict ruleList ∧
        param.Regular ∧ NoZero labels
    · obtain ⟨held, regular, noZero⟩ := kept
      exact .inl ⟨rule, param, ⟨member, kind, paramMember, held⟩, ⟨user, application⟩,
        (covers_iff_foundAsMeant regular noZero).mp covers⟩
    · exact .inr ⟨rule, member, kind, ⟨user, application⟩, param, paramMember, covers, by tauto⟩
  · rintro (⟨rule, param, held, isFor, found⟩ | ⟨rule, member, kind, isFor, param, inRule, covers, -⟩)
    · exact ⟨rule, held.rule_mem, held.kind, isFor.1, isFor.2, param, held.param_mem,
        (covers_iff_foundAsMeant found.2.2.1 found.1).mpr found⟩
    · exact ⟨rule, member, kind, isFor.1, isFor.2, param, inRule, covers⟩

end

/-- A packet hits the rules of one kind exactly when one of them covers its name, if
and only if a held domain is found as it is meant, or domains are found for a name that they
are not meant for and lost at the same time or not at all. The service clears the maps before it
installs rules, so an empty list finds them empty. -/
theorem hit_iff_covered_iff {maps : DomainMaps} {ruleList : List NetFirewallDomainRule}
    (installed : ruleList ≠ [] ∨ maps = {})
    (fits : ∀ rule ∈ ruleList, ∀ param ∈ rule.domains,
      (wireName param.domain).length ≤ dnsDomainLen)
    {isIpv4 : Bool} {header : List Byte} (headers : header.length = dnsQryOff isIpv4)
    {labels : List (List Byte)} (valid : ValidName labels) (rest : List Byte)
    (uid appuid : BitVec 32) :
    ((queryResult (maps.setFirewallDomainRules ruleList) (queryPacket header labels rest)
      (BitVec.ofNat 8 (dnsQryOff isIpv4)) uid appuid).any (verdict.hit ·) = true ↔
        Covered verdict ruleList uid appuid labels) ↔
      (Found verdict ruleList uid appuid labels ∨
        (Misfound verdict ruleList uid appuid labels ↔
          Lost verdict ruleList uid appuid labels)) := by
  have reached : (∃ rule param, Held verdict ruleList rule param ∧
      Reaches rule param uid appuid labels) ↔
        Found verdict ruleList uid appuid labels ∨
          Misfound verdict ruleList uid appuid labels := by
    unfold Found Misfound
    simp only [reaches_iff_foundAsMeant _ _ _ valid, ← exists_or]
    refine exists_congr fun rule => exists_congr fun param => ?_
    tauto
  rw [queryResult_queryPacket headers valid, Option.any_some, hit_iff verdict installed fits,
    reached, covered_iff_found_or_lost]
  tauto

/-- `a.b`. -/
def plainDomain : NetFirewallDomainParam where
  isWildcard := false
  domain := [97, 46, 98]

/-- A rule of user 100 that denies domains. -/
def denyRule (domains : List NetFirewallDomainParam) : NetFirewallDomainRule where
  userId := 100
  appUid := 0
  ruleAction := .ruleDeny
  domains := domains

/-- A rule for `a.b` and a query for `a.b`. -/
theorem hit_iff_covered_same :
    (queryResult (setFirewallDomainRules {} [denyRule [plainDomain]])
      (queryPacket (List.replicate 40 0) [[97], [98]] []) (BitVec.ofNat 8 (dnsQryOff true))
        100 7).any (Verdict.deny.hit ·) = true ↔
      Covered .deny [denyRule [plainDomain]] 100 7 [[97], [98]] := by
  refine (hit_iff_covered_iff .deny (.inr rfl) ?_ rfl ?_ [] 100 7).mpr (.inl ?_)
  · decide
  · exact ⟨by decide, by decide⟩
  · exact ⟨denyRule [plainDomain], plainDomain, ⟨by simp, rfl, mem_cons_self, by decide⟩,
      ⟨rfl, .inr rfl⟩, by unfold NoZero; decide, by decide,
      by unfold NetFirewallDomainParam.Regular; decide, by decide⟩

/-- `*.a.b`. -/
def wildcardDomain : NetFirewallDomainParam where
  isWildcard := true
  domain := [42, 46, 97, 46, 98]

/-- A label of 51 letters, and a domain with it. The byte of its length is `'3'`. -/
def longDomain : NetFirewallDomainParam where
  isWildcard := false
  domain := List.replicate 51 97 ++ [46, 98]

/-- A plain domain reaches the names below it, a wildcard domain reaches its own name,
and a domain reaches a sibling that has the length as a letter in front. -/
theorem not_hit_iff_covered :
    ¬((queryResult (setFirewallDomainRules {} [denyRule [plainDomain]])
      (queryPacket (List.replicate 40 0) [[99], [97], [98]] [])
        (BitVec.ofNat 8 (dnsQryOff true)) 100 7).any (Verdict.deny.hit ·) = true ↔
      Covered .deny [denyRule [plainDomain]] 100 7 [[99], [97], [98]]) ∧
    ¬((queryResult (setFirewallDomainRules {} [denyRule [wildcardDomain]])
      (queryPacket (List.replicate 40 0) [[97], [98]] [])
        (BitVec.ofNat 8 (dnsQryOff true)) 100 7).any (Verdict.deny.hit ·) = true ↔
      Covered .deny [denyRule [wildcardDomain]] 100 7 [[97], [98]]) ∧
    ¬((queryResult (setFirewallDomainRules {} [denyRule [longDomain]])
      (queryPacket (List.replicate 40 0) [51 :: List.replicate 51 97, [98]] [])
        (BitVec.ofNat 8 (dnsQryOff true)) 100 7).any (Verdict.deny.hit ·) = true ↔
      Covered .deny [denyRule [longDomain]] 100 7 [51 :: List.replicate 51 97, [98]]) := by
  decide +kernel

/-- A packet hits where its name ends with the labels of a held domain, wildcard or not. -/
theorem hit_queryPacket_iff (installed : ruleList ≠ [] ∨ maps = {})
    (fits : ∀ rule ∈ ruleList, ∀ param ∈ rule.domains,
      (wireName param.domain).length ≤ dnsDomainLen)
    (headers : header.length = dnsQryOff isIpv4) (valid : ValidName labels)
    (noZero : ∀ label ∈ labels, (0 : Byte) ∉ label)
    (clean : ∀ rule ∈ ruleList, ∀ param ∈ rule.domains, ∀ part ∈ storedLabels param.domain,
      ∀ label ∈ labels, sizeByte part.length ∉ label) :
    (queryResult (maps.setFirewallDomainRules ruleList) (queryPacket header labels rest)
      (BitVec.ofNat 8 (dnsQryOff isIpv4)) uid appuid).any (verdict.hit ·) = true ↔
        ∃ rule param, Held verdict ruleList rule param ∧ (param.domain = [] ∨
          rule.userId = uid ∧ (rule.appUid = appuid ∨ rule.appUid = 0) ∧
            storedLabels param.domain <:+ labels) := by
  rw [queryResult_queryPacket headers valid, Option.any_some, hit_iff verdict installed fits]
  refine exists_congr fun rule => exists_congr fun param => and_congr_right fun held => ?_
  apply reaches_iff_suffix
  · exact fits rule held.rule_mem param held.param_mem
  · exact valid
  · exact noZero
  · exact clean rule held.rule_mem param held.param_mem

theorem hit_queryPacket_below :
    (queryResult (setFirewallDomainRules {} [denyRule [plainDomain]])
      (queryPacket (List.replicate 40 0) [[99], [97], [98]] [])
        (BitVec.ofNat 8 (dnsQryOff true)) 100 7).any (Verdict.deny.hit ·) = true :=
  (hit_queryPacket_iff .deny _ 100 7 (.inr rfl) (by decide) rfl ⟨by decide, by decide⟩
    (by decide) (by decide)).mpr ⟨_, plainDomain, ⟨mem_cons_self, rfl, mem_cons_self, by decide⟩,
      .inr ⟨rfl, .inr rfl, by decide⟩⟩

end NetManager.Firewall
