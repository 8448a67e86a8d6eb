import NetManager.Firewall.DomainMatch

/-!
# Domains that have a key of their own

`GetDomainHashKey` returns nothing. When the labels of a domain do not fit into the
key it leaves a key of prefix length 0, and `SetFirewallDomainRules` writes this key
like any other. `writesOnlyComplete_iff` says which lists of rules write no such key.
`DecodeDomainFromKey` reads the domain back from a key.
-/

namespace NetManager.Firewall

open List Labels DomainMaps

variable (domain : List Byte)

/-- `GetDomainHashKey` reaches its last line. -/
def EncodedCompletely : Prop :=
  domain ≠ [] ∧ (appendTokens [] (tokens (domain.reverse.filter (· ≠ asterisk)))).2 = true
deriving Decidable

variable (verdict : Verdict)

/-- The calls of `WriteBpfMap` for the rules of one kind, in order: the domain and its
key. -/
def writes (ruleList : List NetFirewallDomainRule) : List (List Byte × DomainHashKey) :=
  ruleList.flatMap fun rule =>
    if rule.ruleAction = verdict.action then
      rule.domains.map fun param => (param.domain, ruleKey rule param)
    else []

theorem map_prefixBytes_writes :
    (writes verdict ruleList).map (fun write => write.2.prefixBytes) =
      writtenKeys verdict ruleList := by
  unfold writes writtenKeys
  rw [map_flatMap]
  congr 1
  funext rule
  split
  · rw [map_map]
    rfl
  · rfl

variable {ruleList : List NetFirewallDomainRule}

/-- The map of one kind is what these calls leave of an empty one. -/
theorem table_eq_foldl_writes {maps : DomainMaps} (installed : ruleList ≠ [] ∨ maps = {}) :
    verdict.table (maps.setFirewallDomainRules ruleList) =
      (writes verdict ruleList).foldl
        (fun table write => writeBpfMap table write.2) [] := by
  rw [table_setFirewallDomainRules verdict installed, ← map_prefixBytes_writes,
    map_map, BoundedTable.boundedWriteAll, foldl_map]
  rfl

/-! ## The length of a key -/

theorem appendTokens_snd_iff (fits : written.length ≤ dnsDomainLen) :
    (appendTokens written parts).2 = true ↔
      written.length + (trailed sizeByte parts).length ≤ dnsDomainLen := by
  constructor
  · intro finished
    induction parts generalizing written with
    | nil => simpa [trailed] using fits
    | cons part parts ih =>
      have length := length_trailed_cons sizeByte part parts
      unfold appendTokens at finished
      split at finished
      next full => exact absurd finished Bool.false_ne_true
      next room =>
        have rest := ih (by simp; omega) finished
        simp only [length_append, length_singleton] at rest
        omega
  · intro room
    rw [appendTokens_eq room]

/-- The number of bytes of a domain in a key: its letters other than asterisks, and one
more unless the first of them is a dot. -/
def storedLength : Nat :=
  let text := domain.filter (· ≠ asterisk)
  if text.head? = some dot then text.length else text.length + 1

theorem length_wireName : (wireName domain).length = storedLength domain := by
  unfold wireName storedLabels storedLength
  generalize domain.filter (· ≠ asterisk) = text
  have whole := length_wire_splitOn sizeByte dot text
  cases text with
  | nil => rfl
  | cons letter text =>
    simp only [head?_splitOn_cons, head?_cons, Option.some.injEq]
    by_cases dotted : letter = dot
    · have parts : (letter :: text).splitOn dot = [] :: text.splitOn dot := by
        rw [splitOn_cons_eq_if_modifyHead, if_pos (beq_iff_eq.mpr dotted)]
      have several : ([] :: text.splitOn dot).length ≠ 1 := by
        simp [splitOn_ne_nil]
      rw [parts, length_wire_cons, length_nil] at whole
      rw [parts, if_neg several, if_pos dotted, if_pos dotted, tail_cons]
      omega
    · rw [if_neg dotted, if_neg dotted, ite_self]
      exact whole

theorem encodedCompletely_iff :
    EncodedCompletely domain ↔ domain ≠ [] ∧ storedLength domain ≤ dnsDomainLen := by
  unfold EncodedCompletely
  rw [appendTokens_snd_iff (Nat.zero_le _), trailed_tokens, length_reverse,
    length_wireName, length_nil, Nat.zero_add]

/-- The key of such a domain has the user and the application, and no other key does. -/
theorem prefixlen_ruleKey_iff :
    (4 + 4) * 8 ≤ (ruleKey rule param).prefixlen ↔ EncodedCompletely param.domain := by
  unfold ruleKey getDomainHashKey EncodedCompletely
  split
  next empty => simp [List.isEmpty_iff.mp empty]
  next nonempty =>
    have isNonempty : param.domain ≠ [] := by simpa using nonempty
    dsimp only
    split
    next finished =>
      simp only [isNonempty, finished, ne_eq, not_false_eq_true, and_self, iff_true]
      omega
    next early =>
      exact iff_of_false (Nat.not_succ_le_zero 63) fun encoded => early encoded.2

/-! ## What is written -/

/-- Every key that is written belongs to a domain that was encoded completely, and has
the user and the application in its prefix. -/
def WritesOnlyComplete (ruleList : List NetFirewallDomainRule) : Prop :=
  ∀ verdict, ∀ write ∈ writes verdict ruleList,
    EncodedCompletely write.1 ∧ (4 + 4) * 8 ≤ write.2.prefixlen

theorem mem_writes_iff :
    (∃ verdict, write ∈ writes verdict ruleList) ↔
      ∃ rule ∈ ruleList, (rule.ruleAction = .ruleAllow ∨ rule.ruleAction = .ruleDeny) ∧
        ∃ param ∈ rule.domains, (param.domain, ruleKey rule param) = write := by
  have unfolded verdict : write ∈ writes verdict ruleList ↔
      ∃ rule ∈ ruleList, rule.ruleAction = verdict.action ∧
        ∃ param ∈ rule.domains, (param.domain, ruleKey rule param) = write := by
    unfold writes
    rw [mem_flatMap]
    refine exists_congr fun rule => and_congr_right fun _ => ?_
    split
    next acts => simp [acts]
    next other => simp [other]
  constructor
  · rintro ⟨verdict, member⟩
    obtain ⟨rule, inList, acts, written⟩ := (unfolded verdict).mp member
    refine ⟨rule, inList, ?_, written⟩
    cases verdict with
    | allow => exact .inl acts
    | deny => exact .inr acts
  · rintro ⟨rule, inList, allows | denies, written⟩
    · exact ⟨.allow, (unfolded .allow).mpr ⟨rule, inList, allows, written⟩⟩
    · exact ⟨.deny, (unfolded .deny).mpr ⟨rule, inList, denies, written⟩⟩

/-- Exactly the lists whose domains fit into a key write complete keys only. -/
theorem writesOnlyComplete_iff (ruleList : List NetFirewallDomainRule) :
    WritesOnlyComplete ruleList ↔
      ∀ rule ∈ ruleList, rule.ruleAction = .ruleAllow ∨ rule.ruleAction = .ruleDeny →
        ∀ param ∈ rule.domains, param.domain ≠ [] ∧ storedLength param.domain ≤ dnsDomainLen := by
  constructor
  · intro complete rule inList acts param ofRule
    obtain ⟨verdict, member⟩ := mem_writes_iff.mpr ⟨rule, inList, acts, param, ofRule, rfl⟩
    exact (encodedCompletely_iff param.domain).mp (complete verdict _ member).1
  · intro fits verdict write member
    obtain ⟨rule, inList, acts, param, ofRule, rfl⟩ := mem_writes_iff.mp ⟨verdict, member⟩
    have encoded := (encodedCompletely_iff param.domain).mpr (fits rule inList acts param ofRule)
    exact ⟨encoded, prefixlen_ruleKey_iff.mpr encoded⟩

/-- A name of 131 letters in three labels. -/
def threeLabels : NetFirewallDomainParam where
  isWildcard := false
  domain := List.replicate 63 97 ++ 46 :: List.replicate 63 98 ++ [46, 99, 111, 109]

/-- A denied name that does not fit denies the names of another user. -/
theorem not_writesOnlyComplete_threeLabels :
    threeLabels.domain.length = 131 ∧ ¬ WritesOnlyComplete [denyRule [threeLabels]] ∧
      parseDnsQuery (setFirewallDomainRules {} [denyRule [threeLabels]])
        (queryPacket (List.replicate 40 0) [[97], [98]] []) (BitVec.ofNat 8 (dnsQryOff true))
        1 101 7 .pass = true := by
  refine ⟨by decide +kernel, fun complete => ?_, by decide +kernel⟩
  obtain ⟨encoded, -⟩ := complete .deny (threeLabels.domain,
    ruleKey (denyRule [threeLabels]) threeLabels) mem_cons_self
  exact absurd encoded (by decide +kernel)

/-! ## Back to the domain -/

theorem intercalate_dot (label : List Byte) :
    List.intercalate [dot] (label :: labels) = label ++ labels.flatMap (dot :: ·) := by
  induction labels generalizing label with
  | nil => simp
  | cons next labels ih =>
    have tail := ih next
    rw [intercalate_cons_cons, tail]
    simp

variable {labels : List (List Byte)}

theorem decodeLabels_wire_cons (size : 1 ≤ label.length ∧ label.length ≤ 63) (domain : List Byte) :
    decodeLabels (wire sizeByte (label :: labels)) isFirst domain =
      decodeLabels (wire sizeByte labels) false
        ((if isFirst then domain else domain ++ [dot]) ++ label) := by
  have value : (sizeByte label.length).toNat = label.length := by
    rw [sizeByte, BitVec.toNat_ofNat, Nat.mod_eq_of_lt (by omega)]
  have nonzero : sizeByte label.length ≠ 0 := by
    intro zero
    rw [zero] at value
    have zero : (0 : Byte).toNat = 0 := rfl
    omega
  have split : wire sizeByte (label :: labels) =
      sizeByte label.length :: (label ++ wire sizeByte labels) := rfl
  rw [split, decodeLabels, if_neg nonzero, value, if_neg (by simp), drop_left, take_left]

theorem decodeLabels_wire
    (sizes : ∀ label ∈ labels, 1 ≤ label.length ∧ label.length ≤ 63) (domain : List Byte) :
    decodeLabels (wire sizeByte labels) false domain = domain ++ labels.flatMap (dot :: ·) := by
  induction labels generalizing domain with
  | nil => simp [wire, decodeLabels]
  | cons label labels ih =>
    obtain ⟨size, others⟩ := forall_mem_cons.mp sizes
    rw [decodeLabels_wire_cons size, ih others]
    simp

theorem storedLabels_intercalate (nonempty : labels ≠ [])
    (letters : ∀ label ∈ labels, label ≠ [] ∧ dot ∉ label ∧ asterisk ∉ label) :
    storedLabels (List.intercalate [dot] labels) = labels := by
  obtain ⟨first, rest, rfl⟩ := exists_cons_of_ne_nil nonempty
  have noAsterisk : (List.intercalate [dot] (first :: rest)).filter (· ≠ asterisk) =
      List.intercalate [dot] (first :: rest) := by
    refine filter_eq_self.mpr fun letter member => decide_eq_true ?_
    rintro rfl
    rw [intercalate_dot, mem_append, mem_flatMap] at member
    obtain inFirst | ⟨label, inRest, inLabel⟩ := member
    · exact (letters first mem_cons_self).2.2 inFirst
    · obtain isDot | inLabel := mem_cons.mp inLabel
      · exact absurd isDot (by decide)
      · exact (letters label (mem_cons_of_mem _ inRest)).2.2 inLabel
  have parts : (List.intercalate [dot] (first :: rest)).splitOn dot = first :: rest :=
    splitOn_intercalate _ (fun label member => (letters label member).2.1) nonempty
  have headed : ¬ (first :: rest).head? = some [] := by
    rw [head?_cons, Option.some.injEq]
    exact (letters first mem_cons_self).1
  unfold storedLabels
  rw [noAsterisk, parts]
  dsimp only
  rw [if_neg headed, ite_self]

/-- The key of a name that fits is decoded to the name. -/
theorem decodeDomainFromKey_getDomainHashKey {labels : List (List Byte)} (nonempty : labels ≠ [])
    (sizes : ∀ label ∈ labels, 1 ≤ label.length ∧ label.length ≤ 63)
    (letters : ∀ label ∈ labels, dot ∉ label ∧ asterisk ∉ label)
    (fits : (wire sizeByte labels).length ≤ dnsDomainLen) :
    decodeDomainFromKey (getDomainHashKey (List.intercalate [dot] labels)) =
      List.intercalate [dot] labels := by
  have stored := storedLabels_intercalate nonempty fun label member =>
    ⟨ne_nil_of_length_pos (sizes label member).1, letters label member⟩
  obtain ⟨first, rest, rfl⟩ := exists_cons_of_ne_nil nonempty
  have name : wireName (List.intercalate [dot] (first :: rest)) =
      wire sizeByte (first :: rest) := by
    rw [wireName, stored]
  have firstNonempty := ne_nil_of_length_pos (sizes first mem_cons_self).1
  have isNonempty : List.intercalate [dot] (first :: rest) ≠ [] := by
    simp [intercalate_dot, firstNonempty]
  rw [getDomainHashKey_eq isNonempty (by rwa [name]), name]
  have bytes : ((4 + 4 + (wire sizeByte (first :: rest)).reverse.length) * 8 - (4 + 4) * 8) / 8 =
      (wire sizeByte (first :: rest)).reverse.length := by omega
  have positive : 0 < (wire sizeByte (first :: rest)).length := by
    rw [length_wire_cons]
    omega
  unfold decodeDomainFromKey padded
  dsimp only
  rw [bytes, if_neg (by omega), if_neg (by rw [length_reverse, dnsDomainLenMin]; omega),
    Nat.min_eq_left (by rwa [length_reverse]), take_left, reverse_reverse,
    decodeLabels_wire_cons (sizes first mem_cons_self),
    decodeLabels_wire (forall_mem_cons.mp sizes).2, intercalate_dot]
  rfl

/-- `www.example`. -/
theorem decodeDomainFromKey_www :
    decodeDomainFromKey (getDomainHashKey
      (List.intercalate [dot] [[119, 119, 119], [101, 120, 97, 109, 112, 108, 101]])) =
        [119, 119, 119, 46, 101, 120, 97, 109, 112, 108, 101] :=
  decodeDomainFromKey_getDomainHashKey (by decide) (by decide) (by decide) (by decide)

end NetManager.Firewall
