import NetManager.Policy.File

/-!
# Reading the policy file back

The document of `Obj2Json` is understood by `Json2Obj`: a new object that reads
it holds the same policies. Lists of chains are compared through what
`ReadFirewallRules` returns, since a chain without users leaves no entry.
-/

namespace NetManager.Policy

open List Std

namespace NetPolicy

/-- The same policies for every reader. -/
structure Same (first second : NetPolicy) : Prop where
  hosVersion : first.hosVersion = second.hosVersion
  uidPolicies : first.uidPolicies = second.uidPolicies
  backgroundPolicyStatus : first.backgroundPolicyStatus = second.backgroundPolicyStatus
  netQuotaPolicies : first.netQuotaPolicies = second.netQuotaPolicies
  firewallRules : ∀ chainType,
    first.readFirewallRules chainType = second.readFirewallRules chainType

variable (netPolicy : NetPolicy)

theorem Same.refl : netPolicy.Same netPolicy := ⟨rfl, rfl, rfl, rfl, fun _ => rfl⟩

theorem Same.symm {first second : NetPolicy} (same : first.Same second) : second.Same first where
  hosVersion := same.hosVersion.symm
  uidPolicies := same.uidPolicies.symm
  backgroundPolicyStatus := same.backgroundPolicyStatus.symm
  netQuotaPolicies := same.netQuotaPolicies.symm
  firewallRules chainType := (same.firewallRules chainType).symm

theorem Same.trans {first second third : NetPolicy} (left : first.Same second)
    (right : second.Same third) :
    first.Same third where
  hosVersion := left.hosVersion.trans right.hosVersion
  uidPolicies := left.uidPolicies.trans right.uidPolicies
  backgroundPolicyStatus := left.backgroundPolicyStatus.trans right.backgroundPolicyStatus
  netQuotaPolicies := left.netQuotaPolicies.trans right.netQuotaPolicies
  firewallRules chainType := (left.firewallRules chainType).trans (right.firewallRules chainType)

/-! ## Records -/

theorem mapM_map_eq_some {α β : Type} {write : α → β} {read : β → Option α}
    (reads : ∀ value, read (write value) = some value) (values : List α) :
    (values.map write).mapM read = some values := by
  induction values with
  | nil => rfl
  | cons value values ih => simp [mapM_cons, reads, ih]

@[simp] theorem readUidPolicy_uidPolicyItem (uidPolicy : UidPolicy) :
    readUidPolicy (uidPolicyItem uidPolicy) = some uidPolicy := rfl

@[simp] theorem readQuotaPolicy_quotaPolicyItem (quotaPolicy : NetPolicyQuota) :
    readQuotaPolicy (quotaPolicyItem quotaPolicy) = some quotaPolicy := rfl

theorem readUid_repr (uid : Uid) : readUid (.string uid.toNat.repr) = some uid := by
  simp [readUid, Json.getStringValue]

theorem mapM_readUid_uidArray :
    (Json.items (some (uidArray uids))).mapM readUid = some uids.toList :=
  mapM_map_eq_some readUid_repr uids.toList

/-! ## Chains -/

open NetFirewallRuleList

variable (netFirewallRules : ExtTreeMap (BitVec 32) NetFirewallRuleList)

theorem rulesOf_insert :
    rulesOf (netFirewallRules.insert chainType rules) other =
      if chainType = other then rules else rulesOf netFirewallRules other := by
  simp only [rulesOf, ExtTreeMap.getElem?_insert, LawfulEqCmp.compare_eq_iff_eq]
  split <;> rfl

@[simp] theorem readFirewallRules_touchFirewallRules (chainType other : BitVec 32) :
    (netPolicy.touchFirewallRules chainType).readFirewallRules other =
      netPolicy.readFirewallRules other := by
  simp only [readFirewallRules, rulesOf, touchFirewallRules,
    ExtTreeMap.getElem?_insertIfNew, LawfulEqCmp.compare_eq_iff_eq]
  split
  next isNew =>
    obtain ⟨rfl, absent⟩ := isNew
    rw [ExtTreeMap.getElem?_eq_none absent]
    rfl
  · rfl

theorem mem_rulesOf :
    uid ∈ (rulesOf netFirewallRules chainType).list kind ↔
      ∃ lists : NetFirewallRuleList,
        netFirewallRules[chainType]? = some lists ∧ uid ∈ lists.list kind := by
  unfold rulesOf
  cases netFirewallRules[chainType]? with
  | none => cases kind <;> simp [list]
  | some lists => simp

theorem eq_of_list {first second : NetFirewallRuleList}
    (same : ∀ kind, first.list kind = second.list kind) :
    first = second := by
  have denied : first.deniedList = second.deniedList := same .denied
  have allowed : first.allowedList = second.allowedList := same .allowed
  cases first
  cases second
  simp_all

theorem mem_rulesOf_insertUids :
    uid ∈ (rulesOf (insertUids chainType kind netFirewallRules uids) other).list otherKind ↔
      uid ∈ (rulesOf netFirewallRules other).list otherKind ∨
        chainType = other ∧ kind = otherKind ∧ uid ∈ uids := by
  induction uids generalizing netFirewallRules with
  | nil => simp [insertUids]
  | cons first uids ih =>
    rw [insertUids, foldl_cons, ← insertUids, ih, rulesOf_insert]
    by_cases same : chainType = other
    · subst same
      cases kind <;> cases otherKind <;>
        simp [insertUid, list, ExtTreeSet.mem_insert, @eq_comm _ uid, or_left_comm, or_assoc]
    · simp [same]

theorem parseChain_firewallRuleItem :
    parseChain netFirewallRules (firewallRuleItem rule) =
      some (insertUids rule.1 .allowed
        (insertUids rule.1 .denied netFirewallRules rule.2.deniedList.toList)
        rule.2.allowedList.toList) := by
  have denied : (firewallRuleItem rule).2.getObjectItem "deniedList" =
      some (uidArray rule.2.deniedList) := rfl
  have allowed : (firewallRuleItem rule).2.getObjectItem "allowedList" =
      some (uidArray rule.2.allowedList) := rfl
  rw [parseChain, denied, allowed, mapM_readUid_uidArray, mapM_readUid_uidArray]
  simp [firewallRuleItem]

theorem foldlM_parseChain (rules : List (BitVec 32 × NetFirewallRuleList))
    (netFirewallRules : ExtTreeMap (BitVec 32) NetFirewallRuleList) :
    ∃ read, (rules.map firewallRuleItem).foldlM parseChain netFirewallRules = some read ∧
      ∀ chainType kind uid, uid ∈ (rulesOf read chainType).list kind ↔
        uid ∈ (rulesOf netFirewallRules chainType).list kind ∨
          ∃ lists, (chainType, lists) ∈ rules ∧ uid ∈ lists.list kind := by
  induction rules generalizing netFirewallRules with
  | nil => exact ⟨netFirewallRules, rfl, by simp⟩
  | cons rule rules ih =>
    obtain ⟨chain, lists⟩ := rule
    obtain ⟨read, reads, members⟩ := ih
      (insertUids chain .allowed
        (insertUids chain .denied netFirewallRules lists.deniedList.toList)
        lists.allowedList.toList)
    refine ⟨read, ?_, fun chainType kind uid => ?_⟩
    · rw [map_cons, foldlM_cons, parseChain_firewallRuleItem]
      exact reads
    · rw [members, mem_rulesOf_insertUids, mem_rulesOf_insertUids]
      cases kind <;> simp [list, or_and_right, exists_or, and_assoc, or_assoc, eq_comm]

section

variable (netPolicy base : NetPolicy)

theorem exists_parseFirewallRule (empty : base.netFirewallRules = ∅) :
    ∃ rules, parseFirewallRule netPolicy.obj2Json base =
        some { base with netFirewallRules := rules } ∧
      ∀ chainType, rulesOf rules chainType = rulesOf netPolicy.netFirewallRules chainType := by
  obtain ⟨rules, reads, members⟩ :=
    foldlM_parseChain netPolicy.netFirewallRules.toList base.netFirewallRules
  have item : netPolicy.obj2Json.getObjectItem "firewallList" =
      some (.object (netPolicy.netFirewallRules.toList.map firewallRuleItem)) := rfl
  refine ⟨rules, ?_, fun chainType => ?_⟩
  · simp only [parseFirewallRule, item, reads]
    rfl
  · apply eq_of_list
    intro kind
    apply ExtTreeSet.ext_mem
    intro uid
    rw [members, empty]
    simp [mem_rulesOf, ExtTreeMap.mem_toList_iff_getElem?_eq_some]

theorem parseUidPolicy_obj2Json :
    parseUidPolicy netPolicy.obj2Json base =
      some { base with uidPolicies := base.uidPolicies ++ netPolicy.uidPolicies } := by
  have records : (Json.items (netPolicy.obj2Json.getObjectItem
      "uidPolicy")).mapM readUidPolicy = some netPolicy.uidPolicies :=
    mapM_map_eq_some readUidPolicy_uidPolicyItem _
  rw [parseUidPolicy, records]
  rfl

theorem parseQuotaPolicy_obj2Json : parseQuotaPolicy netPolicy.obj2Json base = some { base with
        netQuotaPolicies := base.netQuotaPolicies ++ netPolicy.netQuotaPolicies } := by
  have records : (Json.items (netPolicy.obj2Json.getObjectItem
      "quotaPolicy")).mapM readQuotaPolicy = some netPolicy.netQuotaPolicies :=
    mapM_map_eq_some readQuotaPolicy_quotaPolicyItem _
  rw [parseQuotaPolicy, records]
  rfl

theorem parseBackgroundPolicy_obj2Json :
    parseBackgroundPolicy netPolicy.obj2Json base =
      some { base with
        backgroundPolicyStatus := netPolicy.backgroundPolicyStatus } := rfl

end

theorem exists_json2Obj :
    ∃ read, json2Obj netPolicy.obj2Json NetPolicyFile.reset = some read ∧ read.Same netPolicy := by
  obtain ⟨rules, reads, same⟩ :=
    exists_parseFirewallRule netPolicy { netPolicy with netFirewallRules := ∅ } rfl
  refine ⟨{ netPolicy with netFirewallRules := rules }, ?_, ⟨rfl, rfl, rfl, rfl, same⟩⟩
  rw [json2Obj]
  simp only [Json.getStringValue, Option.bind_eq_bind, Option.bind_some,
    parseUidPolicy_obj2Json, parseBackgroundPolicy_obj2Json,
    parseQuotaPolicy_obj2Json]
  exact reads

end NetPolicy

/-- A new object that reads a written text holds the written policies. -/
theorem NetPolicyFile.exists_readBack (roundTrips : cjson.RoundTrips) (netPolicy : NetPolicy) :
    ∃ read, readBack cjson (cjson.print netPolicy.obj2Json) = some read ∧ read.Same netPolicy := by
  obtain ⟨read, reads, same⟩ := netPolicy.exists_json2Obj
  refine ⟨read, ?_, same⟩
  have parses := roundTrips.parse_print netPolicy.obj2Json
  have written : (cjson.print netPolicy.obj2Json).isEmpty = false := by
    rw [isEmpty_eq_false_iff]
    intro empty
    rw [empty, roundTrips.parse_nil] at parses
    cases parses
  rw [readBack, written, parses]
  exact reads

end NetManager.Policy
