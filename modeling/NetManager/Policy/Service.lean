import NetManager.Policy.FileMirror
import NetManager.Policy.Firewall
import NetManager.Policy.Rule

/-!
# The policy service and its file

`NetPolicyRule`, `NetPolicyTraffic` and `NetPolicyFirewall` share one
`NetPolicyFile`. Every update of the file ends with writing the whole document,
so reading the last text back is reading the mirrored policies; they are the
policies of the components as long as the calls keep away from what the file
cannot tell apart or does not hold.
-/

namespace NetManager.Policy

open List Std NetQuotaPolicy NetPolicy Function

/-- The components with the file. -/
structure PolicyService (Byte : Type) where
  rule : NetPolicyRule
  /-- `quotaPolicies_` of `netPolicyTraffic_`. -/
  quotaPolicies : List NetQuotaPolicy
  firewall : NetPolicyFirewall
  file : NetPolicyFile Byte

namespace PolicyService

variable {Byte : Type} (cjson : CJson Byte)

def firewallChainDeviceIdle : BitVec 32 := 16
def firewallChainPowerSave : BitVec 32 := 17

/-- What an effect of `NetPolicyRule` does to the file. -/
def applyEffect (file : NetPolicyFile Byte) : NetPolicyRule.Effect → NetPolicyFile Byte
  | .writePolicyByUid uid policy => file.writePolicyByUid cjson uid policy
  | .removeInexistentUid uid => file.removeInexistentUid cjson uid
  | .writeBackgroundPolicy allow => file.writeBackgroundPolicy cjson allow
  | _ => file

variable (service : PolicyService Byte)

/-- A call of `NetPolicyRule`. -/
def ruleCall (call : NetPolicyRule.Call) : PolicyService Byte :=
  let reply := service.rule.handle call
  { service with
    rule := reply.state
    file := reply.effects.foldl (applyEffect cjson) service.file }

/-- The end of `UpdateQuotaPoliciesInner`, with the list to store. -/
def storeQuotaPolicies (quotaPolicies : List NetQuotaPolicy) : PolicyService Byte :=
  { service with
    quotaPolicies := quotaPolicies
    file := service.file.writeQuotaPolicies cjson quotaPolicies }

def updateQuotaPolicies (quotaPolicies : List NetQuotaPolicy) : PolicyService Byte :=
  if quotaPolicies.isEmpty then service
  else service.storeQuotaPolicies cjson (formalizeQuotaPolicies quotaPolicies)

/-- `UpdateRemindPolicy` at a time. -/
def updateRemindPolicy (netType : Int32) (simId : String) (remindType : BitVec 32) (now : Int64) :
    PolicyService Byte :=
  if isValidNetType netType then
    match remindTypeOf remindType with
    | none => service
    | some remindType =>
      service.storeQuotaPolicies cjson
        (service.quotaPolicies.map (remind netType simId remindType now))
  else service

def setDeviceIdleTrustlist (uids : List Uid) (isAllowed : Bool) : PolicyService Byte :=
  if service.firewall.overMaxSize then service
  else
    let firewall := service.firewall.setDeviceIdleTrustlist uids isAllowed
    { service with
      firewall := firewall
      file := service.file.writeFirewallRules cjson firewallChainDeviceIdle
        firewall.deviceIdleAllowedList firewall.deviceIdleDeniedList }

def setPowerSaveTrustlist (uids : List Uid) (isAllowed : Bool) : PolicyService Byte :=
  if service.firewall.overMaxSize then service
  else
    let firewall := service.firewall.setPowerSaveTrustlist uids isAllowed
    { service with
      firewall := firewall
      file := service.file.writeFirewallRules cjson firewallChainPowerSave
        firewall.powerSaveAllowedList firewall.powerSaveDeniedList }

/-- `NetPolicyFirewall::DeleteUid`. The lists of the rule objects lose the user also when
the sets and the file do not. -/
def deleteUid (uid : Uid) : PolicyService Byte :=
  let service :=
    (service.setDeviceIdleTrustlist cjson [uid] false).setPowerSaveTrustlist cjson [uid] false
  { service with
    firewall := (service.firewall.removeFromAllowedList .dozable uid).removeFromAllowedList
      .powersaving uid }

/-- `NetPolicyFirewall::HandleEvent`, on the events of `NetPolicyRule`. -/
def firewallEvent : NetPolicyRule.Call → PolicyService Byte
  | .uidRemoved uid => service.deleteUid cjson uid
  | .powerSaveModeChanged mode =>
    { service with firewall := service.firewall.updatePowerSavePolicy mode }
  | _ => service

/-- The calls. -/
inductive Call
  | rule (call : NetPolicyRule.Call)
  | updateQuotaPolicies (quotaPolicies : List NetQuotaPolicy)
  | updateRemindPolicy (netType : Int32) (simId : String) (remindType : BitVec 32) (now : Int64)
  | setDeviceIdleTrustlist (uids : List Uid) (isAllowed : Bool)
  | setPowerSaveTrustlist (uids : List Uid) (isAllowed : Bool)

/-- Make a call. An event goes to `NetPolicyFirewall` first, as in `cores_`. -/
def step : Call → PolicyService Byte
  | .rule call => (service.firewallEvent cjson call).ruleCall cjson call
  | .updateQuotaPolicies quotaPolicies => service.updateQuotaPolicies cjson quotaPolicies
  | .updateRemindPolicy netType simId remindType now =>
    service.updateRemindPolicy cjson netType simId remindType now
  | .setDeviceIdleTrustlist uids isAllowed => service.setDeviceIdleTrustlist cjson uids isAllowed
  | .setPowerSaveTrustlist uids isAllowed => service.setPowerSaveTrustlist cjson uids isAllowed

/-- The pair of a record, as `NetPolicyRule::Init` reads it. -/
def entryOf (uidPolicy : UidPolicy) : Uid × BitVec 32 :=
  (CommonUtils.strToUint uidPolicy.uid 0, CommonUtils.strToUint uidPolicy.policy 0)

/-- The start without a policy file: the constructor of `NetPolicyFile`, then
`Init` of `NetPolicyTraffic`, `NetPolicyFirewall` and `NetPolicyRule`. No policy
of a user is read, so the last of them writes nothing. -/
def start (maxUid : Uid) : PolicyService Byte :=
  let constructed := NetPolicyFile.write cjson NetPolicyFile.reset
  let quotaPolicies := constructed.netPolicy.readQuotaPolicies
  let file := constructed.writeQuotaPolicies cjson quotaPolicies
  let deviceIdle := file.netPolicy.readFirewallRules firewallChainDeviceIdle
  let powerSave := file.netPolicy.readFirewallRules firewallChainPowerSave
  { rule := NetPolicyRule.init (file.netPolicy.uidPolicies.map entryOf)
      file.netPolicy.readBackgroundPolicy
    quotaPolicies := quotaPolicies
    firewall := NetPolicyFirewall.init maxUid deviceIdle.allowedList
      deviceIdle.deniedList powerSave.allowedList powerSave.deniedList
    file :=
      { file with
        netPolicy := (file.netPolicy.touchFirewallRules
          firewallChainDeviceIdle).touchFirewallRules firewallChainPowerSave } }

/-! ## Policies that survive -/

/-- Reading the last text gives the policies of the components. -/
def Restorable : Prop :=
  ∃ read, NetPolicyFile.readBack cjson service.file.json = some read ∧
    (∀ uid policy, (uid, policy) ∈ read.uidPolicies.map entryOf ↔
      policy ≠ 0 ∧ service.rule.getPolicyByUid uid = policy) ∧
    read.readBackgroundPolicy = service.rule.backgroundAllow ∧
    read.readQuotaPolicies = service.quotaPolicies ∧
    read.readFirewallRules firewallChainDeviceIdle =
      ⟨service.firewall.deviceIdleDeniedList, service.firewall.deviceIdleAllowedList⟩ ∧
    read.readFirewallRules firewallChainPowerSave =
      ⟨service.firewall.powerSaveDeniedList, service.firewall.powerSaveAllowedList⟩ ∧
    (∀ uid, uid ∈ service.firewall.deviceIdleAllowedList ↔
      uid ∈ service.firewall.uidList .dozable) ∧
    ∀ uid, uid ∈ service.firewall.powerSaveAllowedList ↔ uid ∈ service.firewall.uidList .powersaving

/-- What a call asks for so that the policies survive. -/
def Permitted : Call → Prop
  | .rule (.transPolicyToRule uid policy) =>
    uid = policy → service.rule.getPolicyByUid uid = 0 ∨ service.rule.getPolicyByUid uid = policy
  | .rule (.uidRemoved uid) =>
    service.firewall.overMaxSize = true →
      uid ∉ service.firewall.deviceIdleAllowedList ∧ uid ∉ service.firewall.powerSaveAllowedList
  | .updateQuotaPolicies quotaPolicies =>
    ((quotaPolicies.filter isValidQuotaPolicy).map network).Nodup ∧
      ∀ quotaPolicy ∈ quotaPolicies, quotaPolicy.isValidQuotaPolicy = true →
        quotaPolicy.limitAction = limitActionNone ∧ quotaPolicy.limitBytes ≠ dataUsageUnknown ∧
          quotaPolicy.limitBytes ≠ dataUsageUnlimited ∧
          quotaPolicy.lastWarningRemind = remindNever
  | .updateRemindPolicy netType simId remindType _ =>
    remindTypeOf remindType = some .warning →
      ∀ quotaPolicy ∈ service.quotaPolicies, quotaPolicy.network ≠ (simId, netType)
  | _ => True

end PolicyService

/-! ## What the file holds -/

/-- The file and its last text hold some policies. -/
structure NetPolicyFile.Holds {Byte : Type} (cjson : CJson Byte) (file : NetPolicyFile Byte)
    (policyOf : Uid → BitVec 32) (backgroundAllow : Bool) (quotaPolicies : List NetQuotaPolicy)
    (deviceIdle powerSave : NetFirewallRuleList) : Prop where
  text : ∃ written : NetPolicy, file.json = cjson.print written.obj2Json ∧
    written.Same file.netPolicy
  uidPolicies : NetPolicy.Mirrors file.netPolicy.uidPolicies policyOf
  background : file.netPolicy.backgroundPolicyStatus = if backgroundAllow then "allow" else "reject"
  quota : file.netPolicy.netQuotaPolicies = quotaPolicies.map toNetPolicyQuota
  deviceIdle : file.netPolicy.readFirewallRules PolicyService.firewallChainDeviceIdle = deviceIdle
  powerSave : file.netPolicy.readFirewallRules PolicyService.firewallChainPowerSave = powerSave

namespace NetPolicyFile.Holds

variable {Byte : Type} {cjson : CJson Byte} {file : NetPolicyFile Byte} {policyOf : Uid → BitVec 32}
  {backgroundAllow : Bool} {quotaPolicies : List NetQuotaPolicy}
  {deviceIdle powerSave : NetFirewallRuleList} {netPolicy : NetPolicy}

theorem of_write (uidPolicies : NetPolicy.Mirrors netPolicy.uidPolicies policyOf)
    (background : netPolicy.backgroundPolicyStatus = if backgroundAllow then "allow" else "reject")
    (quota : netPolicy.netQuotaPolicies = quotaPolicies.map toNetPolicyQuota)
    (deviceIdleRules : netPolicy.readFirewallRules
      PolicyService.firewallChainDeviceIdle = deviceIdle)
    (powerSaveRules : netPolicy.readFirewallRules
      PolicyService.firewallChainPowerSave = powerSave) :
    (NetPolicyFile.write cjson netPolicy).Holds cjson policyOf backgroundAllow
      quotaPolicies deviceIdle powerSave where
  text := ⟨netPolicy.withDefaults, rfl, .refl _⟩
  uidPolicies := uidPolicies
  background := by
    change netPolicy.withDefaults.backgroundPolicyStatus = _
    cases backgroundAllow <;> simp [withDefaults, background]
  quota := quota
  deviceIdle := deviceIdleRules
  powerSave := powerSaveRules

theorem applyUidPolicy_eq :
    ∃ records, netPolicy.applyUidPolicy uid policy operation =
      { netPolicy with uidPolicies := records } := by
  cases operation <;> exact ⟨_, rfl⟩

section

variable (holds : file.Holds cjson policyOf backgroundAllow quotaPolicies deviceIdle powerSave)

include holds

theorem writePolicyByUid (told : uid = policy → policyOf uid = 0 ∨ policyOf uid = policy) :
    (file.writePolicyByUid cjson uid policy).Holds cjson
      (update policyOf uid policy) backgroundAllow quotaPolicies deviceIdle
      powerSave := by
  have mirrors := holds.uidPolicies.write told
  obtain ⟨records, written⟩ := applyUidPolicy_eq
  rw [written] at mirrors
  rw [NetPolicyFile.writePolicyByUid, written]
  exact of_write mirrors holds.background holds.quota holds.deviceIdle holds.powerSave

theorem writeCurrentPolicy (current : policyOf uid = policy) :
    (file.writePolicyByUid cjson uid policy).Holds cjson policyOf backgroundAllow
      quotaPolicies deviceIdle powerSave := by
  have written := holds.writePolicyByUid fun _ : uid = policy => .inr current
  have unchanged : update policyOf uid policy = policyOf := by
    rw [← current]
    exact update_eq_self uid policyOf
  rwa [unchanged] at written

theorem removeInexistentUid (uid : Uid) :
    (file.removeInexistentUid cjson uid).Holds cjson
      (update policyOf uid 0) backgroundAllow quotaPolicies deviceIdle
      powerSave :=
  of_write holds.uidPolicies.delete holds.background holds.quota
    holds.deviceIdle holds.powerSave

theorem writeBackgroundPolicy :
    (file.writeBackgroundPolicy cjson allow).Holds cjson policyOf allow quotaPolicies
      deviceIdle powerSave :=
  of_write holds.uidPolicies rfl holds.quota holds.deviceIdle holds.powerSave

theorem writeQuotaPolicies (networks : (stored.map network).Nodup) :
    (file.writeQuotaPolicies cjson stored).Holds cjson policyOf backgroundAllow stored
      deviceIdle powerSave := by
  refine of_write holds.uidPolicies holds.background ?_ holds.deviceIdle holds.powerSave
  exact foldl_writeQuotaPolicy [] stored networks

theorem writeDeviceIdleRules (allowedList deniedList : ExtTreeSet Uid) :
    (file.writeFirewallRules cjson PolicyService.firewallChainDeviceIdle allowedList
      deniedList).Holds cjson policyOf backgroundAllow quotaPolicies
        ⟨deniedList, allowedList⟩ powerSave := by
  refine of_write holds.uidPolicies holds.background holds.quota ?_ ?_
  · exact (rulesOf_insert _).trans (if_pos rfl)
  · exact ((rulesOf_insert _).trans (if_neg (by decide))).trans holds.powerSave

theorem writePowerSaveRules (allowedList deniedList : ExtTreeSet Uid) :
    (file.writeFirewallRules cjson PolicyService.firewallChainPowerSave allowedList
      deniedList).Holds cjson policyOf backgroundAllow quotaPolicies
        deviceIdle ⟨deniedList, allowedList⟩ := by
  refine of_write holds.uidPolicies holds.background holds.quota ?_ ?_
  · exact ((rulesOf_insert _).trans (if_neg (by decide))).trans holds.deviceIdle
  · exact (rulesOf_insert _).trans (if_pos rfl)

theorem touchFirewallRules :
    NetPolicyFile.Holds cjson
      { file with netPolicy := file.netPolicy.touchFirewallRules chainType } policyOf
      backgroundAllow quotaPolicies deviceIdle powerSave where
  text := by
    obtain ⟨written, text, same⟩ := holds.text
    refine ⟨written, text, { same with firewallRules := fun other => ?_ }⟩
    rw [readFirewallRules_touchFirewallRules]
    exact same.firewallRules other
  uidPolicies := holds.uidPolicies
  background := holds.background
  quota := holds.quota
  deviceIdle := (file.netPolicy.readFirewallRules_touchFirewallRules _ _).trans holds.deviceIdle
  powerSave := (file.netPolicy.readFirewallRules_touchFirewallRules _ _).trans holds.powerSave

end

end NetPolicyFile.Holds

/-! ## Calls of the rule component -/

namespace NetPolicyRule

variable (state : NetPolicyRule)

theorem getPolicyByUid_insert :
    getPolicyByUid { state with
      uidPolicyRules := state.uidPolicyRules.insert uid policyRule } =
        update state.getPolicyByUid uid policyRule.policy := by
  funext other
  simp only [getPolicyByUid, ExtTreeMap.getElem?_insert, LawfulEqCmp.compare_eq_iff_eq]
  by_cases same : uid = other
  · subst same
    simp
  · simp [same, Ne.symm same, getPolicyByUid]

theorem getPolicyByUid_erase :
    getPolicyByUid { state with uidPolicyRules := state.uidPolicyRules.erase uid } =
      update state.getPolicyByUid uid 0 := by
  funext other
  simp only [getPolicyByUid, ExtTreeMap.getElem?_erase, LawfulEqCmp.compare_eq_iff_eq]
  by_cases same : uid = other
  · subst same
    simp
  · simp [same, Ne.symm same, getPolicyByUid]

theorem getPolicyByUid_transPolicyToRuleAll :
    state.transPolicyToRuleAll.state.getPolicyByUid = state.getPolicyByUid := by
  funext uid
  simp only [getPolicyByUid, transPolicyToRuleAll, ExtTreeMap.getElem?_map, Option.map_map]
  rfl

theorem withPolicy_policy : (state.withPolicy uid policy).policy = policy := by
  unfold withPolicy
  split <;> rfl

end NetPolicyRule

namespace PolicyService

variable {Byte : Type} {cjson : CJson Byte} {file : NetPolicyFile Byte} {policyOf : Uid → BitVec 32}
  {backgroundAllow : Bool} {quotaPolicies : List NetQuotaPolicy}
  {deviceIdle powerSave : NetFirewallRuleList} (state : NetPolicyRule)

theorem foldl_netsysCtrl :
    (state.netsysCtrl uid netsysCtrl).foldl (applyEffect cjson) file = file := by
  unfold NetPolicyRule.netsysCtrl
  split_ifs <;> rfl

theorem foldl_transConditionEffects :
    (state.transConditionEffects uid policyRule).foldl (applyEffect cjson) file =
      file.writePolicyByUid cjson uid policyRule.policy := by
  simp only [NetPolicyRule.transConditionEffects, foldl_append]
  split_ifs <;> simp [foldl_netsysCtrl, applyEffect]

theorem holds_foldl_transConditionEffects (entries : List (Uid × UidPolicyRule))
    (current : ∀ entry ∈ entries, policyOf entry.1 = entry.2.policy)
    (holds : file.Holds cjson policyOf backgroundAllow quotaPolicies deviceIdle powerSave) :
    ((entries.flatMap fun entry =>
        state.transConditionEffects entry.1 entry.2).foldl
      (applyEffect cjson) file).Holds cjson policyOf backgroundAllow quotaPolicies
        deviceIdle powerSave := by
  induction entries generalizing file with
  | nil => exact holds
  | cons entry entries ih =>
    rw [flatMap_cons, foldl_append, foldl_transConditionEffects]
    apply ih (forall_mem_cons.mp current).2
    exact holds.writeCurrentPolicy (current entry mem_cons_self)

theorem holds_transPolicyToRuleAll (rule : NetPolicyRule)
    (holds : file.Holds cjson rule.getPolicyByUid backgroundAllow quotaPolicies
      deviceIdle powerSave) :
    (rule.transPolicyToRuleAll.effects.foldl (applyEffect cjson) file).Holds cjson
      rule.transPolicyToRuleAll.state.getPolicyByUid backgroundAllow quotaPolicies
      deviceIdle powerSave := by
  rw [NetPolicyRule.getPolicyByUid_transPolicyToRuleAll]
  refine holds_foldl_transConditionEffects rule _ (fun entry member => ?_) holds
  have found := ExtTreeMap.mem_toList_iff_getElem?_eq_some.mp member
  simp [NetPolicyRule.getPolicyByUid, found]

variable {rule : NetPolicyRule}

theorem holds_transCondition
    (holds : file.Holds cjson rule.getPolicyByUid backgroundAllow quotaPolicies
      deviceIdle powerSave)
    (told : uid = policyRule.policy → rule.getPolicyByUid uid = 0 ∨
      rule.getPolicyByUid uid = policyRule.policy) :
    ((rule.transConditionEffects uid policyRule).foldl (applyEffect cjson) file).Holds
      cjson (NetPolicyRule.getPolicyByUid { rule with
        uidPolicyRules := rule.uidPolicyRules.insert uid (rule.transCondition uid policyRule) })
      backgroundAllow quotaPolicies deviceIdle powerSave := by
  rw [foldl_transConditionEffects, NetPolicyRule.getPolicyByUid_insert]
  exact holds.writePolicyByUid told

variable (cjson quotaPolicies deviceIdle powerSave)

/-- The file after the effects of a reply holds the policies of the state that it leaves. -/
def Keeps (file : NetPolicyFile Byte) (reply : NetPolicyRule.Reply) : Prop :=
  (reply.effects.foldl (applyEffect cjson) file).Holds cjson reply.state.getPolicyByUid
    reply.state.backgroundAllow quotaPolicies deviceIdle powerSave

variable {cjson quotaPolicies deviceIdle powerSave}

theorem keeps_transPolicyToRuleOf
    (holds : file.Holds cjson rule.getPolicyByUid rule.backgroundAllow quotaPolicies
      deviceIdle powerSave) :
    Keeps cjson quotaPolicies deviceIdle powerSave file (rule.transPolicyToRuleOf uid) := by
  unfold NetPolicyRule.transPolicyToRuleOf
  split
  · exact holds
  next policyRule found =>
    refine holds_transCondition holds fun _ => .inr ?_
    simp [NetPolicyRule.getPolicyByUid, found]

variable (holds : file.Holds cjson rule.getPolicyByUid rule.backgroundAllow quotaPolicies
  deviceIdle powerSave)

include holds

theorem keeps_transPolicyToRule
    (told : uid = policy → rule.getPolicyByUid uid = 0 ∨ rule.getPolicyByUid uid = policy) :
    Keeps cjson quotaPolicies deviceIdle powerSave file (rule.transPolicyToRule uid policy) := by
  unfold NetPolicyRule.transPolicyToRule
  split
  case isFalse => exact holds
  case isTrue =>
    have silent (changed : Prop) : ∀ _ : Decidable changed,
        (if changed then [NetPolicyRule.Effect.notifyNetUidPolicyChange uid policy]
          else []).foldl (applyEffect cjson) file = file := by
      intro _
      split <;> rfl
    simp only [Keeps, foldl_append, silent]
    refine holds_transCondition holds ?_
    rw [NetPolicyRule.withPolicy_policy]
    exact told

theorem keeps_setBackgroundPolicy :
    Keeps cjson quotaPolicies deviceIdle powerSave file (rule.setBackgroundPolicy allow) := by
  unfold NetPolicyRule.setBackgroundPolicy
  split
  case isFalse => exact holds
  case isTrue =>
    simp only [Keeps, cons_append, foldl_cons, foldl_append, foldl_nil]
    exact (holds_transPolicyToRuleAll { rule with backgroundAllow := allow }
      holds).writeBackgroundPolicy

/-- The file after a call of the rule component holds the policies after it. -/
theorem keeps_handle (permitted : ∀ uid policy, call = .transPolicyToRule uid policy →
      uid = policy → rule.getPolicyByUid uid = 0 ∨ rule.getPolicyByUid uid = policy) :
    Keeps cjson quotaPolicies deviceIdle powerSave file (rule.handle call) := by
  cases call with
  | transPolicyToRule uid policy => exact keeps_transPolicyToRule holds (permitted uid policy rfl)
  | setBackgroundPolicy allow => exact keeps_setBackgroundPolicy holds
  | deviceIdleListUpdated deviceIdleList => exact holds
  | deviceIdleModeChanged deviceIdleMode =>
    exact holds_transPolicyToRuleAll { rule with deviceIdleMode := deviceIdleMode } holds
  | powerSaveModeChanged powerSaveMode =>
    exact holds_transPolicyToRuleAll { rule with powerSaveMode := powerSaveMode } holds
  | powerSaveListUpdated powerSaveList => exact holds
  | uidRemoved deletedUid =>
    have removed := holds.removeInexistentUid deletedUid
    rw [← NetPolicyRule.getPolicyByUid_erase] at removed
    exact removed
  | uidStateForeground uid =>
    exact keeps_transPolicyToRuleOf holds
  | uidStateBackground uid =>
    exact keeps_transPolicyToRuleOf holds

end PolicyService

end NetManager.Policy
