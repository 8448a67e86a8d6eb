import Mathlib.Data.BitVec
import NetManager.Library.Ledger

/-!
# Policy routing rules

`RouteManager` installs and removes the rules of the kernel. A rule has a level, its
priority, and sends the packets it selects to a routing table; each interface has a
table of its own, derived from its index and cached. The kernel adds every new rule,
even one that is there, and removes the first rule that has all attributes of the
request.
-/

namespace NetManager.Conn

open List Std BitVec

/-! ## Marks -/

inductive NetworkPermission
  | none
  | network
  | system
  deriving DecidableEq

/-- The value of a permission. -/
def NetworkPermission.bits : NetworkPermission → BitVec 2
  | none => 0x0
  | network => 0x1
  | system => 0x3

structure Fwmark where
  netId : BitVec 16 := 0
  explicitlySelected : Bool := false
  protectedFromVpn : Bool := false
  permission : NetworkPermission := .none
  uidBillingDone : Bool := false

/-- The bits above the number of the network, the last field first. -/
def Fwmark.flags (mark : Fwmark) : BitVec 16 :=
  0#11 ++ ofBool mark.uidBillingDone ++ mark.permission.bits ++
    ofBool mark.protectedFromVpn ++ ofBool mark.explicitlySelected

def Fwmark.intValue (mark : Fwmark) : BitVec 32 := mark.flags ++ mark.netId

/-- A mask with the flags of a mark selects all bits of the mark where it does so for
the number of the network. -/
theorem Fwmark.intValue_and_not {mark mask : Fwmark} (flags : mark.flags = mask.flags)
    (netId : mark.netId &&& ~~~mask.netId = 0) :
    mark.intValue &&& ~~~mask.intValue = 0 := by
  change (mark.flags ++ mark.netId) &&& ~~~(mask.flags ++ mask.netId) = (0 : BitVec (16 + 16))
  rw [flags, BitVec.not_append, BitVec.and_append, BitVec.and_not_self, netId]
  rfl

def fwmarkNetIdMask : BitVec 16 := 0xffff

/-! ## Rules -/

/-- `RuleInfo`, without the addresses. -/
structure RuleInfo where
  /-- `ruleTable`; 0 is `RT_TABLE_UNSPEC`. -/
  ruleTable : Nat
  rulePriority : Nat
  ruleFwmark : BitVec 32
  ruleMask : BitVec 32
  ruleIif : String
  ruleOif : String
  deriving DecidableEq

/-- The two families that `UpdateRuleInfo` sends a rule for. -/
inductive Family
  | inet
  | inet6
  deriving DecidableEq

/-- A rule of the kernel, and the attributes of a request. -/
structure FibRule where
  family : Family
  ruleInfo : RuleInfo
  /-- `FRA_UID_RANGE`, when it is given. -/
  uidRange : Option (Nat × Nat)
  deriving DecidableEq

/-- The rule has all attributes of a request; what `SendRuleToKernel` leaves out is
not compared. -/
def covers (request rule : FibRule) : Bool :=
  request.family == rule.family &&
    request.ruleInfo.rulePriority == rule.ruleInfo.rulePriority &&
    (request.ruleInfo.ruleTable == 0 || request.ruleInfo.ruleTable == rule.ruleInfo.ruleTable) &&
    (request.ruleInfo.ruleMask == 0 ||
      request.ruleInfo.ruleFwmark == rule.ruleInfo.ruleFwmark &&
        request.ruleInfo.ruleMask == rule.ruleInfo.ruleMask) &&
    (request.uidRange == none || request.uidRange == rule.uidRange) &&
    (request.ruleInfo.ruleIif == "" || request.ruleInfo.ruleIif == rule.ruleInfo.ruleIif) &&
    (request.ruleInfo.ruleOif == "" || request.ruleInfo.ruleOif == rule.ruleInfo.ruleOif)

/-- `RTM_NEWRULE` and `RTM_DELRULE`. -/
inductive RuleAction
  | newRule
  | delRule
  deriving DecidableEq

/-- What the kernel does on a request. -/
def RuleAction.on (action : RuleAction) (request : FibRule) : Ledger.Action FibRule :=
  match action with
  | newRule => .add request
  | delRule => .remove request

/-- The requests of `UpdateRuleInfo`. -/
def rulesOf (ruleInfo : RuleInfo) (uidRange : Option (Nat × Nat)) : List FibRule :=
  [⟨.inet, ruleInfo, uidRange⟩, ⟨.inet6, ruleInfo, uidRange⟩]

def ruleLevelVpnOutputToLocal : Nat := 9000
def ruleLevelSecureVpn : Nat := 10000
def ruleLevelExplicitNetwork : Nat := 11000
def ruleLevelOutputInterface : Nat := 12000
def ruleLevelLocalNetwork : Nat := 13000
def ruleLevelSharing : Nat := 14000
def ruleLevelDefault : Nat := 16000
def routeVpnNetworkTable : Nat := 98
def routeLocalNetworkTable : Nat := 99
def routeTableOffsetFromIndex : Nat := 2000
def routeInternalDefaultTable : Nat := 10
def ruleiifLoopback : String := "lo"

/-- The rule of `AddInterfaceToDefaultNetwork`. -/
def defaultRuleInfo (table : Nat) (permission : NetworkPermission) : RuleInfo where
  ruleTable := table
  rulePriority := ruleLevelDefault
  ruleFwmark := Fwmark.intValue { permission := permission }
  ruleMask := Fwmark.intValue { netId := fwmarkNetIdMask, permission := permission }
  ruleIif := ruleiifLoopback
  ruleOif := ""

/-- The rule of `UpdateExplicitNetworkRule`. -/
def explicitRuleInfo (netId : BitVec 16) (table : Nat) (permission : NetworkPermission) :
    RuleInfo where
  ruleTable := table
  rulePriority := ruleLevelExplicitNetwork
  ruleFwmark := Fwmark.intValue
    { netId := netId, explicitlySelected := true, permission := permission }
  ruleMask := Fwmark.intValue
    { netId := fwmarkNetIdMask, explicitlySelected := true, permission := permission }
  ruleIif := ruleiifLoopback
  ruleOif := ""

/-- The rule of `UpdateOutputInterfaceRules`. -/
def outputRuleInfo (interfaceName : String) (table : Nat)
    (permission : NetworkPermission) : RuleInfo where
  ruleTable := table
  rulePriority := ruleLevelOutputInterface
  ruleFwmark := Fwmark.intValue { permission := permission }
  ruleMask := Fwmark.intValue { permission := permission }
  ruleIif := ruleiifLoopback
  ruleOif := interfaceName

/-- The request of `ClearSharingRules`. -/
def sharingRuleInfo (inputInterface : String) : RuleInfo where
  ruleTable := 0
  rulePriority := ruleLevelSharing
  ruleFwmark := 0
  ruleMask := 0
  ruleIif := inputInterface
  ruleOif := ""

/-- A text occurs in another. -/
def occursIn (text : List Char) : List Char → Bool
  | [] => text.isEmpty
  | character :: rest => text.isPrefixOf (character :: rest) || occursIn text rest

/-- The rule of `UpdateVpnOutputToLocalRule`. -/
def vpnOutputToLocalRuleInfo (interfaceName : String) : RuleInfo where
  ruleTable := routeLocalNetworkTable
  rulePriority := ruleLevelVpnOutputToLocal
  ruleFwmark := 0
  ruleMask := 0
  ruleIif := if occursIn "vpn".toList interfaceName.toList then "" else interfaceName
  ruleOif := ""

/-- The rule of `UpdateVpnSystemPermissionRule`. -/
def vpnSystemPermissionRuleInfo (netId : BitVec 16) (table : Nat) : RuleInfo where
  ruleTable := table
  rulePriority := ruleLevelSecureVpn
  ruleFwmark := Fwmark.intValue { netId := netId, permission := .system }
  ruleMask := Fwmark.intValue { netId := fwmarkNetIdMask, permission := .system }
  ruleIif := ""
  ruleOif := ""

/-! ## The manager -/

def isInternalNetId (netId : Int) : Bool := 1 ≤ netId && netId ≤ 50

def convertTableByNetId (netId : Int) (table : Nat) : Nat :=
  if isInternalNetId netId then table % routeInternalDefaultTable + 1 else table

/-- `RouteManager` with the rules of the kernel. -/
structure RouteManager where
  interfaceToTable : ExtTreeMap String Nat
  /-- The rules, in the order in which they came. -/
  kernel : List FibRule

namespace RouteManager

variable (manager : RouteManager)

/-- `UpdateRuleInfo`; the kernel answers every request with success. -/
def updateRuleInfo (action : RuleAction) (ruleInfo : RuleInfo)
    (uidRange : Option (Nat × Nat)) : RouteManager × Int :=
  if ruleInfo.ruleFwmark &&& ~~~ruleInfo.ruleMask ≠ 0 then (manager, -1)
  else if ruleInfo.ruleTable = 0 ∧ action = .newRule then (manager, -76)
  else
    ({ manager with
        kernel := Ledger.run covers manager.kernel ((rulesOf ruleInfo uidRange).map action.on) }, 0)

section Interfaces

variable (ifNametoindex : String → Nat)

section

variable (action : RuleAction) (manager : RouteManager) (interfaceName : String)

def findTableByInterfacename (netId : Int) : RouteManager × Nat :=
  match manager.interfaceToTable[interfaceName]? with
  | some table => (manager, convertTableByNetId netId table)
  | none =>
    if ifNametoindex interfaceName = 0 then (manager, 0)
    else
      let table := ifNametoindex interfaceName + routeTableOffsetFromIndex
      ({ manager with
          interfaceToTable := manager.interfaceToTable.insert interfaceName table },
        convertTableByNetId netId table)

/-- The rule of an interface of the default network, added or removed. -/
def updateDefaultNetwork (permission : NetworkPermission) : RouteManager × Int :=
  let (manager, table) := manager.findTableByInterfacename ifNametoindex interfaceName 0
  if table = 0 then (manager, -1)
  else manager.updateRuleInfo action (defaultRuleInfo table permission) none

def addInterfaceToDefaultNetwork := updateDefaultNetwork ifNametoindex .newRule

def removeInterfaceFromDefaultNetwork := updateDefaultNetwork ifNametoindex .delRule

/-- The users of `UpdateExplicitNetworkRule`: `UID_ALLOW_INTERNAL` for internal
networks. -/
def explicitUidRange (netId : BitVec 16) : Option (Nat × Nat) :=
  if isInternalNetId netId.toNat then some (7023, 7023) else none

def updatePhysicalNetwork (netId : BitVec 16) (interfaceName : String)
    (permission : NetworkPermission) : RouteManager × Int :=
  let (manager, table) := manager.findTableByInterfacename ifNametoindex interfaceName netId.toNat
  if table = 0 then (manager, -1)
  else
    let (manager, code) := manager.updateRuleInfo action
      (explicitRuleInfo netId table permission) (explicitUidRange netId)
    if code ≠ 0 then (manager, code)
    else manager.updateRuleInfo action (outputRuleInfo interfaceName table permission) none

def addInterfaceToPhysicalNetwork := updatePhysicalNetwork ifNametoindex .newRule

/-- `ClearRoutes`; the routes themselves are not modelled. -/
def clearRoutes (netId : Int) : RouteManager × Int :=
  let (manager, table) := manager.findTableByInterfacename ifNametoindex interfaceName netId
  if table = 0 then (manager, -1)
  else if routeInternalDefaultTable < table then
    ({ manager with
        interfaceToTable := manager.interfaceToTable.erase interfaceName }, 0)
  else (manager, 0)

def removeInterfaceFromPhysicalNetwork (netId : BitVec 16) (interfaceName : String)
    (permission : NetworkPermission) : RouteManager × Int :=
  let (manager, code) :=
    updatePhysicalNetwork ifNametoindex .delRule manager netId interfaceName permission
  if code ≠ 0 then (manager, code)
  else
    let (manager, code) := manager.clearRoutes ifNametoindex interfaceName netId.toNat
    if code ≠ 0 then (manager, code)
    else if isInternalNetId netId.toNat then (manager, 0)
    else manager.updateRuleInfo .delRule (sharingRuleInfo interfaceName) none

end

end Interfaces

/-- `ModifyVirtualNetBasedRules`: all three rules, whatever becomes of the others. -/
def modifyVirtualNetBasedRules (action : RuleAction) (manager : RouteManager) (netId : BitVec 16)
    (interfaceName : String) : RouteManager × Int :=
  let (manager, first) :=
    manager.updateRuleInfo action (vpnOutputToLocalRuleInfo interfaceName) none
  let (manager, second) := manager.updateRuleInfo action
    (vpnSystemPermissionRuleInfo netId routeVpnNetworkTable) none
  let (manager, third) := manager.updateRuleInfo action
    (explicitRuleInfo netId routeVpnNetworkTable .none) (some (0, 0))
  (manager, first + second + third)

def addInterfaceToVirtualNetwork := modifyVirtualNetBasedRules .newRule

/-- `RemoveInterfaceFromVirtualNetwork`; the routes of the table are not modelled. -/
def removeInterfaceFromVirtualNetwork := modifyVirtualNetBasedRules .delRule

variable (interfaceName : String)

def addInterfaceToLocalNetwork : RouteManager × Int :=
  let (manager, code) := manager.updateRuleInfo .newRule
    (outputRuleInfo interfaceName routeLocalNetworkTable .none) none
  if code ≠ 0 then (manager, code)
  else
    ({ manager with
        interfaceToTable := manager.interfaceToTable.insert interfaceName
          routeLocalNetworkTable }, 0)

def removeInterfaceFromLocalNetwork : RouteManager × Int :=
  let (manager, code) := manager.updateRuleInfo .delRule
    (outputRuleInfo interfaceName routeLocalNetworkTable .none) none
  if code ≠ 0 then (manager, code)
  else
    ({ manager with
        interfaceToTable := manager.interfaceToTable.erase interfaceName }, 0)

def localNetId : Int := 99

/-- `Init`: no rules, or those of `AddLocalNetworkRules` where they are wanted. -/
def init (routeInitDir : Bool) : RouteManager :=
  let cleared : RouteManager := ⟨∅, []⟩
  if routeInitDir then
    let (manager, code) := cleared.updateRuleInfo .newRule
      (explicitRuleInfo 99 routeLocalNetworkTable .none) (explicitUidRange 99)
    if code ≠ 0 then manager
    else
      (manager.updateRuleInfo .newRule
        { ruleTable := routeLocalNetworkTable
          rulePriority := ruleLevelLocalNetwork
          ruleFwmark := Fwmark.intValue {}
          ruleMask := Fwmark.intValue { explicitlySelected := true }
          ruleIif := ""
          ruleOif := "" } none).1
  else cleared

/-! ## What is sent -/

theorem defaultRuleInfo_selects (table : Nat) (permission : NetworkPermission) :
    (defaultRuleInfo table permission).ruleFwmark &&&
      ~~~(defaultRuleInfo table permission).ruleMask = 0 :=
  Fwmark.intValue_and_not rfl zero_and

theorem explicitRuleInfo_selects (netId : BitVec 16) (table : Nat)
    (permission : NetworkPermission) :
    (explicitRuleInfo netId table permission).ruleFwmark &&&
      ~~~(explicitRuleInfo netId table permission).ruleMask = 0 :=
  Fwmark.intValue_and_not rfl (by simp [fwmarkNetIdMask])

theorem outputRuleInfo_selects (table : Nat) (permission : NetworkPermission) :
    (outputRuleInfo interfaceName table permission).ruleFwmark &&&
      ~~~(outputRuleInfo interfaceName table permission).ruleMask = 0 :=
  and_not_self _

theorem vpnSystemPermissionRuleInfo_selects (netId : BitVec 16) (table : Nat) :
    (vpnSystemPermissionRuleInfo netId table).ruleFwmark &&&
      ~~~(vpnSystemPermissionRuleInfo netId table).ruleMask = 0 :=
  Fwmark.intValue_and_not rfl (by simp [fwmarkNetIdMask])

section Sends

variable {ifNametoindex : String → Nat}

/-- The table of an interface. -/
def tableOf (ifNametoindex : String → Nat) (interfaceName : String) : Nat :=
  ifNametoindex interfaceName + routeTableOffsetFromIndex

/-- The cache holds tables of existing interfaces. -/
def Cached (ifNametoindex : String → Nat) (manager : RouteManager) : Prop :=
  ∀ interfaceName table, manager.interfaceToTable[interfaceName]? = some table →
    ifNametoindex interfaceName ≠ 0 ∧ table = tableOf ifNametoindex interfaceName

/-- A function succeeds and sends some requests to the kernel. -/
structure Sends (ifNametoindex : String → Nat) (manager : RouteManager)
    (requests : List (Ledger.Action FibRule))
    (result : RouteManager × Int) : Prop where
  code : result.2 = 0
  kernel : result.1.kernel = Ledger.run covers manager.kernel requests
  cached : result.1.Cached ifNametoindex

variable {manager : RouteManager} {interfaceName : String}

theorem Sends.trans (first : manager.Sends ifNametoindex requests between)
    (second : between.1.Sends ifNametoindex others result) :
    manager.Sends ifNametoindex (requests ++ others) result :=
  ⟨second.code, by rw [second.kernel, first.kernel, Ledger.run_append], second.cached⟩

section

variable (cached : manager.Cached ifNametoindex)
include cached

theorem Cached.insert (isThere : ifNametoindex interfaceName ≠ 0) :
    Cached ifNametoindex { manager with
      interfaceToTable := manager.interfaceToTable.insert interfaceName
        (tableOf ifNametoindex interfaceName) } := by
  intro other table found
  rw [ExtTreeMap.getElem?_insert] at found
  split at found
  next same =>
    rw [LawfulEqCmp.compare_eq_iff_eq] at same
    subst same
    exact ⟨isThere, (Option.some.inj found).symm⟩
  · exact cached other table found

theorem Cached.erase :
    Cached ifNametoindex { manager with
      interfaceToTable := manager.interfaceToTable.erase interfaceName } := by
  intro other table found
  rw [ExtTreeMap.getElem?_erase] at found
  split at found
  · cases found
  · exact cached other table found

theorem findTableByInterfacename_eq (isThere : ifNametoindex interfaceName ≠ 0)
    (ordinary : isInternalNetId netId = false) :
    ∃ found : RouteManager,
      manager.findTableByInterfacename ifNametoindex interfaceName netId =
          (found, tableOf ifNametoindex interfaceName) ∧
        manager.Sends ifNametoindex [] (found, 0) := by
  have unconverted table : convertTableByNetId netId table = table := by
    rw [convertTableByNetId, ordinary]
    rfl
  unfold findTableByInterfacename
  split
  next table found =>
    obtain ⟨-, isTable⟩ := cached interfaceName table found
    exact ⟨manager, by rw [unconverted, isTable], rfl, rfl, cached⟩
  · simp only [if_neg isThere, unconverted]
    exact ⟨_, rfl, rfl, rfl, cached.insert isThere⟩

end

theorem tableOf_ne_zero : tableOf ifNametoindex interfaceName ≠ 0 := by
  unfold tableOf routeTableOffsetFromIndex
  omega

variable (action : RuleAction)

theorem sends_updateRuleInfo (uidRange : Option (Nat × Nat)) (cached : manager.Cached ifNametoindex)
    (selects : ruleInfo.ruleFwmark &&& ~~~ruleInfo.ruleMask = 0)
    (specified : action = .newRule → ruleInfo.ruleTable ≠ 0) :
    manager.Sends ifNametoindex ((rulesOf ruleInfo uidRange).map action.on)
      (manager.updateRuleInfo action ruleInfo uidRange) := by
  have passes : ¬ (ruleInfo.ruleTable = 0 ∧ action = .newRule) :=
    fun refused => specified refused.2 refused.1
  rw [updateRuleInfo, if_neg (not_not.mpr selects), if_neg passes]
  exact ⟨rfl, rfl, cached⟩

/-- The rules of an interface of the default network. -/
def defaultRules (table : Nat) (permission : NetworkPermission) : List FibRule :=
  rulesOf (defaultRuleInfo table permission) none

/-- The rules of an interface of a physical network. -/
def interfaceRules (netId : BitVec 16) (interfaceName : String) (table : Nat)
    (permission : NetworkPermission) : List FibRule :=
  rulesOf (explicitRuleInfo netId table permission) none ++
    rulesOf (outputRuleInfo interfaceName table permission) none

variable (permission : NetworkPermission)

theorem sends_updateDefaultNetwork
    (cached : manager.Cached ifNametoindex) (isThere : ifNametoindex interfaceName ≠ 0) :
    manager.Sends ifNametoindex
      ((defaultRules (tableOf ifNametoindex interfaceName) permission).map action.on)
      (updateDefaultNetwork ifNametoindex action manager interfaceName permission) := by
  obtain ⟨found, lookup, looked⟩ :=
    findTableByInterfacename_eq cached isThere (rfl : isInternalNetId 0 = false)
  have sent := sends_updateRuleInfo action none looked.cached
    (defaultRuleInfo_selects (tableOf ifNametoindex interfaceName) permission)
    fun _ => tableOf_ne_zero
  rw [updateDefaultNetwork, lookup]
  exact looked.trans sent

variable {netId : BitVec 16}

section

variable (cached : manager.Cached ifNametoindex) (isThere : ifNametoindex interfaceName ≠ 0)
include cached isThere

theorem sends_updatePhysicalNetwork (ordinary : isInternalNetId netId.toNat = false) :
    manager.Sends ifNametoindex
      ((interfaceRules netId interfaceName (tableOf ifNametoindex interfaceName)
        permission).map action.on)
      (updatePhysicalNetwork ifNametoindex action manager netId interfaceName permission) := by
  obtain ⟨found, lookup, looked⟩ := findTableByInterfacename_eq cached isThere ordinary
  have everyone : explicitUidRange netId = none := by
    rw [explicitUidRange, ordinary]
    rfl
  have sentExplicit := sends_updateRuleInfo action none looked.cached
    (explicitRuleInfo_selects netId (tableOf ifNametoindex interfaceName) permission)
    fun _ => tableOf_ne_zero
  have sentOutput := sends_updateRuleInfo action none sentExplicit.cached
    (outputRuleInfo_selects interfaceName (tableOf ifNametoindex interfaceName) permission)
    fun _ => tableOf_ne_zero
  rw [updatePhysicalNetwork, lookup, interfaceRules, map_append]
  simp only [if_neg tableOf_ne_zero, everyone,
    sentExplicit.code, ne_eq, not_true_eq_false, if_false]
  exact (looked.trans sentExplicit).trans sentOutput

theorem sends_clearRoutes {netId : Int} (ordinary : isInternalNetId netId = false) :
    manager.Sends ifNametoindex [] (manager.clearRoutes ifNametoindex interfaceName netId) := by
  obtain ⟨found, lookup, looked⟩ := findTableByInterfacename_eq cached isThere ordinary
  rw [clearRoutes, lookup]
  simp only [if_neg tableOf_ne_zero]
  split
  · exact ⟨rfl, looked.kernel, looked.cached.erase⟩
  · exact looked

theorem sends_removeInterfaceFromPhysicalNetwork (ordinary : isInternalNetId netId.toNat = false) :
    manager.Sends ifNametoindex
      ((interfaceRules netId interfaceName (tableOf ifNametoindex interfaceName)
          permission).map (RuleAction.on .delRule) ++
        (rulesOf (sharingRuleInfo interfaceName) none).map (RuleAction.on .delRule))
      (manager.removeInterfaceFromPhysicalNetwork ifNametoindex netId interfaceName
        permission) := by
  have removed := sends_updatePhysicalNetwork .delRule permission cached isThere ordinary
  have cleared := sends_clearRoutes removed.cached isThere ordinary
  have noMark : (sharingRuleInfo interfaceName).ruleFwmark &&&
      ~~~(sharingRuleInfo interfaceName).ruleMask = 0 :=
    zero_and
  have unshared := sends_updateRuleInfo .delRule none cleared.cached noMark (by simp)
  rw [removeInterfaceFromPhysicalNetwork]
  simp only [removed.code, cleared.code, ne_eq, not_true_eq_false, if_false, ordinary,
    Bool.false_eq_true]
  refine ⟨unshared.code, ?_, unshared.cached⟩
  rw [unshared.kernel, cleared.kernel, removed.kernel]
  rfl

end

/-- The rules of an interface of a virtual network. -/
def vpnRules (netId : BitVec 16) (interfaceName : String) : List FibRule :=
  rulesOf (vpnOutputToLocalRuleInfo interfaceName) none ++
    rulesOf (vpnSystemPermissionRuleInfo netId routeVpnNetworkTable) none ++
    rulesOf (explicitRuleInfo netId routeVpnNetworkTable .none) (some (0, 0))

theorem sends_modifyVirtualNetBasedRules
    (cached : manager.Cached ifNametoindex) (netId : BitVec 16) (interfaceName : String) :
    manager.Sends ifNametoindex ((vpnRules netId interfaceName).map action.on)
      (modifyVirtualNetBasedRules action manager netId interfaceName) := by
  have vpnTable : action = .newRule → routeVpnNetworkTable ≠ 0 := fun _ => by decide
  have localTable : action = .newRule → routeLocalNetworkTable ≠ 0 := fun _ => by decide
  have noMark : (vpnOutputToLocalRuleInfo interfaceName).ruleFwmark &&&
      ~~~(vpnOutputToLocalRuleInfo interfaceName).ruleMask = 0 :=
    zero_and
  have toLocal := sends_updateRuleInfo action none cached noMark localTable
  have secure := sends_updateRuleInfo action none toLocal.cached
    (vpnSystemPermissionRuleInfo_selects netId routeVpnNetworkTable) vpnTable
  have explicit := sends_updateRuleInfo action (some (0, 0)) secure.cached
    (explicitRuleInfo_selects netId routeVpnNetworkTable .none) vpnTable
  have all := (toLocal.trans secure).trans explicit
  refine ⟨?_, all.kernel, all.cached⟩
  simp only [modifyVirtualNetBasedRules, toLocal.code, secure.code, explicit.code]
  rfl

end Sends

end RouteManager

end NetManager.Conn
