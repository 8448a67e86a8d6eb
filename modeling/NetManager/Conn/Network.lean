import NetManager.Conn.RouteManager

/-!
# Networks of the daemon

A network holds the names of its interfaces. Attaching an interface to a physical
network installs its explicit-network and output-interface rules, and its default
rule while the network is the default one; virtual and local networks have rules of
their own in fixed tables.
-/

namespace NetManager.Conn

open List Std

structure PhysicalNetwork where
  netId : BitVec 16
  permission : NetworkPermission
  isDefault : Bool := false
  interfaces : ExtTreeSet String := ∅

/-- `VirtualNetwork`, without its users. -/
structure VirtualNetwork where
  netId : BitVec 16
  hasDns : Bool
  interfaces : ExtTreeSet String := ∅

structure LocalNetwork where
  netId : BitVec 16
  interfaces : ExtTreeSet String := ∅

inductive NetsysNetwork
  | physical (network : PhysicalNetwork)
  | virtual (network : VirtualNetwork)
  | localNetwork (network : LocalNetwork)

def netmanagerSuccess : Int := 0
def netmanagerError : Int := -1

section Operations

variable (ifNametoindex : String → Nat)

namespace PhysicalNetwork

variable (network : PhysicalNetwork) (manager : RouteManager)

def addDefault : PhysicalNetwork × RouteManager :=
  ({ network with isDefault := true },
    network.interfaces.toList.foldl
      (fun manager interfaceName =>
        (RouteManager.addInterfaceToDefaultNetwork ifNametoindex manager interfaceName
          network.permission).1)
      manager)

def removeDefault : PhysicalNetwork × RouteManager :=
  ({ network with isDefault := false },
    network.interfaces.toList.foldl
      (fun manager interfaceName =>
        (RouteManager.removeInterfaceFromDefaultNetwork ifNametoindex manager
          interfaceName network.permission).1)
      manager)

def addInterface (interfaceName : String) : PhysicalNetwork × RouteManager × Int :=
  if network.interfaces.contains interfaceName then (network, manager, netmanagerSuccess)
  else
    let (manager, code) := RouteManager.addInterfaceToPhysicalNetwork ifNametoindex
      manager network.netId interfaceName network.permission
    if code ≠ 0 then (network, manager, netmanagerError)
    else
      let manager := if network.isDefault then
          (RouteManager.addInterfaceToDefaultNetwork ifNametoindex manager
            interfaceName network.permission).1
        else manager
      ({ network with interfaces := network.interfaces.insert interfaceName },
        manager, netmanagerSuccess)

def removeInterface (interfaceName : String) : PhysicalNetwork × RouteManager × Int :=
  if !network.interfaces.contains interfaceName then (network, manager, netmanagerSuccess)
  else
    let manager := if network.isDefault then
        (RouteManager.removeInterfaceFromDefaultNetwork ifNametoindex manager
          interfaceName network.permission).1
      else manager
    let (manager, code) := manager.removeInterfaceFromPhysicalNetwork ifNametoindex
      network.netId interfaceName network.permission
    if code ≠ 0 then (network, manager, netmanagerError)
    else
      ({ network with interfaces := network.interfaces.erase interfaceName },
        manager, netmanagerSuccess)

end PhysicalNetwork

namespace VirtualNetwork

section

variable (network : VirtualNetwork) (manager : RouteManager) (interfaceName : String)

/-- `AddInterface`; the VPN interface is created or not. -/
def addInterface (vpnCreated : Bool) : VirtualNetwork × RouteManager × Int :=
  if network.interfaces.contains interfaceName then (network, manager, netmanagerError)
  else if !vpnCreated then (network, manager, netmanagerError)
  else
    let (manager, code) :=
      RouteManager.addInterfaceToVirtualNetwork manager network.netId interfaceName
    if code ≠ 0 then (network, manager, netmanagerError)
    else
      ({ network with interfaces := network.interfaces.insert interfaceName },
        manager, netmanagerSuccess)

def removeInterface : VirtualNetwork × RouteManager × Int :=
  if !network.interfaces.contains interfaceName then (network, manager, netmanagerSuccess)
  else
    let (manager, code) :=
      RouteManager.removeInterfaceFromVirtualNetwork manager network.netId interfaceName
    if code ≠ 0 then (network, manager, netmanagerError)
    else
      ({ network with interfaces := network.interfaces.erase interfaceName },
        manager, netmanagerSuccess)

end

end VirtualNetwork

namespace LocalNetwork

section

variable (network : LocalNetwork) (manager : RouteManager) (interfaceName : String)

def addInterface : LocalNetwork × RouteManager × Int :=
  if network.interfaces.contains interfaceName then (network, manager, netmanagerSuccess)
  else
    let (manager, code) := manager.addInterfaceToLocalNetwork interfaceName
    if code ≠ 0 then (network, manager, netmanagerError)
    else
      ({ network with interfaces := network.interfaces.insert interfaceName },
        manager, netmanagerSuccess)

def removeInterface : LocalNetwork × RouteManager × Int :=
  if !network.interfaces.contains interfaceName then (network, manager, netmanagerSuccess)
  else
    let (manager, code) := manager.removeInterfaceFromLocalNetwork interfaceName
    if code ≠ 0 then (network, manager, netmanagerError)
    else
      ({ network with interfaces := network.interfaces.erase interfaceName },
        manager, netmanagerSuccess)

end

end LocalNetwork

namespace NetsysNetwork

/-- `GetNetId`. -/
def netId : NetsysNetwork → BitVec 16
  | physical network => network.netId
  | virtual network => network.netId
  | localNetwork network => network.netId

def interfaces : NetsysNetwork → ExtTreeSet String
  | physical network => network.interfaces
  | virtual network => network.interfaces
  | localNetwork network => network.interfaces

def isPhysical : NetsysNetwork → Bool
  | physical _ => true
  | _ => false

def addInterface (manager : RouteManager) (interfaceName : String)
    (vpnCreated : Bool) : NetsysNetwork → NetsysNetwork × RouteManager × Int
  | physical network =>
    let (network, manager, code) := network.addInterface ifNametoindex manager interfaceName
    (physical network, manager, code)
  | virtual network =>
    let (network, manager, code) := network.addInterface manager interfaceName vpnCreated
    (virtual network, manager, code)
  | localNetwork network =>
    let (network, manager, code) := network.addInterface manager interfaceName
    (localNetwork network, manager, code)

def removeInterface (manager : RouteManager)
    (interfaceName : String) : NetsysNetwork → NetsysNetwork × RouteManager × Int
  | physical network =>
    let (network, manager, code) := network.removeInterface ifNametoindex manager interfaceName
    (physical network, manager, code)
  | virtual network =>
    let (network, manager, code) := network.removeInterface manager interfaceName
    (virtual network, manager, code)
  | localNetwork network =>
    let (network, manager, code) := network.removeInterface manager interfaceName
    (localNetwork network, manager, code)

end NetsysNetwork

end Operations

/-! ## The rules of a network -/

/-- The rule is one of a default level, or of the explicit or output level in the
table of an interface. -/
def Tracked (rule : FibRule) : Prop :=
  rule.ruleInfo.rulePriority = ruleLevelDefault ∨
    (rule.ruleInfo.rulePriority = ruleLevelExplicitNetwork ∨
      rule.ruleInfo.rulePriority = ruleLevelOutputInterface) ∧
        routeTableOffsetFromIndex < rule.ruleInfo.ruleTable

open RouteManager

/-- The rules that a physical network has for one of its interfaces. -/
def PhysicalNetwork.rulesFor (ifNametoindex : String → Nat) (network : PhysicalNetwork)
    (interfaceName : String) : List FibRule :=
  interfaceRules network.netId interfaceName (tableOf ifNametoindex interfaceName)
      network.permission ++
    if network.isDefault then defaultRules (tableOf ifNametoindex interfaceName) network.permission
    else []

/-- The rules of a network. -/
def NetsysNetwork.rules (ifNametoindex : String → Nat) : NetsysNetwork → Set FibRule
  | physical network =>
    {rule | ∃ interfaceName ∈ network.interfaces,
      rule ∈ network.rulesFor ifNametoindex interfaceName}
  | _ => ∅

section Rules

variable {ifNametoindex : String → Nat} {rule other : FibRule}

theorem mem_rulesOf_iff :
    rule ∈ rulesOf ruleInfo uidRange ↔ rule.ruleInfo = ruleInfo ∧ rule.uidRange = uidRange := by
  rcases rule with ⟨_ | _, info, range⟩ <;> simp [rulesOf]

variable {permission : NetworkPermission} {interfaceName : String} {netId : BitVec 16}

theorem mem_interfaceRules_iff :
    rule ∈ interfaceRules netId interfaceName table permission ↔ rule.uidRange = none ∧
        (rule.ruleInfo = explicitRuleInfo netId table permission ∨
          rule.ruleInfo = outputRuleInfo interfaceName table permission) := by
  rw [interfaceRules, mem_append, mem_rulesOf_iff, mem_rulesOf_iff]
  tauto

theorem mem_defaultRules_iff :
    rule ∈ defaultRules table permission ↔
      rule.uidRange = none ∧ rule.ruleInfo = defaultRuleInfo table permission := by
  rw [defaultRules, mem_rulesOf_iff, and_comm]

theorem rulePriority_of_mem_interfaceRules
    (member : rule ∈ interfaceRules netId interfaceName table permission) :
    rule.ruleInfo.rulePriority = ruleLevelExplicitNetwork ∨
      rule.ruleInfo.rulePriority = ruleLevelOutputInterface := by
  obtain ⟨-, explicit | output⟩ := mem_interfaceRules_iff.mp member
  · exact .inl (congrArg RuleInfo.rulePriority explicit)
  · exact .inr (congrArg RuleInfo.rulePriority output)

theorem rulePriority_of_mem_defaultRules (member : rule ∈ defaultRules table permission) :
    rule.ruleInfo.rulePriority = ruleLevelDefault :=
  congrArg RuleInfo.rulePriority (mem_defaultRules_iff.mp member).2

theorem ruleLevelDefault_ne (level : rule.ruleInfo.rulePriority = ruleLevelDefault) :
    ¬ (rule.ruleInfo.rulePriority = ruleLevelExplicitNetwork ∨
      rule.ruleInfo.rulePriority = ruleLevelOutputInterface) := by
  rw [level]
  decide

namespace PhysicalNetwork

variable {network : PhysicalNetwork} {interfaceName : String}

theorem mem_rulesFor_iff :
    rule ∈ network.rulesFor ifNametoindex interfaceName ↔
      rule ∈ interfaceRules network.netId interfaceName
          (tableOf ifNametoindex interfaceName) network.permission ∨
        network.isDefault = true ∧
          rule ∈ defaultRules (tableOf ifNametoindex interfaceName)
            network.permission := by
  rw [rulesFor]
  cases network.isDefault <;> simp

/-- The attributes of the rule of an interface, by its level. -/
def ruleInfoAt (ifNametoindex : String → Nat) (network : PhysicalNetwork) (interfaceName : String)
    (level : Nat) : RuleInfo :=
  if level = ruleLevelExplicitNetwork then
    explicitRuleInfo network.netId (tableOf ifNametoindex interfaceName) network.permission
  else if level = ruleLevelOutputInterface then
    outputRuleInfo interfaceName (tableOf ifNametoindex interfaceName) network.permission
  else defaultRuleInfo (tableOf ifNametoindex interfaceName) network.permission

/-- The rules of an interface are told apart by level and family. -/
theorem rule_eq_of_mem_rulesFor (member : rule ∈ network.rulesFor ifNametoindex interfaceName) :
    rule = ⟨rule.family, network.ruleInfoAt ifNametoindex interfaceName
      rule.ruleInfo.rulePriority, none⟩ := by
  rcases rule with ⟨family, ruleInfo, uidRange⟩
  rw [mem_rulesFor_iff, mem_interfaceRules_iff, mem_defaultRules_iff] at member
  rcases member with ⟨rfl, rfl | rfl⟩ | ⟨-, rfl, rfl⟩
  · rfl
  · rfl
  · rfl

/-- They are in the table of the interface, at a level that is tracked. -/
theorem tracked_of_mem_rulesFor (isThere : ifNametoindex interfaceName ≠ 0)
    (member : rule ∈ network.rulesFor ifNametoindex interfaceName) :
    Tracked rule ∧ rule.ruleInfo.ruleTable = tableOf ifNametoindex interfaceName := by
  have ownTable : routeTableOffsetFromIndex < tableOf ifNametoindex interfaceName := by
    unfold tableOf
    omega
  rw [mem_rulesFor_iff, mem_interfaceRules_iff, mem_defaultRules_iff] at member
  rcases member with ⟨-, isExplicit | isOutput⟩ | ⟨-, -, isDefault⟩
  · rw [Tracked, isExplicit]
    exact ⟨.inr ⟨.inl rfl, ownTable⟩, rfl⟩
  · rw [Tracked, isOutput]
    exact ⟨.inr ⟨.inr rfl, ownTable⟩, rfl⟩
  · rw [Tracked, isDefault]
    exact ⟨.inl rfl, rfl⟩

end PhysicalNetwork

theorem covers_self : covers rule rule = true := by
  simp [covers]

/-- A request with a table finds rules of its family, level and table. -/
theorem eq_of_covers (table : rule.ruleInfo.ruleTable ≠ 0) (covered : covers rule other = true) :
    other.family = rule.family ∧ other.ruleInfo.rulePriority = rule.ruleInfo.rulePriority ∧
        other.ruleInfo.ruleTable = rule.ruleInfo.ruleTable := by
  simp only [covers, Bool.and_eq_true, beq_iff_eq, Bool.or_eq_true, table, false_or] at covered
  obtain ⟨⟨⟨⟨⟨⟨family, level⟩, sameTable⟩, -⟩, -⟩, -⟩, -⟩ := covered
  exact ⟨family.symm, level.symm, sameTable.symm⟩

end Rules

/-! ## What the operations send -/

section Sends

variable {ifNametoindex : String → Nat} {manager : RouteManager} {interfaceName : String}

theorem sends_foldl_updateDefaultNetwork (action : RuleAction) (permission : NetworkPermission)
    (interfaces : List String) (cached : manager.Cached ifNametoindex)
    (areThere : ∀ name ∈ interfaces, ifNametoindex name ≠ 0) :
    manager.Sends ifNametoindex
      ((interfaces.flatMap fun name =>
        defaultRules (tableOf ifNametoindex name) permission).map action.on)
      (interfaces.foldl (fun manager name =>
        (updateDefaultNetwork ifNametoindex action manager name permission).1)
        manager, 0) := by
  induction interfaces generalizing manager with
  | nil => exact ⟨rfl, rfl, cached⟩
  | cons name interfaces ih =>
    have sent := sends_updateDefaultNetwork action permission cached (areThere name mem_cons_self)
    exact sent.trans (ih sent.cached (forall_mem_cons.mp areThere).2)

namespace PhysicalNetwork

variable {network : PhysicalNetwork}

theorem sends_addInterface (cached : manager.Cached ifNametoindex)
    (isThere : ifNametoindex interfaceName ≠ 0)
    (ordinary : isInternalNetId network.netId.toNat = false)
    (absent : interfaceName ∉ network.interfaces) :
    ∃ routes : RouteManager,
      network.addInterface ifNametoindex manager interfaceName =
          ({ network with interfaces := network.interfaces.insert interfaceName },
            routes, netmanagerSuccess) ∧
        manager.Sends ifNametoindex
          ((network.rulesFor ifNametoindex interfaceName).map .add) (routes, 0) := by
  have sent := sends_updatePhysicalNetwork .newRule network.permission cached isThere ordinary
  have sentDefault := sends_updateDefaultNetwork .newRule network.permission sent.cached isThere
  have notContained : network.interfaces.contains interfaceName = false :=
    Bool.eq_false_iff.mpr absent
  unfold addInterface addInterfaceToPhysicalNetwork addInterfaceToDefaultNetwork
  simp only [notContained, Bool.false_eq_true, if_false, sent.code, ne_eq, not_true_eq_false]
  refine ⟨_, rfl, ?_⟩
  cases isDefault : network.isDefault with
  | true =>
    simp only [rulesFor, isDefault, if_true, map_append]
    exact sent.trans ⟨rfl, sentDefault.kernel, sentDefault.cached⟩
  | false =>
    simp only [rulesFor, isDefault, Bool.false_eq_true, if_false, append_nil]
    exact ⟨rfl, sent.kernel, sent.cached⟩

/-- The rules of an interface in the order in which they are removed. -/
def removedRules (ifNametoindex : String → Nat) (network : PhysicalNetwork)
    (interfaceName : String) : List FibRule :=
  (if network.isDefault then defaultRules (tableOf ifNametoindex interfaceName) network.permission
  else []) ++
    interfaceRules network.netId interfaceName (tableOf ifNametoindex interfaceName)
      network.permission

theorem mem_removedRules_iff :
    rule ∈ network.removedRules ifNametoindex interfaceName ↔
      rule ∈ network.rulesFor ifNametoindex interfaceName := by
  rw [removedRules, rulesFor, mem_append, mem_append, or_comm]

theorem sends_removeInterface (cached : manager.Cached ifNametoindex)
    (isThere : ifNametoindex interfaceName ≠ 0)
    (ordinary : isInternalNetId network.netId.toNat = false)
    (attached : interfaceName ∈ network.interfaces) :
    ∃ routes : RouteManager,
      network.removeInterface ifNametoindex manager interfaceName =
          ({ network with interfaces := network.interfaces.erase interfaceName },
            routes, netmanagerSuccess) ∧
        manager.Sends ifNametoindex
          ((network.removedRules ifNametoindex interfaceName).map .remove ++
            (rulesOf (sharingRuleInfo interfaceName) none).map .remove)
          (routes, 0) := by
  have contained : network.interfaces.contains interfaceName = true := attached
  have sentDefault := sends_updateDefaultNetwork .delRule network.permission cached isThere
  unfold removeInterface removeInterfaceFromDefaultNetwork
  simp only [contained, Bool.not_true, Bool.false_eq_true, if_false]
  cases isDefault : network.isDefault with
  | true =>
    have sent := sends_removeInterfaceFromPhysicalNetwork network.permission
      sentDefault.cached isThere ordinary
    simp only [if_true, sent.code, ne_eq, not_true_eq_false, if_false]
    refine ⟨_, rfl, ?_⟩
    simp only [removedRules, isDefault, if_true, map_append, append_assoc]
    exact sentDefault.trans ⟨rfl, sent.kernel, sent.cached⟩
  | false =>
    have sent := sends_removeInterfaceFromPhysicalNetwork network.permission cached isThere ordinary
    simp only [Bool.false_eq_true, if_false, sent.code, ne_eq, not_true_eq_false]
    refine ⟨_, rfl, rfl, ?_, sent.cached⟩
    simp only [removedRules, isDefault, Bool.false_eq_true, if_false, nil_append]
    exact sent.kernel

end PhysicalNetwork

end Sends

end NetManager.Conn
