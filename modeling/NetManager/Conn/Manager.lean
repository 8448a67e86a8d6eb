import NetManager.Conn.Network

/-!
# The connection manager of the daemon

`ConnManager` keeps the networks by number, remembers which one is the default
network, and passes interfaces on to the networks.
-/

namespace NetManager.Conn

open Std

def interfaceUnset : Int := -1
def minNetId : Int := 100
def maxNetId : Int := 0xFFFF - 0x400

/-- `ConnManager`, with the state of `RouteManager`. -/
structure ConnManager where
  networks : ExtTreeMap Int NetsysNetwork
  defaultNetId : Int
  /-- `needReinitRouteFlag_`. -/
  needReinitRoute : Bool
  physicalInterfaceName : ExtTreeMap Int String
  /-- The static state of `RouteManager`. -/
  routes : RouteManager

namespace ConnManager

/-- `ConnManager()`. -/
def start (routeInitDir : Bool) : ConnManager where
  networks := (∅ : ExtTreeMap Int NetsysNetwork).insert RouteManager.localNetId
    (.localNetwork { netId := 99 })
  defaultNetId := 0
  needReinitRoute := false
  physicalInterfaceName := ∅
  routes := RouteManager.init routeInitDir

def getDefaultNetwork (manager : ConnManager) : Int := manager.defaultNetId

def isVirtualInterface (interfaceName : String) : Bool :=
  "tun".toList.isPrefixOf interfaceName.toList

/-- One entry of the search of `GetNetworkForInterface`. -/
def searchNetwork (netId : Int) (interfaceName : String) (interfaceId : Int)
    (entry : Int × NetsysNetwork) : Int :=
  if isInternalNetId entry.1 ≠ isInternalNetId netId then interfaceId
  else if interfaceId ≠ interfaceUnset then interfaceId
  else if entry.2.interfaces.contains interfaceName then entry.1
  else interfaceId

def getNetworkForInterface (manager : ConnManager) (netId : Int) (interfaceName : String) : Int :=
  manager.networks.toList.foldl (searchNetwork netId interfaceName) interfaceUnset

section Operations

variable (ifNametoindex : String → Nat) (manager : ConnManager) (netId : Int)

/-- `AddDefault` of the physical network under a number. -/
def addDefaultTo (network : PhysicalNetwork) : ConnManager :=
  let (network, routes) := network.addDefault ifNametoindex manager.routes
  { manager with
    networks := manager.networks.insert netId (.physical network)
    routes }

/-- `RemoveDefault` of the physical network under a number. -/
def removeDefaultFrom (network : PhysicalNetwork) : ConnManager :=
  let (network, routes) := network.removeDefault ifNametoindex manager.routes
  { manager with
    networks := manager.networks.insert netId (.physical network)
    routes }

/-- `DestroyNetwork`. The network that `ClearInterfaces` empties is erased from the
map at once, so its last state is not kept. -/
def destroyNetwork : ConnManager × Int :=
  if netId = RouteManager.localNetId then (manager, netmanagerError)
  else
    let manager := match manager.networks[netId]? with
      | none => manager
      | some network =>
        if manager.defaultNetId = netId then
          let manager := match network with
            | .physical network => manager.removeDefaultFrom ifNametoindex netId network
            | _ => manager
          { manager with defaultNetId := 0 }
        else manager
    ({ manager with networks := manager.networks.erase netId }, netmanagerSuccess)

/-- The second half of `SetDefaultNetwork`, and `ClearDefaultNetwork` for 0. -/
def replaceDefault : ConnManager × Int :=
  if manager.defaultNetId ≠ 0 then
    match manager.networks[manager.defaultNetId]? with
    | none => ({ manager with defaultNetId := netId }, netmanagerSuccess)
    | some (.physical network) =>
      ({ manager.removeDefaultFrom ifNametoindex manager.defaultNetId network with
          defaultNetId := netId }, netmanagerSuccess)
    | some _ => (manager, netmanagerError)
  else ({ manager with defaultNetId := netId }, netmanagerSuccess)

def setDefaultNetwork : ConnManager × Int :=
  if manager.defaultNetId = netId then (manager, netmanagerSuccess)
  else
    match manager.networks[netId]? with
    | none => manager.replaceDefault ifNametoindex netId
    | some (.physical network) =>
      (manager.addDefaultTo ifNametoindex netId network).replaceDefault ifNametoindex netId
    | some _ => (manager, netmanagerError)

def clearDefaultNetwork : ConnManager × Int := manager.replaceDefault ifNametoindex 0

def addInterfaceToNetwork (interfaceName : String) (vpnCreated : Bool) : ConnManager × Int :=
  let alreadySetNetId := manager.getNetworkForInterface netId interfaceName
  if alreadySetNetId ≠ netId ∧ alreadySetNetId ≠ interfaceUnset then (manager, netmanagerError)
  else
    match manager.networks[netId]? with
    | none => (manager, netmanagerError)
    | some network =>
      let physicalInterfaceName :=
        if network.isPhysical && !isVirtualInterface interfaceName then
          manager.physicalInterfaceName.insert netId interfaceName
        else manager.physicalInterfaceName
      let (network, routes, code) :=
        network.addInterface ifNametoindex manager.routes interfaceName vpnCreated
      ({ manager with
          networks := manager.networks.insert netId network
          physicalInterfaceName
          routes }, code)

def removeInterfaceFromNetwork (interfaceName : String) : ConnManager × Int :=
  let alreadySetNetId := manager.getNetworkForInterface netId interfaceName
  if alreadySetNetId ≠ netId ∨ alreadySetNetId = interfaceUnset then (manager, netmanagerSuccess)
  else
    match manager.networks[netId]? with
    | none => (manager, netmanagerSuccess)
    | some network =>
      let (network, routes, code) :=
        network.removeInterface ifNametoindex manager.routes interfaceName
      let physicalInterfaceName :=
        if network.isPhysical && !isVirtualInterface interfaceName then
          manager.physicalInterfaceName.erase netId
        else manager.physicalInterfaceName
      ({ manager with
          networks := manager.networks.insert netId network
          physicalInterfaceName
          routes }, code)

/-- One network of the loop of `CreatePhysicalNetwork` after `ReinitRoute`; the
lookup of the interface creates its entry. -/
def reinitNetwork : ConnManager :=
  let interfaceName := manager.physicalInterfaceName[netId]?.getD ""
  let manager := { manager with
    physicalInterfaceName := manager.physicalInterfaceName.insertIfNew netId interfaceName }
  let manager := (manager.removeInterfaceFromNetwork ifNametoindex netId interfaceName).1
  (manager.destroyNetwork ifNametoindex netId).1

/-- The numbers that the loop runs over, in order. -/
def reinitNetIds : List Int :=
  (manager.networks.toList.foldl
    (fun (netIds : ExtTreeSet Int) entry =>
      if entry.1 = RouteManager.localNetId then netIds
      else netIds.insert entry.2.netId.toNat)
    ∅).toList

def createPhysicalNetwork (netId : BitVec 16)
    (permission : NetworkPermission) : ConnManager × Int :=
  let manager := if manager.needReinitRoute then
      { manager.reinitNetIds.foldl (reinitNetwork ifNametoindex) manager with
        needReinitRoute := false }
    else manager
  ({ manager with
      networks := manager.networks.insert netId.toNat
        (.physical { netId, permission }) }, netmanagerSuccess)

def createVirtualNetwork (netId : BitVec 16) (hasDns : Bool) : ConnManager × Int :=
  ({ manager with
      networks := manager.networks.insert netId.toNat
        (.virtual { netId, hasDns }) }, netmanagerSuccess)

/-! ## Calls -/

/-- The calls of the manager. -/
inductive Call
  | createPhysicalNetwork (netId : BitVec 16) (permission : NetworkPermission)
  | createVirtualNetwork (netId : BitVec 16) (hasDns : Bool)
  | destroyNetwork (netId : Int)
  | setDefaultNetwork (netId : Int)
  | clearDefaultNetwork
  | addInterfaceToNetwork (netId : Int) (interfaceName : String) (vpnCreated : Bool)
  | removeInterfaceFromNetwork (netId : Int) (interfaceName : String)

/-- The state after a call. -/
def step : Call → ConnManager
  | .createPhysicalNetwork netId permission =>
    (manager.createPhysicalNetwork ifNametoindex netId permission).1
  | .createVirtualNetwork netId hasDns => (manager.createVirtualNetwork netId hasDns).1
  | .destroyNetwork netId => (manager.destroyNetwork ifNametoindex netId).1
  | .setDefaultNetwork netId => (manager.setDefaultNetwork ifNametoindex netId).1
  | .clearDefaultNetwork => (manager.clearDefaultNetwork ifNametoindex).1
  | .addInterfaceToNetwork netId interfaceName vpnCreated =>
    (manager.addInterfaceToNetwork ifNametoindex netId interfaceName vpnCreated).1
  | .removeInterfaceFromNetwork netId interfaceName =>
    (manager.removeInterfaceFromNetwork ifNametoindex netId interfaceName).1

end Operations

end ConnManager

end NetManager.Conn
