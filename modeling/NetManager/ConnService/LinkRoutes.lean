import NetManager.Library.Inventory

/-!
# Link information of a network

`Network::UpdateNetLinkInfo` compares the link information it remembers with a new one
and asks netsys to remove and to add routes. A network that is no VPN has most of its
routes twice: in its own table and in the table of the local network. Netsys is a store
of routes here whose calls succeed; what `inet_pton` says of an address is a parameter.
-/

namespace NetManager.ConnService

open Inventory

structure INetAddr where
  type : UInt8 := 0
  family : UInt8 := 0
  prefixlen : UInt8 := 0
  address : String := ""
  netMask : String := ""
  hostName : String := ""
  port : UInt8 := 0
  deriving DecidableEq

/-- `INetAddr::IpType::IPV4`. -/
def INetAddr.ipv4 : UInt8 := 1
/-- `INetAddr::IpType::IPV6`. -/
def INetAddr.ipv6 : UInt8 := 2

/-- `Route`, the fields that are compared. -/
structure Route where
  iface : String
  destination : INetAddr
  gateway : INetAddr
  isExcludedRoute : Bool := false
  deriving DecidableEq

structure NetLinkInfo where
  ifaceName : String := ""
  netAddrList : List INetAddr := []
  routeList : List Route := []

namespace NetLinkInfo

def hasNetAddr (info : NetLinkInfo) (netAddr : INetAddr) : Bool := info.netAddrList.contains netAddr

def hasRoute (info : NetLinkInfo) (route : Route) : Bool := info.routeList.contains route

end NetLinkInfo

/-- What `GetAddrFamily` returns. -/
inductive AddrFamily where
  | inet
  | inet6
  /-- 0. -/
  | unspecified
  deriving DecidableEq

/-- `NetworkRouteInfo`, a route as netsys gets it. -/
structure NetworkRouteInfo where
  ifName : String
  destination : String
  nextHop : String
  isExcludedRoute : Bool := false
  deriving DecidableEq

/-- The routes that netsys has, each with its network. -/
abbrev RouteStore := List (Int × NetworkRouteInfo)

def localNetId : Int := 99
def localRouteNextHop : String := "0.0.0.0"
def localRouteIpv6Destination : String := "::"
def maxRouteAddressLength : Nat := 4096
def batchRouteThreshold : Nat := 1024

/-- `Network`, and the routes that netsys has. -/
structure Network where
  netId : Int
  /-- `netSupplierType_` is `BEARER_VPN`. -/
  isVpn : Bool := false
  isPhyNetCreated : Bool := false
  isSupportInternet : Bool := false
  isNeedResume : Bool := false
  netLinkInfo : NetLinkInfo := {}
  /-- The routes of netsys. -/
  store : RouteStore := []

namespace Network

variable (route : Route)

def isAddressValid : Bool := route.destination.address.utf8ByteSize ≤ maxRouteAddressLength

/-- The text of a destination. -/
def destAddress : String :=
  route.destination.address ++ "/" ++ toString route.destination.prefixlen.toNat

/-- The route as it is added to the table of its network. -/
def addedRoute : NetworkRouteInfo :=
  ⟨route.iface, destAddress route, route.gateway.address, route.isExcludedRoute⟩

/-- The route as it is removed from there: `NetworkRemoveRoute` takes `isExcludedRoute`
to be false when it is left out. -/
def removedRoute : NetworkRouteInfo :=
  ⟨route.iface, destAddress route, route.gateway.address, false⟩

/-- A route with a copy in the local table. -/
def hasLocalRoute (network : Network) (route : Route) : Bool :=
  !network.isVpn && route.destination.address ≠ localRouteNextHop &&
    route.destination.address ≠ localRouteIpv6Destination

section Family

variable (getAddrFamily : String → AddrFamily)

/-- The route in the local table. -/
def localRoute (route : Route) : NetworkRouteInfo :=
  ⟨route.iface, destAddress route,
    if getAddrFamily route.destination.address = .inet6 then "" else localRouteNextHop, false⟩

/-! ## Updates -/

/-- The loop of `RemoveRouteByFamily`: the routes that are left. A route whose address is
too long is looked at again and again. -/
def removeRouteByFamily (netId : Int) (addrFamily : UInt8) :
    List Route → RouteStore → Option (List Route × RouteStore)
  | [], store => some ([], store)
  | route :: routes, store =>
    if route.destination.type ≠ addrFamily then
      match removeRouteByFamily netId addrFamily routes store with
      | none => none
      | some (left, store) => some (route :: left, store)
    else if !isAddressValid route then none
    else
      removeRouteByFamily netId addrFamily routes
        (remove store (netId, removedRoute route))

variable (network : Network)

/-- `RemoveRouteByFamily` on the remembered routes. -/
def removeRoutes (addrFamily : UInt8) : Option Network :=
  match removeRouteByFamily network.netId addrFamily network.netLinkInfo.routeList
    network.store with
  | none => none
  | some (left, store) =>
    some { network with
      netLinkInfo := { network.netLinkInfo with routeList := left }
      store := store }

/-- An address of a family stays. -/
def hasSameAddr (old new : NetLinkInfo) (family : AddrFamily) : Bool :=
  old.netAddrList.any fun inetAddr =>
    new.hasNetAddr inetAddr && getAddrFamily inetAddr.address = family

variable (newNetLinkInfo : NetLinkInfo)

/-- `UpdateIpAddrs`, as far as routes go. -/
def updateIpAddrs : Option Network :=
  let old := network.netLinkInfo
  let afterIpv4 :=
    if hasSameAddr getAddrFamily old newNetLinkInfo .inet then some network
    else network.removeRoutes INetAddr.ipv4
  match afterIpv4 with
  | none => none
  | some network =>
    if hasSameAddr getAddrFamily old newNetLinkInfo .inet6 then some network
    else network.removeRoutes INetAddr.ipv6

variable (store : RouteStore) (route : Route)

/-- One round of the first loop of `UpdateRoutes`. -/
def removeOldRoute : RouteStore :=
  if newNetLinkInfo.hasRoute route then store
  else if !isAddressValid route then store
  else
    let store := remove store (network.netId, removedRoute route)
    if network.hasLocalRoute route then
      remove store (localNetId, localRoute getAddrFamily route)
    else store

/-- One round of `UpdateNewRoutes`. -/
def addNewRoute : RouteStore :=
  if network.netLinkInfo.hasRoute route then store
  else if !isAddressValid route then store
  else
    let store := add store (network.netId, addedRoute route)
    if network.hasLocalRoute route then
      add store (localNetId, localRoute getAddrFamily route)
    else store

def updateNewRoutes : RouteStore :=
  newNetLinkInfo.routeList.foldl (network.addNewRoute getAddrFamily) store

/-- `BatchUpdateRoutes`: the same routes, those of the local table after the others. -/
def batchUpdateRoutes : RouteStore :=
  let fresh := newNetLinkInfo.routeList.filter fun route =>
    !network.netLinkInfo.hasRoute route && isAddressValid route
  let batchRoutes := fresh.map addedRoute
  let batchLocalRoutes :=
    (fresh.filter fun route => network.hasLocalRoute route).map (localRoute getAddrFamily)
  let store := addAll store (batchRoutes.map fun route => (network.netId, route))
  addAll store (batchLocalRoutes.map fun route => (localNetId, route))

def updateRoutes : Network :=
  let store := network.netLinkInfo.routeList.foldl
    (network.removeOldRoute getAddrFamily newNetLinkInfo) network.store
  { network with
    store :=
      if newNetLinkInfo.routeList.length > batchRouteThreshold then
        network.batchUpdateRoutes getAddrFamily newNetLinkInfo store
      else network.updateNewRoutes getAddrFamily newNetLinkInfo store }

/-- `UpdateNetLinkInfo`; there is no network when it does not return. -/
def updateNetLinkInfo (isIfaceNameInUse : Bool) (network : Network)
    (netLinkInfo : NetLinkInfo) : Option Network :=
  let updated :=
    if !isIfaceNameInUse || network.isSupportInternet then
      network.updateIpAddrs getAddrFamily netLinkInfo
    else some network
  match updated with
  | none => none
  | some network =>
    some { network.updateRoutes getAddrFamily netLinkInfo with netLinkInfo := netLinkInfo }

/-! ## Release -/

/-- One round of `ReleaseRouteList`. -/
def releaseLocalRoute : RouteStore :=
  if route.destination.address ≠ localRouteNextHop ∧
      route.destination.address ≠ localRouteIpv6Destination then
    if !isAddressValid route then store
    else remove store (localNetId, localRoute getAddrFamily route)
  else store

/-- One route of the network's own table. -/
def releaseRoute (netId : Int) (store : RouteStore) (route : Route) : RouteStore :=
  if !isAddressValid route then store
  else remove store (netId, removedRoute route)

def releaseBasicNetwork (isIfaceNameInUse : Bool) (network : Network) : Network :=
  if !network.isPhyNetCreated then network
  else
    let routes := network.netLinkInfo.routeList
    let released := !isIfaceNameInUse || network.isNeedResume
    let store :=
      if released then routes.foldl (releaseLocalRoute getAddrFamily) network.store
      else network.store
    { network with
      isNeedResume := if released then false else network.isNeedResume
      store := routes.foldl (releaseRoute network.netId) store
      netLinkInfo := {}
      isPhyNetCreated := false }

end Family

end Network

end NetManager.ConnService
