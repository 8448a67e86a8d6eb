import Mathlib.Logic.Function.Basic

/-!
# A downstream interface of network sharing

`NetworkShareSubStateMachine` shares the upstream network with one interface. While
it is in the shared state it installs forwarding between its interface and the
upstream interface, routes in the local network, and a DHCP server. What it asks of
netsys and of the DHCP service may fail; the answers come from the environment.
-/

namespace NetManager.Share

inductive SharingIfaceType
  | wifi
  | usb
  | bluetooth
  deriving DecidableEq

/-- The error codes that the machines use. -/
inductive ShareError
  | success
  | enableForwardingError
  | internalError
  deriving DecidableEq

structure INetAddr where
  family : Nat
  address : String
  deriving DecidableEq

def netFamilyIpv4 : Nat := 1
def netFamilyIpv6 : Nat := 2

structure NetLinkInfo where
  ifaceName : String
  netAddrList : List INetAddr
  deriving DecidableEq

/-- `UpstreamNetworkInfo`; a handle is the number of its network. -/
structure UpstreamNetworkInfo where
  netHandle : Option Int
  netLinkPro : Option NetLinkInfo
  deriving DecidableEq

structure NetworkShareConfiguration where
  btpanIpv4Addr : String
  btpanDhcpServerName : String
  wifiHotspotIpv4Addr : String
  wifiHotspotDhcpServerName : String
  wifiHotspotSetDhcpFlag : Bool
  usbRndisIpv4Addr : String
  usbRndisDhcpServerName : String
  routeSuffix : String
  dhcpEndIP : String
  defaultMask : String

/-! ## Requests to the outside -/

/-- The calls of netsys, of the DHCP service and of the advertisement daemon that
can fail. -/
inductive Request
  | ipEnableForwarding
  | ipDisableForwarding
  | ipfwdAddInterfaceForward (fromIface toIface : String)
  | ipfwdRemoveInterfaceForward (fromIface toIface : String)
  | networkAddInterface (iface : String)
  | networkAddRoute (iface destination : String)
  | networkRemoveRoute (iface destination : String)
  | addInterfaceAddress (iface address : String)
  | getInterfaceConfig (iface : String)
  | setDhcpRange (iface : String)
  | startDhcpServer (iface : String)
  | stopDhcpServer (iface : String)
  | initRa (iface : String)
  | startRa (iface : String)
  | startDnsProxyListen
  | stopDnsProxyListen
  | shareDnsSet (netId : Int)
  deriving DecidableEq

/-- What the outside answers while an event is handled, by the number of the
request. -/
structure Environment where
  succeeds : Nat → Request → Bool
  /-- A failed `IpEnableForwarding` has recorded its requester, as it does when only
  the write to the kernel fails. -/
  recorded : Nat → Bool
  /-- `if_nametoindex`. -/
  interfaceIndex : String → Nat
  /-- The route that `GenerateIpv6` derives from an address of the upstream. -/
  prefixRoute : String → String
  /-- `GetHotspotMode` gives `LOCAL_ONLY_SOFTAP`. -/
  localOnly : Nat → Bool
  /-- What `GetCurrentGoodUpstream` finds. -/
  goodUpstream : Nat → Option (Option Int × NetLinkInfo)

/-- What is installed outside. -/
structure Netsys where
  /-- How many requests were made. -/
  requests : Nat := 0
  /-- The forwarding pairs, one entry for each time a pair was added. -/
  forwards : List (String × String) := []
  /-- The routes of the local network: interface and destination. -/
  localRoutes : List (String × String) := []
  /-- The interfaces with a running DHCP server. -/
  dhcpServers : List String := []
  /-- `netsharing_requester` is one of `forwardingRequests_`. -/
  forwardingRequested : Bool := false

namespace Netsys

variable (env : Environment) (netsys : Netsys)

/-- The answer to a request. -/
def answer (request : Request) : Bool := env.succeeds netsys.requests request

/-- The next request. -/
def next : Netsys := { netsys with requests := netsys.requests + 1 }

def ipfwdAddInterfaceForward (fromIface toIface : String) : Netsys × Bool :=
  if netsys.answer env (.ipfwdAddInterfaceForward fromIface toIface) then
    ({ netsys.next with forwards := netsys.forwards ++ [(fromIface, toIface)] }, true)
  else (netsys.next, false)

/-- `IpfwdRemoveInterfaceForward`: one entry of the pair goes, if there is one. -/
def ipfwdRemoveInterfaceForward (fromIface toIface : String) : Netsys :=
  if netsys.answer env (.ipfwdRemoveInterfaceForward fromIface toIface) then
    { netsys.next with forwards := netsys.forwards.erase (fromIface, toIface) }
  else netsys.next

/-- `NetworkAddRoute` to the local network. -/
def networkAddRoute (iface destination : String) : Netsys × Bool :=
  if netsys.answer env (.networkAddRoute iface destination) then
    ({ netsys.next with
        localRoutes := netsys.localRoutes.insert (iface, destination) }, true)
  else (netsys.next, false)

/-- `NetworkRemoveRoute` from the local network. -/
def networkRemoveRoute (iface destination : String) : Netsys × Bool :=
  if netsys.answer env (.networkRemoveRoute iface destination) then
    ({ netsys.next with
        localRoutes := netsys.localRoutes.filter (· ≠ (iface, destination)) }, true)
  else (netsys.next, false)

/-- A request whose effect is not modelled. -/
def ask (request : Request) : Netsys × Bool := (netsys.next, netsys.answer env request)

def startDhcpServer (iface : String) : Netsys × Bool :=
  if netsys.answer env (.startDhcpServer iface) then
    ({ netsys.next with dhcpServers := netsys.dhcpServers.insert iface }, true)
  else (netsys.next, false)

def stopDhcpServer (iface : String) : Netsys × Bool :=
  if netsys.answer env (.stopDhcpServer iface) then
    ({ netsys.next with dhcpServers := netsys.dhcpServers.filter (· ≠ iface) }, true)
  else (netsys.next, false)

def ipEnableForwarding : Netsys × Bool :=
  if netsys.answer env .ipEnableForwarding then
    ({ netsys.next with forwardingRequested := true }, true)
  else
    ({ netsys.next with
        forwardingRequested := netsys.forwardingRequested || env.recorded netsys.requests }, false)

def ipDisableForwarding : Netsys × Bool :=
  if netsys.answer env .ipDisableForwarding then
    ({ netsys.next with forwardingRequested := false }, true)
  else (netsys.next, false)

end Netsys

/-! ## The machine -/

/-- The states of `NetworkShareSubStateMachine`; `SUBSTATE_RESTART` is never
entered. -/
inductive SubState
  | init
  | shared
  | unavailable
  deriving DecidableEq

/-- `NetworkShareSubStateMachine`. -/
structure SubStateMachine where
  ifaceName : String
  netShareType : SharingIfaceType
  configuration : NetworkShareConfiguration
  curState : SubState := .init
  lastError : ShareError := .success
  upstreamIfaceName : String := ""
  tunv4UpstreamIfaceName : String := ""
  destination : String := ""
  /-- `raDaemon_` is not null. -/
  raDaemon : Bool := false

namespace SubStateMachine

variable (machine : SubStateMachine)

/-- The address that the configuration has for the interface. -/
def ipv4Addr : String :=
  match machine.netShareType with
  | .wifi => machine.configuration.wifiHotspotIpv4Addr
  | .usb => machine.configuration.usbRndisIpv4Addr
  | .bluetooth => machine.configuration.btpanIpv4Addr

/-- The name of the DHCP server that the configuration has for the interface. -/
def dhcpServerName : String :=
  match machine.netShareType with
  | .wifi => machine.configuration.wifiHotspotDhcpServerName
  | .usb => machine.configuration.usbRndisDhcpServerName
  | .bluetooth => machine.configuration.btpanDhcpServerName

/-- The text before the last dot, if there is one. -/
def beforeLastDot (text : String) : Option String :=
  match text.toList.reverse.dropWhile (· ≠ '.') with
  | [] => none
  | _ :: rest => some (String.ofList rest.reverse)

/-- `FindDestinationAddr`, with `GetBtDestinationAddr`, `GetWifiApDestinationAddr`
and `GetUsbDestinationAddr`, which differ in the address they read. -/
def findDestinationAddr : Option String :=
  if machine.ipv4Addr.isEmpty then none
  else
    match beforeLastDot machine.ipv4Addr with
    | none => none
    | some head =>
      if machine.configuration.routeSuffix.isEmpty then none
      else some (head ++ machine.configuration.routeSuffix)

/-- `RequestIpv4Address` finds an address. -/
def requestIpv4Address : Bool :=
  !machine.configuration.defaultMask.isEmpty && !machine.ipv4Addr.isEmpty &&
    !machine.dhcpServerName.isEmpty

def checkConfig : Bool :=
  !machine.configuration.dhcpEndIP.isEmpty && !machine.configuration.defaultMask.isEmpty

def hasChangeUpstreamIfaceSet (newUpstreamIface : String) : Bool :=
  if machine.upstreamIfaceName.isEmpty && newUpstreamIface.isEmpty then false
  else if !machine.upstreamIfaceName.isEmpty && !newUpstreamIface.isEmpty then
    machine.upstreamIfaceName != newUpstreamIface
  else true

end SubStateMachine

/-- A machine with what it has installed. -/
structure Downstream where
  machine : SubStateMachine
  /-- What is installed outside. -/
  netsys : Netsys

namespace Downstream

variable (env : Environment) (downstream : Downstream)

def removeRoutesToLocalNetwork : Downstream :=
  match downstream.machine.findDestinationAddr with
  | none => downstream
  | some destination =>
    let (netsys, removed) := downstream.netsys.networkRemoveRoute env
      downstream.machine.ifaceName destination
    if removed then ⟨{ downstream.machine with destination := "" }, netsys⟩
    else ⟨downstream.machine, netsys⟩

def addRoutesToLocalNetwork : Downstream :=
  match downstream.machine.findDestinationAddr with
  | none => downstream
  | some destination =>
    if downstream.machine.destination = destination then downstream
    else
      let (netsys, added) := downstream.netsys.networkAddRoute env
        downstream.machine.ifaceName destination
      if added then ⟨{ downstream.machine with destination }, netsys⟩
      else ⟨downstream.machine, netsys⟩

/-- `upstreamIfaceName_` is set. -/
def setUpstreamIfaceName (iface : String) (downstream : Downstream) : Downstream :=
  { downstream with
    machine := { downstream.machine with upstreamIfaceName := iface } }

def cleanupUpstreamInterface : Downstream :=
  let ⟨machine, netsys⟩ := downstream.removeRoutesToLocalNetwork env
  let (machine, netsys) :=
    if machine.tunv4UpstreamIfaceName.isEmpty then (machine, netsys)
    else
      ({ machine with tunv4UpstreamIfaceName := "" },
        netsys.ipfwdRemoveInterfaceForward env machine.ifaceName machine.tunv4UpstreamIfaceName)
  ⟨machine, netsys.ipfwdRemoveInterfaceForward env machine.ifaceName machine.upstreamIfaceName⟩

def startDhcp : Downstream :=
  if !downstream.machine.checkConfig then downstream
  else
    match SubStateMachine.beforeLastDot downstream.machine.ipv4Addr with
    | none => downstream
    | some _ =>
      let (netsys, ranged) := downstream.netsys.ask env (.setDhcpRange downstream.machine.ifaceName)
      if !ranged then ⟨downstream.machine, netsys⟩
      else ⟨downstream.machine, (netsys.startDhcpServer env downstream.machine.ifaceName).1⟩

def stopDhcp : Downstream :=
  if downstream.machine.netShareType = .wifi then downstream
  else ⟨downstream.machine, (downstream.netsys.stopDhcpServer env downstream.machine.ifaceName).1⟩

def configureShareDhcp (enabled : Bool) : Downstream :=
  if enabled then
    if !downstream.machine.requestIpv4Address then downstream
    else if downstream.machine.netShareType = .wifi ∧
        downstream.machine.configuration.wifiHotspotSetDhcpFlag = false then downstream
    else downstream.startDhcp env
  else downstream.stopDhcp env

def configureShareIpv4 (link : NetLinkInfo) : Downstream :=
  if link.netAddrList.any (·.family = netFamilyIpv4) then
    (downstream.addRoutesToLocalNetwork env).configureShareDhcp env true
  else downstream

/-- The loop of `AddIpv6AddrToLocalNetwork` over the prefixes; the first address
that cannot be set ends the function. -/
def addIpv6Addrs (iface : String) (netsys : Netsys) : List INetAddr → Netsys × Bool
  | [] => (netsys, true)
  | inetAddr :: rest =>
    let (netsys, set) := netsys.ask env (.addInterfaceAddress iface inetAddr.address)
    if !set then (netsys, false)
    else
      addIpv6Addrs iface
        (netsys.networkAddRoute env iface (env.prefixRoute inetAddr.address)).1 rest

def defaultLinkRoute : String := "fe80::/64"

/-- `AddIpv6InfoToLocalNetwork`, with `AddIpv6AddrToLocalNetwork`. -/
def addIpv6InfoToLocalNetwork (prefixes : List INetAddr) : Downstream :=
  let iface := downstream.machine.ifaceName
  let (netsys, configured) := downstream.netsys.ask env (.getInterfaceConfig iface)
  if !configured then ⟨downstream.machine, netsys⟩
  else
    let (netsys, finished) := addIpv6Addrs env iface netsys prefixes
    if !finished then ⟨downstream.machine, netsys⟩
    else ⟨downstream.machine, (netsys.networkAddRoute env iface defaultLinkRoute).1⟩

def stopIpv6 : Downstream :=
  { downstream with machine := { downstream.machine with raDaemon := false } }

def startIpv6 : Downstream :=
  let iface := downstream.machine.ifaceName
  let machine := { downstream.machine with raDaemon := true }
  let (netsys, ready) := downstream.netsys.ask env (.initRa iface)
  if !ready then ⟨machine, netsys⟩
  else
    let (netsys, started) := netsys.ask env (.startRa iface)
    if !started then stopIpv6 ⟨machine, netsys⟩
    else ⟨machine, netsys⟩

def configureShareIpv6 (link : NetLinkInfo) : Downstream :=
  let prefixes := link.netAddrList.filter (·.family = netFamilyIpv6)
  if prefixes.isEmpty then downstream
  else if downstream.machine.raDaemon then downstream
  else (downstream.addIpv6InfoToLocalNetwork env prefixes).startIpv6 env

def sharedStateExit : Downstream :=
  ((downstream.cleanupUpstreamInterface env).configureShareDhcp env false).stopIpv6

/-- The part of `HandleConnection` for the interface that CLAT adds to the upstream;
the name that is remembered for it. -/
def addTunv4Forward (iface tunv4 : String) (netsys : Netsys) : Netsys × String :=
  if env.interfaceIndex tunv4 = 0 then (netsys, tunv4)
  else
    let (netsys, added) := netsys.ipfwdAddInterfaceForward env iface tunv4
    if added then (netsys, tunv4)
    else (netsys.ipfwdRemoveInterfaceForward env iface tunv4, "")

/-- What `HandleConnection` takes back when the local network refuses the
interface. -/
def removeForwards (iface upstream tunv4 tunv4Name : String) (netsys : Netsys) : Netsys :=
  (if env.interfaceIndex tunv4 = 0 then netsys
    else netsys.ipfwdRemoveInterfaceForward env iface tunv4Name)
    |>.ipfwdRemoveInterfaceForward env iface upstream

/-- `HandleConnection` up to the switch of state after a failure; whether all went
well. -/
def handleConnection : Downstream × Bool :=
  let machine := downstream.machine
  let iface := machine.ifaceName
  let upstream := machine.upstreamIfaceName
  let tunv4 := "tunv4-" ++ upstream
  let failed := { machine with
    tunv4UpstreamIfaceName := ""
    lastError := .enableForwardingError }
  let (netsys, added) := downstream.netsys.ipfwdAddInterfaceForward env iface upstream
  if added then
    let (netsys, tunv4Name) := addTunv4Forward env iface tunv4 netsys
    let (netsys, attached) := netsys.ask env (.networkAddInterface iface)
    if attached then (⟨{ machine with tunv4UpstreamIfaceName := tunv4Name }, netsys⟩, true)
    else (⟨failed, removeForwards env iface upstream tunv4 tunv4Name netsys⟩, false)
  else (⟨failed, netsys.ipfwdRemoveInterfaceForward env iface upstream⟩, false)

end Downstream

end NetManager.Share
