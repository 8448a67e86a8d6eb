import Mathlib.Data.List.Count
import NetManager.Share.SubStateMachine

/-!
# The machines of network sharing

`NetworkShareTracker` owns one sub machine for each downstream interface and the main
machine, which turns IP forwarding on while an interface is shared. The machines call
each other: entering a state of a sub machine notifies the main machine, which may
give events to sub machines before the call returns. A handler takes the handlers of
nested events as an argument, so that the depth of nesting is the only recursion.
-/

namespace NetManager.Share

open Std

/-- The states that the tracker is told of. -/
inductive SubSmState
  | available
  | unavailable
  | shared
  deriving DecidableEq

/-- The events of a sub machine; `unmatched` is one that no row of its table has. -/
inductive SubEvent
  | requested
  | unrequested
  | interfaceDown
  | ipForwardingEnableError
  | ipForwardingDisableError
  | startSharingError
  | stopSharingError
  | setDnsForwardersError
  | connectionChanged (upstream : Option UpstreamNetworkInfo)
  | unmatched

/-- The table of a sub machine: the next state, if there is one. -/
def SubEvent.nextState (event : SubEvent) (state : SubState) : Option (Option SubState) :=
  match state, event with
  | .init, .requested => some (some .shared)
  | .init, .interfaceDown => some (some .unavailable)
  | .init, .unrequested => some (some .unavailable)
  | .shared, .unrequested => some (some .init)
  | .shared, .interfaceDown => some (some .unavailable)
  | .shared, .connectionChanged _ => some none
  | .shared, .ipForwardingEnableError => some (some .init)
  | .shared, .ipForwardingDisableError => some (some .init)
  | .shared, .startSharingError => some (some .init)
  | .shared, .stopSharingError => some (some .init)
  | .shared, .setDnsForwardersError => some (some .init)
  | _, _ => none

/-- The states of `NetworkShareMainStateMachine`. -/
inductive MainState
  | init
  | alive
  | error
  deriving DecidableEq

/-- The values of `errorType_`. -/
inductive MainError
  | noError
  | ipForwardingEnableError
  | ipForwardingDisableError
  | setDnsForwardersError
  deriving DecidableEq

/-- The event that an error is for a sub machine. -/
def MainError.event : MainError → SubEvent
  | noError => .unmatched
  | ipForwardingEnableError => .ipForwardingEnableError
  | ipForwardingDisableError => .ipForwardingDisableError
  | setDnsForwardersError => .setDnsForwardersError

/-- `NetworkShareMainStateMachine`; a sub machine is named by its number. -/
structure MainStateMachine where
  curState : MainState := .init
  errorType : MainError := .noError
  hasSetForward : Bool := false
  subMachineList : List Nat := []
  upstreamIfaceName : String := ""

structure NetSharingSubSmState where
  subStateMachine : Nat
  lastState : SubSmState := .available
  lastError : ShareError := .success

/-- The tracker with its machines. -/
structure System where
  /-- The sub machines, by number. -/
  subs : Nat → SubStateMachine
  /-- How many sub machines were created. -/
  created : Nat
  subStateMachineMap : ExtTreeMap String NetSharingSubSmState
  sharedSubSM : List Nat
  upstreamInfo : Option UpstreamNetworkInfo
  isStartDnsProxy : Bool
  main : MainStateMachine
  /-- What is installed outside. -/
  netsys : Netsys

namespace System

variable (system : System)

/-- A sub machine and what is installed. -/
def downstream (id : Nat) : Downstream := ⟨system.subs id, system.netsys⟩

/-- A sub machine and what is installed, changed. -/
def put (id : Nat) (downstream : Downstream) : System :=
  { system with
    subs := Function.update system.subs id downstream.machine
    netsys := downstream.netsys }

/-- A sub machine changes its own fields. -/
def modifySub (id : Nat) (change : SubStateMachine → SubStateMachine) : System :=
  { system with subs := Function.update system.subs id (change (system.subs id)) }

/-- `std::for_each` over a list of sub machines that the loop body may shorten. The
loop runs to the end that the list had; past the end of the shortened list it reads
the null pointers that `erase` leaves and skips them. -/
def forEach (list : System → List Nat)
    (body : Nat → System → Option System) : Nat → Nat → System → Option System
  | 0, _, system => some system
  | remaining + 1, index, system =>
    match (list system)[index]? with
    | none => forEach list body remaining (index + 1) system
    | some id => do
        let system ← body id system
        forEach list body remaining (index + 1) system

/-! ## Sub machines -/

section Sub

variable (env : Environment) (callback : Nat → SubSmState → ShareError → System → Option System)
  (id : Nat)

/-- A sub machine takes a new state and leaves the old one. -/
def exitSubState (newState : SubState) (system : System) : System :=
  let entered := system.modifySub id fun machine => { machine with curState := newState }
  if (system.subs id).curState = .shared then
    entered.put id ((entered.downstream id).sharedStateExit env)
  else entered

/-- `SubSmStateSwitch`, with the functions that enter and leave the states. -/
def subSmStateSwitch (newState : SubState) (system : System) : Option System :=
  let system := exitSubState env id newState system
  match newState with
  | .init => callback id .available (system.subs id).lastError system
  | .shared => callback id .shared (system.subs id).lastError system
  | .unavailable =>
    callback id .unavailable .success
      (system.modifySub id fun machine => { machine with lastError := .success })

/-- What `HandleConnectionChanged` does about another upstream interface. -/
def changeUpstreamIface (upstreamIface : String) (system : System) : Option System :=
  if (system.subs id).hasChangeUpstreamIfaceSet upstreamIface then
    let renamed :=
      ((system.downstream id).cleanupUpstreamInterface env).setUpstreamIfaceName upstreamIface
    if env.localOnly renamed.netsys.requests then some (system.put id renamed)
    else
      let (connected, ok) := renamed.handleConnection env
      if ok then some (system.put id connected)
      else subSmStateSwitch env callback id .init (system.put id connected)
  else some system

def handleConnectionChanged (link : NetLinkInfo) (system : System) : Option System := do
  let system ← changeUpstreamIface env callback id link.ifaceName system
  let configured := (system.downstream id).configureShareIpv4 env link
  some (system.put id (configured.configureShareIpv6 env link))

/-- The functions of the table of a sub machine. -/
def subSmAction (event : SubEvent) (system : System) : Option System :=
  match event with
  | .requested => some (system.modifySub id fun machine => { machine with lastError := .success })
  | .connectionChanged none =>
    some (system.put id
      (((system.downstream id).cleanupUpstreamInterface env).setUpstreamIfaceName ""))
  | .connectionChanged (some upstream) =>
    match upstream.netLinkPro with
    | none => some system
    | some link => handleConnectionChanged env callback id link system
  | .unrequested => some system
  | .interfaceDown => some system
  | .unmatched => some system
  | .ipForwardingEnableError | .ipForwardingDisableError | .startSharingError
  | .stopSharingError | .setDnsForwardersError =>
    some (system.modifySub id fun machine => { machine with lastError := .internalError })

/-- `SubSmEventHandle`. -/
def subSmEventHandleWith (event : SubEvent) (system : System) : Option System :=
  match event.nextState (system.subs id).curState with
  | none => some system
  | some nextState => do
      let system ← subSmAction env callback id event system
      match nextState with
      | none => some system
      | some newState => subSmStateSwitch env callback id newState system

end Sub

/-! ## The main machine and the tracker -/

/-- What an upstream callback reports. -/
inductive UpstreamCallback
  | onLinkProperties
  | onLost
  | onCapabilities
  | defaultSwitched
  | other
  deriving DecidableEq

/-- The events of the main machine. -/
inductive MainEvent
  | ifaceSmStateActive (id : Nat)
  | ifaceSmStateInactive (id : Nat)
  | upstreamCallback (callback : UpstreamCallback)
  | clearError

section Main

variable (env : Environment) (subSmEventHandle : Nat → SubEvent → System → Option System)
  (system : System)

/-- The main machine changes its own fields. -/
def modifyMain (change : MainStateMachine → MainStateMachine) : System :=
  { system with main := change system.main }

/-- A request whose effect is not modelled. -/
def ask (request : Request) : System × Bool :=
  let (netsys, ok) := system.netsys.ask env request
  ({ system with netsys }, ok)

variable (upstream : Option UpstreamNetworkInfo)

/-- `NotifyDownstreamsHasNewUpstreamIface`. -/
def notifyDownstreams (system : System) : Option System :=
  forEach System.sharedSubSM
    (fun id => subSmEventHandle id (.connectionChanged upstream))
    system.sharedSubSM.length 0 { system with upstreamInfo := upstream }

def modifySharedSubStateMachineList (isAdd : Bool) (id : Nat) (system : System) : System :=
  if isAdd then
    if system.sharedSubSM.contains id then system
    else { system with sharedSubSM := system.sharedSubSM ++ [id] }
  else { system with sharedSubSM := system.sharedSubSM.erase id }

def errorStateEnter : Option System :=
  forEach (fun system => system.main.subMachineList)
    (fun id system => subSmEventHandle id system.main.errorType.event system)
    system.main.subMachineList.length 0 system

/-- What `MainSmStateSwitch` does to leave the old state. -/
def leaveState (newState : MainState) (system : System) : Option System :=
  let oldState := system.main.curState
  let system := system.modifyMain fun main => { main with curState := newState }
  if oldState = .alive then notifyDownstreams subSmEventHandle none system
  else some system

/-- `MainSmStateSwitch(MAINSTATE_INIT)`. -/
def switchToInit : Option System := leaveState subSmEventHandle .init system

/-- `MainSmStateSwitch(MAINSTATE_ERROR)`, with the error that is set before. -/
def switcheToErrorState (errType : MainError) (system : System) : Option System := do
  let system := system.modifyMain fun main => { main with errorType := errType }
  let system ← leaveState subSmEventHandle .error system
  errorStateEnter subSmEventHandle system

/-- `SetDnsForwarders` starts the DNS proxy first. -/
def startDnsProxy : System × Bool :=
  if system.isStartDnsProxy then (system, true)
  else
    let (system, ok) := system.ask env .startDnsProxyListen
    ({ system with isStartDnsProxy := ok }, ok)

def setDnsForwarders (netId : Int) (system : System) : Option System :=
  let (system, started) := system.startDnsProxy env
  if !started then switcheToErrorState subSmEventHandle .setDnsForwardersError system
  else if netId < 0 then switcheToErrorState subSmEventHandle .setDnsForwardersError system
  else
    let (system, ok) := system.ask env (.shareDnsSet netId)
    if !ok then switcheToErrorState subSmEventHandle .setDnsForwardersError system
    else some system

def stopDnsProxy : System :=
  if system.isStartDnsProxy then
    let (system, ok) := system.ask env .stopDnsProxyListen
    if ok then { system with isStartDnsProxy := false } else system
  else system

def setUpstreamNetHandle (system : System) : Option System := do
  let system ← match upstream.bind UpstreamNetworkInfo.netHandle with
    | some netId => setDnsForwarders env subSmEventHandle netId system
    | none => some (system.stopDnsProxy env)
  notifyDownstreams subSmEventHandle upstream system

def chooseUpstreamNetwork : Option System :=
  match env.goodUpstream system.netsys.requests with
  | none => some system
  | some (netHandle, link) =>
    setUpstreamNetHandle env subSmEventHandle (some ⟨netHandle, some link⟩)
      (system.modifyMain fun main => { main with upstreamIfaceName := link.ifaceName })

def disableForward : Option System := do
  let system ← setUpstreamNetHandle env subSmEventHandle none system
  some (system.modifyMain fun main => { main with upstreamIfaceName := "" })

def turnOffMainShareSettings : Option System := do
  let (netsys, disabled) := system.netsys.ipDisableForwarding env
  let system := { system with netsys }
  if !disabled then switcheToErrorState subSmEventHandle .ipForwardingDisableError system
  else
    let system ← switchToInit subSmEventHandle system
    some (system.modifyMain fun main => { main with hasSetForward := false })

/-- `AliveStateEnter`, with `TurnOnMainShareSettings`. -/
def aliveStateEnter : Option System :=
  if system.main.hasSetForward then
    if system.sharedSubSM.isEmpty then some system
    else chooseUpstreamNetwork env subSmEventHandle system
  else
    let (netsys, enabled) := system.netsys.ipEnableForwarding env
    let system := { system with netsys }
    if !enabled then switcheToErrorState subSmEventHandle .ipForwardingEnableError system
    else
      let system := system.modifyMain fun main => { main with hasSetForward := true }
      if system.sharedSubSM.isEmpty then some system
      else chooseUpstreamNetwork env subSmEventHandle system

/-- `MainSmStateSwitch(MAINSTATE_ALIVE)`. -/
def switchToAlive : Option System := do
  let system ← leaveState subSmEventHandle .alive system
  aliveStateEnter env subSmEventHandle system

variable (id : Nat)

/-- The sub machine is put into both lists. -/
def addSharedSubSM (system : System) : System :=
  modifySharedSubStateMachineList true id
    (if system.main.subMachineList.contains id then system
    else system.modifyMain fun main => { main with subMachineList := main.subMachineList ++ [id] })

def eraseSharedSubSM (system : System) : System :=
  modifySharedSubStateMachineList false id
    (system.modifyMain fun main =>
      { main with subMachineList := main.subMachineList.filter (· ≠ id) })

def handleAliveInterfaceStateInactive (system : System) : Option System := do
  let system := eraseSharedSubSM id system
  if system.main.subMachineList.isEmpty then
    let system ← disableForward env subSmEventHandle system
    turnOffMainShareSettings env subSmEventHandle system
  else some system

def handleAliveUpstreamMonitorCallback (callback : UpstreamCallback) (system : System) :
    Option System :=
  if system.sharedSubSM.isEmpty then some system
  else
    match callback with
    | .onLinkProperties => chooseUpstreamNetwork env subSmEventHandle system
    | .onLost => disableForward env subSmEventHandle system
    | .defaultSwitched => do
        let system ← disableForward env subSmEventHandle system
        chooseUpstreamNetwork env subSmEventHandle system
    | .onCapabilities => some system
    | .other => some system

/-- `MainSmEventHandle`, with its table. -/
def mainSmEventHandle (event : MainEvent) (system : System) : Option System :=
  match system.main.curState, event with
  | .init, .ifaceSmStateActive id => switchToAlive env subSmEventHandle (addSharedSubSM id system)
  | .init, .ifaceSmStateInactive id => some (eraseSharedSubSM id system)
  | .alive, .ifaceSmStateActive id =>
    subSmEventHandle id (.connectionChanged system.upstreamInfo) (addSharedSubSM id system)
  | .alive, .ifaceSmStateInactive id =>
    handleAliveInterfaceStateInactive env subSmEventHandle id system
  | .alive, .upstreamCallback callback =>
    handleAliveUpstreamMonitorCallback env subSmEventHandle callback system
  | .error, .ifaceSmStateInactive id => subSmEventHandle id system.main.errorType.event system
  | .error, .clearError =>
    switchToInit subSmEventHandle
      (system.modifyMain fun main => { main with errorType := .noError })
  | _, _ => some system

variable (state : SubSmState)

/-- The tracker notes what a sub machine reports. -/
def noteState (lastError : ShareError) (system : System) : System :=
  let ifaceName := (system.subs id).ifaceName
  match system.subStateMachineMap[ifaceName]? with
  | none => system
  | some shareState =>
    { system with
      subStateMachineMap := system.subStateMachineMap.insert ifaceName
        { shareState with lastState := state, lastError } }

/-- The event that the reported state is for the main machine. -/
def reportedEvent : MainEvent :=
  match state with
  | .shared => .ifaceSmStateActive id
  | _ => .ifaceSmStateInactive id

def handleSubSmUpdateInterfaceState (lastError : ShareError) (system : System) : Option System :=
  let noted := noteState id state lastError system
  let cleared :=
    if lastError = .internalError then mainSmEventHandle env subSmEventHandle .clearError noted
    else some noted
  cleared >>= mainSmEventHandle env subSmEventHandle (reportedEvent id state)

end Main

/-- `SubSmEventHandle` of the whole system, for events that nest no deeper than
`depth`. -/
def subSmEventHandle (env : Environment) :
    Nat → Nat → SubEvent → System → Option System
  | 0, _, _, _ => none
  | depth + 1, id, event, system =>
    subSmEventHandleWith env
      (handleSubSmUpdateInterfaceState env (subSmEventHandle env depth)) id event
      system

/-! ## Events of the tracker -/

/-- What the tracker is asked for, one at a time. -/
inductive Event
  | createSubStateMachine (iface : String) (interfaceType : SharingIfaceType)
  | sharing (iface : String)
  | stopSubStateMachine (iface : String) (interfaceType : SharingIfaceType)
  | upstreamCallback (callback : UpstreamCallback)

variable (configuration : NetworkShareConfiguration)

def createSubStateMachine (iface : String) (interfaceType : SharingIfaceType)
    (system : System) : System :=
  if system.subStateMachineMap.contains iface then system
  else
    { system with
      subs := Function.update system.subs system.created
        { ifaceName := iface, netShareType := interfaceType, configuration }
      created := system.created + 1
      subStateMachineMap := system.subStateMachineMap.insert iface
        { subStateMachine := system.created } }

/-- `FindSubStateMachine`: by the name, else the first one of the type. -/
def findSubStateMachine (iface : String) (interfaceType : SharingIfaceType)
    (system : System) : Option (String × Nat) :=
  match system.subStateMachineMap[iface]? with
  | some shareState => some (iface, shareState.subStateMachine)
  | none =>
    (system.subStateMachineMap.toList.find? fun entry =>
      (system.subs entry.2.subStateMachine).netShareType = interfaceType).map
        fun entry => (entry.1, entry.2.subStateMachine)

/-- The state after an event has been handled. -/
def handle (depth : Nat) (env : Environment) (event : Event) (system : System) : Option System :=
  match event with
  | .createSubStateMachine iface interfaceType =>
    some (createSubStateMachine configuration iface interfaceType system)
  | .sharing iface =>
    match system.subStateMachineMap[iface]? with
    | none => some system
    | some shareState =>
      if shareState.lastState ≠ .available then some system
      else subSmEventHandle env depth shareState.subStateMachine .requested system
  | .stopSubStateMachine iface interfaceType =>
    match findSubStateMachine iface interfaceType system with
    | none => some system
    | some (findKey, id) => do
        let system ← subSmEventHandle env depth id .unrequested system
        some { system with
          subStateMachineMap := system.subStateMachineMap.erase findKey }
  | .upstreamCallback callback =>
    mainSmEventHandle env (subSmEventHandle env depth) (.upstreamCallback callback) system

/-! ## Sample inputs -/

/-- A configuration with all addresses and names. -/
def sampleConfiguration : NetworkShareConfiguration where
  btpanIpv4Addr := "192.168.44.1"
  btpanDhcpServerName := "bt_dhcp"
  wifiHotspotIpv4Addr := "192.168.43.1"
  wifiHotspotDhcpServerName := "wifi_dhcp"
  wifiHotspotSetDhcpFlag := false
  usbRndisIpv4Addr := "192.168.45.1"
  usbRndisDhcpServerName := "usb_dhcp"
  routeSuffix := ".0/24"
  dhcpEndIP := ".254"
  defaultMask := "255.255.255.0"

/-- Answers in which everything succeeds but one request. -/
def answersBut (refused : Request → Bool) : Environment where
  succeeds _ request := !refused request
  recorded _ := true
  interfaceIndex _ := 0
  prefixRoute address := address
  localOnly _ := false
  goodUpstream _ := some (some 100, { ifaceName := "rmnet0", netAddrList := [] })

end System

end NetManager.Share
