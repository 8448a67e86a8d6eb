import NetManager.ConnService.Supplier
import NetManager.Library.Best
import NetManager.Library.Each
import Mathlib.Data.List.AList
import Std.Data.ExtTreeMap

/-!
# The connection service

`NetConnService` handles suppliers and requests on one thread. It gives each request the
matching supplier with the best score and tells the callback of the request. A loss can
be told later; the thread then holds a task for the network.

Supplier objects have numbers, and so have callbacks. Messages to suppliers are left out,
except for the lists of requests that decide about them.
-/

namespace NetManager.ConnService

/-- What a callback receives. -/
inductive Message
  | available (netId : Int)
  | lost (netId : Int)
  | capabilities (netId : Int)
  | properties (netId : Int)
  | blockStatus (netId : Int)
  | unavailable
  deriving DecidableEq

structure NetConnService where
  enableSetAppFrozened : Bool := true
  featureUpdateNetcap : Bool := false
  suppliers : Nat → NetSupplier := fun _ => {}
  /-- How many supplier objects there are. -/
  supplierCount : Nat := 0
  netSuppliers : Std.ExtTreeMap UInt32 Nat := ∅
  /-- `netUidActivates_`, as it is iterated. -/
  netUidActivates : List (UInt32 × NetActivate)
  defaultNetSupplier : Option Nat := none
  nextRequestId : UInt32
  nextNetSupplierId : UInt32 := 1003
  netIdLastValue : Int := 99
  internalNetIdLastValue : Int := 1
  netUidRequest : AList (fun _ : UInt32 => Nat) := ∅
  internalDefaultUidRequest : AList (fun _ : UInt32 => Nat) := ∅
  isDelayHandleFindBestNetwork : Bool := false
  delaySupplierId : UInt32 := 0
  uidLostDelaySet : Finset UInt32 := ∅
  notifyLostDelayCache : Finset Int := ∅
  /-- The networks with a `HandleNotifyLostDelay` task. -/
  notifyLostTasks : Finset Int := ∅
  enableAppFrozenedCallbackLimitation : Bool := false
  /-- The applications that `AppStateAwareManager` has in the foreground. -/
  foregroundApps : Finset UInt32 := ∅
  /-- The thread is in a loop that does not end. -/
  isHanging : Bool := false
  /-- What was sent to which callback. -/
  sent : List (Nat × Message) := []

def uidNetManager : UInt32 := 1099
def defaultRequestId : UInt32 := 0
def minRequestId : UInt32 := 1
def maxRequestId : UInt32 := 2147483647
def maxAllowUidNum : Nat := 2000

namespace NetConnService

variable (service : NetConnService)

/-- The registered suppliers, as `netSuppliers_` is iterated. -/
def registered : List Nat := service.netSuppliers.toList.map Prod.snd

/-- A supplier object changes. -/
def modifySupplier (number : Nat) (change : NetSupplier → NetSupplier) : NetConnService :=
  { service with
    suppliers := Function.update service.suppliers number (change (service.suppliers number)) }

/-- A loop over `netSuppliers_`. -/
def eachSupplier (change : Nat → NetSupplier → NetSupplier) : NetConnService :=
  service.registered.foldl
    (fun service number => service.modifySupplier number (change number)) service

/-- A loop over `netUidActivates_`. -/
def eachActivate
    (body : UInt32 × NetActivate → NetConnService → (UInt32 × NetActivate) × NetConnService) :
    NetConnService :=
  let (activates, service) := Each.run body service.netUidActivates service
  { service with netUidActivates := activates }

def getDefaultNetSupplierType : NetBearType :=
  match service.defaultNetSupplier with
  | none => .default
  | some number => (service.suppliers number).netSupplierType

def getDefaultNetSupplierId : UInt32 :=
  match service.defaultNetSupplier with
  | none => 0
  | some number => (service.suppliers number).supplierId

/-! ## Callbacks -/

def isAllowCallback (activate : NetActivate) (callbackType : CallbackType) : Bool × NetActivate :=
  if service.enableAppFrozenedCallbackLimitation && activate.isAppFrozened &&
      !decide (activate.uid ∈ service.foregroundApps) then
    let activate :=
      match activate.netServiceSupplied with
      | none => activate
      | some number =>
        if activate.lastCallbackType ≠ CallbackType.lost && callbackType = CallbackType.lost &&
            activate.lastNetId = 0 then
          { activate with lastNetId := (service.suppliers number).netId }
        else activate
    (false, activate.setLastCallbackType callbackType)
  else if activate.isNotifyLostDelay && callbackType = .lost then (false, activate)
  else (true, { activate with isNotifyLostDelay := false, notifyLostNetId := 0 })

/-- A message goes to a callback. -/
def send (callback : Nat) (message : Message) : NetConnService :=
  { service with sent := service.sent ++ [(callback, message)] }

/-- A call of `GetNetCallback`, through `NetConnCallbackProxyWrapper` if that is built. -/
def notify (activate : NetActivate) (callbackType : CallbackType)
    (message : Message) : NetActivate × NetConnService :=
  match activate.netConnCallback with
  | none => (activate, service)
  | some callback =>
    if !service.enableSetAppFrozened then (activate, service.send callback message)
    else
      let (isAllow, activate) := service.isAllowCallback activate callbackType
      (activate, if isAllow then service.send callback message else service)

def callbackForAvailable (number : Nat) (activate : NetActivate) : NetActivate × NetConnService :=
  let netId := (service.suppliers number).netId
  let (activate, service) := service.notify activate .available (.available netId)
  let (activate, service) := service.notify activate .updateCap (.capabilities netId)
  service.notify activate .updateLink (.properties netId)

def handleCallback (number : Nat) (activate : NetActivate)
    (callbackType : CallbackType) : NetActivate × NetConnService :=
  let netId := (service.suppliers number).netId
  match callbackType with
  | .lost => service.notify activate .lost (.lost netId)
  | .updateCap => service.notify activate .updateCap (.capabilities netId)
  | .updateLink => service.notify activate .updateLink (.properties netId)
  | .blockStatus => service.notify activate .blockStatus (.blockStatus netId)
  | .unavailable => service.notify activate .unavailable .unavailable
  | _ => (activate, service)

def checkNotifyLostDelay (activate : NetActivate) (callbackType : CallbackType) : Bool :=
  if callbackType ≠ .lost then false
  else activate.uid ∈ service.uidLostDelaySet || activate.needSkipLostDelay

/-- One round of `CallbackForSupplier`. -/
def callbackRound (number : Nat) (callbackType : CallbackType)
    (entry : UInt32 × NetActivate) (service : NetConnService) :
    (UInt32 × NetActivate) × NetConnService :=
  let activate := entry.2
  let supplier := service.suppliers number
  if activate.requestId ∉ supplier.bestReqList || activate.netConnCallback.isNone then
    (entry, service)
  else if supplier.netId ∈ service.notifyLostDelayCache &&
      service.checkNotifyLostDelay activate callbackType then
    ((entry.1, activate.setNotifyLostDelay supplier.netId), service)
  else
    let (activate, service) := service.handleCallback number activate callbackType
    ((entry.1, activate), service)

def callbackForSupplier (number : Nat) (callbackType : CallbackType) : NetConnService :=
  service.eachActivate (callbackRound number callbackType)

/-! ## Losses that are told later -/

/-- One round of `HandleNotifyLostDelay`. -/
def notifyLostRound (netId : Int) (entry : UInt32 × NetActivate) (service : NetConnService) :
    (UInt32 × NetActivate) × NetConnService :=
  let activate := entry.2
  if entry.1 ∉ service.uidLostDelaySet && !activate.needSkipLostDelay then (entry, service)
  else
    let isSupplied := activate.netServiceSupplied.isSome
    let activate :=
      if activate.isNotifyLostDelay && activate.notifyLostNetId = netId then
        { activate with isNotifyLostDelay := false, notifyLostNetId := 0 }
      else activate
    if isSupplied then ((entry.1, activate), service)
    else
      let (activate, service) := service.notify activate .lost (.lost netId)
      ((entry.1, activate), service)

def handleNotifyLostDelay (netId : Int) : NetConnService :=
  service.eachActivate (notifyLostRound netId)

def stopNotifyLostDelay (netId : Int) : NetConnService :=
  { service with
    notifyLostDelayCache := service.notifyLostDelayCache.erase netId
    notifyLostTasks := service.notifyLostTasks.erase netId }.handleNotifyLostDelay netId

def startNotifyLostDelay (netId : Int) : NetConnService :=
  { service with
    notifyLostDelayCache := insert netId service.notifyLostDelayCache
    notifyLostTasks := insert netId service.notifyLostTasks }

/-! ## The best network -/

/-- `FindBestNetworkForRequest`: the best score and supplier. -/
def findBestNetworkForRequest (activate : NetActivate) : Int × Option Nat :=
  Best.pick
    (fun number => (service.suppliers number).isConnected &&
      activate.matchRequestAndNetwork (service.suppliers number) false)
    (fun number => (service.suppliers number).getRealScore)
    service.registered

def makeDefaultNetWork (newSupplier : Option Nat) : NetConnService :=
  { service with defaultNetSupplier := newSupplier }

def sendRequestToAllNetwork (activate : NetActivate) : NetConnService :=
  service.eachSupplier fun _ supplier =>
    if activate.matchRequestAndNetwork supplier true then
      supplier.requestToConnect activate.requestId activate.isControlled
    else supplier

def sendBestScoreAllNetwork (reqId : UInt32) (bestScore : Int)
    (supplierId : UInt32) : NetConnService :=
  service.eachSupplier fun _ supplier =>
    if supplier.hasNetCap NetCap.internalDefault then supplier
    else supplier.receiveBestScore bestScore supplierId reqId

/-- The loss of a network is told now or later. -/
def tellLost (number : Nat) (activate : NetActivate) : NetActivate × NetConnService :=
  let netId := (service.suppliers number).netId
  if activate.netConnCallback.isNone then (activate, service)
  else if netId ∈ service.notifyLostDelayCache && service.checkNotifyLostDelay activate .lost then
    (activate.setNotifyLostDelay netId, service)
  else service.notify activate .lost (.lost netId)

def notFindBestSupplier (activate : NetActivate) : NetActivate × NetConnService :=
  let (activate, service) :=
    match activate.netServiceSupplied with
    | none => (activate, service)
    | some number =>
      let service := service.modifySupplier number (·.removeBestRequest activate.requestId)
      service.tellLost number activate
  let activate := { activate with netServiceSupplied := none }
  (activate, service.sendRequestToAllNetwork activate)

/-- A request leaves the list of the supplier that it had. -/
def leaveOldSupplier (activate : NetActivate) : NetConnService :=
  match activate.netServiceSupplied with
  | none => service
  | some old => service.modifySupplier old (·.removeBestRequest activate.requestId)

/-- A request gets the best supplier. -/
def serve (score : Int) (best : Nat) (activate : NetActivate) : NetActivate × NetConnService :=
  let activate := { activate with needSkipLostDelay := false }
  let service := service.sendBestScoreAllNetwork activate.requestId score
    (service.suppliers best).supplierId
  let service := service.modifySupplier best
    (·.selectAsBestNetwork activate.requestId activate.isControlled)
  if activate.netServiceSupplied = some best then (activate, service)
  else
    (service.leaveOldSupplier activate).callbackForAvailable best
      { activate with netServiceSupplied := some best }

/-- A request is left out while its application is frozen. -/
def isSkipped (activate : NetActivate) : Bool := activate.isFrozenedSkip && activate.isAppFrozened

/-- One round of `FindBestNetworkForAllRequest`. -/
def findBestRound (entry : UInt32 × NetActivate) (service : NetConnService) :
    (UInt32 × NetActivate) × NetConnService :=
  if isSkipped entry.2 then (entry, service)
  else
    let (score, best) := service.findBestNetworkForRequest entry.2
    let service := if entry.2.isDefault then service.makeDefaultNetWork best else service
    let (activate, service) :=
      match best with
      | none => service.notFindBestSupplier entry.2
      | some number => service.serve score number entry.2
    ((entry.1, activate), service)

def findBestNetworkForAllRequest : NetConnService := service.eachActivate findBestRound

def requestAllNetworkExceptDefault : NetConnService :=
  match service.defaultNetSupplier with
  | none => service
  | some number =>
    let default := service.suppliers number
    if default.isNetValidated || default.isNetAcceptUnavalidate then service
    else
      match service.netUidActivates.find? fun entry => entry.2.isDefault with
      | none => service
      | some entry =>
        service.eachSupplier fun other supplier =>
          if other = number then supplier
          else if default.netScore ≤ supplier.netScore then supplier
          else if supplier.hasNetCap NetCap.internalDefault then supplier
          else if !entry.2.matchRequestAndNetwork supplier true then supplier
          else supplier.requestToConnect entry.2.requestId entry.2.isControlled

/-! ## Suppliers come and go -/

def findNetSupplier (supplierId : UInt32) : Option Nat := service.netSuppliers[supplierId]?

/-- `FindNetwork` finds nothing. -/
def isFreeNetId (netId : Int) : Bool :=
  service.registered.all fun number => (service.suppliers number).netId ≠ netId

/-- The loop of `GenerateNetId`: the new id, if there is one, and `netIdLastValue_`. -/
def generateNetId (service : NetConnService) : Nat → Int → Option Int × Int
  | 0, last => (none, last)
  | tries + 1, last =>
    let next := if 64511 < last + 1 then 100 else last + 1
    if service.isFreeNetId next then (some next, next) else service.generateNetId tries next

/-- The loop of `GenerateInternalNetId`. -/
def generateInternalNetId (service : NetConnService) : Nat → Int → Option Int × Int
  | 0, last => (none, last)
  | tries + 1, last =>
    let (value, next) := if 50 < last then ((1 : Int), (1 : Int)) else (last, last + 1)
    if service.isFreeNetId value then (some value, next)
    else service.generateInternalNetId tries next

/-- A network id for a new supplier. -/
def generate (netCaps : List NetCap) : Option Int × NetConnService :=
  if netCaps.contains NetCap.internalDefault then
    let (netId, last) := service.generateInternalNetId 50 service.internalNetIdLastValue
    (netId, { service with internalNetIdLastValue := last })
  else
    let (netId, last) := service.generateNetId 64412 service.netIdLastValue
    (netId, { service with netIdLastValue := last })

def registerNetSupplierAsync (bearerType : NetBearType)
    (ident : String) (netCaps : List NetCap) : NetConnService :=
  if bearerType = .default then service
  else if service.registered.any fun number =>
      let supplier := service.suppliers number
      bearerType = supplier.netSupplierType && ident = supplier.netSupplierIdent &&
        supplier.hasNetCaps netCaps then service
  else
    let supplierId := service.nextNetSupplierId
    let service := { service with nextNetSupplierId := supplierId + 1 }
    match service.generate netCaps with
    | (none, service) => service
    | (some netId, service) =>
      let number := service.supplierCount
      let supplier := NetSupplier.create bearerType ident netCaps supplierId netId
      { service with
        suppliers := Function.update service.suppliers number supplier
        supplierCount := number + 1
        netSuppliers := service.netSuppliers.insert supplierId number }

/-- `RegisterNetSupplierCallbackAsync`, with `SendAllRequestToNetwork`. -/
def registerNetSupplierCallbackAsync (supplierId : UInt32) : NetConnService :=
  match service.findNetSupplier supplierId with
  | none => service
  | some number =>
    service.netUidActivates.foldl
      (fun service entry =>
        service.modifySupplier number fun supplier =>
          if entry.2.matchRequestAndNetwork supplier true then
            supplier.requestToConnect entry.2.requestId entry.2.isControlled
          else supplier)
      service

def unregisterNetSupplierAsync (supplierId : UInt32) : NetConnService :=
  match service.findNetSupplier supplierId with
  | none => service
  | some number =>
    let service :=
      if service.defaultNetSupplier = some number then service.makeDefaultNetWork none
      else service
    let service := service.modifySupplier number (·.updateNetSupplierInfo {})
    { service with
      netSuppliers := service.netSuppliers.erase supplierId }.findBestNetworkForAllRequest

def removeDelayNetwork : NetConnService :=
  { service with isDelayHandleFindBestNetwork := false, delaySupplierId := 0 }

def handleSupplierNotAvailable (supplierId : UInt32)
    (isOldAvailable : Bool) (netId : Int) : NetConnService :=
  let service := if isOldAvailable then service.startNotifyLostDelay netId else service
  if supplierId = service.delaySupplierId then service.removeDelayNetwork else service

def updateNetSupplierInfoAsync (supplierId : UInt32) (info : NetSupplierInfo) : NetConnService :=
  match service.findNetSupplier supplierId with
  | none => service
  | some number =>
    let isOldAvailable := (service.suppliers number).isAvailable
    let netId := (service.suppliers number).netId
    let service := service.modifySupplier number (·.updateNetSupplierInfo info)
    let service :=
      if !info.isAvailable then
        (service.handleSupplierNotAvailable supplierId isOldAvailable netId).modifySupplier
          number (·.resetNetSupplier)
      else (service.stopNotifyLostDelay netId).callbackForSupplier number .updateCap
    let service :=
      if info.score = 0 then service.modifySupplier number (·.initNetScore) else service
    service.findBestNetworkForAllRequest

/-- `HandlePreFindBestNetworkForDelay`; `isNeedDelay` is what the system parameters say. -/
def handlePreFindBestNetworkForDelay (supplierId : UInt32)
    (number : Nat) (isFirstTimeDetect isNeedDelay : Bool) : NetConnService :=
  if service.isDelayHandleFindBestNetwork then service
  else if (service.suppliers number).netSupplierType = .wifi && isFirstTimeDetect &&
      service.getDefaultNetSupplierType = .cellular && isNeedDelay then
    { service with isDelayHandleFindBestNetwork := true, delaySupplierId := supplierId }
  else service

def updateNetLinkInfoAsync (supplierId : UInt32) (updated isNeedDelay : Bool) : NetConnService :=
  match service.findNetSupplier supplierId with
  | none => service
  | some number =>
    match (service.suppliers number).updateNetLinkInfo updated with
    | none => service
    | some supplier =>
      let service := service.modifySupplier number fun _ => supplier
      let service := service.callbackForSupplier number .updateLink
      let service := service.handlePreFindBestNetworkForDelay supplierId number
        (service.suppliers number).isInFirstTimeDetecting isNeedDelay
      if service.isDelayHandleFindBestNetwork then service
      else service.findBestNetworkForAllRequest

def updateNetCapsAsync (supplierId : UInt32) (netCaps : List NetCap) : NetConnService :=
  match service.findNetSupplier supplierId with
  | none => service
  | some number =>
    let service :=
      if service.featureUpdateNetcap then service.modifySupplier number (·.updateNetCap netCaps)
      else service
    (service.callbackForSupplier number .updateCap).findBestNetworkForAllRequest

def handleDetectionResult (supplierId : UInt32)
    (netState : NetDetectionStatus) (isNeedDelay : Bool) : NetConnService :=
  match service.findNetSupplier supplierId with
  | none => service
  | some number =>
    let isFirstTimeDetect := (service.suppliers number).isInFirstTimeDetecting
    let service := service.modifySupplier number fun supplier =>
      (supplier.setNetValid netState).setDetectionDone
    let service := service.callbackForSupplier number .updateCap
    let curNetSupplierType := service.getDefaultNetSupplierType
    let service :=
      if curNetSupplierType ≠ .default && curNetSupplierType ≠ .cellular then
        service.removeDelayNetwork
      else if isFirstTimeDetect && (service.suppliers number).isOnceSuppressed then
        service.handlePreFindBestNetworkForDelay supplierId number isFirstTimeDetect isNeedDelay
      else service
    let ifValid : Bool := netState = .verification
    let service :=
      if service.delaySupplierId = supplierId && service.isDelayHandleFindBestNetwork &&
          (service.suppliers number).netSupplierType = .wifi && ifValid then service
      else service.findBestNetworkForAllRequest
    if !ifValid && service.getDefaultNetSupplierId = supplierId then
      service.requestAllNetworkExceptDefault
    else service

/-- `HandleFindBestNetworkForDelay`, a task of the thread. -/
def handleFindBestNetworkForDelay (isNeedDelay : Bool) : NetConnService :=
  if !service.isDelayHandleFindBestNetwork then service
  else
    let supplierId := service.delaySupplierId
    let service := { service with isDelayHandleFindBestNetwork := false }
    let service :=
      match service.findNetSupplier supplierId with
      | none => service
      | some number =>
        if (service.suppliers number).isNetValidated then
          service.handleDetectionResult supplierId .verification isNeedDelay
        else service
    { service with delaySupplierId := 0 }

def updateSupplierScoreAsync (supplierId : UInt32) (state : NetDetectionStatus) : NetConnService :=
  match service.findNetSupplier supplierId with
  | none => service
  | some number =>
    let service := service.removeDelayNetwork.modifySupplier number (·.setNetValid state)
    let service := service.findBestNetworkForAllRequest
    if service.getDefaultNetSupplierId = supplierId then service.requestAllNetworkExceptDefault
    else service

/-- `SetReuseSupplierId`; `unset` is what `reuseCap` holds while it is not initialised. -/
def setReuseSupplierId (supplierId reuseSupplierId : UInt32) (isReused : Bool)
    (unset : Option NetCap) : NetConnService :=
  let own := service.registered.filter fun number =>
    (service.suppliers number).supplierId = supplierId
  let reused := service.registered.filter fun number =>
    (service.suppliers number).supplierId ≠ supplierId &&
      (service.suppliers number).supplierId = reuseSupplierId
  -- without capabilities, the first one is read from behind the set
  let reuseCap := (reused.getLast?.bind fun number => (service.suppliers number).firstCap).or unset
  let service :=
    match own.getLast? with
    | none => service
    | some number => service.modifySupplier number (·.setReuseCap reuseCap isReused)
  if isReused then service.findBestNetworkForAllRequest else service

def recoverNetSys : NetConnService := (service.makeDefaultNetWork none).findBestNetworkForAllRequest

/-! ## Requests come and go -/

def findSameCallback (callback : Nat) : Option NetActivate :=
  (service.netUidActivates.find? fun entry => entry.2.netConnCallback = some callback).map Prod.snd

/-- A specifier whose requests count as `REQUEST`. -/
def isRequest (specifier : NetSpecifier) : Bool :=
  specifier.netCaps.contains NetCap.internalDefault || specifier.bearerTypes.contains .cellular

/-- `IncreaseNetConnCallbackCntForUid` on one map. -/
def increaseCnt (counts : AList (fun _ : UInt32 => Nat)) (uid : UInt32) :
    Option (AList (fun _ : UInt32 => Nat)) :=
  match counts.lookup uid with
  | none => some (counts.insert uid 1)
  | some count => if maxAllowUidNum ≤ count then none else some (counts.insert uid (count + 1))

def increaseNetConnCallbackCntForUid (uid : UInt32) (isRequest : Bool) : Option NetConnService :=
  if isRequest then
    (increaseCnt service.internalDefaultUidRequest uid).map fun counts =>
      { service with internalDefaultUidRequest := counts }
  else
    (increaseCnt service.netUidRequest uid).map fun counts =>
      { service with netUidRequest := counts }

/-- `DecreaseNetConnCallbackCntForUid` on one map. -/
def decreaseCnt (counts : AList (fun _ : UInt32 => Nat)) (uid : UInt32) :
    AList (fun _ : UInt32 => Nat) :=
  match counts.lookup uid with
  | none => counts
  | some count => if count ≤ 1 then counts.erase uid else counts.insert uid (count - 1)

def decreaseNetConnCallbackCntForUid (uid : UInt32) (isRequest : Bool) : NetConnService :=
  if isRequest then
    { service with
      internalDefaultUidRequest := decreaseCnt service.internalDefaultUidRequest uid }
  else { service with netUidRequest := decreaseCnt service.netUidRequest uid }

/-- A request is put at the end of the vector of its application. -/
def insertActivate (uid : UInt32) (activate : NetActivate) :
    List (UInt32 × NetActivate) → List (UInt32 × NetActivate)
  | [] => [(uid, activate)]
  | entry :: entries =>
    if uid < entry.1 then (uid, activate) :: entry :: entries
    else entry :: insertActivate uid activate entries

/-- The counter after a request was created. -/
def followingRequestId (requestId : UInt32) : UInt32 :=
  if maxRequestId < requestId + 1 then minRequestId else requestId + 1

/-- A request, as `ActivateNetwork` gets it. -/
structure Registration where
  netSpecifier : NetSpecifier := {}
  callback : Nat
  timeoutMS : UInt32 := 0
  callingUid : UInt32
  /-- What `controlFunc_` says of it. -/
  isControlled : Bool := false

def activateNetwork (registration : Registration) : NetConnService :=
  let request : NetActivate :=
    { requestId := service.nextRequestId
      uid := registration.callingUid
      isControlled := registration.isControlled
      netSpecifier := registration.netSpecifier
      netConnCallback := some registration.callback
      isTimeOutPosted := 0 < registration.timeoutMS }
  let service := { service with nextRequestId := followingRequestId service.nextRequestId }
  let (request, service) :=
    match (service.findBestNetworkForRequest request).2 with
    | some best =>
      let service := service.modifySupplier best
        (·.selectAsBestNetwork request.requestId request.isControlled)
      service.callbackForAvailable best { request with netServiceSupplied := some best }
    | none =>
      let (request, service) :=
        if registration.timeoutMS = 0 then service.notify request .unavailable .unavailable
        else (request, service)
      (request, service.sendRequestToAllNetwork request)
  { service with
    netUidActivates := insertActivate registration.callingUid request service.netUidActivates }

/-- `RegisterNetConnCallbackAsync`; `isMmsDisabled` is the system parameter. -/
def registerNetConnCallbackAsync (registration : Registration)
    (isMmsDisabled : Bool) : NetConnService :=
  if (service.findSameCallback registration.callback).isSome then service
  else if registration.netSpecifier.netCaps.contains NetCap.mms && isMmsDisabled then service
  else
    match service.increaseNetConnCallbackCntForUid registration.callingUid
      (isRequest registration.netSpecifier) with
    | none => service
    | some service => service.activateNetwork registration

def requestNetConnectionAsync (registration : Registration) : NetConnService :=
  if (service.findSameCallback registration.callback).isSome then service
  else
    match service.increaseNetConnCallbackCntForUid registration.callingUid true with
    | none => service
    | some service => service.activateNetwork registration

def cancelRequestForSupplier (activate : NetActivate) : NetConnService :=
  let service :=
    match activate.netServiceSupplied with
    | none => service
    | some number => service.modifySupplier number (·.cancelRequest activate.requestId)
  service.eachSupplier fun _ supplier => supplier.cancelRequest activate.requestId

/-- The loop of `DecreaseNetActivates`: the requests that are left, and the one that was
taken out. At a request without callback the iterator stays where it is. -/
def decreaseNetActivates (uid : UInt32) (callback : Nat) :
    List (UInt32 × NetActivate) → Option (List (UInt32 × NetActivate) × Option NetActivate)
  | [] => some ([], none)
  | entry :: entries =>
    if entry.1 ≠ uid then
      match decreaseNetActivates uid callback entries with
      | none => none
      | some (left, found) => some (entry :: left, found)
    else
      match entry.2.netConnCallback with
      | none => none
      | some own =>
        if own = callback then some (entries, some entry.2)
        else
          match decreaseNetActivates uid callback entries with
          | none => none
          | some (left, found) => some (entry :: left, found)

def unregisterNetConnCallbackAsync (callback : Nat) : NetConnService :=
  match service.findSameCallback callback with
  | none => service
  | some activate =>
    let service :=
      service.decreaseNetConnCallbackCntForUid activate.uid (isRequest activate.netSpecifier)
    match decreaseNetActivates activate.uid callback service.netUidActivates with
    | none => { service with isHanging := true }
    | some (_, none) => service
    | some (left, some activate) =>
      { service.cancelRequestForSupplier activate with netUidActivates := left }

/-- One round of the task of `StartTimeOutNetAvailable`, with `OnNetActivateTimeOut`. -/
def timeOutRound (callback : Nat) (entry : UInt32 × NetActivate) (service : NetConnService) :
    (UInt32 × NetActivate) × NetConnService :=
  let activate := entry.2
  if activate.netConnCallback ≠ some callback || !activate.isTimeOutPosted then (entry, service)
  else
    let activate := { activate with isTimeOutPosted := false }
    if activate.netServiceSupplied.isSome then ((entry.1, activate), service)
    else
      let (activate, service) := service.notify activate .unavailable .unavailable
      ((entry.1, activate), service.cancelRequestForSupplier activate)

/-- `TimeOutNetAvailable` of the request with a callback. -/
def timeOutNetAvailable (callback : Nat) : NetConnService :=
  service.eachActivate (timeOutRound callback)

/-- One round of `UpdateNetRequestControlState`. -/
def controlRound (uid : UInt32) (isControlled : Bool) (entry : UInt32 × NetActivate)
    (service : NetConnService) : (UInt32 × NetActivate) × NetConnService :=
  if entry.1 ≠ uid then (entry, service)
  else ((entry.1, { entry.2 with isControlled := isControlled }), service)

/-- `UpdateNetRequestControlState`, with the `uid` and `isControlled` of each request. -/
def updateNetRequestControlState (netRequest : List (UInt32 × Bool)) : NetConnService :=
  (netRequest.foldl (fun service request => service.eachActivate (controlRound request.1 request.2))
    service).findBestNetworkForAllRequest

/-! ## Frozen applications -/

def handleSkipRequest (activate : NetActivate) : NetActivate × NetConnService :=
  if activate.checkTypes [.cellular] then
    let activate :=
      { activate with
        isFrozenedSkip := true
        needSkipLostDelay := true
        lastNetId :=
          match activate.netServiceSupplied with
          | none => activate.lastNetId
          | some number => (service.suppliers number).netId }
    (activate, service.cancelRequestForSupplier activate)
  else (activate, service)

def handleUnfrozenCallback (activate : NetActivate) : NetActivate × NetConnService :=
  let finish := fun (result : NetActivate × NetConnService) =>
    ({ result.1 with lastNetId := 0 }.setLastCallbackType .unknown, result.2)
  if activate.lastCallbackType = .unknown then (activate, service)
  else
    match activate.netServiceSupplied with
    | none =>
      if activate.lastCallbackType ≠ .lost then (activate, service)
      else if activate.lastNetId ∈ service.notifyLostDelayCache &&
          service.checkNotifyLostDelay activate .lost then
        (activate.setNotifyLostDelay activate.lastNetId, service)
      else finish (service.notify activate .lost (.lost activate.lastNetId))
    | some number =>
      if activate.lastCallbackType = .available then
        finish (service.callbackForAvailable number activate)
      else finish (service.handleCallback number activate activate.lastCallbackType)

/-- One round of `SetAppIsFrozenedAsync`. -/
def frozenRound (uid : UInt32) (isFrozened : Bool) (entry : UInt32 × NetActivate)
    (service : NetConnService) : (UInt32 × NetActivate) × NetConnService :=
  let activate := entry.2
  if entry.1 ≠ uid || activate.isAppFrozened = isFrozened then (entry, service)
  else
    let activate := { activate with isAppFrozened := isFrozened }
    let (activate, service) :=
      if isFrozened then service.handleSkipRequest activate
      else if activate.isFrozenedSkip then (activate, service)
      else service.handleUnfrozenCallback activate
    ((entry.1, activate), service)

/-- The last loop of `SetAppIsFrozenedAsync`. -/
def unskipRound (uid : UInt32) (entry : UInt32 × NetActivate) (service : NetConnService) :
    (UInt32 × NetActivate) × NetConnService :=
  if entry.1 ≠ uid || !entry.2.isFrozenedSkip then (entry, service)
  else
    ((entry.1,
      { entry.2 with isFrozenedSkip := false, lastNetId := 0 }.setLastCallbackType .unknown),
      service)

def setAppIsFrozenedAsync (uid : UInt32) (isFrozened : Bool) : NetConnService :=
  if !service.enableSetAppFrozened || !service.enableAppFrozenedCallbackLimitation then service
  else
    let isSkipReqFindNet := !isFrozened && service.netUidActivates.any fun entry =>
      entry.1 = uid && entry.2.isAppFrozened && entry.2.isFrozenedSkip
    let service := service.eachActivate (frozenRound uid isFrozened)
    if isSkipReqFindNet then service.findBestNetworkForAllRequest.eachActivate (unskipRound uid)
    else service

/-! ## Runs -/

/-- What the thread handles, and the calls that search on the thread of the caller. -/
inductive Event
  | registerNetSupplier (bearerType : NetBearType) (ident : String) (netCaps : List NetCap)
  | registerNetSupplierCallback (supplierId : UInt32)
  | unregisterNetSupplier (supplierId : UInt32)
  | updateNetSupplierInfo (supplierId : UInt32) (info : NetSupplierInfo)
  | updateNetLinkInfo (supplierId : UInt32) (updated isNeedDelay : Bool)
  | updateNetCaps (supplierId : UInt32) (netCaps : List NetCap)
  | detectionResult (supplierId : UInt32) (netState : NetDetectionStatus) (isNeedDelay : Bool)
  | findBestNetworkForDelay (isNeedDelay : Bool)
  | updateSupplierScore (supplierId : UInt32) (state : NetDetectionStatus)
  | setReuseSupplierId (supplierId reuseSupplierId : UInt32) (isReused : Bool)
    (unset : Option NetCap)
  | recoverNetSys
  | registerNetConnCallback (registration : Registration) (isMmsDisabled : Bool)
  | requestNetConnection (registration : Registration)
  | unregisterNetConnCallback (callback : Nat)
  | timeOutNetAvailable (callback : Nat)
  | updateNetRequestControlState (netRequest : List (UInt32 × Bool))
  | setAppIsFrozened (uid : UInt32) (isFrozened : Bool)
  | enableAppFrozenedCallbackLimitation (flag : Bool)
  | foreground (uids : Finset UInt32)
  | updateUidLostDelay (uids : Finset UInt32)
  | notifyLostDelay (netId : Int)

/-- An event is handled. -/
def handle : Event → NetConnService
  | .registerNetSupplier bearerType ident netCaps =>
    service.registerNetSupplierAsync bearerType ident netCaps
  | .registerNetSupplierCallback supplierId => service.registerNetSupplierCallbackAsync supplierId
  | .unregisterNetSupplier supplierId => service.unregisterNetSupplierAsync supplierId
  | .updateNetSupplierInfo supplierId info => service.updateNetSupplierInfoAsync supplierId info
  | .updateNetLinkInfo supplierId updated isNeedDelay =>
    service.updateNetLinkInfoAsync supplierId updated isNeedDelay
  | .updateNetCaps supplierId netCaps => service.updateNetCapsAsync supplierId netCaps
  | .detectionResult supplierId netState isNeedDelay =>
    service.handleDetectionResult supplierId netState isNeedDelay
  | .findBestNetworkForDelay isNeedDelay => service.handleFindBestNetworkForDelay isNeedDelay
  | .updateSupplierScore supplierId state => service.updateSupplierScoreAsync supplierId state
  | .setReuseSupplierId supplierId reuseSupplierId isReused unset =>
    service.setReuseSupplierId supplierId reuseSupplierId isReused unset
  | .recoverNetSys => service.recoverNetSys
  | .registerNetConnCallback registration isMmsDisabled =>
    service.registerNetConnCallbackAsync registration isMmsDisabled
  | .requestNetConnection registration => service.requestNetConnectionAsync registration
  | .unregisterNetConnCallback callback => service.unregisterNetConnCallbackAsync callback
  | .timeOutNetAvailable callback => service.timeOutNetAvailable callback
  | .updateNetRequestControlState netRequest => service.updateNetRequestControlState netRequest
  | .setAppIsFrozened uid isFrozened => service.setAppIsFrozenedAsync uid isFrozened
  | .enableAppFrozenedCallbackLimitation flag =>
    { service with enableAppFrozenedCallbackLimitation := flag }
  | .foreground uids => { service with foregroundApps := uids }
  | .updateUidLostDelay uids => { service with uidLostDelaySet := uids }
  | .notifyLostDelay netId =>
    if netId ∈ service.notifyLostTasks then
      { service with
        notifyLostTasks := service.notifyLostTasks.erase netId }.handleNotifyLostDelay netId
    else service

/-- One step of a run. -/
def step (event : Event) : NetConnService :=
  if service.isHanging then service else service.handle event

/-- `defaultNetActivate_`, as `CreateDefaultRequest` creates it. -/
def defaultNetActivate : NetActivate where
  requestId := defaultRequestId
  uid := 0
  netSpecifier := { netCaps := [NetCap.internet, NetCap.notVpn] }
  isDefault := true

/-- The service after `Init`. -/
def started (enableSetAppFrozened featureUpdateNetcap : Bool) : NetConnService where
  enableSetAppFrozened := enableSetAppFrozened
  featureUpdateNetcap := featureUpdateNetcap
  netUidActivates := [(uidNetManager, defaultNetActivate)]
  nextRequestId := followingRequestId minRequestId

end NetConnService

end NetManager.ConnService
