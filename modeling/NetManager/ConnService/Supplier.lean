import Mathlib.Data.Finset.Basic

/-!
# Suppliers and requests

A supplier offers a network; `NetSupplier` keeps what it says of the network and the
result of detection, and scores the network. `NetActivate` is a request for a network
and decides which suppliers match it.
-/

namespace NetManager.ConnService

inductive NetBearType
  | cellular
  | wifi
  | bluetooth
  | ethernet
  | vpn
  | wifiAware
  /-- `BEARER_DEFAULT`, the end of the enumeration. -/
  | default
  deriving DecidableEq

/-- `NetCap`, below `NET_CAPABILITY_END`. -/
abbrev NetCap := Fin 32

namespace NetCap

/-- `NET_CAPABILITY_MMS`. -/
def mms : NetCap := 0
/-- `NET_CAPABILITY_INTERNET`. -/
def internet : NetCap := 12
/-- `NET_CAPABILITY_NOT_VPN`. -/
def notVpn : NetCap := 15
/-- `NET_CAPABILITY_VALIDATED`. -/
def validated : NetCap := 16
/-- `NET_CAPABILITY_PORTAL`. -/
def portal : NetCap := 17
/-- `NET_CAPABILITY_INTERNAL_DEFAULT`. -/
def internalDefault : NetCap := 18
/-- `NET_CAPABILITY_CHECKING_CONNECTIVITY`. -/
def checkingConnectivity : NetCap := 31

end NetCap

/-- `NetCaps`, the bits of `caps_`. -/
abbrev NetCaps := Finset NetCap

inductive NetDetectionStatus
  | unknown
  | invalidDetection
  | verification
  | captivePortal
  | qualityPoor
  | qualityNormal
  | qualityGood
  | acceptUnvalidated
  deriving DecidableEq

/-- `NetSupplierInfo`, the fields that are read. -/
structure NetSupplierInfo where
  isAvailable : Bool := false
  linkUpBandwidthKbps : UInt32 := 0
  linkDownBandwidthKbps : UInt32 := 0
  ident : String := ""
  score : Int := 0

/-- `NetSupplier`, with the state of its `Network`. -/
structure NetSupplier where
  supplierId : UInt32 := 0
  netSupplierType : NetBearType := .default
  netSupplierIdent : String := ""
  netCaps : NetCaps := ∅
  /-- `isAvailable_` of `netSupplierInfo_`. -/
  isAvailable : Bool := false
  /-- `linkUpBandwidthKbps_` of `netAllCapabilities_`. -/
  linkUpBandwidthKbps : UInt32 := 0
  /-- `linkDownBandwidthKbps_` of `netAllCapabilities_`. -/
  linkDownBandwidthKbps : UInt32 := 0
  netScore : Int := 0
  requestList : Finset UInt32 := ∅
  bestReqList : Finset UInt32 := ∅
  netQuality : NetDetectionStatus := .qualityNormal
  isFirstTimeDetectionDone : Bool := false
  isAcceptUnvaliad : Bool := false
  isOnceSuppress : Bool := false
  /-- `netId_` of the network, also in `netHandle_`. -/
  netId : Int := 0
  /-- `state_` of the network is `NET_CONN_STATE_CONNECTED`. -/
  isConnected : Bool := false

namespace NetSupplier

def netValidScore : Int := 40
def diffScoreBetweenGoodPoor : Int := 20
/-- `NetTypeScoreValue::MAX_SCORE`. -/
def maxScore : Int := 100

def netTypeScore : NetBearType → Option Int
  | .cellular => some 60
  | .wifi => some 70
  | .bluetooth => some 50
  | .ethernet => some 80
  | .vpn => some 90
  | .wifiAware => some 100
  | .default => none

variable (supplier : NetSupplier)

def initNetScore : NetSupplier :=
  match netTypeScore supplier.netSupplierType with
  | none => supplier
  | some score => { supplier with netScore := score }

def hasNetCap (cap : NetCap) : Bool := cap ∈ supplier.netCaps

def hasNetCaps (caps : List NetCap) : Bool := caps.all supplier.hasNetCap

def setNetValid : NetDetectionStatus → NetSupplier
  | .verification =>
    { supplier with netCaps := (insert NetCap.validated supplier.netCaps).erase NetCap.portal }
  | .captivePortal =>
    { supplier with netCaps := (insert NetCap.portal supplier.netCaps).erase NetCap.validated }
  | .qualityPoor => { supplier with netQuality := .qualityPoor }
  | .qualityGood =>
    { supplier with netQuality := .qualityGood, isOnceSuppress := !supplier.isAvailable }
  | .acceptUnvalidated =>
    { supplier with netQuality := .acceptUnvalidated, isAcceptUnvaliad := true }
  | _ =>
    { supplier with
      netCaps := (supplier.netCaps.erase NetCap.validated).erase NetCap.portal }

def resetNetSupplier : NetSupplier :=
  { supplier with
    netQuality := .qualityNormal
    isFirstTimeDetectionDone := false
    isAcceptUnvaliad := false
    isOnceSuppress := false
    netCaps := insert NetCap.checkingConnectivity supplier.netCaps }.setNetValid .verification

/-- The constructor, and `SetNetwork`. -/
def create (bearerType : NetBearType) (ident : String) (netCaps : List NetCap)
    (supplierId : UInt32) (netId : Int) : NetSupplier :=
  { supplierId := supplierId
    netSupplierType := bearerType
    netSupplierIdent := ident
    netCaps := netCaps.toFinset
    netId := netId : NetSupplier }.resetNetSupplier.initNetScore

def updateNetSupplierInfo (info : NetSupplierInfo) : NetSupplier :=
  { supplier with
    isAvailable := info.isAvailable
    linkUpBandwidthKbps := info.linkUpBandwidthKbps
    linkDownBandwidthKbps := info.linkDownBandwidthKbps
    netSupplierIdent := if info.ident ≠ "" then info.ident else supplier.netSupplierIdent
    netScore := if info.score ≠ 0 then info.score else supplier.netScore
    isConnected :=
      if supplier.isAvailable = info.isAvailable then supplier.isConnected
      else if info.isAvailable then supplier.isConnected
      else false }

/-- `UpdateNetLinkInfo`; `updated` is what the network says of the link information. -/
def updateNetLinkInfo (updated : Bool) : Option NetSupplier :=
  if !supplier.isAvailable then none
  else if !updated then none
  else some { supplier with isConnected := true }

def setDetectionDone : NetSupplier :=
  { supplier with
    isFirstTimeDetectionDone := true
    netCaps := supplier.netCaps.erase NetCap.checkingConnectivity }

def updateNetCap (netCaps : List NetCap) : NetSupplier :=
  { supplier with netCaps := netCaps.toFinset }

/-- The first of `ToSet`. -/
def firstCap : Option NetCap := (List.finRange 32).find? (· ∈ supplier.netCaps)

/-- `SetReuseCap`; a value that is no capability changes nothing. -/
def setReuseCap (reuseCap : Option NetCap) (add : Bool) : NetSupplier :=
  match reuseCap with
  | none => supplier
  | some cap =>
    { supplier with
      netCaps := if add then insert cap supplier.netCaps else supplier.netCaps.erase cap }

def isNetQualityPoor : Bool := supplier.netQuality = .qualityPoor

/-- `IsOnceSuppress`. -/
def isOnceSuppressed : Bool := if supplier.isNetQualityPoor then false else supplier.isOnceSuppress

def isNetAcceptUnavalidate : Bool := supplier.netQuality = .acceptUnvalidated

def isInFirstTimeDetecting : Bool := !supplier.isFirstTimeDetectionDone

def isNetValidated : Bool :=
  supplier.hasNetCap NetCap.validated && !supplier.hasNetCap NetCap.checkingConnectivity

def getRealScore : Int :=
  if supplier.isAcceptUnvaliad then maxScore
  else if supplier.isInFirstTimeDetecting then supplier.netScore - netValidScore
  else if !supplier.isNetValidated then supplier.netScore - netValidScore
  else if supplier.isNetQualityPoor then supplier.netScore - diffScoreBetweenGoodPoor
  else supplier.netScore

/-! ## Lists of requests -/

variable (reqId : UInt32)

def addRequest : NetSupplier := { supplier with requestList := insert reqId supplier.requestList }

def removeRequest : NetSupplier := { supplier with requestList := supplier.requestList.erase reqId }

def addBestRequest : NetSupplier :=
  { supplier with bestReqList := insert reqId supplier.bestReqList }

def removeBestRequest : NetSupplier :=
  { supplier with bestReqList := supplier.bestReqList.erase reqId }

def requestToConnect (isControlled : Bool) : NetSupplier :=
  if supplier.netSupplierType = .cellular && isControlled then supplier
  else supplier.addRequest reqId

def selectAsBestNetwork (isControlled : Bool) : NetSupplier :=
  let supplier :=
    if supplier.netSupplierType ≠ .cellular || !isControlled then supplier.addRequest reqId
    else supplier.removeRequest reqId
  supplier.addBestRequest reqId

def receiveBestScore (bestScore : Int) (supplierId reqId : UInt32) : NetSupplier :=
  if supplierId = supplier.supplierId then supplier
  else if reqId ∉ supplier.requestList then supplier
  else if bestScore ≤ supplier.netScore then supplier
  else supplier.removeRequest reqId

def cancelRequest : NetSupplier := (supplier.removeBestRequest reqId).removeRequest reqId

end NetSupplier

/-! ## Requests -/

structure NetSpecifier where
  ident : String := ""
  /-- `netCaps_` of `netCapabilities_`. -/
  netCaps : List NetCap := []
  /-- `bearerTypes_` of `netCapabilities_`. -/
  bearerTypes : List NetBearType := []
  /-- `linkUpBandwidthKbps_` of `netCapabilities_`. -/
  linkUpBandwidthKbps : UInt32 := 0
  /-- `linkDownBandwidthKbps_` of `netCapabilities_`. -/
  linkDownBandwidthKbps : UInt32 := 0

inductive CallbackType
  | unknown
  | available
  | losting
  | lost
  | updateCap
  | updateLink
  | unavailable
  | blockStatus
  deriving DecidableEq

/-- `NetActivate`. Suppliers and callbacks are objects with numbers. -/
structure NetActivate where
  /-- `requestId` of `netRequest_`. -/
  requestId : UInt32
  /-- `uid` of `netRequest_`. -/
  uid : UInt32
  /-- `isControlled` of `netRequest_`. -/
  isControlled : Bool := false
  netSpecifier : NetSpecifier
  netConnCallback : Option Nat := none
  /-- The request is `defaultNetActivate_`. -/
  isDefault : Bool := false
  /-- `StartTimeOutNetAvailable` has posted a task that has not run. -/
  isTimeOutPosted : Bool := false
  netServiceSupplied : Option Nat := none
  isAppFrozened : Bool := false
  lastCallbackType : CallbackType := .unknown
  lastNetId : Int := 0
  isNotifyLostDelay : Bool := false
  notifyLostNetId : Int := 0
  isFrozenedSkip : Bool := false
  needSkipLostDelay : Bool := false

namespace NetActivate

def identWifi : String := "wifi"

variable (activate : NetActivate)

def compareByNetworkIdent (ident : String) (bearerType : NetBearType)
    (skipCheckIdent : Bool) : Bool :=
  if ident = "" || activate.netSpecifier.ident = "" then true
  else if identWifi = activate.netSpecifier.ident then true
  else if ident = activate.netSpecifier.ident then true
  else skipCheckIdent && bearerType = .wifi

def compareByNetworkCapabilities (supplier : NetSupplier) : Bool :=
  if activate.netSpecifier.netCaps.isEmpty then supplier.hasNetCap NetCap.internet
  else supplier.hasNetCaps activate.netSpecifier.netCaps

def compareByNetworkNetType (bearerType : NetBearType) : Bool :=
  activate.netSpecifier.bearerTypes.isEmpty || activate.netSpecifier.bearerTypes.contains bearerType

def compareByNetworkBand (netLinkUpBand netLinkDownBand : UInt32) : Bool :=
  activate.netSpecifier.linkUpBandwidthKbps ≤ netLinkUpBand &&
    activate.netSpecifier.linkDownBandwidthKbps ≤ netLinkDownBand

def matchRequestAndNetwork (supplier : NetSupplier) (skipCheckIdent : Bool) : Bool :=
  if !activate.compareByNetworkCapabilities supplier then false
  else if !activate.compareByNetworkNetType supplier.netSupplierType then false
  else if !activate.compareByNetworkIdent supplier.netSupplierIdent supplier.netSupplierType
      skipCheckIdent then false
  else activate.compareByNetworkBand supplier.linkUpBandwidthKbps supplier.linkDownBandwidthKbps

def haveTypes (bearerTypes : List NetBearType) : Bool :=
  !bearerTypes.isEmpty && bearerTypes.all activate.netSpecifier.bearerTypes.contains

def checkTypes (bearerTypes : List NetBearType) : Bool :=
  !activate.netSpecifier.bearerTypes.contains .wifi && activate.haveTypes bearerTypes

def setLastCallbackType (callbackType : CallbackType) : NetActivate :=
  if (callbackType = .updateCap || callbackType = .updateLink) &&
      activate.lastCallbackType = .available then activate
  else { activate with lastCallbackType := callbackType }

/-- The loss of a network is reported later. -/
def setNotifyLostDelay (netId : Int) : NetActivate :=
  { activate with isNotifyLostDelay := true, notifyLostNetId := netId }

end NetActivate

end NetManager.ConnService
