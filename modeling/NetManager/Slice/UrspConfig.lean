import NetManager.Library.Wp
import NetManager.Slice.UrspRule

/-!
# The decoder of rules

`UrspConfig::DecodeUrspRules` and what it calls. A decoder goes through a vector from
`startIndex` on. A read outside the vector, a vector of a negative size, a number that
`std::stoi` cannot read and a loop that goes on without reading are faults.
-/

namespace NetManager.Slice

open Wire Wp

/-- What must not happen. -/
inductive Fault where
  /-- A read outside the vector. -/
  | outside
  /-- `std::length_error`: a vector of a negative size. -/
  | negativeSize
  /-- `std::invalid_argument` of `std::stoi`. -/
  | invalidArgument
  /-- A loop that does not end. -/
  | endless
  deriving DecidableEq

/-- The results of decoders. -/
inductive DecodeResult where
  | success
  | failUnknownIdentifier
  | failOther
  deriving DecidableEq

/-- The versions of the format. -/
inductive Version where
  | v1510
  | v1520
  deriving DecidableEq

/-- What decoders change in `UrspConfig`. -/
structure UrspConfig where
  urspVersion : Option Version := none
  succUrspVersion : Option Version := none
  isTrafficDescriptorIncludeIms : Bool := false
  imsRsdsMap : Int → Option (List RouteSelectionDescriptor) := fun _ => none

/-- A place in the vector, with the configuration. -/
structure Cursor where
  startIndex : Nat
  config : UrspConfig := {}

/-- A decoder. -/
abbrev Decode := StateT Cursor (Except Fault)

section Buffer

variable (buffer : Bytes)

/-! ## Reading -/

/-- `int(buffer.size()) - startIndex`. -/
def remaining : Decode Int := do
  return (buffer.length : Int) - (← get).startIndex

/-- `buffer[startIndex++]`. -/
def next : Decode UInt8 := do
  match buffer[(← get).startIndex]? with
  | none => throw .outside
  | some byte =>
    modify fun cursor => { cursor with startIndex := cursor.startIndex + 1 }
    return byte

/-- `count` times `buffer[startIndex++]`. -/
def takeBytes : Nat → Decode Bytes
  | 0 => return []
  | count + 1 => do
      let byte ← next buffer
      let bytes ← takeBytes count
      return byte :: bytes

/-- `std::vector<uint8_t>(size)`. -/
def allocate (size : Int) : Decode Unit := if size < 0 then throw .negativeSize else return ()

/-- A vector of the size, and so many bytes into it. -/
def skip (size : Int) : Decode Unit := do
  allocate size
  let _ ← takeBytes buffer size.toNat
  return ()

def getShort (isLitterEndian : Bool) : Decode UInt16 := do
  if (← get).startIndex ≥ buffer.length then return 0
  else
    let first ← next buffer
    let second ← next buffer
    if isLitterEndian then return second.toUInt16 <<< 8 ||| first.toUInt16
    else return first.toUInt16 <<< 8 ||| second.toUInt16

/-- `ConvertUnsignedShort2Int(GetShort(startIndex, buffer))`. -/
def getLength : Decode Nat := do
  return (← getShort buffer false).toNat

def byteToHexStr (byte : UInt8) : Bytes :=
  let hexDigit (digit : UInt8) : UInt8 := if digit < 10 then 48 + digit else 87 + digit
  [hexDigit (byte >>> 4), hexDigit (byte &&& 15)]

/-! ## Components of traffic descriptors -/

/-- A component for a descriptor. -/
abbrev Component (δ : Type) := δ → Decode (DecodeResult × δ)

/-- `DECODE_FAIL_OTHER`. -/
def failOther {δ : Type} (descriptor : δ) : Decode (DecodeResult × δ) :=
  return (.failOther, descriptor)

/-- The second half of `DecodeOsIdOsAppId`. -/
def decodeAppId (osId : Bytes) : Component TrafficDescriptor := fun descriptor => do
  let stringLen ← next buffer
  let left ← remaining buffer
  if left < stringLen.toNat then failOther descriptor
  else
    let appId ← takeBytes buffer stringLen.toNat
    return (.success, { descriptor with osAppIds := descriptor.osAppIds ++ [⟨osId, appId⟩] })

/-- `DecodeOsIdOsAppId`. With `isAppIdOnly` nothing is checked in front of the length. -/
def decodeOsIdOsAppId (isAppIdOnly : Bool) : Component TrafficDescriptor := fun descriptor => do
  if isAppIdOnly then decodeAppId buffer [] descriptor
  else
    let left ← remaining buffer
    if left < 16 + 1 then failOther descriptor
    else
      let osId ← takeBytes buffer 16
      decodeAppId buffer (osId.flatMap byteToHexStr) descriptor

def decodeIpv4Addr : Component TrafficDescriptor := fun descriptor => do
  let left ← remaining buffer
  if left < 8 then failOther descriptor
  else
    let addr ← takeBytes buffer 4
    let mask ← takeBytes buffer 4
    return (.success, { descriptor with
      ipv4Addrs := descriptor.ipv4Addrs ++
        [⟨.ofNat (ofBigEndian addr), .ofNat (ofBigEndian mask)⟩] })

def decodeIpv6Addr : Component TrafficDescriptor := fun descriptor => do
  let left ← remaining buffer
  if left < 16 + 1 then failOther descriptor
  else
    let addr ← takeBytes buffer 16
    let prefixLen ← next buffer
    return (.success, { descriptor with
      ipv6Addrs := descriptor.ipv6Addrs ++ [⟨addr, prefixLen.toNat⟩] })

def decodeProtocolId : Component TrafficDescriptor := fun descriptor => do
  let left ← remaining buffer
  if left < 1 then failOther descriptor
  else
    let protocolId ← next buffer
    return (.success, { descriptor with
      protocolIds := descriptor.protocolIds ++ [(protocolId.toNat : Int)] })

def decodeSingleRemotePort : Component TrafficDescriptor := fun descriptor => do
  let left ← remaining buffer
  if left < 2 then failOther descriptor
  else
    let port ← getLength buffer
    return (.success, { descriptor with
      singleRemotePorts := descriptor.singleRemotePorts ++ [(port : Int)] })

def decodeRemotePortRange : Component TrafficDescriptor := fun descriptor => do
  let left ← remaining buffer
  if left < 4 then failOther descriptor
  else
    let low ← getLength buffer
    let high ← getLength buffer
    return (.success, { descriptor with
      remotePortRanges := descriptor.remotePortRanges ++ [⟨low, high⟩] })

/-- The loop of `DecodeSubDnns`: `left` bytes of `stringLen` are left, and `cnt` of the
label. -/
def decodeSubDnns (stringLen : Nat) : (left cnt : Nat) → Bytes → Decode Bytes
  | 0, cnt, stringBuffer => return if cnt > 0 then [] else stringBuffer
  | left + 1, 0, stringBuffer => do
      let cnt ← next buffer
      if cnt.toNat > left then return []
      else
        decodeSubDnns stringLen left cnt.toNat
          (if left + 1 < stringLen then stringBuffer ++ [46] else stringBuffer)
  | left + 1, cnt + 1, stringBuffer => do
      let byte ← next buffer
      decodeSubDnns stringLen left cnt (stringBuffer ++ [byte])

/-- A name with its length in front; the empty name is a failure. -/
def decodeName : Decode Bytes := do
  let left ← remaining buffer
  if left < 1 then return []
  else
    let stringLen ← next buffer
    let left ← remaining buffer
    if left < stringLen.toNat then return []
    else decodeSubDnns buffer stringLen.toNat stringLen.toNat 0 []

/-- `"ims" == dnn || "IMS" == dnn`. -/
def isIms (dnn : Bytes) : Bool := dnn = [105, 109, 115] ∨ dnn = [73, 77, 83]

/-- `mIsTrafficDescriptorIncludeIms = true` if so. -/
def includeIms (ims : Bool) : Decode Unit :=
  modify fun cursor => { cursor with config := { cursor.config with
    isTrafficDescriptorIncludeIms := cursor.config.isTrafficDescriptorIncludeIms || ims } }

def decodeTrafficDescriptorDnn : Component TrafficDescriptor := fun descriptor => do
  let dnn ← decodeName buffer
  if dnn = [] then failOther descriptor
  else
    includeIms (isIms dnn)
    return (.success, { descriptor with dnns := descriptor.dnns ++ [dnn] })

def decodeFqdn : Component TrafficDescriptor := fun descriptor => do
  if (← get).config.urspVersion = some .v1510 then return (.failUnknownIdentifier, descriptor)
  else
    let fqdn ← decodeName buffer
    if fqdn = [] then failOther descriptor
    else return (.success, { descriptor with fqdns := descriptor.fqdns ++ [fqdn] })

def decodeConnectionCapabilities : Component TrafficDescriptor := fun descriptor => do
  let left ← remaining buffer
  if left < 1 then failOther descriptor
  else
    let stringLen ← next buffer
    let left ← remaining buffer
    if left < stringLen.toNat then failOther descriptor
    else
      let capabilities ← takeBytes buffer stringLen.toNat
      includeIms (capabilities.any (· &&& 1 ≠ 0))
      return (.success, { descriptor with
        connectionCapabilities := descriptor.connectionCapabilities ++
          capabilities.map fun capability => (capability.toNat : Int) })

/-- `len - (initBufferRemaining - (int(buffer.size()) - startIndex))`. -/
def rest (len initBufferRemaining : Int) : Decode Int := do
  return len - (initBufferRemaining - (← remaining buffer))

/-- What is left of a descriptor is skipped. -/
def skipRest {δ : Type} (len initBufferRemaining : Int) (result : DecodeResult × δ) :
    Decode (DecodeResult × δ) := do
  let sublen ← rest buffer len initBufferRemaining
  skip buffer sublen
  return result

def decodeTrafficDescriptorExtra (len : Int) (type : UInt8) (initBufferRemaining : Int) :
    Component TrafficDescriptor := fun descriptor => do
  if type = 0x50 then decodeSingleRemotePort buffer descriptor
  else if type = 0x51 then decodeRemotePortRange buffer descriptor
  else if type = 0x88 then decodeTrafficDescriptorDnn buffer descriptor
  else if type = 0x91 then
    let result ← decodeFqdn buffer descriptor
    if result.1 = .failUnknownIdentifier then skipRest buffer len initBufferRemaining result
    else return result
  else if type = 0x90 then decodeConnectionCapabilities buffer descriptor
  else if type = 0xA0 then decodeOsIdOsAppId buffer true descriptor
  else skipRest buffer len initBufferRemaining (.success, descriptor)

/-- The `switch` of `DecodeTrafficDescriptor`. -/
def decodeTrafficDescriptorComponent (len : Int) (type : UInt8) (initBufferRemaining : Int) :
    Component TrafficDescriptor := fun descriptor =>
  if type = 0x01 then return (.success, { descriptor with isMatchAll := true })
  else if type = 0x08 then decodeOsIdOsAppId buffer false descriptor
  else if type = 0x10 then decodeIpv4Addr buffer descriptor
  else if type = 0x21 then decodeIpv6Addr buffer descriptor
  else if type = 0x30 then decodeProtocolId buffer descriptor
  else decodeTrafficDescriptorExtra buffer len type initBufferRemaining descriptor

/-! ## Components of route selection descriptors -/

/-- `AllowedNssaiConfig::DecodeSnssai`. -/
def decodeSnssaiContents (len : UInt8) : Decode (Option Snssai) := do
  if len = 1 then
    let sst ← next buffer
    return some { snssaiLen := 1, sst }
  else if len = 2 then
    let sst ← next buffer
    let mappedSst ← next buffer
    return some { snssaiLen := 2, sst, mappedSst }
  else if len = 4 then
    let sst ← next buffer
    let sd ← takeBytes buffer 3
    return some { snssaiLen := 4, sst, sd := ofBigEndian sd }
  else if len = 5 then
    let sst ← next buffer
    let sd ← takeBytes buffer 3
    let mappedSst ← next buffer
    return some { snssaiLen := 5, sst, sd := ofBigEndian sd, mappedSst }
  else if len = 8 then
    let sst ← next buffer
    let sd ← takeBytes buffer 3
    let mappedSst ← next buffer
    let mappedSd ← takeBytes buffer 3
    return some
      { snssaiLen := 8, sst, sd := ofBigEndian sd, mappedSst, mappedSd := ofBigEndian mappedSd }
  else return none

def decodeSscMode : Component RouteSelectionDescriptor := fun routeRule => do
  let left ← remaining buffer
  if left < 1 then failOther routeRule
  else
    let byte ← next buffer
    return (.success, { routeRule with sscMode := byte &&& 7 })

def decodeSnssai : Component RouteSelectionDescriptor := fun routeRule => do
  let left ← remaining buffer
  if left < 1 then failOther routeRule
  else
    let subLen ← next buffer
    let left ← remaining buffer
    if left < subLen.toNat then failOther routeRule
    else
      match ← decodeSnssaiContents buffer subLen with
      | none => failOther routeRule
      | some snssai => return (.success, { routeRule with snssais := routeRule.snssais ++ [snssai] })

def decodeDnn : Component RouteSelectionDescriptor := fun routeRule => do
  let dnn ← decodeName buffer
  if dnn = [] then failOther routeRule
  else return (.success, { routeRule with dnns := routeRule.dnns ++ [dnn] })

def transferPduSessionTypeToHal (pduSessionType : UInt8) : Int :=
  if pduSessionType = 1 then 0
  else if pduSessionType = 2 then 1
  else if pduSessionType = 3 then 2
  else if pduSessionType = 4 then 5
  else if pduSessionType = 5 then 4
  else 2

def decodePduSessionType : Component RouteSelectionDescriptor := fun routeRule => do
  let left ← remaining buffer
  if left < 1 then failOther routeRule
  else
    let byte ← next buffer
    return (.success, { routeRule with
      pduSessionType := transferPduSessionTypeToHal (byte &&& 7) })

def preferredAccessTypeNon3gpp : UInt8 := 0x10

def decodePreferredAccessType : Component RouteSelectionDescriptor := fun routeRule => do
  let left ← remaining buffer
  if left < 1 then failOther routeRule
  else
    let byte ← next buffer
    if byte = preferredAccessTypeNon3gpp then return (.failUnknownIdentifier, routeRule)
    else return (.success, routeRule)

/-- `ROUTE_SELECTION_DESCRIPTOR_COMPONENT_PREFERRED_ACCESS_TYPE`. -/
def componentPreferredAccessType : UInt8 := 16

/-- The `switch` of `DecodeRouteRule`. -/
def decodeRouteRuleComponent (len : Int) (type : UInt8) (initBufferRemaining : Int) :
    Component RouteSelectionDescriptor := fun routeRule => do
  if type = 1 then decodeSscMode buffer routeRule
  else if type = 2 then decodeSnssai buffer routeRule
  else if type = 4 then decodeDnn buffer routeRule
  else if type = 8 then decodePduSessionType buffer routeRule
  else if type = componentPreferredAccessType then
    let result ← decodePreferredAccessType buffer routeRule
    if result.1 = .failUnknownIdentifier then skipRest buffer len initBufferRemaining result
    else return result
  else if type = 32 then return (.success, routeRule)
  else skipRest buffer len initBufferRemaining (.failUnknownIdentifier, routeRule)

/-! ## Rules -/

/-- The loop over the components of a descriptor, in at most `fuel` rounds. -/
def decodeComponents {δ : Type} (component : Int → UInt8 → Int → Component δ)
    (len initBufferRemaining : Int) : Nat → Component δ
  | 0, _ => throw .endless
  | fuel + 1, descriptor => do
      let left ← remaining buffer
      if initBufferRemaining - left < len then
        if left < 1 then failOther descriptor
        else
          let type ← next buffer
          let (ret, descriptor) ← component len type initBufferRemaining descriptor
          if ret ≠ .success then return (ret, descriptor)
          else decodeComponents component len initBufferRemaining fuel descriptor
      else return (.success, descriptor)

def decodeTrafficDescriptor (inputLen : Nat) : Component TrafficDescriptor :=
  fun trafficDescriptor => do
    let initBufferRemaining ← remaining buffer
    decodeComponents buffer (decodeTrafficDescriptorComponent buffer) inputLen
      initBufferRemaining (inputLen + 1) trafficDescriptor

def decodeRouteRule (inputLen : Nat) : Component RouteSelectionDescriptor := fun routeRule => do
  let initBufferRemaining ← remaining buffer
  decodeComponents buffer (decodeRouteRuleComponent buffer) inputLen initBufferRemaining
    (inputLen + 1) routeRule

def getLenBytesByversion : Version → Nat
  | .v1510 => 1
  | .v1520 => 2

variable (version : Version)

/-- `GetSubLenByversion`; nothing for `DECODE_FAIL_OTHER`. -/
def getSubLenByversion : Decode (Option Nat) := do
  let left ← remaining buffer
  if left < getLenBytesByversion version then return none
  else
    match version with
    | .v1510 => return some (← next buffer).toNat
    | .v1520 => return some (← getLength buffer)

/-- One round of the loop of `DecodeRouteRuleList`, for a descriptor of `subLen` bytes. -/
def decodeRouteRuleListItem (subLen : Nat) : Component (List RouteSelectionDescriptor) :=
  fun routeRules => do
    let left ← remaining buffer
    if left < 3 then failOther routeRules
    else
      let routePrecedence ← next buffer
      let routeRuleLen ← getLength buffer
      let left ← remaining buffer
      if left < routeRuleLen ∨ subLen ≠ 3 + routeRuleLen then failOther routeRules
      else
        let (ret, routeRule) ← decodeRouteRule buffer routeRuleLen
          { routePrecedence := routePrecedence.toNat }
        if ret = .failOther then failOther routeRules
        else if ret = .failUnknownIdentifier then return (.success, routeRules)
        else return (.success, routeRules ++ [routeRule])

/-- The loop of `DecodeRouteRuleList`. -/
def decodeRouteRules (version : Version) (len : Nat) : Component (List RouteSelectionDescriptor) :=
  fun routeRules =>
    if 0 < len then do
      match ← getSubLenByversion buffer version with
      | none => failOther routeRules
      | some subLen =>
        let left ← remaining buffer
        if left < subLen ∨ len < getLenBytesByversion version + subLen then failOther routeRules
        else
          let (ret, routeRules) ← decodeRouteRuleListItem buffer subLen routeRules
          if ret = .failOther then failOther routeRules
          else decodeRouteRules version (len - (getLenBytesByversion version + subLen)) routeRules
    else return (.success, routeRules)
  termination_by len
  decreasing_by cases version <;> simp only [getLenBytesByversion] <;> omega

variable (inputLen : Nat) (urspRule : UrspRule) (urspRules : List UrspRule)

def decodeRouteRuleList : Component UrspRule :=
  fun urspRule => do
    let (ret, routeRules) ← decodeRouteRules buffer version inputLen
      urspRule.routeSelectionDescriptors
    let urspRule := { urspRule with routeSelectionDescriptors := routeRules }
    if ret = .failOther then failOther urspRule
    else if routeRules = [] then return (.failUnknownIdentifier, urspRule)
    else return (.success, urspRule)

/-- The end of `DecodeUrspRuleExtra`: a decoded rule, and its descriptors for IMS. -/
def addUrspRule : Decode (List UrspRule) := do
  modify fun cursor =>
    if cursor.config.isTrafficDescriptorIncludeIms then
      { cursor with config := { cursor.config with
        imsRsdsMap := fun key =>
          if key = urspRule.urspPrecedence then some urspRule.routeSelectionDescriptors
          else cursor.config.imsRsdsMap key
        isTrafficDescriptorIncludeIms := false } }
    else cursor
  return urspRules ++ [urspRule]

/-- The second half of `DecodeUrspRuleExtra`, with `len` bytes left for the list of
routes. -/
def decodeUrspRuleRoutes (len : Nat) (urspRule : UrspRule)
    (urspRules : List UrspRule) : Decode (Bool × List UrspRule) := do
  let left ← remaining buffer
  if left < 2 then return (false, urspRules)
  else
    let routeRuleListLen ← getLength buffer
    let left ← remaining buffer
    if left < routeRuleListLen ∨ len ≠ 2 + routeRuleListLen then return (false, urspRules)
    else
      let (ret, urspRule) ← decodeRouteRuleList buffer version routeRuleListLen urspRule
      if ret = .failOther then return (false, urspRules)
      else if ret = .failUnknownIdentifier then return (true, urspRules)
      else return (true, ← addUrspRule urspRule urspRules)

/-- `startIndex` is another one. -/
def setStartIndex (startIndex : Nat) : Decode Unit :=
  modify fun cursor => { cursor with startIndex := startIndex }

/-- A vector of the size, and so many bytes into it, without a new `startIndex`. -/
def copyBytes (size : Nat) : Decode Unit := do
  let cursor ← get
  skip buffer size
  setStartIndex cursor.startIndex

def decodeUrspRuleExtra : Decode (Bool × List UrspRule) := do
  let trafficDescriptorLen ← getLength buffer
  let left ← remaining buffer
  if left < trafficDescriptorLen ∨ inputLen < 3 + trafficDescriptorLen then
    return (false, urspRules)
  else
    let len := inputLen - (3 + trafficDescriptorLen)
    let (ret, trafficDescriptor) ← decodeTrafficDescriptor buffer trafficDescriptorLen
      urspRule.trafficDescriptor
    if ret = .failOther then return (false, urspRules)
    else if ret = .failUnknownIdentifier then
      let left ← remaining buffer
      if left < len then return (false, urspRules)
      else
        copyBytes buffer len
        return (true, urspRules)
    else
      decodeUrspRuleRoutes buffer version len
        { urspRule with trafficDescriptor := trafficDescriptor } urspRules

def decodeUrspRule : Decode (Bool × List UrspRule) := do
  let left ← remaining buffer
  if left < 3 then return (false, urspRules)
  else
    let urspPrecedence ← next buffer
    decodeUrspRuleExtra buffer version inputLen { urspPrecedence := urspPrecedence.toNat } urspRules

def resetImsRsdsMap : Decode Unit :=
  modify fun cursor => { cursor with config := { cursor.config with
    isTrafficDescriptorIncludeIms := false
    imsRsdsMap := fun _ => none } }

def decodeUrspByVersion (version : Version) (len : Nat) (urspRules : List UrspRule) :
    Decode (Bool × List UrspRule) :=
  if 0 < len then do
    match ← getSubLenByversion buffer version with
    | none => return (false, urspRules)
    | some subLen =>
      let left ← remaining buffer
      if left < subLen ∨ len < getLenBytesByversion version + subLen then return (false, urspRules)
      else
        let (decoded, urspRules) ← decodeUrspRule buffer version subLen urspRules
        if decoded then
          decodeUrspByVersion version (len - (getLenBytesByversion version + subLen)) urspRules
        else
          resetImsRsdsMap
          return (false, [])
  else return (true, urspRules)
  termination_by len
  decreasing_by cases version <;> simp only [getLenBytesByversion] <;> omega

def setUrspVersion : Decode Unit :=
  modify fun cursor => { cursor with config := { cursor.config with urspVersion := some version } }

/-- `sSuccUrspVersion = version`. -/
def setSuccUrspVersion : Decode Unit :=
  modify fun cursor =>
    { cursor with config := { cursor.config with succUrspVersion := some version } }

/-- `DecodeUrspRules`. The second attempt has an index of its own. -/
def decodeUrspRules : Decode (Bool × List UrspRule) := do
  let cursor ← get
  setUrspVersion .v1520
  let (decoded, urspRules) ← decodeUrspByVersion buffer .v1520 inputLen urspRules
  if decoded then
    setSuccUrspVersion .v1520
    return (true, urspRules)
  else
    let failed ← get
    setStartIndex cursor.startIndex
    setUrspVersion .v1510
    let (decoded, urspRules) ← decodeUrspByVersion buffer .v1510 inputLen urspRules
    setStartIndex failed.startIndex
    if decoded then
      setSuccUrspVersion .v1510
      return (true, urspRules)
    else return (false, urspRules)

end Buffer

end NetManager.Slice
