import NetManager.Firewall.Ip4
import NetManager.Firewall.Ip6
import NetManager.Firewall.Port
import NetManager.Firewall.UnorderedMap

/-!
# Building the classifier maps

`BitmapManager::BuildBitmapMap` turns a list of rules into eleven maps. It
first marks every rule in the maps of the fields it constrains, then inserts
the other keys that stand for all remaining values, and at last marks the rules
that do not constrain a field in every entry of the field's map.
-/

namespace NetManager.Firewall

open AddressPrefix

def otherIp4Key : BitVec 32 := 0xffffffff
/-- The key of all ones of the IPv6 maps. -/
def otherIp6Key : In6Addr := BitVec.allOnes 128
def otherPortKey : BitVec 16 := 0xffff
def otherProtoKey : BitVec 8 := 0xff
def otherAppUidKey : BitVec 32 := 0xffffffff
def otherUidKey : BitVec 32 := 0xffffffff

/-- The two address maps of one side of a connection. -/
structure IpMaps where
  /-- `srcIp4Map_` or `dstIp4Map_`. -/
  ip4 : List Ip4RuleBitmap
  /-- `srcIp6Map_` or `dstIp6Map_`. -/
  ip6 : List Ip6RuleBitmap

/-- The maps of `BitmapManager`. -/
structure BitmapManager where
  /-- The maps of remote addresses. -/
  src : IpMaps
  /-- The maps of local addresses. -/
  dst : IpMaps
  /-- `srcPortMap_`, the map of remote ports. -/
  srcPortMap : List PortRuleBitmap
  /-- `dstPortMap_`, the map of local ports. -/
  dstPortMap : List PortRuleBitmap
  protoMap : BpfUnorderedMap (BitVec 8)
  appUidMap : BpfUnorderedMap (BitVec 32)
  uidMap : BpfUnorderedMap (BitVec 32)
  actionMap : BpfUnorderedMap (BitVec 8)
  interfaceMap : BpfUnorderedMap String

namespace BitmapManager

variable (manager : BitmapManager)

/-- The address maps of one side. -/
def ips (isSrc : Bool) : IpMaps := if isSrc then manager.src else manager.dst

/-- The port map of one side. -/
def portMap (isSrc : Bool) : List PortRuleBitmap :=
  if isSrc then manager.srcPortMap else manager.dstPortMap

/-! ## Marking the constrained fields -/

variable (fuel : Nat)

def insertIp4SegBitmap (item : NetFirewallIpParam) (bitmap : Bitmap)
    (ip4Map : List Ip4RuleBitmap) : Outcome (List Ip4RuleBitmap) :=
  if item.type = singleIp then
    Outcome.ok (Ip4RuleMap.orInsert ip4Map item.ipv4.startIp item.mask.toNat bitmap)
  else if item.type = multipleIp then do
    let ips ← IpParamParser.getIp4AndMask fuel item.ipv4.startIp item.ipv4.endIp
    Outcome.ok (ips.foldl
      (fun map ipData => Ip4RuleMap.orInsert map ipData.addr ipData.len bitmap)
      ip4Map)
  else Outcome.ok ip4Map

def insertIp6SegBitmap (item : NetFirewallIpParam) (bitmap : Bitmap)
    (ip6Map : List Ip6RuleBitmap) : Outcome (List Ip6RuleBitmap) :=
  if item.type = singleIp then
    Outcome.ok (Ip6RuleMap.orInsert ip6Map item.ipv6.startIp item.mask.toNat bitmap)
  else if item.type = multipleIp then do
    let ips ← IpParamParser.getIp6AndMask item.ipv6.startIp item.ipv6.endIp
    Outcome.ok (ips.foldl
      (fun map ipData => Ip6RuleMap.orInsert map ipData.addr ipData.len bitmap)
      ip6Map)
  else Outcome.ok ip6Map

/-- One turn of `InsertIpBitmap`. A family other than the two has no map. -/
def insertIpParam (bitmap : Bitmap) (maps : IpMaps) (item : NetFirewallIpParam) : Outcome IpMaps :=
  if item.family = familyIpv4 then do
    let ip4 ← insertIp4SegBitmap fuel item bitmap maps.ip4
    Outcome.ok { maps with ip4 := ip4 }
  else if item.family = familyIpv6 then do
    let ip6 ← insertIp6SegBitmap item bitmap maps.ip6
    Outcome.ok { maps with ip6 := ip6 }
  else throw .err

/-- `InsertIpBitmap` on the maps of one side. -/
def insertIpBitmap (ipInfo : List NetFirewallIpParam) (bitmap : Bitmap)
    (maps : IpMaps) : Outcome IpMaps :=
  ipInfo.foldlM (insertIpParam fuel bitmap) maps

def isNotNeedPort (protocol : NetworkProtocol) : Bool :=
  protocol = NetworkProtocol.icmpv6 || protocol = NetworkProtocol.icmp

def addPortBitmap (port : List NetFirewallPortParam) (bitmap : Bitmap)
    (portMap : List SegmentBitmap) : List SegmentBitmap :=
  port.foldl
    (fun portMap item =>
      if item.startPort = 0 then portMap
      else if item.startPort ≤ item.endPort then
        SegmentBitmapMap.addMap portMap item.startPort item.endPort bitmap
      else portMap)
    portMap

/-- The maps that `BuildMarkBitmap` fills without being able to fail. -/
structure FieldMaps where
  /-- The local `srcPortMap` of segments. -/
  srcSegments : List SegmentBitmap
  /-- The local `dstPortMap` of segments. -/
  dstSegments : List SegmentBitmap
  protoMap : BpfUnorderedMap (BitVec 8)
  appUidMap : BpfUnorderedMap (BitVec 32)
  uidMap : BpfUnorderedMap (BitVec 32)
  actionMap : BpfUnorderedMap (BitVec 8)
  interfaceMap : BpfUnorderedMap String

variable (rule : NetFirewallIpRule)

/-- The protocol a rule constrains, cut to the byte of `ProtoKey`. -/
def protoKey : Option (BitVec 8) :=
  if rule.protocol.code ≠ 0 then some (rule.protocol.code.setWidth 8)
  else none

/-- The application a rule constrains. -/
def appUidKey : Option (BitVec 32) := if 0 < rule.appUid.toInt then some rule.appUid else none

/-- The user a rule constrains. -/
def uidKey : Option (BitVec 32) := if 0 < rule.userId.toInt then some rule.userId else none

/-- The entry of the action map that a rule which does not allow goes to. -/
def actionKey : Option (BitVec 8) :=
  if rule.ruleAction ≠ FirewallRuleAction.ruleAllow then some 1 else none

/-- The interface a rule constrains. -/
def interfaceKey : Option String := if rule.interface ≠ "" then some rule.interface else none

/-- Mark a rule under the value it constrains a field to. -/
def markKey {κ : Type} [DecidableEq κ] (key : Option κ) (bitmap : Bitmap)
    (map : BpfUnorderedMap κ) : BpfUnorderedMap κ :=
  match key with
  | some value => BpfUnorderedMap.orInsert value bitmap map
  | none => map

/-- The part of one turn of `BuildMarkBitmap` after the addresses. -/
def markFields (maps : FieldMaps) (indexed : NetFirewallIpRule × Nat) : FieldMaps :=
  let rule := indexed.1
  let bitmap := Bitmap.single indexed.2
  { srcSegments :=
      if isNotNeedPort rule.protocol then maps.srcSegments
      else addPortBitmap rule.remotePorts bitmap maps.srcSegments
    dstSegments :=
      if isNotNeedPort rule.protocol then maps.dstSegments
      else addPortBitmap rule.localPorts bitmap maps.dstSegments
    protoMap := markKey (protoKey rule) bitmap maps.protoMap
    appUidMap := markKey (appUidKey rule) bitmap maps.appUidMap
    uidMap := markKey (uidKey rule) bitmap maps.uidMap
    actionMap := markKey (actionKey rule) bitmap maps.actionMap
    interfaceMap := markKey (interfaceKey rule) bitmap maps.interfaceMap }

/-- The state of the loop of `BuildMarkBitmap`. -/
structure MarkState where
  /-- The maps of remote addresses. -/
  src : IpMaps
  /-- The maps of local addresses. -/
  dst : IpMaps
  /-- The other maps. -/
  fields : FieldMaps

/-- `Clear`. -/
def MarkState.empty : MarkState := ⟨⟨[], []⟩, ⟨[], []⟩, ⟨[], [], [], [], [], [], []⟩⟩

/-- One turn of `BuildMarkBitmap`. Every failure becomes `NETFIREWALL_ERR`. -/
def markRule (state : MarkState)
    (indexed : NetFirewallIpRule × Nat) : Outcome MarkState := do
  let bitmap := Bitmap.single indexed.2
  let src ← ExceptT.adapt (fun _ => NetFirewallError.err)
    (insertIpBitmap fuel indexed.1.remoteIps bitmap state.src)
  let dst ← ExceptT.adapt (fun _ => NetFirewallError.err)
    (insertIpBitmap fuel indexed.1.localIps bitmap state.dst)
  Outcome.ok ⟨src, dst, markFields state.fields indexed⟩

variable (ruleList : List NetFirewallIpRule)

def buildMarkBitmap : Outcome BitmapManager := do
  let state ← ruleList.zipIdx.foldlM (markRule fuel) MarkState.empty
  let srcPortMap ← ExceptT.lift (orInsertPortBitmap state.fields.srcSegments [])
  let dstPortMap ← ExceptT.lift (orInsertPortBitmap state.fields.dstSegments [])
  Outcome.ok
    { src := state.src
      dst := state.dst
      srcPortMap := srcPortMap
      dstPortMap := dstPortMap
      protoMap := state.fields.protoMap
      appUidMap := state.fields.appUidMap
      uidMap := state.fields.uidMap
      actionMap := state.fields.actionMap
      interfaceMap := state.fields.interfaceMap }

/-! ## The other keys and the unconstrained fields -/

/-- `Insert` on the address maps of one side. -/
def insertOtherIp (maps : IpMaps) : IpMaps :=
  { ip4 := Ip4RuleMap.orInsert maps.ip4 otherIp4Key 32 Bitmap.clear
    ip6 := Ip6RuleMap.orInsert maps.ip6 otherIp6Key 128 Bitmap.clear }

/-- `Insert` on the port map of one side. -/
def insertOtherPort (portMap : List PortRuleBitmap) : List PortRuleBitmap :=
  portMap ++ [⟨⟨16, otherPortKey⟩, Bitmap.clear⟩]

def insert : BitmapManager :=
  { src := insertOtherIp manager.src
    dst := insertOtherIp manager.dst
    srcPortMap := insertOtherPort manager.srcPortMap
    dstPortMap := insertOtherPort manager.dstPortMap
    protoMap := BpfUnorderedMap.orInsert otherProtoKey Bitmap.clear manager.protoMap
    appUidMap := BpfUnorderedMap.orInsert otherAppUidKey Bitmap.clear manager.appUidMap
    uidMap := BpfUnorderedMap.orInsert otherUidKey Bitmap.clear manager.uidMap
    actionMap := BpfUnorderedMap.orInsert 1 Bitmap.clear manager.actionMap
    interfaceMap := BpfUnorderedMap.orInsert "" Bitmap.clear manager.interfaceMap }

/-- `OrForEach` on the address maps of one side, for a rule without addresses
there. -/
def noMarkIps (ips : List NetFirewallIpParam) (bitmap : Bitmap) (maps : IpMaps) : IpMaps :=
  if ips = [] then ⟨orForEach maps.ip4 bitmap, orForEach maps.ip6 bitmap⟩
  else maps

/-- `OrForEach` on the port map of one side. -/
def noMarkPorts (ports : List NetFirewallPortParam) (bitmap : Bitmap)
    (portMap : List PortRuleBitmap) : List PortRuleBitmap :=
  if ports = [] ∨ isNotNeedPort rule.protocol then orForEach portMap bitmap
  else portMap

/-- `OrForEach` on the map of a field that a rule does not constrain. -/
def noMarkKey {κ : Type} [DecidableEq κ] (key : Option κ) (bitmap : Bitmap)
    (map : BpfUnorderedMap κ) : BpfUnorderedMap κ :=
  if key = none then BpfUnorderedMap.orForEach map bitmap else map

/-- One turn of `BuildNoMarkBitmap`. -/
def noMarkRule (indexed : NetFirewallIpRule × Nat) : BitmapManager :=
  let rule := indexed.1
  let bitmap := Bitmap.single indexed.2
  { src := noMarkIps rule.remoteIps bitmap manager.src
    dst := noMarkIps rule.localIps bitmap manager.dst
    srcPortMap := noMarkPorts rule rule.remotePorts bitmap manager.srcPortMap
    dstPortMap := noMarkPorts rule rule.localPorts bitmap manager.dstPortMap
    protoMap := noMarkKey (protoKey rule) bitmap manager.protoMap
    appUidMap := noMarkKey (appUidKey rule) bitmap manager.appUidMap
    uidMap := noMarkKey (uidKey rule) bitmap manager.uidMap
    actionMap := manager.actionMap
    interfaceMap := noMarkKey (interfaceKey rule) bitmap manager.interfaceMap }

def buildNoMarkBitmap : BitmapManager := ruleList.zipIdx.foldl noMarkRule manager

def buildBitmapMap : Outcome BitmapManager := do
  let manager ← buildMarkBitmap fuel ruleList
  Outcome.ok (buildNoMarkBitmap manager.insert ruleList)

end BitmapManager

end NetManager.Firewall
