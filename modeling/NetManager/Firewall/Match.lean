import NetManager.Firewall.Build

/-!
# Matching a packet

The kernel program looks every field of a packet up in the map of that field and
intersects the bitmaps it finds. The rules that are left match the packet; the
action map and the default action of the user decide its fate.
-/

namespace NetManager.Firewall

open AddressPrefix

/-! ## The kernel maps -/

/-- A hash map of the kernel. -/
abbrev HashTable (κ : Type) := List (κ × Bitmap)

/-- The eleven maps of one direction. -/
structure Tables where
  /-- Remote IPv4 addresses. -/
  saddr : PrefixTable.Table 32 Bitmap
  /-- Remote IPv6 addresses. -/
  saddr6 : PrefixTable.Table 128 Bitmap
  /-- Local IPv4 addresses. -/
  daddr : PrefixTable.Table 32 Bitmap
  /-- Local IPv6 addresses. -/
  daddr6 : PrefixTable.Table 128 Bitmap
  sport : PrefixTable.Table 16 Bitmap
  dport : PrefixTable.Table 16 Bitmap
  proto : HashTable (BitVec 8)
  appuid : HashTable (BitVec 32)
  uid : HashTable (BitVec 32)
  /-- Rules that do not allow, under the key 1. -/
  action : HashTable (BitVec 8)
  iface : HashTable String

def interfaceNameMaxLen : Nat := 16

/-- The key `WriteInterfaceBpfMap` writes a name under: the zero-padded array of
16 bytes is given by the characters before the first zero. Names that are too
long for the array, or leave no room for its terminator, are skipped. -/
def interfaceMapKey (devName : String) : Option String :=
  if interfaceNameMaxLen < devName.utf8ByteSize then none
  else
    let name := String.ofList (devName.toList.takeWhile fun c => c != '\x00')
    if name.utf8ByteSize < interfaceNameMaxLen then some name else none

/-- The entries `WriteInterfaceBpfMap` writes. -/
def interfaceEntries (interfaceMap : BpfUnorderedMap String) : List (String × Bitmap) :=
  interfaceMap.filterMap fun entry => (interfaceMapKey entry.1).map fun name => (name, entry.2)

/-- Write the entries of a map into an empty hash map of the kernel. -/
def writeHash {κ : Type} [DecidableEq κ] (entries : List (κ × Bitmap)) : HashTable κ :=
  BoundedTable.writeAll Eq entries

/-- The kernel maps of one direction after the maps of a manager are written to
them. -/
def tablesOf (manager : BitmapManager) : Tables where
  saddr := writeLpm manager.src.ip4
  saddr6 := writeLpm manager.src.ip6
  daddr := writeLpm manager.dst.ip4
  daddr6 := writeLpm manager.dst.ip6
  sport := writeLpm manager.srcPortMap
  dport := writeLpm manager.dstPortMap
  proto := writeHash manager.protoMap
  appuid := writeHash manager.appUidMap
  uid := writeHash manager.uidMap
  action := writeHash manager.actionMap
  iface := writeHash (interfaceEntries manager.interfaceMap)

/-- `lookup_map` on a hash map. -/
def lookupHash {κ : Type} [DecidableEq κ] (table : HashTable κ)
    (key otherKey : κ) : Option Bitmap :=
  match BpfUnorderedMap.find key table with
  | some result => some result
  | none => BpfUnorderedMap.find otherKey table

/-! ## The kernel program -/

def afInet : BitVec 32 := 2

/-- `match_tuple`, less the fields that matching does not read. -/
structure MatchTuple where
  ingress : Bool
  family : BitVec 32
  protocol : BitVec 8
  /-- Remote IPv4 address. -/
  saddr : BitVec 32
  /-- Local IPv4 address. -/
  daddr : BitVec 32
  /-- Remote IPv6 address. -/
  saddr6 : In6Addr
  /-- Local IPv6 address. -/
  daddr6 : In6Addr
  sport : BitVec 16
  dport : BitVec 16
  appuid : BitVec 32
  uid : BitVec 32

/-- `enum sk_action`. -/
inductive SkAction
  | drop
  | pass
  deriving DecidableEq

structure DomainValue where
  /-- The application, 0 for any. -/
  appuid : BitVec 32
  uid : BitVec 32

/-- The maps the kernel program reads. -/
structure Kernel where
  ingress : Tables
  egress : Tables
  /-- `DEFAULT_ACTION_MAP`, the incoming and the outgoing default of a user. -/
  defaultAction : BitVec 32 → Option (SkAction × SkAction)
  /-- `DOMAIN_IPV4_MAP`. -/
  domainIpv4 : BitVec 32 → Option DomainValue
  /-- `DOMAIN_IPV6_MAP`. -/
  domainIpv6 : In6Addr → Option DomainValue

namespace Kernel

/-- `GET_MAP`. -/
def tables (kernel : Kernel) (ingress : Bool) : Tables :=
  if ingress then kernel.ingress else kernel.egress

/-- The entry of the domain cache for a packet. -/
def domain (kernel : Kernel) (tuple : MatchTuple) : Option DomainValue :=
  if tuple.family = afInet then kernel.domainIpv4 tuple.saddr
  else kernel.domainIpv6 tuple.saddr6

end Kernel

/-- Intersect a key with the result of a lookup, if there is one. -/
def andFound (key : Bitmap) (result : Option Bitmap) : Bitmap :=
  match result with
  | some bitmap => key.and bitmap
  | none => key

variable (tables : Tables) (tuple : MatchTuple) (key : Bitmap)

def matchAddrs : Bitmap :=
  if tuple.family = afInet then
    andFound
      (andFound key (lookupMap tables.saddr tuple.saddr otherIp4Key))
      (lookupMap tables.daddr tuple.daddr otherIp4Key)
  else
    andFound
      (andFound key (lookupMap tables.saddr6 tuple.saddr6 otherIp6Key))
      (lookupMap tables.daddr6 tuple.daddr6 otherIp6Key)

def matchProtocol : Bitmap :=
  andFound key (lookupHash tables.proto tuple.protocol otherProtoKey)

def matchPorts : Bitmap :=
  andFound
    (andFound key (lookupMap tables.sport tuple.sport otherPortKey))
    (lookupMap tables.dport tuple.dport otherPortKey)

def matchAppuid : Bitmap :=
  andFound key (lookupHash tables.appuid tuple.appuid otherAppUidKey)

def matchUid : Bitmap :=
  andFound key (lookupHash tables.uid tuple.uid otherUidKey)

/-- `match_interface`. The name of the device may not be available. -/
def matchInterface (device : Option String) (key : Bitmap) : Option Bitmap :=
  device.map fun name => andFound key (lookupHash tables.iface name "")

variable (kernel : Kernel) (tuple : MatchTuple)

def matchActionKey (device : Option String) : Option Bitmap :=
  let tables := kernel.tables tuple.ingress
  let key := matchAddrs tables tuple Bitmap.full
  let key := matchProtocol tables tuple key
  let key := matchPorts tables tuple key
  let key := matchAppuid tables tuple key
  let key := matchUid tables tuple key
  matchInterface tables device key

def matchDomain : Bool :=
  match kernel.domain tuple with
  | some result => tuple.uid == result.uid && (tuple.appuid == result.appuid || result.appuid == 0)
  | none => false

/-- The default action that applies to a packet. -/
def defaultActionOf : SkAction :=
  match kernel.defaultAction tuple.uid with
  | some value => if tuple.ingress then value.1 else value.2
  | none => .pass

def matchAction (key : Bitmap) : SkAction :=
  let skAct := defaultActionOf kernel tuple
  let undecided := if matchDomain kernel tuple then .pass else skAct
  match BpfUnorderedMap.find 1 (kernel.tables tuple.ingress).action with
  | some actionBitmap =>
    if key.positive then
      match skAct with
      | .drop =>
        if !(key.and actionBitmap).positive || matchDomain kernel tuple then .pass
        else skAct
      | .pass =>
        if !(key.andInv actionBitmap).positive &&
            !matchDomain kernel tuple then
          .drop
        else skAct
    else undecided
  | none => undecided

end NetManager.Firewall
