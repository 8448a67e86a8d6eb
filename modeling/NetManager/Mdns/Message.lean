import NetManager.Library.Wire

/-!
# Messages of multicast DNS
-/

namespace NetManager.Mdns

open Wire

structure Header where
  id : UInt16 := 0
  flags : UInt16 := 0
  qdcount : UInt16 := 0
  ancount : UInt16 := 0
  nscount : UInt16 := 0
  arcount : UInt16 := 0
  deriving DecidableEq

def rrtypeA : UInt16 := 1

def rrtypePtr : UInt16 := 12

def rrtypeTxt : UInt16 := 16

def rrtypeAaaa : UInt16 := 28

def rrtypeSrv : UInt16 := 33

/-- `Question`. Names are any bytes. -/
structure Question where
  name : Bytes
  qtype : UInt16
  qclass : UInt16
  deriving DecidableEq

structure RDataSrv where
  priority : UInt16
  weight : UInt16
  port : UInt16
  name : Bytes
  deriving DecidableEq

/-- An object of that many bytes, as it stands in memory. -/
abbrev Raw (count : Nat) := { bytes : Bytes // bytes.length = count }

/-- What the `std::any` of a record may hold. -/
inductive RData where
  | empty
  | inAddr (addr : Raw 4)
  | in6Addr (addr : Raw 16)
  | string (name : Bytes)
  | srv (srv : RDataSrv)
  /-- `TxtRecordEncoded`. -/
  | txt (bytes : Bytes)
  deriving DecidableEq

structure ResourceRecord where
  name : Bytes
  rtype : UInt16
  rclass : UInt16
  ttl : UInt32
  length : UInt16
  rdata : RData
  deriving DecidableEq

structure Message where
  header : Header := {}
  questions : List Question := []
  answers : List ResourceRecord := []
  authorities : List ResourceRecord := []
  additional : List ResourceRecord := []
  deriving DecidableEq

def mdnsMaxDomainLabel : Nat := 63

def mdnsDomainSpliter : UInt8 := 46

end NetManager.Mdns
