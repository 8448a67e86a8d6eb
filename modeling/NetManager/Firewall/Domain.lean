import NetManager.Firewall.Native
import NetManager.Library.Labels
import NetManager.Library.StringTrie

/-!
# Domain rules

User space writes one key for each domain of a rule into a longest-prefix-match map:
the user, the application and the reversed name with a length behind each label. The
kernel program reverses the name of a DNS query as it stands on the wire and looks it
up. Prefix lengths are whole bytes on both sides, so a key is the string of bytes that
its prefix has.
-/

namespace NetManager.Firewall

/-- A byte. -/
abbrev Byte := BitVec 8

/-- The byte of a length. -/
def sizeByte (length : Nat) : Byte := BitVec.ofNat 8 length

/-- `'.'`. -/
def dot : Byte := 46
/-- `'*'`. -/
def asterisk : Byte := 42

def dnsDomainLen : Nat := 128
def dnsDomainLenMin : Nat := 1

/-! ## Rules -/

structure NetFirewallDomainParam where
  isWildcard : Bool
  domain : List Byte
  deriving DecidableEq

/-- `NetFirewallDomainRule`, less the fields that only the service reads. -/
structure NetFirewallDomainRule where
  userId : BitVec 32
  appUid : BitVec 32
  ruleAction : FirewallRuleAction
  domains : List NetFirewallDomainParam

/-! ## Keys -/

structure DomainHashKey where
  /-- `prefixlen`, in bits. -/
  prefixlen : Nat := 0
  uid : BitVec 32 := 0
  appuid : BitVec 32 := 0
  data : List Byte := List.replicate dnsDomainLen 0

/-- The bytes of a number in memory. -/
def littleEndian (number : BitVec 32) : List Byte :=
  [number.extractLsb' 0 8, number.extractLsb' 8 8, number.extractLsb' 16 8, number.extractLsb' 24 8]

variable (key : DomainHashKey)

/-- The bytes of a key that its prefix has. -/
def DomainHashKey.prefixBytes : List Byte :=
  (littleEndian key.uid ++ littleEndian key.appuid ++ key.data).take (key.prefixlen / 8)

/-- The bytes that were written, with zeros behind them. -/
def padded (written : List Byte) : List Byte :=
  written ++ List.replicate (dnsDomainLen - written.length) 0

/-- The parts of a text between dots, as `std::sregex_token_iterator` gives them: an
empty part at the end is left out, unless it is the whole text. -/
def tokens (text : List Byte) : List (List Byte) :=
  let parts := text.splitOn dot
  if parts.length = 1 then parts
  else if parts.getLast? = some [] then parts.dropLast
  else parts

/-- The loop of `GetDomainHashKey` over the parts of the reversed name: the bytes that
were written, and whether all of them found room. -/
def appendTokens (written : List Byte) : List (List Byte) → List Byte × Bool
  | [] => (written, true)
  | token :: rest =>
    if written.length + token.length + 1 > dnsDomainLen then (written, false)
    else appendTokens (written ++ token ++ [sizeByte token.length]) rest

def getDomainHashKey (domain : List Byte) : DomainHashKey :=
  if domain.isEmpty then {}
  else
    let text := domain.reverse.filter (· ≠ asterisk)
    let (written, finished) := appendTokens [] (tokens text)
    if finished then { prefixlen := (4 + 4 + written.length) * 8, data := padded written }
    else { data := padded written }

/-- The loop of `DecodeDomainFromKey` over the rest of the name. -/
def decodeLabels (qname : List Byte) (isFirstLabel : Bool) (domain : List Byte) : List Byte :=
  match qname with
  | [] => domain
  | labelLen :: rest =>
    if labelLen = 0 then domain
    else if labelLen.toNat > rest.length then domain
    else
      let domain := if isFirstLabel then domain else domain ++ [dot]
      decodeLabels (rest.drop labelLen.toNat) false (domain ++ rest.take labelLen.toNat)
  termination_by qname.length
  decreasing_by
    rw [List.length_drop, List.length_cons]
    omega

def decodeDomainFromKey : List Byte :=
  if key.prefixlen < (4 + 4) * 8 then []
  else
    let domainLenBytes := (key.prefixlen - (4 + 4) * 8) / 8
    if domainLenBytes < dnsDomainLenMin then []
    else decodeLabels (key.data.take (min domainLenBytes dnsDomainLen)).reverse true []

/-! ## Maps -/

/-- `DOMAIN_PASS_MAP` and `DOMAIN_DENY_MAP`. -/
structure DomainMaps where
  /-- `DOMAIN_PASS_MAP`. -/
  pass : List (List Byte × Byte) := []
  /-- `DOMAIN_DENY_MAP`. -/
  deny : List (List Byte × Byte) := []

namespace DomainMaps

def writeBpfMap (table : List (List Byte × Byte)) (key : DomainHashKey) : List (List Byte × Byte) :=
  BoundedTable.write Eq mapMaxEntries table (key.prefixBytes, 1)

/-- `SetBpfFirewallDomainRules`, which does not look at `isWildcard`. -/
def setBpfFirewallDomainRules (maps : DomainMaps) (action : FirewallRuleAction)
    (key : DomainHashKey) : DomainMaps :=
  if action = .ruleAllow then { maps with pass := writeBpfMap maps.pass key }
  else if action = .ruleDeny then { maps with deny := writeBpfMap maps.deny key }
  else maps

/-- The key of a domain of a rule. -/
def ruleKey (rule : NetFirewallDomainRule) (param : NetFirewallDomainParam) : DomainHashKey :=
  { getDomainHashKey param.domain with uid := rule.userId, appuid := rule.appUid }

def setFirewallDomainRules (maps : DomainMaps) (ruleList : List NetFirewallDomainRule) :
    DomainMaps :=
  if ruleList.isEmpty then maps
  else
    ruleList.foldl
      (fun maps rule => rule.domains.foldl
        (fun maps param =>
          maps.setBpfFirewallDomainRules rule.ruleAction (ruleKey rule param)) maps) {}

end DomainMaps

/-! ## The kernel program -/

/-- `bpf_skb_load_bytes` of one byte; past the end of the packet it gives zero. -/
def loadByte (skb : List Byte) (offset : Byte) : Byte := skb.getD offset.toNat 0

/-- The loop of `parse_queries_name` that reads the name up to a zero: the bytes that
were read before it, unless there is none, and the offset behind it. -/
def readName (skb : List Byte) (read : List Byte) (offset : Byte) :
    Nat → Option (List Byte × Byte)
  | 0 => none
  | remaining + 1 =>
    let byte := loadByte skb offset
    if byte = 0 then some (read, offset + 1)
    else readName skb (read ++ [byte]) (offset + 1) remaining

/-- The loop of `parse_queries_name` that reverses the name in place. -/
def swapLoop (data : List Byte) (start last : Nat) : Nat → List Byte
  | 0 => data
  | remaining + 1 =>
    if start < last then
      swapLoop ((data.set start (data.getD last 0)).set last (data.getD start 0))
        (start + 1) (last - 1) remaining
    else data

/-- `parse_queries_name`: the reversed name and the offset behind it. The offset is a
byte. -/
def parseQueriesName (skb : List Byte) (dnsQryOff : Byte) : Option (List Byte × Byte) :=
  match readName skb [] dnsQryOff dnsDomainLen with
  | none => none
  | some (name, offset) =>
    if dnsDomainLenMin < name.length ∧ name.length < dnsDomainLen then
      some (swapLoop name 0 (name.length - 1) dnsDomainLen, offset)
    else some (name, offset)

/-- The offset of the question of a packet, behind the headers of IP, UDP and DNS. -/
def dnsQryOff (isIpv4 : Bool) : Nat := (if isIpv4 then 20 else 40) + 8 + 12

/-- The key of a query: `uid` is the user and `appuid` the application or 0. -/
def queryKey (name : List Byte) (uid appuid : BitVec 32) : DomainHashKey where
  prefixlen := (name.length + 4 + 4) * 8
  uid := uid
  appuid := appuid
  data := padded name

/-- A lookup of the key finds the value 1. -/
def DomainHashKey.found (table : List (List Byte × Byte)) : Bool :=
  StringTrie.lookup key.prefixBytes table = some 1

/-- What `parse_dns_query` finds: `allowrst` and `denyrst`. -/
structure DnsQueryResult where
  allowrst : Bool
  denyrst : Bool
  deriving DecidableEq

variable (maps : DomainMaps)

/-- The lookups of `parse_dns_query`: with the application and with 0. -/
def lookupName (name : List Byte) (uid appuid : BitVec 32) : DnsQueryResult where
  allowrst := (queryKey name uid appuid).found maps.pass || (queryKey name uid 0).found maps.pass
  denyrst := (queryKey name uid appuid).found maps.deny || (queryKey name uid 0).found maps.deny

/-- What `parse_dns_query` finds for a packet with one question; a name that is too
long is not looked up. -/
def queryResult (skb : List Byte) (dnsQryOff : Byte)
    (uid appuid : BitVec 32) : Option DnsQueryResult :=
  match parseQueriesName skb dnsQryOff with
  | none => none
  | some (name, offset) => if offset = 0 then none else some (lookupName maps name uid appuid)

/-- `parse_dns_query`: whether the packet is dropped. -/
def parseDnsQuery (skb : List Byte) (dnsQryOff : Byte) (quNum : Nat) (uid appuid : BitVec 32)
    (defaultactionrst : SkAction) : Bool :=
  if quNum = 1 then
    match queryResult maps skb dnsQryOff uid appuid with
    | none => false
    | some result =>
      match defaultactionrst with
      | .drop => result.denyrst
      | .pass => result.denyrst && !result.allowrst
  else false

end NetManager.Firewall
