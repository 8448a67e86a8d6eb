import NetManager.Firewall.Bitmap
import NetManager.Library.PrefixTable

/-!
# Firewall rules

The records of `netfirewall_parcel.h` that the classifier reads, and the error
codes of `bitmap_manager.h`. Addresses and ports in network byte order are
represented by the number whose big-endian bytes they are, so that `htonl`,
`ntohl`, `htons` and `ntohs` are the identity here.
-/

namespace NetManager.Firewall

open AddressPrefix PrefixTable

/-- `NetFirewallError`, less the success code. -/
inductive NetFirewallError
  | err
  | ipStrErr
  | maskErr
  | familyErr
  | emptyErr
  deriving DecidableEq

/-- The numbers of `NetFirewallError`; the success code is 0. -/
def NetFirewallError.code : NetFirewallError → Nat
  | err => 1
  | ipStrErr => 2
  | maskErr => 3
  | familyErr => 4
  | emptyErr => 5

theorem NetFirewallError.code_ne_zero (error : NetFirewallError) : error.code ≠ 0 := by
  cases error <;> decide

/-- A call that can fail with an error code, and that may also not return at
all: `none` stands for a loop that runs past its fuel and for a read outside an
array. -/
abbrev Outcome := ExceptT NetFirewallError Option

namespace Outcome

/-- A call that returns a value. -/
def ok {α : Type} (value : α) : Outcome α := some (.ok value)

variable {α : Type}

@[simp] theorem ok_inj : ok a = ok b ↔ a = b := by
  constructor
  · intro equal
    cases equal
    rfl
  · rintro rfl
    rfl

@[simp] theorem throw_ne_ok : (throw error : Outcome α) ≠ ok value := by
  intro equal
  cases equal

@[simp] theorem ok_bind (value : α) (next : α → Outcome β) :
    (ok value >>= next) = next value := rfl

theorem bind_eq_ok_iff :
    (call >>= next) = ok result ↔ ∃ value, call = ok value ∧ next value = ok result := by
  constructor
  · intro returns
    match call, returns with
    | some (.ok value), returns => exact ⟨value, rfl, returns⟩
    | some (.error _), returns => cases returns
    | none, returns => cases returns
  · rintro ⟨value, rfl, returns⟩
    exact returns

theorem lift_eq_ok_iff : (ExceptT.lift call : Outcome α) = ok result ↔ call = some result := by
  constructor
  · intro returns
    match call, returns with
    | some value, returns =>
      cases returns
      rfl
    | none, returns => cases returns
  · rintro rfl
    rfl

theorem adapt_eq_ok_iff :
    (ExceptT.adapt change call : Outcome α) = ok result ↔ call = ok result := by
  match call with
  | some (.ok value) => rfl
  | some (.error error) =>
    constructor
    · intro returns
      cases returns
    · intro returns
      cases returns
  | none =>
    constructor
    · intro returns
      cases returns
    · intro returns
      cases returns

theorem foldlM_cons_eq_ok_iff :
    (first :: rest).foldlM body state = ok result ↔
      ∃ next, body state first = ok next ∧ rest.foldlM body next = ok result := by
  exact bind_eq_ok_iff

theorem foldlM_returns {σ α : Type} {body : σ → α → Outcome σ} (list : List α)
    (each : ∀ a ∈ list, ∀ state, ∃ next, body state a = ok next) (state : σ) :
    ∃ result, list.foldlM body state = ok result := by
  induction list generalizing state with
  | nil => exact ⟨state, rfl⟩
  | cons first list ih =>
    obtain ⟨next, here⟩ := each first List.mem_cons_self state
    obtain ⟨result, rest⟩ := ih (List.forall_mem_cons.mp each).2 next
    exact ⟨result, foldlM_cons_eq_ok_iff.mpr ⟨next, here, rest⟩⟩

theorem foldlM_eq_ok_of_body
    (turn : ∀ {state item result}, body state item = ok result → more state item = ok result)
    (items : List α) (returns : items.foldlM body state = ok result) :
    items.foldlM more state = ok result := by
  induction items generalizing state with
  | nil => exact returns
  | cons item items ih =>
    obtain ⟨next, first, rest⟩ := foldlM_cons_eq_ok_iff.mp returns
    exact foldlM_cons_eq_ok_iff.mpr ⟨next, turn first, ih rest⟩

end Outcome

/-- `NetworkProtocol`. The parcel stores any integer; 0 stands for no
protocol. -/
structure NetworkProtocol where
  /-- The number of the protocol. -/
  code : BitVec 32
  deriving DecidableEq

namespace NetworkProtocol

def icmp : NetworkProtocol := ⟨1⟩
def tcp : NetworkProtocol := ⟨6⟩
def udp : NetworkProtocol := ⟨17⟩
def gre : NetworkProtocol := ⟨47⟩
def ipsecEsp : NetworkProtocol := ⟨50⟩
def ipsecAh : NetworkProtocol := ⟨51⟩
def icmpv6 : NetworkProtocol := ⟨58⟩
def satExpak : NetworkProtocol := ⟨64⟩
def l2tp : NetworkProtocol := ⟨115⟩

end NetworkProtocol

/-- `FirewallRuleAction`, again any integer. -/
structure FirewallRuleAction where
  /-- -1 is invalid, 0 allows and 1 denies. -/
  code : BitVec 32
  deriving DecidableEq

def FirewallRuleAction.ruleAllow : FirewallRuleAction := ⟨0⟩
def FirewallRuleAction.ruleDeny : FirewallRuleAction := ⟨1⟩

/-- `NetFirewallRuleDirection`, again any integer. -/
structure NetFirewallRuleDirection where
  /-- 1 is inbound and 2 outbound. -/
  code : BitVec 32
  deriving DecidableEq

def NetFirewallRuleDirection.ruleIn : NetFirewallRuleDirection := ⟨1⟩
def NetFirewallRuleDirection.ruleOut : NetFirewallRuleDirection := ⟨2⟩

def familyIpv4 : BitVec 8 := 1
def familyIpv6 : BitVec 8 := 2
def singleIp : BitVec 8 := 1
def multipleIp : BitVec 8 := 2

/-- The two addresses of a parameter: the address of a single IP, or the two
ends of a segment. -/
structure IpSegment (w : Nat) where
  startIp : BitVec w
  endIp : BitVec w
  deriving DecidableEq

/-- `NetFirewallIpParam`. The family selects the member of the union that is
read. -/
structure NetFirewallIpParam where
  /-- IPv4 or IPv6. -/
  family : BitVec 8
  /-- A single address with its mask, or a segment. -/
  type : BitVec 8
  /-- Subnet mask or prefix length. -/
  mask : BitVec 8
  /-- The IPv4 member of the union. -/
  ipv4 : IpSegment 32
  /-- The IPv6 member of the union. -/
  ipv6 : IpSegment 128
  deriving DecidableEq

structure NetFirewallPortParam where
  startPort : BitVec 16
  endPort : BitVec 16
  deriving DecidableEq

/-- `NetFirewallIpRule` with its base record. -/
structure NetFirewallIpRule where
  /-- The user, a signed number. -/
  userId : BitVec 32
  /-- The application, a signed number. -/
  appUid : BitVec 32
  /-- Inbound or outbound. -/
  ruleDirection : NetFirewallRuleDirection
  /-- Allow or deny. -/
  ruleAction : FirewallRuleAction
  /-- The protocol, 0 for any. -/
  protocol : NetworkProtocol
  /-- Local addresses, none for any. -/
  localIps : List NetFirewallIpParam
  /-- Remote addresses, none for any. -/
  remoteIps : List NetFirewallIpParam
  /-- Local ports, none for any. -/
  localPorts : List NetFirewallPortParam
  /-- Remote ports, none for any. -/
  remotePorts : List NetFirewallPortParam
  /-- Interface name, empty for any. -/
  interface : String
  deriving DecidableEq

namespace NetFirewallIpRule

/-- The addresses that go to the source map or to the destination map. -/
def ips (rule : NetFirewallIpRule) (isSrc : Bool) : List NetFirewallIpParam :=
  if isSrc then rule.remoteIps else rule.localIps

/-- The ports that go to the source map or to the destination map. -/
def ports (rule : NetFirewallIpRule) (isSrc : Bool) : List NetFirewallPortParam :=
  if isSrc then rule.remotePorts else rule.localPorts

end NetFirewallIpRule

/-- `Ip4RuleBitmap`, `Ip6RuleBitmap` and `portRuleBitmap`: a prefix and the
rules it stands for. -/
structure RuleBitmap (w : Nat) where
  /-- The mask or prefix length, and the address or port. -/
  key : Prefix w
  bitmap : Bitmap
  deriving DecidableEq

/-- `OrForEach` of the vector maps. -/
def orForEach {w : Nat} (ruleBitmapVec : List (RuleBitmap w))
    (bitmap : Bitmap) : List (RuleBitmap w) :=
  ruleBitmapVec.map fun entry => { entry with bitmap := entry.bitmap.or bitmap }

/-- Write the entries of a vector map in order into an empty
longest-prefix-match map of the kernel. -/
def writeLpm {w : Nat} (ruleBitmapVec : List (RuleBitmap w)) : PrefixTable.Table w Bitmap :=
  writeAll (ruleBitmapVec.map fun entry => (entry.key, entry.bitmap))

/-- The entry of a vector map that answers the lookup of an address. -/
abbrev Answers {w : Nat} (ruleBitmapVec : List (RuleBitmap w)) (a : BitVec w)
    (it : RuleBitmap w) : Prop :=
  PrefixTable.Wins RuleBitmap.key ruleBitmapVec a it

variable {w : Nat} {ruleBitmapVec : List (RuleBitmap w)} {a : BitVec w}

theorem lookup_writeLpm_of_answers (answers : Answers ruleBitmapVec a it) :
    lookup a (writeLpm ruleBitmapVec) = some it.bitmap := by
  have wins : PrefixTable.Wins Prod.fst
      (ruleBitmapVec.map fun entry => (entry.key, entry.bitmap)) a
      (it.key, it.bitmap) := answers.map _ fun _ => rfl
  exact lookup_writeAll_of_wins wins

theorem lookup_writeLpm_eq_none (uncovered : ∀ it ∈ ruleBitmapVec, ¬ it.key.Covers a) :
    lookup a (writeLpm ruleBitmapVec) = none := by
  rw [writeLpm, lookup_writeAll_eq_none_iff]
  simpa using uncovered

/-- `lookup_map` on a longest-prefix-match map: the key, or else the other
key. -/
def lookupMap {w : Nat} (table : PrefixTable.Table w Bitmap)
    (key otherKey : BitVec w) : Option Bitmap :=
  match lookup key table with
  | some result => some result
  | none => lookup otherKey table

end NetManager.Firewall
