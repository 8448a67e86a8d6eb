import NetManager.Slice.Selection

/-!
# Applications that a traffic descriptor covers

`isTrafficDescriptorMatch` checks one kind of value after another. It lets every port
through where only single ports are listed, and an IPv6 address has to be a listed one
although addresses are listed with the lengths of their prefixes.
-/

namespace NetManager.Slice

open List Wire

/-- The bit of an address, the highest one first. -/
def addrBit (addr : Bytes) (i : Nat) : Bool := (addr.getD (i / 8) 0).toNat.testBit (7 - i % 8)

section Covers

variable (descriptor : TrafficDescriptor) (app : AppDescriptor)

/-- The kinds of values that are lists or masks. -/
structure CoversPlain : Prop where
  osAppId : descriptor.osAppIds ≠ [] → ∃ osAppId ∈ descriptor.osAppIds,
    osAppId.appId = app.osAppId.appId
  ipv4 : descriptor.ipv4Addrs ≠ [] → ∃ ipv4Addr ∈ descriptor.ipv4Addrs,
    app.ipv4Addr &&& ipv4Addr.mask = ipv4Addr.addr &&& ipv4Addr.mask
  protocolId : descriptor.protocolIds ≠ [] → app.protocolId ∈ descriptor.protocolIds
  dnn : descriptor.dnns ≠ [] → app.dnn ∈ descriptor.dnns
  fqdn : descriptor.fqdns ≠ [] → app.fqdn ∈ descriptor.fqdns
  capability : descriptor.connectionCapabilities ≠ [] →
    app.connectionCapability ∈ descriptor.connectionCapabilities

/-- The address agrees with a listed one on the prefix of that one. -/
def CoversIpv6 : Prop :=
  descriptor.ipv6Addrs ≠ [] → ∃ ipv6Addr ∈ descriptor.ipv6Addrs,
    ∀ i : Nat, i < ipv6Addr.prefixLen → addrBit app.ipv6Addr i = addrBit ipv6Addr.addr i

def CoversPort : Prop :=
  descriptor.singleRemotePorts ≠ [] ∨ descriptor.remotePortRanges ≠ [] →
    app.remotePort ∈ descriptor.singleRemotePorts ∨ ∃ range ∈ descriptor.remotePortRanges,
      range.low ≤ app.remotePort ∧ app.remotePort ≤ range.high

/-- Each kind that is constrained covers the value of the application. -/
structure Covers : Prop where
  plain : CoversPlain descriptor app
  ipv6 : CoversIpv6 descriptor app
  port : CoversPort descriptor app

/-- The address is a listed one, if addresses are listed. -/
def ListsIpv6 : Prop :=
  descriptor.ipv6Addrs ≠ [] → ∃ ipv6Addr ∈ descriptor.ipv6Addrs, ipv6Addr.addr = app.ipv6Addr

/-- Only single ports are listed, and other ones than that of the application. -/
def MissesSinglePorts : Prop :=
  descriptor.singleRemotePorts ≠ [] ∧ descriptor.remotePortRanges = [] ∧
    app.remotePort ∉ descriptor.singleRemotePorts

/-- Addresses have the sixteen bytes of their arrays. -/
def Sized : Prop :=
  app.ipv6Addr.length = 16 ∧ ∀ ipv6Addr ∈ descriptor.ipv6Addrs, ipv6Addr.addr.length = 16

end Covers

/-! ## Addresses -/

/-- The number that hexadecimal digits are. -/
def hexValue (text : Bytes) : Nat :=
  text.foldl (fun value digit => value * 16 + (digit.toNat - if digit < 58 then 48 else 87)) 0

theorem hexValue_byteToHexStr : hexValue (byteToHexStr byte) = byte.toNat := by
  have each : ∀ n < 256, hexValue (byteToHexStr (.ofNat n)) = n := by decide +kernel
  simpa using each byte.toNat byte.toNat_lt

theorem transIpv6AddrToStr_inj (even : addr.length % 2 = 0)
    (sameLength : addr.length = other.length)
    (same : transIpv6AddrToStr addr = transIpv6AddrToStr other) : addr = other := by
  have digits : ∀ {byte other : UInt8}, byteToHexStr byte = byteToHexStr other → byte = other := by
    intro byte other same
    have := congrArg hexValue same
    rw [hexValue_byteToHexStr, hexValue_byteToHexStr] at this
    exact UInt8.toNat_inj.mp this
  induction addr using transIpv6AddrToStr.induct generalizing other with
  | case1 high low rest ih =>
    match other, sameLength with
    | otherHigh :: otherLow :: otherRest, sameLength =>
      simp only [length_cons, Nat.add_right_cancel_iff] at even sameLength
      obtain ⟨sameBytes, sameRest⟩ := append_inj same rfl
      obtain ⟨sameHigh, sameLow⟩ := append_inj sameBytes rfl
      rw [digits sameHigh, digits sameLow]
      congr 2
      by_cases last : rest = []
      · rw [last] at sameLength
        rw [last, length_eq_zero_iff.mp sameLength.symm]
      · have more : otherRest ≠ [] := fun none =>
          last (length_eq_zero_iff.mp (by simp [sameLength, none]))
        rw [if_neg last, if_neg more, cons.injEq] at sameRest
        exact ih (by omega) sameLength sameRest.2
  | case2 addr few =>
    rcases addr with _ | ⟨byte, _ | ⟨second, rest⟩⟩
    · exact (length_eq_zero_iff.mp sameLength.symm).symm
    · cases even
    · exact absurd rfl (few byte second rest)

section Match

variable {descriptor : TrafficDescriptor} {app : AppDescriptor}

theorem isEmptyOrHas_iff [DecidableEq α] (list : List α) (value : α) :
    isEmptyOrHas list value = true ↔ (list ≠ [] → value ∈ list) := by
  cases list <;> simp [isEmptyOrHas]

theorem isIpv6AddrMatch_iff (sized : Sized descriptor app) :
    isIpv6AddrMatch descriptor app = true ↔ ListsIpv6 descriptor app := by
  have sameText : ∀ ipv6Addr ∈ descriptor.ipv6Addrs,
      transIpv6AddrToStr ipv6Addr.addr = transIpv6AddrToStr app.ipv6Addr ↔
        ipv6Addr.addr = app.ipv6Addr := by
    intro ipv6Addr member
    have sixteen := sized.2 ipv6Addr member
    exact ⟨transIpv6AddrToStr_inj (by rw [sixteen]) (sixteen.trans sized.1.symm), congrArg _⟩
  simp only [isIpv6AddrMatch, Bool.or_eq_true, List.isEmpty_iff, any_eq_true, decide_eq_true_eq,
    ListsIpv6, ne_eq, or_iff_not_imp_left]
  refine imp_congr_right fun _ => exists_congr fun ipv6Addr => and_congr_right fun member => ?_
  exact sameText ipv6Addr member

theorem isRemotePortMatch_iff : isRemotePortMatch descriptor app = true ↔
    CoversPort descriptor app ∨ MissesSinglePorts descriptor app := by
  simp only [isRemotePortMatch, CoversPort, MissesSinglePorts, Bool.or_eq_true, contains_iff_mem,
    List.isEmpty_iff, any_eq_true, Bool.and_eq_true, decide_eq_true_eq]
  by_cases single : app.remotePort ∈ descriptor.singleRemotePorts
  · simp [single]
  · rcases descriptor.remotePortRanges with _ | ⟨range, ranges⟩
    · simp [single]
      exact em _
    · simp [single]

theorem isTrafficDescriptorMatch_iff (constrained : descriptor.isMatchAll = false)
    (sized : Sized descriptor app) :
    isTrafficDescriptorMatch descriptor app = true ↔
      CoversPlain descriptor app ∧ ListsIpv6 descriptor app ∧
        (CoversPort descriptor app ∨ MissesSinglePorts descriptor app) := by
  have osAppId : isOsAppIdMatch descriptor app = true ↔ (descriptor.osAppIds ≠ [] →
      ∃ osAppId ∈ descriptor.osAppIds, osAppId.appId = app.osAppId.appId) := by
    cases is : descriptor.osAppIds <;> simp [isOsAppIdMatch, is]
  have ipv4 : isIpv4AddrMatch descriptor app = true ↔ (descriptor.ipv4Addrs ≠ [] →
      ∃ ipv4Addr ∈ descriptor.ipv4Addrs,
        app.ipv4Addr &&& ipv4Addr.mask = ipv4Addr.addr &&& ipv4Addr.mask) := by
    cases is : descriptor.ipv4Addrs <;> simp [isIpv4AddrMatch, is]
  simp only [isTrafficDescriptorMatch, constrained, Bool.false_or, Bool.and_eq_true, osAppId, ipv4,
    isEmptyOrHas_iff, isIpv6AddrMatch_iff sized, isRemotePortMatch_iff]
  constructor
  · rintro ⟨⟨⟨⟨⟨⟨⟨osAppId, ipv4⟩, ipv6⟩, protocolId⟩, dnn⟩, fqdn⟩, capability⟩, port⟩
    exact ⟨⟨osAppId, ipv4, protocolId, dnn, fqdn, capability⟩, ipv6, port⟩
  · rintro ⟨⟨osAppId, ipv4, protocolId, dnn, fqdn, capability⟩, ipv6, port⟩
    exact ⟨⟨⟨⟨⟨⟨⟨osAppId, ipv4⟩, ipv6⟩, protocolId⟩, dnn⟩, fqdn⟩, capability⟩, port⟩

/-- The match is right unless ports or addresses of an application that is covered otherwise
are taken for others than they are. -/
theorem match_iff_covers_iff (constrained : descriptor.isMatchAll = false)
    (sized : Sized descriptor app) :
    (isTrafficDescriptorMatch descriptor app = true ↔ Covers descriptor app) ↔
      (CoversPlain descriptor app →
        ¬ (ListsIpv6 descriptor app ∧ MissesSinglePorts descriptor app) ∧
        (CoversIpv6 descriptor app → CoversPort descriptor app → ListsIpv6 descriptor app)) := by
  have covered : ListsIpv6 descriptor app → CoversIpv6 descriptor app := fun lists some => by
    obtain ⟨ipv6Addr, member, same⟩ := lists some
    exact ⟨ipv6Addr, member, fun _ _ => same ▸ rfl⟩
  have missed : MissesSinglePorts descriptor app → ¬ CoversPort descriptor app := by
    rintro ⟨some, none, notListed⟩ covers
    rcases covers (.inl some) with listed | ⟨range, member, -⟩
    · exact notListed listed
    · rw [none] at member
      cases member
  rw [isTrafficDescriptorMatch_iff constrained sized]
  constructor
  · intro right plain
    refine ⟨fun ⟨lists, misses⟩ => missed misses (right.mp ⟨plain, lists, .inr misses⟩).port,
      fun ipv6 port => (right.mpr ⟨plain, ipv6, port⟩).2.1⟩
  · intro fair
    constructor
    · rintro ⟨plain, lists, port | misses⟩
      · exact ⟨plain, covered lists, port⟩
      · exact absurd ⟨lists, misses⟩ (fair plain).1
    · rintro ⟨plain, ipv6, port⟩
      exact ⟨plain, (fair plain).2 ipv6 port, .inl port⟩

/-- A port that is not one of the single ports, and an address of a listed network. -/
theorem not_match_iff_covers :
    (isTrafficDescriptorMatch { singleRemotePorts := [443] } { remotePort := 80 } = true ∧
      ¬ Covers { singleRemotePorts := [443] } { remotePort := 80 }) ∧
    (isTrafficDescriptorMatch { ipv6Addrs := [⟨32 :: replicate 15 0, 8⟩] }
        { ipv6Addr := 32 :: replicate 15 1 } = false ∧
      Covers { ipv6Addrs := [⟨32 :: replicate 15 0, 8⟩] } { ipv6Addr := 32 :: replicate 15 1 }) := by
  refine ⟨⟨by decide, fun covers => ?_⟩, by decide, ?_⟩
  · have := covers.port
    simp [CoversPort] at this
  · refine ⟨⟨nofun, nofun, nofun, nofun, nofun, nofun⟩, fun _ => ?_, nofun⟩
    refine ⟨_, mem_cons_self, fun i inside => ?_⟩
    have within : (i : Int) < 8 := inside
    have first : i / 8 = 0 := by omega
    rw [addrBit, addrBit, first]
    rfl

end Match

theorem match_iff_covers_port :
    (isTrafficDescriptorMatch { singleRemotePorts := [443] } { remotePort := 443 } = true ↔
      Covers { singleRemotePorts := [443] } { remotePort := 443 }) :=
  (match_iff_covers_iff rfl ⟨rfl, by simp⟩).mpr fun _ =>
    ⟨fun ⟨_, misses⟩ => misses.2.2 mem_cons_self, fun _ _ => nofun⟩

end NetManager.Slice
