import NetManager.Firewall.Match

/-!
# Installing rules

`NetsysBpfNetFirewall` receives the address rules of all users in pages. With
the last page it sorts the collected rules by direction and, for every direction
that has rules, clears the kernel maps and writes the maps built from them.
Kernel maps have a limited size; a write into a full map fails, which is logged
and otherwise ignored.
-/

namespace NetManager.Firewall

open AddressPrefix BitmapManager Option

/-! ## Writing the kernel maps -/

def mapMaxEntries : Nat := 5000
def mapMaxPortEntries : Nat := 65535

/-- Write a vector map into an empty longest-prefix-match map. -/
def installLpm {w : Nat} (maxEntries : Nat)
    (ruleBitmapVec : List (RuleBitmap w)) : PrefixTable.Table w Bitmap :=
  BoundedTable.boundedWriteAll Prefix.SameNetwork maxEntries
    (ruleBitmapVec.map fun entry => (entry.key, entry.bitmap))

/-- Write the entries of a map into an empty hash map. -/
def installHash {κ : Type} [DecidableEq κ] (entries : List (κ × Bitmap)) : HashTable κ :=
  BoundedTable.boundedWriteAll Eq mapMaxEntries entries

/-- The maps of a direction after `ClearBpfFirewallRules` and the eleven
writers. -/
def installTables (manager : BitmapManager) : Tables where
  saddr := installLpm mapMaxEntries manager.src.ip4
  saddr6 := installLpm mapMaxEntries manager.src.ip6
  daddr := installLpm mapMaxEntries manager.dst.ip4
  daddr6 := installLpm mapMaxEntries manager.dst.ip6
  sport := installLpm mapMaxPortEntries manager.srcPortMap
  dport := installLpm mapMaxPortEntries manager.dstPortMap
  proto := installHash manager.protoMap
  appuid := installHash manager.appUidMap
  uid := installHash manager.uidMap
  action := installHash manager.actionMap
  iface := installHash (interfaceEntries manager.interfaceMap)

/-- Every map of the tables is within its size. -/
@[mk_iff] structure Tables.Fits (tables : Tables) : Prop where
  saddr : tables.saddr.length ≤ mapMaxEntries
  saddr6 : tables.saddr6.length ≤ mapMaxEntries
  daddr : tables.daddr.length ≤ mapMaxEntries
  daddr6 : tables.daddr6.length ≤ mapMaxEntries
  sport : tables.sport.length ≤ mapMaxPortEntries
  dport : tables.dport.length ≤ mapMaxPortEntries
  proto : tables.proto.length ≤ mapMaxEntries
  appuid : tables.appuid.length ≤ mapMaxEntries
  uid : tables.uid.length ≤ mapMaxEntries
  action : tables.action.length ≤ mapMaxEntries
  iface : tables.iface.length ≤ mapMaxEntries

/-- No write fails exactly when the written maps are within their size. -/
theorem installTables_eq_tablesOf_iff :
    installTables manager = tablesOf manager ↔ (tablesOf manager).Fits := by
  simp only [installTables, tablesOf, Tables.mk.injEq, installLpm, installHash, writeLpm,
    writeHash, PrefixTable.writeAll, BoundedTable.boundedWriteAll_eq_iff, Tables.fits_iff]

/-! ## The service -/

/-- The part of `NetsysBpfNetFirewall` that address rules use. -/
structure NetsysBpfNetFirewall where
  isBpfLoaded : Bool
  /-- The rules of the pages so far. -/
  firewallIpRules : List NetFirewallIpRule
  ingress : Tables
  egress : Tables

namespace NetsysBpfNetFirewall

section

variable (rule : NetFirewallIpRule) (fuel : Nat) (ruleList : List NetFirewallIpRule)

/-- `SetBpfFirewallRules` on the maps of a direction. -/
def setBpfFirewallRules (tables : Tables) : Option (Nat × Tables) :=
  match (buildBitmapMap fuel ruleList).run with
  | none => none
  | some (.error error) => some (error.code, tables)
  | some (.ok manager) => some (0, installTables manager)

/-- An inbound rule, unless its protocol is ICMP or ICMPv6. -/
def isInRule : Bool :=
  rule.ruleDirection = NetFirewallRuleDirection.ruleIn &&
    !(rule.protocol = NetworkProtocol.icmp || rule.protocol = NetworkProtocol.icmpv6)

/-- An outbound rule, or an inbound one for ICMP or ICMPv6. -/
def isOutRule : Bool :=
  rule.ruleDirection = NetFirewallRuleDirection.ruleIn &&
      (rule.protocol = NetworkProtocol.icmp || rule.protocol = NetworkProtocol.icmpv6) ||
    rule.ruleDirection = NetFirewallRuleDirection.ruleOut

/-- Set the rules of a direction, if there are any. -/
def setDirection (tables : Tables) : Option (Nat × Tables) :=
  if ruleList = [] then some (0, tables)
  else setBpfFirewallRules fuel ruleList tables

def setFirewallIpRules (service : NetsysBpfNetFirewall) : Option (Nat × NetsysBpfNetFirewall) := do
  let (inRet, ingress) ← setDirection fuel (ruleList.filter isInRule) service.ingress
  let (outRet, egress) ← setDirection fuel (ruleList.filter isOutRule) service.egress
  some (inRet + outRet, { service with ingress := ingress, egress := egress })

/-- `SetFirewallRules` for `RULE_IP`. -/
def setFirewallRules (isFinish : Bool) (service : NetsysBpfNetFirewall) :
    Option (Nat × NetsysBpfNetFirewall) :=
  if !service.isBpfLoaded then some (NetFirewallError.err.code, service)
  else if ruleList = [] then some (NetFirewallError.err.code, service)
  else
    let collected := service.firewallIpRules ++ ruleList
    if isFinish then do
      let (ret, service) ← setFirewallIpRules fuel collected service
      some (ret, { service with firewallIpRules := [] })
    else some (0, { service with firewallIpRules := collected })

/-- The pages before the last one, in order. -/
def sendPages (pages : List (List NetFirewallIpRule)) (service : NetsysBpfNetFirewall) :
    Option NetsysBpfNetFirewall :=
  pages.foldlM
    (fun service page => (setFirewallRules fuel page false service).map Prod.snd)
    service

end

/-! ## What is installed -/

/-- No entry of the maps has the bit of a rule. -/
def Silent (tables : Tables) : Prop :=
  (∀ entry ∈ tables.saddr, entry.2 = Bitmap.clear) ∧
  (∀ entry ∈ tables.saddr6, entry.2 = Bitmap.clear) ∧
  (∀ entry ∈ tables.daddr, entry.2 = Bitmap.clear) ∧
  (∀ entry ∈ tables.daddr6, entry.2 = Bitmap.clear) ∧
  (∀ entry ∈ tables.sport, entry.2 = Bitmap.clear) ∧
  (∀ entry ∈ tables.dport, entry.2 = Bitmap.clear) ∧
  (∀ entry ∈ tables.proto, entry.2 = Bitmap.clear) ∧
  (∀ entry ∈ tables.appuid, entry.2 = Bitmap.clear) ∧
  (∀ entry ∈ tables.uid, entry.2 = Bitmap.clear) ∧
  (∀ entry ∈ tables.action, entry.2 = Bitmap.clear) ∧
  (∀ entry ∈ tables.iface, entry.2 = Bitmap.clear)

/-- The maps of a direction are those of its rules; without rules no rule
contributes to them. -/
def DirectionExact (rules : List NetFirewallIpRule) (tables : Tables) : Prop :=
  (rules = [] → Silent tables) ∧
  (rules ≠ [] → ∃ fuel manager,
    buildBitmapMap fuel rules = Outcome.ok manager ∧ tables = tablesOf manager)

/-- What a direction must be like before its rules are set: without rules its
maps hold no bit, and with rules the maps built from them are within the size
of the kernel maps. -/
def DirectionReady (rules : List NetFirewallIpRule) (tables : Tables) : Prop :=
  (rules = [] → Silent tables) ∧
  (rules ≠ [] → ∀ fuel manager,
    buildBitmapMap fuel rules = Outcome.ok manager → (tablesOf manager).Fits)

variable (collected : List NetFirewallIpRule)

/-- Both directions have exactly the rules of the collected list. -/
def RulesInstalled (service : NetsysBpfNetFirewall) : Prop :=
  DirectionExact (collected.filter isInRule) service.ingress ∧
    DirectionExact (collected.filter isOutRule) service.egress

/-- Both directions are ready for the rules of the collected list. -/
def ReadyFor (service : NetsysBpfNetFirewall) : Prop :=
  DirectionReady (collected.filter isInRule) service.ingress ∧
    DirectionReady (collected.filter isOutRule) service.egress

variable {fuel : Nat}

theorem setBpfFirewallRules_eq_zero
    (returns : setBpfFirewallRules fuel rules tables = some (0, result)) :
    ∃ manager, buildBitmapMap fuel rules = Outcome.ok manager ∧ result = installTables manager := by
  unfold setBpfFirewallRules at returns
  split at returns
  · cases returns
  next error _ =>
    have code : error.code = 0 := (Prod.mk.inj (some.inj returns)).1
    exact absurd code error.code_ne_zero
  next manager built => exact ⟨manager, built, (Prod.mk.inj (some.inj returns)).2.symm⟩

/-- A direction that was set without an error is exact when it was ready. -/
theorem directionExact_iff_of_setDirection
    (returns : setDirection fuel rules tables = some (0, result)) :
    DirectionExact rules result ↔ DirectionReady rules tables := by
  unfold setDirection at returns
  split at returns
  next empty =>
    cases returns
    exact and_congr_right fun _ =>
      iff_of_true (fun some => absurd empty some) fun some => absurd empty some
  next some =>
    obtain ⟨manager, built, rfl⟩ := setBpfFirewallRules_eq_zero returns
    refine and_congr (iff_of_true (absurd · some) (absurd · some)) ?_
    refine forall_congr' fun _ => ?_
    constructor
    · rintro ⟨fuel', manager', built', equal⟩ fuel'' manager'' built''
      rw [← buildBitmapMap_unique built built'] at equal
      rw [← buildBitmapMap_unique built built'']
      exact installTables_eq_tablesOf_iff.mp equal
    · intro fits
      exact ⟨fuel, manager, built,
        installTables_eq_tablesOf_iff.mpr (fits fuel manager built)⟩

variable {service result : NetsysBpfNetFirewall}

theorem setFirewallIpRules_eq_zero
    (returns : setFirewallIpRules fuel rules service = some (0, result)) :
    setDirection fuel (rules.filter isInRule) service.ingress = some (0, result.ingress) ∧
      setDirection fuel (rules.filter isOutRule) service.egress = some (0, result.egress) := by
  obtain ⟨⟨inRet, ingress⟩, inReturns, rest⟩ := bind_eq_some_iff.mp returns
  obtain ⟨⟨outRet, egress⟩, outReturns, last⟩ := bind_eq_some_iff.mp rest
  obtain ⟨sum, rfl⟩ := Prod.mk.inj (some.inj last)
  obtain ⟨rfl, rfl⟩ : inRet = 0 ∧ outRet = 0 := Nat.add_eq_zero_iff.mp sum
  exact ⟨inReturns, outReturns⟩

theorem setFirewallRules_finish_eq_zero
    (returns : setFirewallRules fuel page true service = some (0, result)) :
    service.isBpfLoaded = true ∧
      ∃ set, setFirewallIpRules fuel (service.firewallIpRules ++ page) service = some (0, set) ∧
        result = { set with firewallIpRules := [] } := by
  have refused : NetFirewallError.err.code ≠ 0 := by decide
  unfold setFirewallRules at returns
  split at returns
  · exact absurd (Prod.mk.inj (some.inj returns)).1 refused
  next loaded =>
    split at returns
    · exact absurd (Prod.mk.inj (some.inj returns)).1 refused
    · obtain ⟨⟨ret, set⟩, setReturns, last⟩ := bind_eq_some_iff.mp returns
      obtain ⟨rfl, rfl⟩ := Prod.mk.inj (some.inj last)
      exact ⟨by simpa using loaded, set, setReturns, rfl⟩

theorem setFirewallRules_page :
    (setFirewallRules fuel page false service).map Prod.snd =
      if service.isBpfLoaded then
        some { service with
          firewallIpRules := service.firewallIpRules ++ page }
      else some service := by
  unfold setFirewallRules
  cases loaded : service.isBpfLoaded with
  | false => simp
  | true =>
    by_cases empty : page = []
    · simp [empty, ← loaded]
    · simp [empty]

theorem sendPages_eq (service : NetsysBpfNetFirewall) :
    sendPages fuel pages service =
      if service.isBpfLoaded then
        some { service with
          firewallIpRules := service.firewallIpRules ++ pages.flatten }
      else some service := by
  induction pages generalizing service with
  | nil => simp [sendPages]
  | cons page pages ih =>
    have rest := ih
    unfold sendPages at rest ⊢
    rw [List.foldlM_cons, setFirewallRules_page]
    cases loaded : service.isBpfLoaded with
    | false => simp [rest, loaded]
    | true => simp [rest]

/-- After a list of pages whose last one is accepted, the kernel maps hold
exactly the collected rules if and only if both directions were ready before:
a direction without rules must not hold a bit, since it is left as it is. -/
theorem rulesInstalled_iff_readyFor (fuel : Nat) (service between result : NetsysBpfNetFirewall)
    (pages : List (List NetFirewallIpRule)) (last : List NetFirewallIpRule)
    (sent : sendPages fuel pages service = some between)
    (finished : setFirewallRules fuel last true between = some (0, result)) :
    RulesInstalled (service.firewallIpRules ++ pages.flatten ++ last) result ↔
      ReadyFor (service.firewallIpRules ++ pages.flatten ++ last) service := by
  obtain ⟨loaded, set, setReturns, rfl⟩ := setFirewallRules_finish_eq_zero finished
  rw [sendPages_eq] at sent
  cases before : service.isBpfLoaded with
  | false =>
    rw [before] at sent
    cases sent
    rw [before] at loaded
    cases loaded
  | true =>
    rw [before] at sent
    cases sent
    obtain ⟨ingress, egress⟩ := setFirewallIpRules_eq_zero setReturns
    exact and_congr (directionExact_iff_of_setDirection ingress)
      (directionExact_iff_of_setDirection egress)

/-- A rule that denies everything in one direction. -/
def denyAll (direction : NetFirewallRuleDirection) : NetFirewallIpRule where
  userId := 0
  appUid := 0
  ruleDirection := direction
  ruleAction := FirewallRuleAction.ruleDeny
  protocol := ⟨0⟩
  localIps := []
  remoteIps := []
  localPorts := []
  remotePorts := []
  interface := ""

/-- The service after the kernel program was loaded. -/
def started : NetsysBpfNetFirewall where
  isBpfLoaded := true
  firewallIpRules := []
  ingress := ⟨[], [], [], [], [], [], [], [], [], [], []⟩
  egress := ⟨[], [], [], [], [], [], [], [], [], [], []⟩

theorem fits_of_denyAll (built : buildBitmapMap fuel [denyAll direction] = Outcome.ok manager) :
    (tablesOf manager).Fits := by
  have first : buildBitmapMap 0 [denyAll direction] = Outcome.ok _ := rfl
  rw [← buildBitmapMap_unique first built]
  constructor <;> exact Nat.le_of_ble_eq_true rfl

/-- Two pages, one rule for each direction. -/
theorem rulesInstalled_denyAll :
    ∃ between result, sendPages 0 [[denyAll .ruleIn]] started = some between ∧
      setFirewallRules 0 [denyAll .ruleOut] true between = some (0, result) ∧
      RulesInstalled [denyAll .ruleIn, denyAll .ruleOut] result := by
  refine ⟨_, _, rfl, rfl, ?_⟩
  refine (rulesInstalled_iff_readyFor 0 started _ _ [[denyAll .ruleIn]]
    [denyAll .ruleOut] rfl rfl).mpr ⟨⟨nofun, ?_⟩, ⟨nofun, ?_⟩⟩
  · exact fun _ _ _ built => fits_of_denyAll built
  · exact fun _ _ _ built => fits_of_denyAll built

/-- An update whose rules are all outbound leaves the inbound rule of the update
before it in force. -/
theorem stale_inbound_rule :
    ∃ first second, setFirewallRules 0 [denyAll .ruleIn] true started = some (0, first) ∧
      setFirewallRules 0 [denyAll .ruleOut] true first = some (0, second) ∧
      ¬ RulesInstalled [denyAll .ruleOut] second := by
  refine ⟨_, _, rfl, rfl, fun installed => ?_⟩
  obtain ⟨_, _, _, _, _, _, _, _, _, silent, _⟩ := installed.1.1 rfl
  have marked := silent _ List.mem_cons_self
  exact absurd (congrArg (fun bitmap => bitmap.test 0) marked) (by decide)

end NetsysBpfNetFirewall

end NetManager.Firewall
