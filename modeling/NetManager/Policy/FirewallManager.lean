import Mathlib.Data.List.Count

/-!
# The chains of the firewall manager

`FirewallManager` of the native daemon keeps three chains below `ohfw_OUTPUT`:
two that let only listed users through and one that stops listed users. Its
commands are run in order and their outcome is not looked at, so every command
takes effect; deleting a rule that is not there does nothing. The IPv4 and the
IPv6 tables get the same rules for all packets that matter here.
-/

namespace NetManager.Policy

open List Function

/-- A user. -/
abbrev Uid := BitVec 32

/-- Sets and maps of users are ordered by number. -/
instance transCmp_uid : Std.TransCmp (compare : Uid → Uid → Ordering) := inferInstance

/-- The firewall chains of `ChainType`. -/
inductive ChainType
  | dozable
  | powersaving
  | undozable
  deriving DecidableEq

inductive FirewallType
  | allowedList
  | deniedList
  deriving DecidableEq

def fetchChainType : ChainType → FirewallType
  | .dozable => .allowedList
  | .powersaving => .allowedList
  | .undozable => .deniedList

inductive FirewallRule
  | allow
  | deny
  deriving DecidableEq

/-! ## Filter rules -/

/-- What a rule asks of a packet. -/
inductive Condition
  | any
  | owner (uid : Uid)
  | ownerRange (first last : Uid)
  | notOwnerRange (first last : Uid)
  | inputLoopback
  | outputLoopback
  | tcpReset
  | icmpv6 (type : Nat)
  deriving DecidableEq

/-- What a rule does with a packet. -/
inductive Target
  | ret
  | drop
  | accept
  | allowedListBox
  deriving DecidableEq

/-- A rule of the filter table. -/
structure FilterRule where
  condition : Condition
  target : Target
  deriving DecidableEq

/-- What the rules ask about a packet. -/
structure Packet where
  /-- The user of its socket. -/
  uid : Uid
  /-- It comes from the loopback device. -/
  inputLoopback : Bool
  /-- It goes to the loopback device. -/
  outputLoopback : Bool
  /-- A TCP packet with the reset flag. -/
  tcpReset : Bool
  /-- The type of an ICMPv6 packet. -/
  icmpv6 : Option Nat

/-- A packet that is not on loopback, no reset and no neighbour discovery. -/
def Packet.ordinary (uid : Uid) : Packet := ⟨uid, false, false, false, none⟩

/-- Whether a packet meets a condition. -/
def Condition.matches (packet : Packet) : Condition → Bool
  | any => true
  | owner uid => packet.uid = uid
  | ownerRange first last => first ≤ packet.uid && packet.uid ≤ last
  | notOwnerRange first last => !(first ≤ packet.uid && packet.uid ≤ last)
  | inputLoopback => packet.inputLoopback
  | outputLoopback => packet.outputLoopback
  | tcpReset => packet.tcpReset
  | icmpv6 type => packet.icmpv6 == some type

/-- The fate of a packet. -/
inductive Verdict
  | drop
  | accept
  deriving DecidableEq

/-- Walk a chain; `none` returns to the calling chain. `box` is what the
`ohfw_allowed_list_box` chain does with the packet. -/
def walk (box : Option Verdict) (packet : Packet) :
    List FilterRule → Option Verdict
  | [] => none
  | rule :: rules =>
    if rule.condition.matches packet then
      match rule.target with
      | .ret => none
      | .drop => some .drop
      | .accept => some .accept
      | .allowedListBox => box.or (walk box packet rules)
    else walk box packet rules

/-! ## The manager -/

/-- `FirewallManager` with the tables it writes. -/
structure FirewallManager where
  /-- `enable` of the status of a chain. -/
  enable : ChainType → Bool
  /-- `uids` of the status of a chain. -/
  uids : ChainType → List Uid
  /-- The jumps of `ohfw_OUTPUT`. -/
  output : List ChainType
  /-- The rules of the chains. -/
  chains : ChainType → List FilterRule
  /-- The rules of `ohfw_allowed_list_box`. -/
  allowedListBox : List FilterRule
  /-- `strMaxUid_`. -/
  maxUid : Uid

namespace FirewallManager

variable (manager : FirewallManager)

/-- What happens to a packet that enters `ohfw_OUTPUT`. -/
def verdict (packet : Packet) : Option Verdict :=
  manager.output.findSome? fun chain =>
    walk (walk none packet manager.allowedListBox) packet (manager.chains chain)

def systemUidRange : Uid := 9999

/-- The returns that `SetFireWallCommand` appends. -/
def commonReturns : List FilterRule :=
  [⟨.inputLoopback, .ret⟩, ⟨.outputLoopback, .ret⟩, ⟨.tcpReset, .ret⟩,
    ⟨.icmpv6 135, .ret⟩, ⟨.icmpv6 136, .ret⟩]

/-- The end of a chain that lets listed users through. -/
def allowedListTail (maxUid : Uid) : List FilterRule :=
  ⟨.ownerRange 0 systemUidRange, .ret⟩ :: ⟨.notOwnerRange 0 maxUid, .ret⟩ ::
    (commonReturns ++ [⟨.any, .drop⟩])

/-- The rule for one user. -/
def ownerRule (target : Target) (uid : Uid) : FilterRule := ⟨.owner uid, target⟩

variable (chain : ChainType)

def setUidsAllowedListChain (uids : List Uid) : FirewallManager :=
  if fetchChainType chain = .allowedList then
    { manager with
      chains := update manager.chains chain
        (⟨.any, .allowedListBox⟩ :: uids.map (ownerRule .ret) ++ allowedListTail manager.maxUid)
      uids := update manager.uids chain uids }
  else manager

def setUidsDeniedListChain (uids : List Uid) : FirewallManager :=
  if fetchChainType chain = .deniedList then
    { manager with
      chains := update manager.chains chain (commonReturns ++ uids.map (ownerRule .drop))
      uids := update manager.uids chain uids }
  else manager

def enableChain (enable : Bool) : FirewallManager :=
  if enable && !manager.enable chain then
    { manager with
      output := manager.output ++ [chain]
      enable := update manager.enable chain true }
  else if !enable then
    { manager with
      output := manager.output.erase chain
      chains := update manager.chains chain []
      uids := update manager.uids chain []
      enable := update manager.enable chain false }
  else manager

def setUidRule (uid : Uid) (firewallRule : FirewallRule) : FirewallManager :=
  let denied := fetchChainType chain = .deniedList
  let target := if denied then Target.drop else Target.ret
  let adds := if denied then firewallRule = .deny else firewallRule = .allow
  let rules := manager.chains chain
  if !manager.enable chain then manager
  else if adds then
    if uid ∈ manager.uids chain then manager
    else
      { manager with
        uids := update manager.uids chain (manager.uids chain ++ [uid])
        chains := update manager.chains chain
          (if denied then rules ++ [ownerRule target uid]
            else ownerRule target uid :: rules) }
  else if uid ∈ manager.uids chain then
    { manager with
      uids := update manager.uids chain ((manager.uids chain).erase uid)
      chains := update manager.chains chain (rules.erase (ownerRule target uid)) }
  else manager

/-- `ClearAllRules`. The status of the chains is left as it is. -/
def clearAllRules : FirewallManager :=
  { manager with
    output := []
    chains := fun _ => []
    allowedListBox := [] }

/-! ## Ordinary packets -/

theorem commonReturns_matches (member : rule ∈ commonReturns) :
    rule.condition.matches (Packet.ordinary uid) = false := by
  simp only [commonReturns, mem_cons, not_mem_nil, or_false] at member
  rcases member with rfl | rfl | rfl | rfl | rfl <;> rfl

variable (target : Target)

@[simp] theorem ownerRule_matches :
    (ownerRule target owner).condition.matches (Packet.ordinary uid) = decide (uid = owner) := rfl

@[simp] theorem ownerRule_target : (ownerRule target uid).target = target := rfl

theorem ownerRule_injective : Function.Injective (ownerRule target) := by
  intro first second equal
  simpa [ownerRule] using equal

/-- The rule for one user decides the fate of its packets, and every other rule passes
them by. -/
theorem walk_owners (fate : Option Verdict)
    (final : ∀ rest, walk none (Packet.ordinary uid) (ownerRule target uid :: rest) = fate)
    (passes : ∀ rule ∈ rules, (∃ owner, rule = ownerRule target owner) ∨
      ∀ rest, walk none (Packet.ordinary uid) (rule :: rest) =
        walk none (Packet.ordinary uid) rest) :
    walk none (Packet.ordinary uid) (rules ++ rest) =
      if ownerRule target uid ∈ rules then fate else walk none (Packet.ordinary uid) rest := by
  induction rules with
  | nil => rfl
  | cons rule rules ih =>
    by_cases own : ownerRule target uid = rule
    · simp [← own, final]
    · have skipped : ∀ rest, walk none (Packet.ordinary uid) (rule :: rest) =
          walk none (Packet.ordinary uid) rest := by
        refine (passes rule mem_cons_self).elim ?_ id
        rintro ⟨owner, rfl⟩ rest
        have different : uid ≠ owner := fun same => own (by rw [same])
        simp [walk, different]
      simpa [own, skipped] using ih (forall_mem_cons.mp passes).2

/-- The rules before the end of a chain that lets listed users through. -/
def AllowedListHead (rules : List FilterRule) : Prop :=
  ∀ rule ∈ rules, rule = ⟨.any, .allowedListBox⟩ ∨ ∃ uid, rule = ownerRule .ret uid

variable {maxUid uid : Uid}

theorem walk_allowedListTail (above : systemUidRange < uid) (known : uid ≤ maxUid) :
    walk none (Packet.ordinary uid) (allowedListTail maxUid) = some .drop := by
  have notSystem : ¬ uid ≤ systemUidRange := BitVec.not_le.mpr above
  simp [allowedListTail, walk, Condition.matches, Packet.ordinary, notSystem, known, commonReturns]

/-- An ordinary packet of a user above the system range gets through a chain
that lets listed users through when a rule returns it. -/
theorem walk_allowedList (above : systemUidRange < uid) (known : uid ≤ maxUid)
    (head : AllowedListHead rules) :
    walk none (Packet.ordinary uid) (rules ++ allowedListTail maxUid) =
      if ownerRule .ret uid ∈ rules then none else some .drop := by
  rw [walk_owners .ret none (fun rest => by simp [walk]) fun rule member => ?_,
    walk_allowedListTail above known]
  refine (head rule member).symm.imp_right ?_
  rintro rfl rest
  simp [walk, Condition.matches]

/-- The rules of a chain that stops listed users. -/
def DeniedListRules (rules : List FilterRule) : Prop :=
  ∀ rule ∈ rules, rule ∈ commonReturns ∨ ∃ uid, rule = ownerRule .drop uid

/-- An ordinary packet is dropped by a chain that stops listed users when a rule
drops it. -/
theorem walk_deniedList (denied : DeniedListRules rules) :
    walk none (Packet.ordinary uid) rules =
      if ownerRule .drop uid ∈ rules then some .drop else none := by
  rw [← append_nil rules, walk_owners .drop (some .drop) (fun rest => by simp [walk])
    fun rule member => ?_, append_nil, walk]
  refine (denied rule member).symm.imp_right fun common rest => ?_
  simp [walk, commonReturns_matches common]

/-! ## Chains that hold a list -/

/-- The chain lets the users of a list through and the status knows them. -/
structure LetsThrough (manager : FirewallManager) (chain : ChainType)
    (list : List Uid) : Prop where
  uids : (manager.uids chain).Perm list
  rules : ∃ head, manager.chains chain = head ++ allowedListTail manager.maxUid ∧
      AllowedListHead head ∧ ∀ uid, head.count (ownerRule .ret uid) = list.count uid

/-- The chain stops the users of a list. -/
structure Stops (manager : FirewallManager) (chain : ChainType)
    (list : List Uid) : Prop where
  denied : DeniedListRules (manager.chains chain)
  rules : ∀ uid, ownerRule .drop uid ∈ manager.chains chain ↔ uid ∈ list

/-- The chain does for a list what its type asks for. -/
def Holds (list : List Uid) : Prop :=
  match fetchChainType chain with
  | .allowedList => manager.LetsThrough chain list
  | .deniedList => manager.Stops chain list

/-- A chain of this type and list drops ordinary packets of the user. -/
def Blocks (list : List Uid) (uid : Uid) : Prop :=
  if fetchChainType chain = .allowedList then uid ∉ list else uid ∈ list
deriving Decidable

section Holds

variable {manager : FirewallManager} {chain : ChainType} {list : List Uid} {uid : Uid}

theorem LetsThrough.walk (holds : manager.LetsThrough chain list) (above : systemUidRange < uid)
    (known : uid ≤ manager.maxUid) :
    walk none (Packet.ordinary uid) (manager.chains chain) =
      if uid ∉ list then some .drop else none := by
  obtain ⟨head, split, headRules, counts⟩ := holds.rules
  have listed : ownerRule .ret uid ∈ head ↔ uid ∈ list := by
    rw [← count_pos_iff, counts, count_pos_iff]
  rw [split, walk_allowedList above known headRules]
  simp [listed]

theorem Holds.walk (holds : manager.Holds chain list) (above : systemUidRange < uid)
    (known : uid ≤ manager.maxUid) :
    walk none (Packet.ordinary uid) (manager.chains chain) =
      if Blocks chain list uid then some .drop else none := by
  unfold Holds at holds
  cases type : fetchChainType chain with
  | allowedList =>
    rw [type] at holds
    simpa [Blocks, type] using holds.walk above known
  | deniedList =>
    rw [type] at holds
    simpa [Blocks, type, holds.rules] using walk_deniedList holds.denied

/-- Whether a chain holds a list depends on its rules, its users and the largest
user only. -/
theorem Holds.congr {other : FirewallManager} (holds : manager.Holds chain list)
    (chains : other.chains chain = manager.chains chain)
    (uids : other.uids chain = manager.uids chain) (maxUid : other.maxUid = manager.maxUid) :
    other.Holds chain list := by
  unfold Holds at holds ⊢
  split
  next type =>
      rw [type] at holds
      exact ⟨uids ▸ holds.uids, by simpa only [chains, maxUid] using holds.rules⟩
  next type =>
      rw [type] at holds
      exact ⟨chains ▸ holds.denied, by simpa only [chains] using holds.rules⟩

/-- When every enabled chain holds its list, an ordinary packet is dropped
exactly when one of them blocks its user. -/
theorem verdict_eq_drop_iff {lists : ChainType → List Uid} (box : manager.allowedListBox = [])
    (holds : ∀ chain ∈ manager.output, manager.Holds chain (lists chain))
    (above : systemUidRange < uid) (known : uid ≤ manager.maxUid) :
    manager.verdict (Packet.ordinary uid) = some .drop ↔
      ∃ chain ∈ manager.output, Blocks chain (lists chain) uid := by
  have walks : ∀ chain ∈ manager.output,
      Policy.walk (Policy.walk none (Packet.ordinary uid) manager.allowedListBox)
          (Packet.ordinary uid) (manager.chains chain) =
        if Blocks chain (lists chain) uid then some .drop else none := by
    intro chain enabled
    rw [box]
    exact (holds chain enabled).walk above known
  unfold verdict
  generalize manager.output = chains at walks
  induction chains with
  | nil => simp
  | cons chain chains ih =>
    have rest := ih (forall_mem_cons.mp walks).2
    rw [findSome?_cons, walks chain mem_cons_self]
    by_cases blocks : Blocks chain (lists chain) uid
    · simp [blocks]
    · simpa [blocks] using rest

end Holds

/-! ## What the commands write -/

/-- Nothing but the rules and the users of one chain differs. -/
structure WritesOnly (chain : ChainType)
    (before after : FirewallManager) : Prop where
  enable : after.enable = before.enable
  output : after.output = before.output
  allowedListBox : after.allowedListBox = before.allowedListBox
  maxUid : after.maxUid = before.maxUid
  chains : ∀ other, other ≠ chain → after.chains other = before.chains other
  uids : ∀ other, other ≠ chain → after.uids other = before.uids other

section WritesOnly

variable {manager : FirewallManager} {chain : ChainType} {list : List Uid}

theorem WritesOnly.refl : WritesOnly chain manager manager :=
  ⟨rfl, rfl, rfl, rfl, fun _ _ => rfl, fun _ _ => rfl⟩

theorem WritesOnly.trans (first : WritesOnly chain manager second)
    (next : WritesOnly chain second third) :
    WritesOnly chain manager third where
  enable := next.enable.trans first.enable
  output := next.output.trans first.output
  allowedListBox := next.allowedListBox.trans first.allowedListBox
  maxUid := next.maxUid.trans first.maxUid
  chains other different := (next.chains other different).trans (first.chains other different)
  uids other different := (next.uids other different).trans (first.uids other different)

theorem WritesOnly.of_update (uids : List Uid) :
    WritesOnly chain manager
      { manager with
        chains := update manager.chains chain rules
        uids := update manager.uids chain uids } where
  enable := rfl
  output := rfl
  allowedListBox := rfl
  maxUid := rfl
  chains _ different := update_of_ne different _ _
  uids _ different := update_of_ne different _ _

theorem writesOnly_setUidsAllowedListChain (uids : List Uid) :
    WritesOnly chain manager (manager.setUidsAllowedListChain chain uids) := by
  unfold setUidsAllowedListChain
  split
  · exact WritesOnly.of_update _
  · exact WritesOnly.refl

theorem writesOnly_setUidsDeniedListChain (uids : List Uid) :
    WritesOnly chain manager (manager.setUidsDeniedListChain chain uids) := by
  unfold setUidsDeniedListChain
  split
  · exact WritesOnly.of_update _
  · exact WritesOnly.refl

theorem writesOnly_setUidRule : WritesOnly chain manager (manager.setUidRule chain uid rule) := by
  unfold setUidRule
  dsimp only
  split_ifs
  all_goals first | exact WritesOnly.refl | exact WritesOnly.of_update _

end WritesOnly

section Lists

variable {manager : FirewallManager} {chain : ChainType} {list : List Uid}

theorem holds_setUidsAllowedListChain (type : fetchChainType chain = .allowedList)
    (uids : List Uid) :
    (manager.setUidsAllowedListChain chain uids).Holds chain uids := by
  simp only [Holds, type, setUidsAllowedListChain, if_true]
  refine ⟨by simp, ⟨.any, .allowedListBox⟩ :: uids.map (ownerRule .ret), by simp, ?_, ?_⟩
  · exact forall_mem_cons.mpr ⟨.inl rfl, forall_mem_map.mpr fun uid _ => .inr ⟨uid, rfl⟩⟩
  · intro uid
    exact count_map_of_injective uids _ (ownerRule_injective _) uid

theorem deniedListRules_map (uids : List Uid) :
    DeniedListRules (commonReturns ++ uids.map (ownerRule .drop)) := by
  refine forall_mem_append.mpr ⟨fun _ => .inl, forall_mem_map.mpr fun uid _ => ?_⟩
  exact .inr ⟨uid, rfl⟩

theorem stops_setUidsDeniedListChain (manager : FirewallManager) (uids : List Uid) :
    (manager.setUidsDeniedListChain .undozable uids).Stops .undozable uids := by
  simp only [setUidsDeniedListChain, fetchChainType, if_true]
  refine ⟨by simpa using deniedListRules_map uids, fun uid => ?_⟩
  have notCommon : ownerRule .drop uid ∉ commonReturns := by
    simp [ownerRule, commonReturns]
  simp [notCommon, (ownerRule_injective .drop).eq_iff]

section

variable (holds : manager.LetsThrough chain list) (type : fetchChainType chain = .allowedList)
    (enabled : manager.enable chain = true) (uid : Uid)
include holds type enabled

/-- Allowing a user adds one rule in front, unless the user is there. -/
theorem LetsThrough.setUidRule_allow :
    (manager.setUidRule chain uid .allow).LetsThrough chain
      (if uid ∈ list then list else list ++ [uid]) := by
  obtain ⟨head, rules, headRules, counts⟩ := holds.rules
  simp only [setUidRule, type, enabled, holds.uids.mem_iff, reduceCtorEq,
    if_false, Bool.not_true, Bool.false_eq_true, if_true]
  split
  next listed => exact holds
  next new =>
      refine ⟨by simpa using holds.uids.append_right [uid],
        ownerRule .ret uid :: head,
        by simp [rules], ?_, fun other => ?_⟩
      · exact forall_mem_cons.mpr ⟨.inr ⟨uid, rfl⟩, headRules⟩
      · simp [count_cons, counts, (ownerRule_injective .ret).eq_iff]

theorem LetsThrough.setUidRule_deny :
    (manager.setUidRule chain uid .deny).LetsThrough chain (list.erase uid) := by
  obtain ⟨head, rules, headRules, counts⟩ := holds.rules
  simp only [setUidRule, type, enabled, holds.uids.mem_iff, reduceCtorEq,
    if_false, Bool.not_true, Bool.false_eq_true]
  split
  next listed =>
      have present : ownerRule .ret uid ∈ head := by
        rw [← count_pos_iff, counts]
        exact count_pos_iff.mpr listed
      refine ⟨by simpa using holds.uids.erase uid, head.erase (ownerRule .ret uid),
        by simp [rules, erase_append_left _ present], ?_, fun other => ?_⟩
      · exact fun rule member => headRules rule (mem_of_mem_erase member)
      · simp [count_erase, counts, (ownerRule_injective .ret).eq_iff]
  next absent => rwa [erase_of_not_mem absent]

end

end Lists

/-- Clearing all rules and disabling a chain can be done in either order. -/
theorem enableChain_clearAllRules :
    manager.clearAllRules.enableChain chain false =
      (manager.enableChain chain false).clearAllRules := by
  simp [clearAllRules, enableChain]

end FirewallManager

end NetManager.Policy
