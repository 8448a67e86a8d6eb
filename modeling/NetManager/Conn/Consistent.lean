import NetManager.Conn.Manager

/-!
# Networks and rules that agree

Every tracked rule of the kernel belongs to one interface of one physical network.
An interface is attached to one network only and its table tells it from the others,
so the kernel never confuses two such rules, and each operation changes exactly the
rules of the network it works on.
-/

namespace NetManager.Conn

open List Std RouteManager PhysicalNetwork ExtTreeSet

variable (ifNametoindex : String → Nat)

/-- Interfaces that exist have different indices. -/
def Distinguishes : Prop :=
  ∀ first second, ifNametoindex first ≠ 0 →
    ifNametoindex first = ifNametoindex second → first = second

/-! ## Ownership -/

/-- Every network is stored under its number, and every interface that is attached
exists and is attached once. -/
structure Attached (ifNametoindex : String → Nat)
    (networks : ExtTreeMap Int NetsysNetwork) : Prop where
  netId : ∀ {id : Int} {network}, networks[id]? = some network → (network.netId.toNat : Int) = id
  ordinary : ∀ {id : Int} {network}, networks[id]? = some network → localNetId ≤ id
  isThere : ∀ {id : Int} {network}, networks[id]? = some network →
    ∀ name ∈ network.interfaces, ifNametoindex name ≠ 0
  unique : ∀ {first second : Int} {left right},
    networks[first]? = some left → networks[second]? = some right →
      ∀ name, name ∈ left.interfaces → name ∈ right.interfaces → first = second

variable (networks : ExtTreeMap Int NetsysNetwork)

/-- The rules of all networks. -/
def installed : Set FibRule :=
  {rule | ∃ (id : Int) (network : NetsysNetwork), networks[id]? = some network ∧
    rule ∈ network.rules ifNametoindex}

/-- The rules of all networks but one. -/
def installedBut (id : Int) : Set FibRule :=
  {rule | ∃ (other : Int) (network : NetsysNetwork), other ≠ id ∧
    networks[other]? = some network ∧ rule ∈ network.rules ifNametoindex}

section Ownership

variable {ifNametoindex : String → Nat} {networks : ExtTreeMap Int NetsysNetwork}
  {id : Int} {network : NetsysNetwork} {rule other : FibRule}

theorem getElem?_insert_network (other : Int) :
    (networks.insert id network)[other]? =
      if other = id then some network else networks[other]? := by
  simp [ExtTreeMap.getElem?_insert, @eq_comm _ other id]

theorem getElem?_erase_network (other : Int) :
    (networks.erase id)[other]? = if other = id then none else networks[other]? := by
  simp [ExtTreeMap.getElem?_erase, @eq_comm _ other id]

theorem found_insert_cases {other : Int}
    (found : (networks.insert id network)[other]? = some owner) :
    (other = id ∧ owner = network) ∨ (networks[other]? = some owner ∧ other ≠ id) := by
  rw [getElem?_insert_network] at found
  split at found
  next same => exact .inl ⟨same, (Option.some.inj found).symm⟩
  next different => exact .inr ⟨found, different⟩

theorem found_of_erase {other : Int} (found : (networks.erase id)[other]? = some network) :
    networks[other]? = some network ∧ other ≠ id := by
  rw [getElem?_erase_network] at found
  split at found
  · cases found
  next different => exact ⟨found, different⟩

theorem installed_eq (found : networks[id]? = some network) :
    installed ifNametoindex networks =
      network.rules ifNametoindex ∪ installedBut ifNametoindex networks id := by
  ext rule
  constructor
  · rintro ⟨other, owner, isOwner, member⟩
    by_cases same : other = id
    · subst same
      rw [found] at isOwner
      exact .inl (Option.some.inj isOwner ▸ member)
    · exact .inr ⟨other, owner, same, isOwner, member⟩
  · rintro (member | ⟨other, owner, -, isOwner, member⟩)
    · exact ⟨id, network, found, member⟩
    · exact ⟨other, owner, isOwner, member⟩

theorem installedBut_insert :
    installedBut ifNametoindex (networks.insert id network) id =
      installedBut ifNametoindex networks id := by
  ext rule
  refine exists_congr fun other => exists_congr fun owner => and_congr_right fun different => ?_
  rw [getElem?_insert_network, if_neg different]

theorem installed_insert :
    installed ifNametoindex (networks.insert id network) =
      network.rules ifNametoindex ∪ installedBut ifNametoindex networks id := by
  rw [← installedBut_insert]
  apply installed_eq
  rw [getElem?_insert_network, if_pos rfl]

theorem installed_erase :
    installed ifNametoindex (networks.erase id) = installedBut ifNametoindex networks id := by
  ext rule
  constructor
  · rintro ⟨other, owner, isOwner, member⟩
    obtain ⟨isOwner, different⟩ := found_of_erase isOwner
    exact ⟨other, owner, different, isOwner, member⟩
  · rintro ⟨other, owner, different, isOwner, member⟩
    exact ⟨other, owner, by rwa [getElem?_erase_network, if_neg different], member⟩

theorem tableOf_inj (distinguishes : Distinguishes ifNametoindex)
    (isThere : ifNametoindex first ≠ 0)
    (same : tableOf ifNametoindex first = tableOf ifNametoindex second) :
    first = second :=
  distinguishes first second isThere (Nat.add_right_cancel same)

/-- A rule of a network belongs to one of its interfaces, in the table of it. -/
theorem Attached.owner (attached : Attached ifNametoindex networks)
    (found : networks[id]? = some network) (member : rule ∈ network.rules ifNametoindex) :
    ∃ owner : PhysicalNetwork, network = .physical owner ∧
      ∃ name ∈ owner.interfaces, ifNametoindex name ≠ 0 ∧ rule ∈ owner.rulesFor ifNametoindex name ∧
          Tracked rule ∧ rule.ruleInfo.ruleTable = tableOf ifNametoindex name := by
  cases network with
  | physical owner =>
    obtain ⟨name, isAttached, isRule⟩ := member
    have isThere := attached.isThere found name isAttached
    exact ⟨owner, rfl, name, isAttached, isThere, isRule, tracked_of_mem_rulesFor isThere isRule⟩
  | virtual => exact member.elim
  | localNetwork => exact member.elim

variable {name : String}

section

variable (attached : Attached ifNametoindex networks)

include attached

section

variable (distinguishes : Distinguishes ifNametoindex)

include distinguishes

/-- An installed rule in the table of an existing interface is a rule of the network
to which this interface is attached. -/
theorem Attached.owner_of_table (found : networks[id]? = some network)
    (member : rule ∈ network.rules ifNametoindex)
    (table : rule.ruleInfo.ruleTable = tableOf ifNametoindex name) :
    ∃ owner : PhysicalNetwork, network = .physical owner ∧
      name ∈ owner.interfaces ∧ rule ∈ owner.rulesFor ifNametoindex name := by
  obtain ⟨owner, isOwner, other, isAttached, isThere, isRule, -, itsTable⟩ :=
    attached.owner found member
  have same : other = name := tableOf_inj distinguishes isThere (itsTable.symm.trans table)
  subst same
  exact ⟨owner, isOwner, isAttached, isRule⟩

theorem Attached.not_mem_installedBut (found : networks[id]? = some network)
    (isAttached : name ∈ network.interfaces)
    (table : rule.ruleInfo.ruleTable = tableOf ifNametoindex name) :
    rule ∉ installedBut ifNametoindex networks id := by
  rintro ⟨other, owner, different, isOwner, member⟩
  obtain ⟨physical, rfl, also, -⟩ := attached.owner_of_table distinguishes isOwner member table
  exact different (attached.unique isOwner found name also isAttached)

/-- The kernel finds no other installed rule than the one that is asked for. -/
theorem Attached.eq_of_covers (isInstalled : rule ∈ installed ifNametoindex networks)
    (otherInstalled : other ∈ installed ifNametoindex networks)
    (covered : covers rule other = true) :
    other = rule := by
  obtain ⟨id, network, found, member⟩ := isInstalled
  obtain ⟨otherId, otherNetwork, otherFound, otherMember⟩ := otherInstalled
  obtain ⟨owner, rfl, name, isAttached, -, isRule, -, table⟩ := attached.owner found member
  have specified : rule.ruleInfo.ruleTable ≠ 0 := table ▸ tableOf_ne_zero
  obtain ⟨family, level, sameTable⟩ := Conn.eq_of_covers specified covered
  obtain ⟨otherOwner, rfl, otherAttached, otherIsRule⟩ :=
    attached.owner_of_table distinguishes otherFound otherMember (sameTable.trans table)
  have sameId := attached.unique otherFound found name otherAttached isAttached
  subst sameId
  rw [found] at otherFound
  cases otherFound
  rw [rule_eq_of_mem_rulesFor isRule, rule_eq_of_mem_rulesFor otherIsRule, family, level]

end

end

end Ownership

/-! ## One network changes -/

/-- The interfaces are attached as they should be, and of the tracked rules the
kernel holds those of the networks, each once. -/
structure Consistent (ifNametoindex : String → Nat) (networks : ExtTreeMap Int NetsysNetwork)
    (routes : RouteManager) : Prop where
  attached : Attached ifNametoindex networks
  cached : routes.Cached ifNametoindex
  keeps : Ledger.Keeps Tracked routes.kernel (installed ifNametoindex networks)

section Consistent

variable {ifNametoindex : String → Nat} {networks : ExtTreeMap Int NetsysNetwork}
  {routes changed : RouteManager} {id : Int} {network : NetsysNetwork}
  {physical : PhysicalNetwork}

theorem Attached.insert (attached : Attached ifNametoindex networks)
    (netId : (network.netId.toNat : Int) = id) (ordinary : localNetId ≤ id)
    (areThere : ∀ name ∈ network.interfaces, ifNametoindex name ≠ 0)
    (free : ∀ name ∈ network.interfaces, ∀ (other : Int) (owner : NetsysNetwork),
      networks[other]? = some owner → name ∈ owner.interfaces → other = id) :
    Attached ifNametoindex (networks.insert id network) := by
  refine ⟨fun found => ?_, fun found => ?_, fun found => ?_,
    fun foundLeft foundRight name inLeft inRight => ?_⟩
  · obtain ⟨rfl, rfl⟩ | ⟨before, -⟩ := found_insert_cases found
    · exact netId
    · exact attached.netId before
  · obtain ⟨rfl, rfl⟩ | ⟨before, -⟩ := found_insert_cases found
    · exact ordinary
    · exact attached.ordinary before
  · obtain ⟨rfl, rfl⟩ | ⟨before, -⟩ := found_insert_cases found
    · exact areThere
    · exact attached.isThere before
  · obtain ⟨rfl, rfl⟩ | ⟨beforeLeft, -⟩ := found_insert_cases foundLeft
    · obtain ⟨rfl, rfl⟩ | ⟨beforeRight, -⟩ := found_insert_cases foundRight
      · rfl
      · exact (free name inLeft _ _ beforeRight inRight).symm
    · obtain ⟨rfl, rfl⟩ | ⟨beforeRight, -⟩ := found_insert_cases foundRight
      · exact free name inRight _ _ beforeLeft inLeft
      · exact attached.unique beforeLeft beforeRight name inLeft inRight

variable {smaller : NetsysNetwork}

theorem Attached.shrink (attached : Attached ifNametoindex networks)
    (found : networks[id]? = some network) (sameId : smaller.netId = network.netId)
    (fewer : ∀ name ∈ smaller.interfaces, name ∈ network.interfaces) :
    Attached ifNametoindex (networks.insert id smaller) :=
  attached.insert (sameId ▸ attached.netId found) (attached.ordinary found)
    (fun name member => attached.isThere found name (fewer name member))
    fun name member _ _ isOwner inOwner =>
      attached.unique isOwner found name inOwner (fewer name member)

theorem Attached.erase (attached : Attached ifNametoindex networks) (id : Int) :
    Attached ifNametoindex (networks.erase id) :=
  ⟨fun found => attached.netId (found_of_erase found).1,
    fun found => attached.ordinary (found_of_erase found).1,
    fun found => attached.isThere (found_of_erase found).1, fun foundLeft foundRight =>
      attached.unique (found_of_erase foundLeft).1 (found_of_erase foundRight).1⟩

theorem Consistent.keeps_add (consistent : Consistent ifNametoindex networks routes)
    (found : networks[id]? = some network) {added : List FibRule}
    (sent : routes.Sends ifNametoindex (added.map .add) (changed, 0)) (nodup : added.Nodup)
    (tracked : ∀ rule ∈ added, Tracked rule)
    (fresh : ∀ rule ∈ added, rule ∉ installed ifNametoindex networks)
    (rules : larger.rules ifNametoindex = network.rules ifNametoindex ∪ {rule | rule ∈ added}) :
    Ledger.Keeps Tracked changed.kernel (installed ifNametoindex (networks.insert id larger)) := by
  have kept : Ledger.Keeps Tracked (Ledger.run covers routes.kernel (added.map .add)) _ :=
    consistent.keeps.run_add nodup tracked fresh
  rw [← sent.kernel] at kept
  rw [installed_insert, rules, Set.union_right_comm, ← installed_eq found]
  exact kept

theorem Consistent.keeps_remove (consistent : Consistent ifNametoindex networks routes)
    (distinguishes : Distinguishes ifNametoindex) (found : networks[id]? = some network)
    {removed : List FibRule} (ownRules : ∀ rule ∈ removed, rule ∈ network.rules ifNametoindex)
    (rules : smaller.rules ifNametoindex = network.rules ifNametoindex \ {rule | rule ∈ removed}) :
    Ledger.Keeps Tracked (Ledger.run covers routes.kernel (removed.map .remove))
      (installed ifNametoindex (networks.insert id smaller)) := by
  have attached := consistent.attached
  have isInstalled : ∀ rule ∈ removed, rule ∈ installed ifNametoindex networks :=
    fun rule member => ⟨id, network, found, ownRules rule member⟩
  have kept : Ledger.Keeps Tracked (Ledger.run covers routes.kernel (removed.map .remove)) _ :=
    consistent.keeps.run_remove (fun rule _ => covers_self)
    (fun rule member other covered => by
      obtain ⟨owner, -, name, -, -, -, isTracked, table⟩ :=
        attached.owner found (ownRules rule member)
      have specified : rule.ruleInfo.ruleTable ≠ 0 := table ▸ tableOf_ne_zero
      obtain ⟨-, level, sameTable⟩ := Conn.eq_of_covers specified covered
      rwa [Tracked, level, sameTable])
    (fun rule member other otherInstalled covered =>
      attached.eq_of_covers distinguishes (isInstalled rule member) otherInstalled covered)
  have apart : ∀ rule ∈ removed, rule ∉ installedBut ifNametoindex networks id := by
    intro rule member
    obtain ⟨owner, rfl, name, isAttached, -, -, -, table⟩ :=
      attached.owner found (ownRules rule member)
    exact attached.not_mem_installedBut distinguishes found isAttached table
  refine kept.congr fun rule _ => ?_
  rw [installed_insert, rules, installed_eq found]
  simp only [Set.mem_sdiff, Set.mem_union, Set.mem_ofPred_eq]
  tauto

/-! ### Interfaces -/

theorem PhysicalNetwork.nodup_rulesFor (physical : PhysicalNetwork) (name : String) :
    (physical.rulesFor ifNametoindex name).Nodup := by
  apply List.Nodup.of_map fun rule => (rule.family, rule.ruleInfo.rulePriority)
  unfold rulesFor
  cases physical.isDefault with
  | true =>
    change [(Family.inet, 11000), (.inet6, 11000), (.inet, 12000), (.inet6, 12000),
      (.inet, 16000), (.inet6, 16000)].Nodup
    decide
  | false =>
    change [(Family.inet, 11000), (.inet6, 11000), (.inet, 12000), (.inet6, 12000)].Nodup
    decide

variable {interfaces : ExtTreeSet String}

theorem mem_insert_interface :
    other ∈ interfaces.insert name ↔ other = name ∨ other ∈ interfaces := by
  rw [mem_insert, LawfulEqCmp.compare_eq_iff_eq, @eq_comm _ name other]

theorem mem_erase_interface :
    other ∈ interfaces.erase name ↔ other ≠ name ∧ other ∈ interfaces := by
  rw [mem_erase, ne_eq, LawfulEqCmp.compare_eq_iff_eq, @eq_comm _ name other]

variable {name : String}

theorem foreign_sharing :
    ∀ action ∈ (rulesOf (sharingRuleInfo name) none).map Ledger.Action.remove,
      action.Foreign covers Tracked := by
  refine forall_mem_map.mpr fun pattern isPattern => ?_
  obtain ⟨isSharing, -⟩ := mem_rulesOf_iff.mp isPattern
  intro other isTracked covered
  have level : other.ruleInfo.rulePriority = ruleLevelSharing := by
    simp only [covers, Bool.and_eq_true, beq_iff_eq, isSharing] at covered
    exact covered.1.1.1.1.1.2.symm
  rw [Tracked, level] at isTracked
  revert isTracked
  simp [ruleLevelSharing, ruleLevelDefault, ruleLevelExplicitNetwork, ruleLevelOutputInterface]

theorem Attached.grow (attached : Attached ifNametoindex networks)
    (found : networks[id]? = some network) (sameId : larger.netId = network.netId)
    (interfaces : larger.interfaces = network.interfaces.insert name)
    (isThere : ifNametoindex name ≠ 0) (free : ∀ (other : Int) (owner : NetsysNetwork),
      networks[other]? = some owner → name ∉ owner.interfaces) :
    Attached ifNametoindex (networks.insert id larger) := by
  refine attached.insert (sameId ▸ attached.netId found) (attached.ordinary found) ?_ ?_
  · rw [interfaces]
    intro other member
    obtain rfl | before := mem_insert_interface.mp member
    · exact isThere
    · exact attached.isThere found other before
  · rw [interfaces]
    intro other member otherId owner isOwner inOwner
    obtain rfl | before := mem_insert_interface.mp member
    · exact absurd inOwner (free otherId owner isOwner)
    · exact attached.unique isOwner found other inOwner before

/-! ### Physical networks -/

/-- The default rules of all interfaces of a network. -/
def PhysicalNetwork.allDefaultRules (ifNametoindex : String → Nat)
    (physical : PhysicalNetwork) : List FibRule :=
  physical.interfaces.toList.flatMap fun name =>
    defaultRules (tableOf ifNametoindex name) physical.permission

variable {rule : FibRule}

theorem PhysicalNetwork.mem_allDefaultRules_iff :
    rule ∈ physical.allDefaultRules ifNametoindex ↔
      ∃ name ∈ physical.interfaces,
        rule ∈ defaultRules (tableOf ifNametoindex name) physical.permission := by
  simp [allDefaultRules]

variable {permission : NetworkPermission} {table : Nat}

theorem PhysicalNetwork.not_mem_interfaceRules (isDefault : rule ∈ defaultRules table permission)
    (netId : BitVec 16) :
    rule ∉ interfaceRules netId name otherTable permission := by
  intro isInterface
  exact ruleLevelDefault_ne (rulePriority_of_mem_defaultRules isDefault)
    (rulePriority_of_mem_interfaceRules isInterface)

theorem table_of_mem_defaultRules (isDefault : rule ∈ defaultRules table permission) :
    Tracked rule ∧ rule.ruleInfo.ruleTable = table := by
  obtain ⟨-, defaultInfo⟩ := mem_defaultRules_iff.mp isDefault
  rw [Tracked, defaultInfo]
  exact ⟨.inl rfl, rfl⟩

theorem PhysicalNetwork.nodup_allDefaultRules (distinguishes : Distinguishes ifNametoindex)
    (areThere : ∀ name ∈ physical.interfaces, ifNametoindex name ≠ 0) :
    (physical.allDefaultRules ifNametoindex).Nodup := by
  refine nodup_flatMap.mpr ⟨fun name _ => by simp [defaultRules, rulesOf], ?_⟩
  have distinct : physical.interfaces.toList.Nodup :=
    distinct_toList.imp fun different same =>
      different (LawfulEqCmp.compare_eq_iff_eq.mpr same)
  refine distinct.imp_of_mem fun {first second} inFirst _ different => ?_
  intro rule ofFirst ofSecond
  have isThere := areThere first (mem_toList.mp inFirst)
  exact different (tableOf_inj distinguishes isThere
    ((table_of_mem_defaultRules ofFirst).2.symm.trans (table_of_mem_defaultRules ofSecond).2))

section

variable (ifNametoindex : String → Nat) (physical : PhysicalNetwork)

theorem PhysicalNetwork.rules_isDefault :
    NetsysNetwork.rules ifNametoindex (.physical { physical with isDefault := true }) =
      NetsysNetwork.rules ifNametoindex
          (.physical { physical with isDefault := false }) ∪
        {rule | rule ∈ physical.allDefaultRules ifNametoindex} := by
  ext rule
  simp [NetsysNetwork.rules, mem_rulesFor_iff, mem_allDefaultRules_iff, and_or_left, exists_or]

theorem PhysicalNetwork.rules_not_isDefault :
    NetsysNetwork.rules ifNametoindex
        (.physical { physical with isDefault := false }) =
      NetsysNetwork.rules ifNametoindex
          (.physical { physical with isDefault := true }) \
        {rule | rule ∈ physical.allDefaultRules ifNametoindex} := by
  rw [rules_isDefault, Set.union_sdiff_right]
  refine (sdiff_eq_left.mpr (Set.disjoint_left.mpr ?_)).symm
  rintro rule ⟨name, -, isRule⟩ isDefault
  obtain ⟨other, -, ofOther⟩ := mem_allDefaultRules_iff.mp isDefault
  obtain inInterface | ⟨isFalse, -⟩ := mem_rulesFor_iff.mp isRule
  · exact not_mem_interfaceRules ofOther _ inInterface
  · cases isFalse

end

section

variable (consistent : Consistent ifNametoindex networks routes)
    (distinguishes : Distinguishes ifNametoindex)
    (found : networks[id]? = some (NetsysNetwork.physical physical))

include consistent distinguishes found

theorem Consistent.attach (isThere : ifNametoindex name ≠ 0)
    (free : ∀ (other : Int) (owner : NetsysNetwork),
      networks[other]? = some owner → name ∉ owner.interfaces)
    (sent : routes.Sends ifNametoindex
      ((physical.rulesFor ifNametoindex name).map .add) (changed, 0)) :
    Consistent ifNametoindex
      (networks.insert id
        (.physical { physical with interfaces := physical.interfaces.insert name }))
      changed := by
  have attached := consistent.attached
  refine ⟨attached.grow found rfl rfl isThere free,
    sent.cached, consistent.keeps_add found sent (physical.nodup_rulesFor name)
      (fun rule member => (tracked_of_mem_rulesFor isThere member).1) ?_ ?_⟩
  · rintro rule member ⟨otherId, owner, isOwner, isRule⟩
    obtain ⟨physicalOwner, rfl, inOwner, -⟩ := attached.owner_of_table distinguishes
      isOwner isRule (tracked_of_mem_rulesFor isThere member).2
    exact free otherId _ isOwner inOwner
  · ext rule
    constructor
    · rintro ⟨other, member, isRule⟩
      obtain rfl | before := mem_insert_interface.mp member
      · exact .inr isRule
      · exact .inl ⟨other, before, isRule⟩
    · rintro (⟨other, before, isRule⟩ | isRule)
      · exact ⟨other, mem_insert_interface.mpr (.inr before), isRule⟩
      · exact ⟨name, mem_insert_interface.mpr (.inl rfl), isRule⟩

theorem Consistent.detach (isAttached : name ∈ physical.interfaces)
    (sent : routes.Sends ifNametoindex
      ((physical.removedRules ifNametoindex name).map .remove ++
        (rulesOf (sharingRuleInfo name) none).map .remove) (changed, 0)) :
    Consistent ifNametoindex
      (networks.insert id
        (.physical { physical with interfaces := physical.interfaces.erase name }))
      changed := by
  have attached := consistent.attached
  have isThere := attached.isThere found name isAttached
  refine ⟨attached.shrink found rfl fun other member =>
    (mem_erase_interface.mp member).2, sent.cached, ?_⟩
  rw [sent.kernel, Ledger.run_append]
  apply Ledger.Keeps.run_foreign _ foreign_sharing
  refine consistent.keeps_remove distinguishes found (fun rule member =>
    ⟨name, isAttached, mem_removedRules_iff.mp member⟩) ?_
  ext rule
  constructor
  · rintro ⟨other, member, isRule⟩
    obtain ⟨different, before⟩ := mem_erase_interface.mp member
    have otherThere := attached.isThere found other before
    refine ⟨⟨other, before, isRule⟩, fun inRemoved => different ?_⟩
    have ofName := tracked_of_mem_rulesFor isThere (mem_removedRules_iff.mp inRemoved)
    have ofOther := tracked_of_mem_rulesFor otherThere isRule
    exact tableOf_inj distinguishes otherThere (ofOther.2.symm.trans ofName.2)
  · rintro ⟨⟨other, before, isRule⟩, kept⟩
    refine ⟨other, mem_erase_interface.mpr ⟨?_, before⟩, isRule⟩
    rintro rfl
    exact kept (mem_removedRules_iff.mpr isRule)

theorem Consistent.addDefault (notDefault : physical.isDefault = false) :
    Consistent ifNametoindex
      (networks.insert id (.physical (physical.addDefault ifNametoindex routes).1))
      (physical.addDefault ifNametoindex routes).2 := by
  have attached := consistent.attached
  have areThere : ∀ name ∈ physical.interfaces, ifNametoindex name ≠ 0 := attached.isThere found
  have sent := sends_foldl_updateDefaultNetwork .newRule physical.permission
    physical.interfaces.toList consistent.cached fun name member =>
      areThere name (mem_toList.mp member)
  have unflagged : { physical with isDefault := false } = physical := by
    rw [← notDefault]
  refine ⟨attached.shrink found rfl fun _ member => member, sent.cached,
    consistent.keeps_add found sent (nodup_allDefaultRules distinguishes areThere) ?_ ?_ ?_⟩
  · intro rule member
    obtain ⟨name, -, isRule⟩ := mem_allDefaultRules_iff.mp member
    exact (table_of_mem_defaultRules isRule).1
  · intro rule member
    obtain ⟨name, isAttached, isRule⟩ := mem_allDefaultRules_iff.mp member
    rw [installed_eq found]
    rintro (own | another)
    · obtain ⟨other, -, ownRule⟩ := own
      obtain inInterface | ⟨isDefault, -⟩ := mem_rulesFor_iff.mp ownRule
      · exact not_mem_interfaceRules isRule _ inInterface
      · rw [notDefault] at isDefault
        cases isDefault
    · exact attached.not_mem_installedBut distinguishes found isAttached
        (table_of_mem_defaultRules isRule).2 another
  · have rules := rules_isDefault ifNametoindex physical
    rw [unflagged] at rules
    exact rules

theorem Consistent.removeDefault (isDefault : physical.isDefault = true) :
    Consistent ifNametoindex
      (networks.insert id (.physical (physical.removeDefault ifNametoindex routes).1))
      (physical.removeDefault ifNametoindex routes).2 := by
  have attached := consistent.attached
  have sent := sends_foldl_updateDefaultNetwork .delRule physical.permission
    physical.interfaces.toList consistent.cached fun name member =>
      attached.isThere found name (mem_toList.mp member)
  have flagged : { physical with isDefault := true } = physical := by
    rw [← isDefault]
  refine ⟨attached.shrink found rfl fun _ member => member, sent.cached, ?_⟩
  have kernel : (physical.removeDefault ifNametoindex routes).2.kernel =
      Ledger.run covers routes.kernel ((physical.allDefaultRules ifNametoindex).map .remove) :=
    sent.kernel
  rw [kernel]
  refine consistent.keeps_remove distinguishes found ?_ ?_
  · intro rule member
    obtain ⟨name, isAttached, isRule⟩ := mem_allDefaultRules_iff.mp member
    exact ⟨name, isAttached, mem_rulesFor_iff.mpr (.inr ⟨isDefault, isRule⟩)⟩
  · have rules := rules_not_isDefault ifNametoindex physical
    rw [flagged] at rules
    exact rules

end

/-! ### Networks without tracked rules -/

theorem foreign_vpnRules (action : RuleAction) (netId : BitVec 16) :
    ∀ request ∈ (vpnRules netId name).map action.on, request.Foreign covers Tracked := by
  refine forall_mem_map.mpr fun rule isRule => ?_
  have notTracked : ¬ Tracked rule ∧ rule.ruleInfo.ruleTable ≠ 0 := by
    simp only [vpnRules, mem_append, mem_rulesOf_iff] at isRule
    obtain (⟨info, -⟩ | ⟨info, -⟩) | ⟨info, -⟩ := isRule <;>
      rw [Tracked, info] <;>
      simp [vpnOutputToLocalRuleInfo, vpnSystemPermissionRuleInfo, explicitRuleInfo,
        ruleLevelVpnOutputToLocal, ruleLevelSecureVpn, ruleLevelDefault,
        ruleLevelExplicitNetwork, ruleLevelOutputInterface, routeVpnNetworkTable,
        routeLocalNetworkTable, routeTableOffsetFromIndex]
  cases action with
  | newRule => exact notTracked.1
  | delRule =>
    intro other isTracked covered
    obtain ⟨-, level, table⟩ := Conn.eq_of_covers notTracked.2 covered
    rw [Tracked, level, table] at isTracked
    exact notTracked.1 isTracked

theorem Consistent.updateVirtual (consistent : Consistent ifNametoindex networks routes)
    (netId : BitVec 16) :
    Consistent ifNametoindex networks (modifyVirtualNetBasedRules action routes netId name).1 := by
  have sent := sends_modifyVirtualNetBasedRules action consistent.cached netId name
  refine ⟨consistent.attached, sent.cached, ?_⟩
  rw [sent.kernel]
  exact consistent.keeps.run_foreign (foreign_vpnRules action netId)

theorem installedBut_of_rules_eq_empty
    (noRules : ∀ before, networks[id]? = some before → before.rules ifNametoindex = ∅) :
    installedBut ifNametoindex networks id = installed ifNametoindex networks := by
  ext rule
  constructor
  · rintro ⟨other, owner, -, isOwner, member⟩
    exact ⟨other, owner, isOwner, member⟩
  · rintro ⟨other, owner, isOwner, member⟩
    refine ⟨other, owner, ?_, isOwner, member⟩
    rintro rfl
    rw [noRules owner isOwner] at member
    exact member

theorem Consistent.insert (consistent : Consistent ifNametoindex networks routes)
    (attached : Attached ifNametoindex (networks.insert id network))
    (noRules : network.rules ifNametoindex = ∅)
    (noRulesBefore : ∀ before, networks[id]? = some before → before.rules ifNametoindex = ∅) :
    Consistent ifNametoindex (networks.insert id network) routes := by
  refine ⟨attached, consistent.cached, ?_⟩
  rw [installed_insert, noRules, Set.empty_union, installedBut_of_rules_eq_empty noRulesBefore]
  exact consistent.keeps

theorem Consistent.erase (consistent : Consistent ifNametoindex networks routes)
    (noRules : ∀ before, networks[id]? = some before → before.rules ifNametoindex = ∅) :
    Consistent ifNametoindex (networks.erase id) routes := by
  refine ⟨consistent.attached.erase id, consistent.cached, ?_⟩
  rw [installed_erase, installedBut_of_rules_eq_empty noRules]
  exact consistent.keeps

/-! ### Calls for interfaces -/

theorem isInternalNetId_of_localNetId_le (above : localNetId ≤ id) :
    isInternalNetId id = false := by
  unfold localNetId at above
  simp only [isInternalNetId, Bool.and_eq_false_iff, decide_eq_false_iff_not]
  omega

theorem Attached.isInternalNetId_eq_false (attached : Attached ifNametoindex networks)
    (found : networks[id]? = some network) :
    isInternalNetId network.netId.toNat = false := by
  rw [attached.netId found]
  exact isInternalNetId_of_localNetId_le (attached.ordinary found)

theorem insert_network_self (found : networks[id]? = some network) :
    networks.insert id network = networks := by
  apply ExtTreeMap.ext_getElem?
  intro other
  rw [getElem?_insert_network]
  split
  next same => rw [same, found]
  · rfl

section

variable (consistent : Consistent ifNametoindex networks routes)
    (distinguishes : Distinguishes ifNametoindex) (found : networks[id]? = some network)

include consistent distinguishes found

theorem Consistent.addInterface
    (notLocal : ∀ other, network ≠ .localNetwork other) (isThere : ifNametoindex name ≠ 0)
    (free : name ∉ network.interfaces → ∀ (other : Int) (owner : NetsysNetwork),
      networks[other]? = some owner → name ∉ owner.interfaces) :
    Consistent ifNametoindex
      (networks.insert id (network.addInterface ifNametoindex routes name vpnCreated).1)
      (network.addInterface ifNametoindex routes name vpnCreated).2.1 := by
  have attached := consistent.attached
  cases network with
  | localNetwork other => exact absurd rfl (notLocal other)
  | physical physical =>
    by_cases isAttached : name ∈ physical.interfaces
    · have unchanged : physical.addInterface ifNametoindex routes name =
          (physical, routes, netmanagerSuccess) :=
        if_pos isAttached
      simp only [NetsysNetwork.addInterface, unchanged, insert_network_self found]
      exact consistent
    · have ordinary : isInternalNetId physical.netId.toNat = false :=
        attached.isInternalNetId_eq_false found
      obtain ⟨changed, result, sent⟩ := sends_addInterface
        consistent.cached isThere ordinary isAttached
      simp only [NetsysNetwork.addInterface, result]
      exact consistent.attach distinguishes found isThere (free isAttached) sent
  | virtual virtual =>
    have sent := sends_modifyVirtualNetBasedRules .newRule consistent.cached virtual.netId name
    simp only [NetsysNetwork.addInterface, VirtualNetwork.addInterface,
      addInterfaceToVirtualNetwork, sent.code, ne_eq, not_true_eq_false, if_false]
    split
    · rw [insert_network_self found]
      exact consistent
    next notContained =>
      split
      · rw [insert_network_self found]
        exact consistent
      · refine (consistent.updateVirtual virtual.netId).insert
          (attached.grow found rfl rfl isThere (free notContained)) rfl fun before foundBefore => ?_
        rw [found] at foundBefore
        cases foundBefore
        rfl

theorem Consistent.removeInterface
    (notLocal : ∀ other, network ≠ .localNetwork other) (isAttached : name ∈ network.interfaces) :
    Consistent ifNametoindex
      (networks.insert id (network.removeInterface ifNametoindex routes name).1)
      (network.removeInterface ifNametoindex routes name).2.1 := by
  have attached := consistent.attached
  cases network with
  | localNetwork other => exact absurd rfl (notLocal other)
  | physical physical =>
    have ordinary : isInternalNetId physical.netId.toNat = false :=
      attached.isInternalNetId_eq_false found
    obtain ⟨changed, result, sent⟩ := sends_removeInterface
      consistent.cached (attached.isThere found name isAttached) ordinary isAttached
    simp only [NetsysNetwork.removeInterface, result]
    exact consistent.detach distinguishes found isAttached sent
  | virtual virtual =>
    have sent := sends_modifyVirtualNetBasedRules .delRule consistent.cached virtual.netId name
    have contained : virtual.interfaces.contains name = true := isAttached
    simp only [NetsysNetwork.removeInterface, VirtualNetwork.removeInterface,
      removeInterfaceFromVirtualNetwork, contained, sent.code, Bool.not_true,
      Bool.false_eq_true, ne_eq, not_true_eq_false, if_false]
    refine (consistent.updateVirtual virtual.netId).insert
      (attached.shrink found rfl fun other member => (mem_erase_interface.mp member).2) rfl ?_
    intro before foundBefore
    rw [found] at foundBefore
    cases foundBefore
    rfl

end

/-! ### The start -/

/-- The rule of the local network's own level. -/
def localNetworkRuleInfo : RuleInfo where
  ruleTable := routeLocalNetworkTable
  rulePriority := ruleLevelLocalNetwork
  ruleFwmark := Fwmark.intValue {}
  ruleMask := Fwmark.intValue { explicitlySelected := true }
  ruleIif := ""
  ruleOif := ""

theorem sends_init :
    ∃ requests : List (Ledger.Action FibRule),
      (∀ request ∈ requests, request.Foreign covers Tracked) ∧
        RouteManager.Sends ifNametoindex ⟨∅, []⟩ requests (RouteManager.init routeInitDir, 0) := by
  have cached : RouteManager.Cached ifNametoindex ⟨∅, []⟩ := by
    intro name table found
    simp at found
  cases routeInitDir with
  | false => exact ⟨[], by simp, rfl, rfl, cached⟩
  | true =>
    have explicit := sends_updateRuleInfo .newRule (explicitUidRange 99) cached
      (explicitRuleInfo_selects 99 routeLocalNetworkTable .none) fun _ => by decide
    have noMark : localNetworkRuleInfo.ruleFwmark &&& ~~~localNetworkRuleInfo.ruleMask = 0 := by
      decide
    have ofLocal := sends_updateRuleInfo .newRule none explicit.cached noMark fun _ => by decide
    refine ⟨(rulesOf (explicitRuleInfo 99 routeLocalNetworkTable .none)
        (explicitUidRange 99)).map (RuleAction.on .newRule) ++
          (rulesOf localNetworkRuleInfo none).map (RuleAction.on .newRule),
      ?_, rfl, ?_, ?_⟩
    rotate_left
    · exact ofLocal.kernel
    · exact ofLocal.cached
    · intro request member
      simp only [mem_append, mem_map, mem_rulesOf_iff] at member
      obtain ⟨rule, ⟨info, -⟩, rfl⟩ | ⟨rule, ⟨info, -⟩, rfl⟩ := member
      · change ¬ Tracked rule
        rw [Tracked, info]
        simp [explicitRuleInfo, ruleLevelDefault, ruleLevelExplicitNetwork,
          routeLocalNetworkTable, routeTableOffsetFromIndex]
      · change ¬ Tracked rule
        rw [Tracked, info]
        simp [localNetworkRuleInfo, ruleLevelLocalNetwork, ruleLevelDefault,
          ruleLevelExplicitNetwork, ruleLevelOutputInterface]

end Consistent

end NetManager.Conn
