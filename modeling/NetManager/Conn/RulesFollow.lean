import NetManager.Library.Run
import NetManager.Conn.Consistent

/-!
# The rules of the kernel follow the networks

The invariant of a run of the connection manager: the networks and the rules agree,
and the default network, if it exists, is the physical network that is marked as the
default one.
-/

namespace NetManager.Conn

open List Std RouteManager

namespace ConnManager

/-! ## The search for an interface -/

section Search

variable {netId : Int} {name : String}

theorem foldl_searchNetwork_of_ne (entries : List (Int × NetsysNetwork))
    (set : interfaceId ≠ interfaceUnset) :
    entries.foldl (searchNetwork netId name) interfaceId = interfaceId :=
  foldl_fixed' (fun entry => by simp [searchNetwork, set]) entries

/-- The search gives the number of a network with the interface; without one, it
gives none. -/
theorem foldl_searchNetwork (name : String) (entries : List (Int × NetsysNetwork))
    (sameClass : ∀ entry ∈ entries, isInternalNetId entry.1 = isInternalNetId netId) :
    (entries.foldl (searchNetwork netId name) interfaceUnset = interfaceUnset ∧
        ∀ entry ∈ entries, entry.1 ≠ interfaceUnset → name ∉ entry.2.interfaces) ∨
      ∃ entry ∈ entries, name ∈ entry.2.interfaces ∧
        entries.foldl (searchNetwork netId name) interfaceUnset = entry.1 := by
  induction entries with
  | nil => exact .inl ⟨rfl, by simp⟩
  | cons entry entries ih =>
    have same := sameClass entry mem_cons_self
    rw [foldl_cons]
    by_cases hit : name ∈ entry.2.interfaces ∧ entry.1 ≠ interfaceUnset
    · have found : searchNetwork netId name interfaceUnset entry = entry.1 := by
        simp [searchNetwork, same, ExtTreeSet.contains_iff_mem.mpr hit.1]
      rw [found]
      exact .inr ⟨entry, mem_cons_self, hit.1, foldl_searchNetwork_of_ne entries hit.2⟩
    · have missed : searchNetwork netId name interfaceUnset entry = interfaceUnset := by
        simpa [searchNetwork, same] using hit
      rw [missed]
      obtain ⟨result, others⟩ | ⟨other, member, inOther, result⟩ :=
        ih (forall_mem_cons.mp sameClass).2
      · exact .inl ⟨result, forall_mem_cons.mpr
          ⟨fun set inInterfaces => hit ⟨inInterfaces, set⟩, others⟩⟩
      · exact .inr ⟨other, mem_cons_of_mem _ member, inOther, result⟩

/-- The number of an ordinary network. -/
def Ordinary (netId : Int) : Prop := minNetId ≤ netId ∧ netId ≤ maxNetId
deriving Decidable

theorem Ordinary.localNetId_le (ordinary : Ordinary netId) : localNetId ≤ netId := by
  unfold Ordinary minNetId at ordinary
  unfold localNetId
  omega

variable {ifNametoindex : String → Nat} {manager : ConnManager}

theorem getNetworkForInterface_cases (attached : Attached ifNametoindex manager.networks)
    (ordinary : Ordinary netId) :
    (manager.getNetworkForInterface netId name = interfaceUnset ∧
        ∀ (other : Int) (owner : NetsysNetwork),
          manager.networks[other]? = some owner → name ∉ owner.interfaces) ∨
      ∃ owner, manager.networks[manager.getNetworkForInterface netId name]? = some owner ∧
          name ∈ owner.interfaces := by
  have external := isInternalNetId_of_localNetId_le ordinary.localNetId_le
  have found : ∀ entry ∈ manager.networks.toList,
      manager.networks[entry.1]? = some entry.2 := fun entry member =>
    ExtTreeMap.mem_toList_iff_getElem?_eq_some.mp member
  have search := foldl_searchNetwork name manager.networks.toList fun entry member =>
      (isInternalNetId_of_localNetId_le (attached.ordinary (found entry member))).trans
        external.symm
  obtain ⟨result, none⟩ | ⟨entry, member, inEntry, result⟩ := search
  · refine .inl ⟨result, fun other owner isOwner =>
      none (other, owner) (ExtTreeMap.mem_toList_iff_getElem?_eq_some.mpr isOwner) ?_⟩
    have above := attached.ordinary isOwner
    unfold localNetId at above
    unfold interfaceUnset
    omega
  · refine .inr ⟨entry.2, ?_, inEntry⟩
    rw [getNetworkForInterface, result]
    exact found entry member

end Search

/-! ## The invariant -/

/-- What holds in every state of a permitted run. -/
structure Invariant (ifNametoindex : String → Nat) (manager : ConnManager) : Prop where
  consistent : Consistent ifNametoindex manager.networks manager.routes
  noReinit : manager.needReinitRoute = false
  marked : ∀ {id : Int} {physical : PhysicalNetwork},
    manager.networks[id]? = some (.physical physical) →
      (physical.isDefault = true ↔ id = manager.defaultNetId)
  defaultPhysical : ∀ network, manager.networks[manager.defaultNetId]? = some network →
    network.isPhysical = true
  oneLocal : ∀ {id : Int} {network : LocalNetwork},
    manager.networks[id]? = some (.localNetwork network) → id = localNetId

section Invariant

variable {ifNametoindex : String → Nat} {manager : ConnManager} {netId : Int}
  {network : NetsysNetwork}

/-- What a stored network shows of the default one: it is marked exactly if `isMarked`, and
only physical networks are. -/
def Fits (isMarked : Prop) (id : Int) : NetsysNetwork → Prop
  | .physical physical => physical.isDefault = true ↔ isMarked
  | .virtual _ => ¬ isMarked
  | .localNetwork _ => id = localNetId ∧ ¬ isMarked

theorem Fits.congr {id : Int} (fits : Fits isMarked id network) (iff : isMarked ↔ same) :
    Fits same id network :=
  propext iff ▸ fits

theorem invariant_of_fits (consistent : Consistent ifNametoindex manager.networks manager.routes)
    (noReinit : manager.needReinitRoute = false)
    (fits : ∀ {id network}, manager.networks[id]? = some network →
      Fits (id = manager.defaultNetId) id network) :
    Invariant ifNametoindex manager := by
  refine ⟨consistent, noReinit, fun found => fits found, fun network found => ?_,
    fun found => (fits found).1⟩
  cases network with
  | physical => rfl
  | virtual => exact absurd rfl (fits found)
  | localNetwork => exact absurd rfl (fits found).2

theorem Invariant.fits (invariant : manager.Invariant ifNametoindex) {id : Int}
    (found : manager.networks[id]? = some network) :
    Fits (id = manager.defaultNetId) id network := by
  have isPhysical : id = manager.defaultNetId → network.isPhysical = true := by
    rintro rfl
    exact invariant.defaultPhysical network found
  cases network with
  | physical physical => exact invariant.marked found
  | virtual => exact fun same => absurd (isPhysical same) Bool.false_ne_true
  | localNetwork =>
    exact ⟨invariant.oneLocal found, fun same => absurd (isPhysical same) Bool.false_ne_true⟩

theorem fits_insert {networks : ExtTreeMap Int NetsysNetwork} {isMarked : Int → Prop} {id : Int}
    {other : NetsysNetwork} (found : (networks.insert netId network)[id]? = some other)
    (new : Fits (isMarked netId) netId network)
    (others : ∀ {id other}, networks[id]? = some other → id ≠ netId →
      Fits (isMarked id) id other) : Fits (isMarked id) id other := by
  obtain ⟨rfl, rfl⟩ | ⟨before, another⟩ := found_insert_cases found
  · exact new
  · exact others before another

theorem ne_zero_of_attached (attached : Attached ifNametoindex manager.networks)
    (found : manager.networks[netId]? = some network) :
    netId ≠ 0 := by
  have above := attached.ordinary found
  unfold localNetId at above
  omega

theorem rules_eq_empty
    (unattached : ∀ physical, network = .physical physical → physical.interfaces = ∅) :
    network.rules ifNametoindex = ∅ := by
  cases network with
  | physical physical =>
    ext rule
    have noInterfaces := unattached physical rfl
    constructor
    · rintro ⟨name, member, -⟩
      rw [noInterfaces] at member
      exact absurd member ExtTreeSet.not_mem_empty
    · exact False.elim
  | virtual => rfl
  | localNetwork => rfl

theorem Invariant.create (invariant : manager.Invariant ifNametoindex) (ordinary : Ordinary netId)
    (unused : manager.networks[netId]? = none)
    (itsId : (network.netId.toNat : Int) = netId) (noInterfaces : network.interfaces = ∅)
    (fits : Fits (netId = manager.defaultNetId) netId network) :
    Invariant ifNametoindex
      { manager with networks := manager.networks.insert netId network } := by
  have none : ∀ name, name ∉ network.interfaces := by
    rw [noInterfaces]
    exact fun name => ExtTreeSet.not_mem_empty
  refine invariant_of_fits (invariant.consistent.insert
    (invariant.consistent.attached.insert itsId ordinary.localNetId_le
      (fun name member => absurd member (none name))
      fun name member => absurd member (none name))
    (rules_eq_empty ?_) fun before found => ?_) invariant.noReinit
    fun found => fits_insert found fits fun found _ => invariant.fits found
  · rintro physical rfl
    exact noInterfaces
  · rw [unused] at found
    cases found

/-- The default network is replaced. Before, the next default network may be marked
as well. -/
theorem invariant_replaceDefault (distinguishes : Distinguishes ifNametoindex)
    (consistent : Consistent ifNametoindex manager.networks manager.routes)
    (noReinit : manager.needReinitRoute = false)
    (fits : ∀ {id network}, manager.networks[id]? = some network →
      Fits (id = manager.defaultNetId ∨ id = netId) id network)
    (different : manager.defaultNetId ≠ 0 → netId ≠ manager.defaultNetId) :
    Invariant ifNametoindex (manager.replaceDefault ifNametoindex netId).1 := by
  unfold replaceDefault
  split
  case isFalse isZero =>
    refine invariant_of_fits consistent noReinit fun found => (fits found).congr ?_
    rw [not_not.mp isZero]
    exact or_iff_right (ne_zero_of_attached consistent.attached found)
  case isTrue hasDefault =>
    split
    next missing =>
      refine invariant_of_fits consistent noReinit fun found =>
        (fits found).congr (or_iff_right ?_)
      rintro rfl
      rw [missing] at found
      cases found
    next network found =>
      refine invariant_of_fits (consistent.removeDefault distinguishes found ((fits found).mpr
        (.inl rfl))) noReinit fun found => fits_insert found ?_ fun found another =>
          (fits found).congr (or_iff_right another)
      simp [Fits, (different hasDefault).symm]
    next network notPhysical found =>
      have fitsDefault := fits found
      cases network with
      | physical physical => exact absurd rfl (notPhysical physical)
      | virtual => exact absurd (.inl rfl) fitsDefault
      | localNetwork => exact absurd (.inl rfl) fitsDefault.2

/-! ### Calls -/

section

variable (invariant : manager.Invariant ifNametoindex)

include invariant

theorem Invariant.clearDefaultNetwork (distinguishes : Distinguishes ifNametoindex) :
    Invariant ifNametoindex (manager.clearDefaultNetwork ifNametoindex).1 := by
  refine invariant_replaceDefault distinguishes invariant.consistent invariant.noReinit
    (fun found => (invariant.fits found).congr (or_iff_left ?_).symm) Ne.symm
  exact ne_zero_of_attached invariant.consistent.attached found

theorem Invariant.setDefaultNetwork (distinguishes : Distinguishes ifNametoindex) :
    Invariant ifNametoindex (manager.setDefaultNetwork ifNametoindex netId).1 := by
  unfold ConnManager.setDefaultNetwork
  split
  · exact invariant
  next different =>
    split
    next missing =>
      refine invariant_replaceDefault distinguishes invariant.consistent invariant.noReinit
        (fun found => (invariant.fits found).congr (or_iff_left ?_).symm) fun _ => Ne.symm different
      rintro rfl
      rw [missing] at found
      cases found
    next physical found =>
      have unmarked : physical.isDefault = false :=
        Bool.eq_false_iff.mpr fun isDefault =>
          different ((invariant.marked found).mp isDefault).symm
      refine invariant_replaceDefault distinguishes
        (invariant.consistent.addDefault distinguishes found unmarked) invariant.noReinit
        (fun found => fits_insert found ?_ fun found another =>
          (invariant.fits found).congr (or_iff_left another).symm) fun _ => Ne.symm different
      simp [Fits]
    · exact invariant

theorem Invariant.erase
    (consistent : Consistent ifNametoindex (manager.networks.erase netId) manager.routes) :
    Invariant ifNametoindex { manager with networks := manager.networks.erase netId } := by
  exact invariant_of_fits consistent invariant.noReinit fun found =>
    invariant.fits (found_of_erase found).1

theorem Invariant.destroyNetwork (distinguishes : Distinguishes ifNametoindex)
    (unattached : ∀ physical, manager.networks[netId]? = some (.physical physical) →
      physical.interfaces = ∅) :
    Invariant ifNametoindex (manager.destroyNetwork ifNametoindex netId).1 := by
  have attached := invariant.consistent.attached
  have erased : Consistent ifNametoindex (manager.networks.erase netId)
      manager.routes :=
    invariant.consistent.erase fun before found =>
      rules_eq_empty (by rintro physical rfl; exact unattached physical found)
  unfold ConnManager.destroyNetwork
  split
  · exact invariant
  · split
    · exact invariant.erase erased
    next network found =>
      split
      case isFalse => exact invariant.erase erased
      case isTrue isDefault =>
        have isPhysical := invariant.defaultPhysical network (isDefault ▸ found)
        cases network with
        | virtual => cases isPhysical
        | localNetwork => cases isPhysical
        | physical physical =>
          have mark := (invariant.marked found).mpr isDefault.symm
          have demoted := invariant.consistent.removeDefault distinguishes found mark
          refine invariant_of_fits (demoted.erase fun before foundNow => ?_) invariant.noReinit
            fun foundNow => ?_
          · rw [getElem?_insert_network, if_pos rfl] at foundNow
            cases foundNow
            refine rules_eq_empty fun other same => ?_
            cases same
            exact unattached physical found
          · obtain ⟨foundNow, another⟩ := found_of_erase foundNow
            simp only [removeDefaultFrom, getElem?_insert_network, if_neg another] at foundNow
            exact (invariant.fits foundNow).congr
              (iff_of_false (isDefault ▸ another) (ne_zero_of_attached attached foundNow))

end

/-- Two networks of the same kind, with the same mark; the local network is left
out. -/
def Alike : NetsysNetwork → NetsysNetwork → Prop
  | .physical before, .physical after => after.isDefault = before.isDefault
  | .virtual _, .virtual _ => True
  | _, _ => False

theorem Alike.fits {id : Int} {before after : NetsysNetwork} (alike : Alike before after)
    (fits : Fits isMarked id before) : Fits isMarked id after := by
  cases before <;> cases after
  case physical.physical => exact (congrArg (· = true) alike).to_iff.trans fits
  case virtual.virtual => exact fits
  all_goals exact alike.elim

variable (physical : PhysicalNetwork) (routes : RouteManager) (name : String)

theorem PhysicalNetwork.addInterface_isDefault :
    (physical.addInterface ifNametoindex routes name).1.isDefault = physical.isDefault := by
  unfold PhysicalNetwork.addInterface
  split
  · rfl
  · dsimp only
    split <;> rfl

theorem PhysicalNetwork.removeInterface_isDefault :
    (physical.removeInterface ifNametoindex routes name).1.isDefault = physical.isDefault := by
  unfold PhysicalNetwork.removeInterface
  split
  · rfl
  · dsimp only
    split
    · split <;> rfl
    · split <;> rfl

section

variable (notLocal : ∀ other, network ≠ .localNetwork other) (routes : RouteManager) (name : String)
include notLocal

theorem alike_addInterface :
    Alike network (network.addInterface ifNametoindex routes name vpnCreated).1 := by
  cases network with
  | physical physical => exact PhysicalNetwork.addInterface_isDefault physical routes name
  | virtual virtual => trivial
  | localNetwork other => exact absurd rfl (notLocal other)

theorem alike_removeInterface :
    Alike network (network.removeInterface ifNametoindex routes name).1 := by
  cases network with
  | physical physical => exact PhysicalNetwork.removeInterface_isDefault physical routes name
  | virtual virtual => trivial
  | localNetwork other => exact absurd rfl (notLocal other)

end

section

variable (invariant : manager.Invariant ifNametoindex)

include invariant

theorem Invariant.replace
    {before after : NetsysNetwork} (found : manager.networks[netId]? = some before)
    {routes : RouteManager}
    (consistent : Consistent ifNametoindex (manager.networks.insert netId after) routes)
    (alike : Alike before after) (physicalInterfaceName : ExtTreeMap Int String) :
    Invariant ifNametoindex
      { manager with
        networks := manager.networks.insert netId after
        physicalInterfaceName
        routes } :=
  invariant_of_fits consistent invariant.noReinit fun foundNow =>
    fits_insert foundNow (alike.fits (invariant.fits found)) fun found _ => invariant.fits found

theorem Invariant.notLocal (ordinary : Ordinary netId)
    (found : manager.networks[netId]? = some network) (other : LocalNetwork) :
    network ≠ .localNetwork other := by
  rintro rfl
  have isLocal := invariant.oneLocal found
  unfold Ordinary minNetId at ordinary
  unfold localNetId at isLocal
  omega

theorem Invariant.addInterfaceToNetwork
    (distinguishes : Distinguishes ifNametoindex) (ordinary : Ordinary netId) {name : String}
    (isThere : ifNametoindex name ≠ 0) :
    Invariant ifNametoindex
      (manager.addInterfaceToNetwork ifNametoindex netId name vpnCreated).1 := by
  unfold ConnManager.addInterfaceToNetwork
  dsimp only
  split
  · exact invariant
  next passed =>
    split
    · exact invariant
    next network found =>
      have notLocal := invariant.notLocal ordinary found
      -- Another owner would have been found first and have refused the call.
      have free : name ∉ network.interfaces → ∀ (other : Int) (owner : NetsysNetwork),
          manager.networks[other]? = some owner → name ∉ owner.interfaces := by
        intro absent
        obtain ⟨-, none⟩ | ⟨owner, isOwner, inOwner⟩ :=
          getNetworkForInterface_cases invariant.consistent.attached ordinary
        · exact none
        · have already : manager.getNetworkForInterface netId name = netId := by
            by_contra another
            have above := invariant.consistent.attached.ordinary isOwner
            refine passed ⟨another, fun unset => ?_⟩
            rw [unset] at above
            exact absurd above (by decide)
          rw [already, found] at isOwner
          cases isOwner
          exact absurd inOwner absent
      exact invariant.replace found
        (invariant.consistent.addInterface distinguishes found notLocal isThere free)
        (alike_addInterface notLocal manager.routes name) _

theorem Invariant.removeInterfaceFromNetwork
    (distinguishes : Distinguishes ifNametoindex) (ordinary : Ordinary netId) (name : String) :
    Invariant ifNametoindex (manager.removeInterfaceFromNetwork ifNametoindex netId name).1 := by
  unfold ConnManager.removeInterfaceFromNetwork
  dsimp only
  split
  · exact invariant
  next passed =>
    obtain ⟨already, set⟩ := not_or.mp passed
    split
    · exact invariant
    next network found =>
      have notLocal := invariant.notLocal ordinary found
      have isAttached : name ∈ network.interfaces := by
        obtain ⟨unset, -⟩ | ⟨owner, isOwner, inOwner⟩ :=
          getNetworkForInterface_cases invariant.consistent.attached ordinary
        · exact absurd unset set
        · rw [not_not.mp already, found] at isOwner
          cases isOwner
          exact inOwner
      exact invariant.replace found
        (invariant.consistent.removeInterface distinguishes found notLocal isAttached)
        (alike_removeInterface notLocal manager.routes name) _

end

end Invariant

/-! ## Runs -/

/-- The calls that are considered: ordinary numbers, unused ones for new networks,
and interfaces that exist. -/
def InScope (ifNametoindex : String → Nat) (manager : ConnManager) : Call → Prop
  | .createPhysicalNetwork netId _ =>
    Ordinary netId.toNat ∧ manager.networks[(netId.toNat : Int)]? = none
  | .createVirtualNetwork netId _ =>
    Ordinary netId.toNat ∧ manager.networks[(netId.toNat : Int)]? = none
  | .destroyNetwork netId => Ordinary netId
  | .setDefaultNetwork netId => Ordinary netId
  | .clearDefaultNetwork => True
  | .addInterfaceToNetwork netId name _ => Ordinary netId ∧ ifNametoindex name ≠ 0
  | .removeInterfaceFromNetwork netId _ => Ordinary netId

/-- No network is created under the number of the default network, and no physical
network is destroyed that has interfaces. -/
def Orderly (manager : ConnManager) : Call → Prop
  | .createPhysicalNetwork netId _ => (netId.toNat : Int) ≠ manager.getDefaultNetwork
  | .createVirtualNetwork netId _ => (netId.toNat : Int) ≠ manager.getDefaultNetwork
  | .destroyNetwork netId =>
    match manager.networks[netId]? with
    | some (.physical physical) => physical.interfaces.isEmpty = true
    | _ => True
  | _ => True

instance (ifNametoindex : String → Nat) (manager : ConnManager) (call : Call) :
    Decidable (manager.InScope ifNametoindex call) :=
  match call with
  | .createPhysicalNetwork _ _ => inferInstanceAs (Decidable (_ ∧ _))
  | .createVirtualNetwork _ _ => inferInstanceAs (Decidable (_ ∧ _))
  | .destroyNetwork netId => inferInstanceAs (Decidable (Ordinary netId))
  | .setDefaultNetwork netId => inferInstanceAs (Decidable (Ordinary netId))
  | .clearDefaultNetwork => inferInstanceAs (Decidable True)
  | .addInterfaceToNetwork _ _ _ => inferInstanceAs (Decidable (_ ∧ _))
  | .removeInterfaceFromNetwork netId _ => inferInstanceAs (Decidable (Ordinary netId))

instance (manager : ConnManager) (call : Call) : Decidable (manager.Orderly call) :=
  match call with
  | .createPhysicalNetwork _ _ => inferInstanceAs (Decidable (_ ≠ _))
  | .createVirtualNetwork _ _ => inferInstanceAs (Decidable (_ ≠ _))
  | .destroyNetwork netId =>
    match found : manager.networks[netId]? with
    | some (.physical physical) =>
      decidable_of_iff (physical.interfaces.isEmpty = true) (by simp [Orderly, found])
    | some (.virtual _) => isTrue (by simp [Orderly, found])
    | some (.localNetwork _) => isTrue (by simp [Orderly, found])
    | none => isTrue (by simp [Orderly, found])
  | .setDefaultNetwork _ => isTrue trivial
  | .clearDefaultNetwork => isTrue trivial
  | .addInterfaceToNetwork _ _ _ => isTrue trivial
  | .removeInterfaceFromNetwork _ _ => isTrue trivial

/-- The rules of the default level are there, once each, for the interfaces of the
default network, and those of the explicit and output levels in the tables of
interfaces for the interfaces of all physical networks. -/
structure RulesFollow (ifNametoindex : String → Nat)
    (manager : ConnManager) : Prop where
  default : ∀ rule : FibRule, rule.ruleInfo.rulePriority = ruleLevelDefault →
    (rule ∈ manager.routes.kernel ↔
      ∃ physical : PhysicalNetwork,
        manager.networks[manager.getDefaultNetwork]? = some (.physical physical) ∧
          ∃ name ∈ physical.interfaces,
            rule ∈ defaultRules (tableOf ifNametoindex name) physical.permission)
  interface : ∀ rule : FibRule,
    (rule.ruleInfo.rulePriority = ruleLevelExplicitNetwork ∨
      rule.ruleInfo.rulePriority = ruleLevelOutputInterface) →
    routeTableOffsetFromIndex < rule.ruleInfo.ruleTable →
    (rule ∈ manager.routes.kernel ↔
      ∃ (id : Int) (physical : PhysicalNetwork), manager.networks[id]? = some (.physical physical) ∧
          ∃ name ∈ physical.interfaces,
            rule ∈ interfaceRules physical.netId name (tableOf ifNametoindex name)
              physical.permission)
  once : ∀ rule : FibRule, Tracked rule → manager.routes.kernel.count rule ≤ 1

section Runs

variable {ifNametoindex : String → Nat} {manager : ConnManager}

theorem Invariant.step (invariant : manager.Invariant ifNametoindex)
    (distinguishes : Distinguishes ifNametoindex)
    (inScope : manager.InScope ifNametoindex call) (orderly : manager.Orderly call) :
    Invariant ifNametoindex (manager.step ifNametoindex call) := by
  cases call with
  | createPhysicalNetwork netId permission =>
    have created : manager.step ifNametoindex
        (.createPhysicalNetwork netId permission) =
          { manager with
            networks := manager.networks.insert netId.toNat
              (.physical { netId, permission }) } := by
      simp [ConnManager.step, ConnManager.createPhysicalNetwork, invariant.noReinit]
    rw [created]
    exact invariant.create inScope.1 inScope.2 rfl rfl (iff_of_false (by simp) orderly)
  | createVirtualNetwork netId hasDns =>
    exact invariant.create inScope.1 inScope.2 rfl rfl orderly
  | destroyNetwork netId =>
    refine invariant.destroyNetwork distinguishes fun physical found => ?_
    simp only [Orderly, found] at orderly
    exact ExtTreeSet.isEmpty_iff.mp orderly
  | setDefaultNetwork netId => exact invariant.setDefaultNetwork distinguishes
  | clearDefaultNetwork => exact invariant.clearDefaultNetwork distinguishes
  | addInterfaceToNetwork netId name vpnCreated =>
    exact invariant.addInterfaceToNetwork distinguishes inScope.1 inScope.2
  | removeInterfaceFromNetwork netId name =>
    exact invariant.removeInterfaceFromNetwork distinguishes inScope name

theorem Invariant.rulesFollow (invariant : manager.Invariant ifNametoindex) :
    manager.RulesFollow ifNametoindex := by
  have keeps := invariant.consistent.keeps
  refine ⟨fun rule level => ?_, fun rule level table => ?_, keeps.once⟩
  · rw [keeps.mem_iff rule (.inl level)]
    constructor
    · rintro ⟨id, network, found, member⟩
      obtain ⟨physical, rfl, name, isAttached, -, isRule, -⟩ :=
        invariant.consistent.attached.owner found member
      obtain inInterface | ⟨isDefault, inDefault⟩ := PhysicalNetwork.mem_rulesFor_iff.mp isRule
      · exact absurd (rulePriority_of_mem_interfaceRules inInterface) (ruleLevelDefault_ne level)
      · rw [(invariant.marked found).mp isDefault] at found
        exact ⟨physical, found, name, isAttached, inDefault⟩
    · rintro ⟨physical, found, name, isAttached, isRule⟩
      refine ⟨_, _, found, name, isAttached, ?_⟩
      exact PhysicalNetwork.mem_rulesFor_iff.mpr (.inr ⟨(invariant.marked found).mpr rfl, isRule⟩)
  · rw [keeps.mem_iff rule (.inr ⟨level, table⟩)]
    constructor
    · rintro ⟨id, network, found, member⟩
      obtain ⟨physical, rfl, name, isAttached, -, isRule, -⟩ :=
        invariant.consistent.attached.owner found member
      obtain inInterface | ⟨-, inDefault⟩ := PhysicalNetwork.mem_rulesFor_iff.mp isRule
      · exact ⟨id, physical, found, name, isAttached, inInterface⟩
      · exact absurd level (ruleLevelDefault_ne (rulePriority_of_mem_defaultRules inDefault))
    · rintro ⟨id, physical, found, name, isAttached, isRule⟩
      exact ⟨id, _, found, name, isAttached, PhysicalNetwork.mem_rulesFor_iff.mpr (.inl isRule)⟩

theorem invariant_start : Invariant ifNametoindex (start routeInitDir) := by
  have only : ∀ {id : Int} {network : NetsysNetwork},
      (start routeInitDir).networks[id]? = some network →
        id = localNetId ∧ network = .localNetwork { netId := 99 } := by
    intro id network found
    simp only [start, getElem?_insert_network] at found
    split at found
    next same => exact ⟨same, (Option.some.inj found).symm⟩
    · simp at found
  obtain ⟨requests, foreign, sent⟩ := sends_init
  refine ⟨⟨⟨fun found => ?_, fun found => ?_, fun found => ?_, fun found other => ?_⟩,
    sent.cached, ?_⟩, rfl, fun found => ?_, fun network found => ?_, fun found => (only found).1⟩
  · obtain ⟨rfl, rfl⟩ := only found
    rfl
  · exact (only found).1.ge
  · obtain ⟨rfl, rfl⟩ := only found
    exact fun name member => absurd member ExtTreeSet.not_mem_empty
  · intro name inLeft inRight
    rw [(only found).1, (only other).1]
  · have noRules : installed ifNametoindex (start routeInitDir).networks = ∅ := by
      ext rule
      constructor
      · rintro ⟨id, network, found, member⟩
        obtain ⟨-, rfl⟩ := only found
        exact member
      · exact False.elim
    have none : Ledger.Keeps Tracked ([] : List FibRule) ∅ := ⟨by simp, by simp⟩
    rw [noRules]
    exact sent.kernel ▸ none.run_foreign foreign
  · cases (only found).2
  · cases (only found).1

/-- In every run of orderly calls, the rules follow the networks. -/
theorem rulesFollow_of_reach {ifNametoindex : String → Nat}
    (distinguishes : Distinguishes ifNametoindex) (routeInitDir : Bool) {manager : ConnManager}
    (reach : Run.Reach (step ifNametoindex)
      (fun manager call => manager.InScope ifNametoindex call ∧ manager.Orderly call)
      (start routeInitDir) manager) :
    manager.RulesFollow ifNametoindex := by
  have invariant : manager.Invariant ifNametoindex :=
    reach.invariant invariant_start fun _ call holds permitted =>
        holds.step distinguishes permitted.1 permitted.2
  exact invariant.rulesFollow

/-- A system with two interfaces. -/
def twoInterfaces (name : String) : Nat :=
  if name = "eth0" then 2 else if name = "wlan0" then 3 else 0

theorem distinguishes_twoInterfaces : Distinguishes twoInterfaces := by
  intro first second isThere same
  unfold twoInterfaces at isThere same
  split_ifs at isThere same <;> simp_all

/-- The default network moves from one network to another, and the first one is
taken down. -/
def handover : List Call :=
  [.createPhysicalNetwork 100 .none, .addInterfaceToNetwork 100 "eth0" false,
    .setDefaultNetwork 100, .createPhysicalNetwork 101 .none,
    .addInterfaceToNetwork 101 "wlan0" false, .setDefaultNetwork 101,
    .removeInterfaceFromNetwork 100 "eth0", .destroyNetwork 100]

theorem rulesFollow_handover :
    (handover.foldl (step twoInterfaces) (start true)).RulesFollow twoInterfaces := by
  refine rulesFollow_of_reach distinguishes_twoInterfaces true (Run.Reach.foldl .start handover ?_)
  decide

/-- A network is destroyed with its interface. -/
def destroyAttached : List Call :=
  [.createPhysicalNetwork 100 .none, .addInterfaceToNetwork 100 "eth0" false, .destroyNetwork 100]

/-- A network is made the default one before it is created. -/
def defaultFirst : List Call :=
  [.setDefaultNetwork 100, .createPhysicalNetwork 100 .none,
    .addInterfaceToNetwork 100 "eth0" false]

/-- No network is left, but the explicit rule of its interface is. -/
theorem stale_destroyAttached :
    ¬ (destroyAttached.foldl (step twoInterfaces) (start true)).RulesFollow
      twoInterfaces := by
  intro follow
  obtain ⟨id, physical, found, -⟩ :=
    (follow.interface ⟨.inet, explicitRuleInfo 100 2002 .none, none⟩ (.inl rfl)
      (by decide)).mp (by decide)
  have noPhysical : ∀ entry ∈ (destroyAttached.foldl (step twoInterfaces)
      (start true)).networks.toList, entry.2.isPhysical = false := by
    decide
  have isPhysical := noPhysical _ (ExtTreeMap.mem_toList_iff_getElem?_eq_some.mpr found)
  cases isPhysical

/-- The default network has an interface without a default rule. -/
theorem missing_defaultFirst :
    ¬ (defaultFirst.foldl (step twoInterfaces) (start true)).RulesFollow
      twoInterfaces := by
  intro follow
  have absent : (⟨.inet, defaultRuleInfo 2002 .none, none⟩ : FibRule) ∉
      (defaultFirst.foldl (step twoInterfaces) (start true)).routes.kernel := by
    decide
  refine absent ((follow.default _ rfl).mpr
    ⟨⟨100, .none, false, (∅ : ExtTreeSet String).insert "eth0"⟩, ?_, "eth0", ?_, ?_⟩)
  · rfl
  · exact mem_insert_interface.mpr (.inl rfl)
  · exact mem_defaultRules_iff.mpr ⟨rfl, rfl⟩

/-- Two runs of calls in scope after which the rules do not follow the networks. -/
theorem not_rulesFollow :
    (Run.PermittedAll (step twoInterfaces) (InScope twoInterfaces) (start true)
        destroyAttached ∧
      ¬ (destroyAttached.foldl (step twoInterfaces) (start true)).RulesFollow twoInterfaces) ∧
    Run.PermittedAll (step twoInterfaces) (InScope twoInterfaces) (start true) defaultFirst ∧
      ¬ (defaultFirst.foldl (step twoInterfaces) (start true)).RulesFollow
        twoInterfaces :=
  ⟨⟨by decide, stale_destroyAttached⟩, by decide, missing_defaultFirst⟩

/-- In every run of orderly calls, an interface has one network at most, and the search finds
it. -/
theorem mem_interfaces_iff_of_reach {ifNametoindex : String → Nat}
    (distinguishes : Distinguishes ifNametoindex) (routeInitDir : Bool) {manager : ConnManager}
    (reach : Run.Reach (step ifNametoindex)
      (fun manager call => manager.InScope ifNametoindex call ∧ manager.Orderly call)
      (start routeInitDir) manager)
    (ordinary : Ordinary netId) {id : Int} {network : NetsysNetwork}
    (found : manager.networks[id]? = some network) (name : String) :
    name ∈ network.interfaces ↔ manager.getNetworkForInterface netId name = id := by
  have invariant : manager.Invariant ifNametoindex :=
    reach.invariant invariant_start fun _ call holds permitted =>
        holds.step distinguishes permitted.1 permitted.2
  have attached := invariant.consistent.attached
  obtain ⟨unset, alone⟩ | ⟨owner, isOwner, inOwner⟩ :=
    getNetworkForInterface_cases attached ordinary
  · refine iff_of_false (alone id network found) ?_
    rintro rfl
    exact absurd (unset ▸ attached.ordinary found) (by decide)
  · constructor
    · exact attached.unique isOwner found name inOwner
    · rintro rfl
      cases isOwner.symm.trans found
      exact inOwner

theorem mem_interfaces_handover :
    "wlan0" ∈ (NetsysNetwork.physical ⟨101, .none, true, {"wlan0"}⟩).interfaces ↔
      (handover.foldl (step twoInterfaces) (start true)).getNetworkForInterface 101 "wlan0" = 101 :=
  mem_interfaces_iff_of_reach distinguishes_twoInterfaces true
    (Run.Reach.foldl .start handover (by decide)) (by decide) rfl "wlan0"

end Runs

end ConnManager

end NetManager.Conn
