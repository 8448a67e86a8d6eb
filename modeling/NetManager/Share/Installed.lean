import NetManager.Share.Control

/-!
# What a downstream has installed

The forwarding pairs, routes and DHCP server of one interface, and how the functions of
its machine change them while removals succeed. A machine forwards to nothing, to its
upstream, or to its upstream and the interface that CLAT adds to it.
-/

namespace NetManager.Share

open Netsys

/-- Removals succeed. -/
structure Environment.Removes (env : Environment) : Prop where
  forward : ∀ request fromIface toIface,
    env.succeeds request (.ipfwdRemoveInterfaceForward fromIface toIface) = true
  route : ∀ request iface destination,
    env.succeeds request (.networkRemoveRoute iface destination) = true
  dhcp : ∀ request iface, env.succeeds request (.stopDhcpServer iface) = true

/-- The interface that CLAT adds to an upstream. -/
def tunv4 (upstream : String) : String := "tunv4-" ++ upstream

theorem length_lt_tunv4 (upstream : String) : upstream.length < (tunv4 upstream).length := by
  rw [tunv4, String.length_append]
  exact Nat.lt_add_of_pos_left (by decide)

theorem tunv4_ne_self : tunv4 upstream ≠ upstream := by
  intro same
  have longer := length_lt_tunv4 upstream
  rw [same] at longer
  exact Nat.lt_irrefl _ longer

theorem tunv4_ne_empty (upstream : String) : tunv4 upstream ≠ "" := by
  intro same
  have longer := length_lt_tunv4 upstream
  rw [same] at longer
  exact Nat.not_lt_zero _ longer

namespace Netsys

variable {env : Environment} {netsys : Netsys} {iface : String}

/-- Where the interface is forwarded to. -/
def targets (netsys : Netsys) (iface : String) : List String :=
  (netsys.forwards.filter (·.1 = iface)).map Prod.snd

theorem mem_targets : target ∈ netsys.targets iface ↔ (iface, target) ∈ netsys.forwards := by
  simp [targets]

theorem count_targets :
    (netsys.targets iface).count target = netsys.forwards.count (iface, target) := by
  unfold targets
  induction netsys.forwards with
  | nil => rfl
  | cons pair rest ih =>
    obtain ⟨fromIface, toIface⟩ := pair
    by_cases same : fromIface = iface
    · subst same
      simp [List.count_cons, ih]
    · simp [ih, same]

theorem targets_erase :
    ((netsys.forwards.erase (iface, target)).filter (·.1 = iface)).map Prod.snd =
      (netsys.targets iface).erase target := by
  unfold targets
  induction netsys.forwards with
  | nil => rfl
  | cons pair rest ih =>
    obtain ⟨fromIface, toIface⟩ := pair
    by_cases same : fromIface = iface
    · subst same
      by_cases hit : toIface = target
      · simp [hit]
      · simp [hit, ih]
    · simp [same, ih]

theorem targets_ipfwdAddInterfaceForward (env : Environment) (netsys : Netsys)
    (iface target : String) :
    ((netsys.ipfwdAddInterfaceForward env iface target).1.targets iface) =
      if (netsys.ipfwdAddInterfaceForward env iface target).2 then netsys.targets iface ++ [target]
      else netsys.targets iface := by
  unfold ipfwdAddInterfaceForward targets
  split <;> simp [next]

theorem targets_ipfwdRemoveInterfaceForward (removes : env.Removes) :
    (netsys.ipfwdRemoveInterfaceForward env iface target).targets iface =
      (netsys.targets iface).erase target := by
  unfold ipfwdRemoveInterfaceForward answer
  rw [if_pos (removes.forward _ _ _)]
  exact targets_erase

section Frame

variable (env) (netsys) (other destination : String)

@[simp] theorem targets_networkAddRoute :
    (netsys.networkAddRoute env other destination).1.targets iface = netsys.targets iface := by
  unfold networkAddRoute
  split <;> rfl

@[simp] theorem targets_startDhcpServer :
    (netsys.startDhcpServer env other).1.targets iface = netsys.targets iface := by
  unfold startDhcpServer
  split <;> rfl

@[simp] theorem targets_ask : (netsys.ask env request).1.targets iface = netsys.targets iface :=
  rfl

@[simp] theorem localRoutes_ipfwdAddInterfaceForward :
    (netsys.ipfwdAddInterfaceForward env other destination).1.localRoutes = netsys.localRoutes := by
  unfold ipfwdAddInterfaceForward
  split <;> rfl

@[simp] theorem localRoutes_ipfwdRemoveInterfaceForward :
    (netsys.ipfwdRemoveInterfaceForward env other destination).localRoutes =
      netsys.localRoutes := by
  unfold ipfwdRemoveInterfaceForward
  split <;> rfl

@[simp] theorem localRoutes_startDhcpServer :
    (netsys.startDhcpServer env other).1.localRoutes = netsys.localRoutes := by
  unfold startDhcpServer
  split <;> rfl

@[simp] theorem localRoutes_ask : (netsys.ask env request).1.localRoutes = netsys.localRoutes :=
  rfl

end Frame

end Netsys

/-! ## One downstream -/

namespace Downstream

variable {env : Environment} {downstream : Downstream}

/-- Where the interface of a downstream is forwarded to. -/
def targets (downstream : Downstream) : List String :=
  downstream.netsys.targets downstream.machine.ifaceName

theorem findDestinationAddr_congr {first second : SubStateMachine}
    (settings : first.settings = second.settings) :
    first.findDestinationAddr = second.findDestinationAddr := by
  have netShareType : first.netShareType = second.netShareType := congrArg (·.2.1) settings
  have configuration : first.configuration = second.configuration := congrArg (·.2.2) settings
  unfold SubStateMachine.findDestinationAddr SubStateMachine.ipv4Addr
  rw [netShareType, configuration]

/-- The interface has a route to a destination in the local network. -/
def HasRoute (downstream : Downstream) (destination : String) : Prop :=
  (downstream.machine.ifaceName, destination) ∈ downstream.netsys.localRoutes

/-- What is installed for a machine that shares. -/
structure Installed (downstream : Downstream) : Prop where
  tunv4Name : downstream.machine.tunv4UpstreamIfaceName = "" ∨
    downstream.machine.tunv4UpstreamIfaceName = tunv4 downstream.machine.upstreamIfaceName
  targets : downstream.targets = [] ∨ downstream.targets = [downstream.machine.upstreamIfaceName] ∨
    (downstream.targets = [downstream.machine.upstreamIfaceName,
        tunv4 downstream.machine.upstreamIfaceName] ∧
      downstream.machine.tunv4UpstreamIfaceName ≠ "")
  routes : ∀ destination, downstream.HasRoute destination →
    downstream.machine.findDestinationAddr = some destination

/-- Nothing is forwarded or routed for the machine. -/
structure Bare (downstream : Downstream) : Prop where
  tunv4Name : downstream.machine.tunv4UpstreamIfaceName = ""
  targets : downstream.targets = []
  routes : ∀ destination, ¬downstream.HasRoute destination

/-- No DHCP server runs for a machine that would have to stop it. -/
def NoServer (downstream : Downstream) : Prop :=
  downstream.machine.netShareType ≠ .wifi →
    downstream.machine.ifaceName ∉ downstream.netsys.dhcpServers

theorem Bare.installed (bare : downstream.Bare) : downstream.Installed where
  tunv4Name := .inl bare.tunv4Name
  targets := .inl bare.targets
  routes := fun destination has => absurd has (bare.routes destination)

variable {after : Downstream}

/-- A route was there before, while the interface and the local network are kept. -/
theorem HasRoute.before (has : after.HasRoute destination)
    (iface : after.machine.ifaceName = downstream.machine.ifaceName)
    (routes : after.netsys.localRoutes = downstream.netsys.localRoutes) :
    downstream.HasRoute destination := by
  unfold HasRoute at has ⊢
  rw [← iface, ← routes]
  exact has

theorem Bare.setUpstreamIfaceName (bare : downstream.Bare) (iface : String) :
    (downstream.setUpstreamIfaceName iface).Bare :=
  ⟨bare.tunv4Name, bare.targets, bare.routes⟩

theorem Installed.removeRoutesToLocalNetwork (removes : env.Removes)
    (installed : downstream.Installed) :
    (∀ destination, ¬(downstream.removeRoutesToLocalNetwork env).HasRoute destination) ∧
    (downstream.removeRoutesToLocalNetwork env).targets = downstream.targets ∧
    (downstream.removeRoutesToLocalNetwork env).machine.upstreamIfaceName =
      downstream.machine.upstreamIfaceName ∧
    (downstream.removeRoutesToLocalNetwork env).machine.tunv4UpstreamIfaceName =
      downstream.machine.tunv4UpstreamIfaceName := by
  unfold Downstream.removeRoutesToLocalNetwork
  split
  next noDestination =>
    refine ⟨fun destination has => ?_, rfl, rfl, rfl⟩
    have found := installed.routes destination has
    rw [noDestination] at found
    cases found
  next destination found =>
    rw [Netsys.networkRemoveRoute, Netsys.answer, if_pos (removes.route _ _ _)]
    refine ⟨fun other has => ?_, rfl, rfl, rfl⟩
    have kept := List.mem_filter.mp has
    have same := Option.some.inj (found.symm.trans (installed.routes other kept.1))
    rw [same] at kept
    simp at kept

theorem erase_targets {targets : List String} (name : tunv4Name = "" ∨ tunv4Name = tunv4 upstream)
    (shape : targets = [] ∨ targets = [upstream] ∨
      (targets = [upstream, tunv4 upstream] ∧ tunv4Name ≠ "")) :
    (if tunv4Name.isEmpty then targets else targets.erase tunv4Name).erase upstream = [] := by
  have different : upstream ≠ tunv4 upstream := tunv4_ne_self.symm
  have notEmpty := tunv4_ne_empty upstream
  obtain rfl | rfl | ⟨rfl, nonempty⟩ := shape
  · simp
  · obtain rfl | rfl := name
    · simp
    · simp [notEmpty, different]
  · obtain rfl | rfl := name
    · exact absurd rfl nonempty
    · simp [notEmpty, different]

theorem Installed.cleanupUpstreamInterface (removes : env.Removes)
    (installed : downstream.Installed) :
    (downstream.cleanupUpstreamInterface env).Bare := by
  obtain ⟨noRoute, targets, upstream, tunv4Name⟩ := installed.removeRoutesToLocalNetwork removes
  have gone := erase_targets installed.tunv4Name installed.targets
  unfold Downstream.cleanupUpstreamInterface
  rw [← targets, ← upstream, ← tunv4Name] at gone
  dsimp only
  split
  next isEmpty =>
    rw [if_pos isEmpty] at gone
    refine ⟨String.isEmpty_iff.mp isEmpty, ?_, ?_⟩
    · exact (targets_ipfwdRemoveInterfaceForward removes).trans gone
    · exact fun destination has => noRoute destination (has.before rfl (by simp))
  next notEmpty =>
    rw [if_neg notEmpty] at gone
    refine ⟨rfl, ?_, ?_⟩
    · refine (targets_ipfwdRemoveInterfaceForward removes).trans ?_
      refine (congrArg (List.erase · _) (targets_ipfwdRemoveInterfaceForward removes)).trans gone
    · exact fun destination has => noRoute destination (has.before rfl (by simp))

theorem Bare.stopDhcp (removes : env.Removes) (bare : downstream.Bare) :
    (downstream.stopDhcp env).Bare ∧ (downstream.stopDhcp env).NoServer := by
  unfold Downstream.stopDhcp
  split
  next isWifi => exact ⟨bare, fun notWifi => absurd isWifi notWifi⟩
  · rw [Netsys.stopDhcpServer, Netsys.answer, if_pos (removes.dhcp _ _)]
    refine ⟨⟨bare.tunv4Name, bare.targets, bare.routes⟩, fun _ running => ?_⟩
    have kept := (List.mem_filter.mp running).2
    simp at kept

theorem Bare.stopIpv6 (bare : downstream.Bare) : downstream.stopIpv6.Bare :=
  ⟨bare.tunv4Name, bare.targets, bare.routes⟩

theorem NoServer.stopIpv6 (noServer : downstream.NoServer) : downstream.stopIpv6.NoServer :=
  noServer

theorem Installed.sharedStateExit (removes : env.Removes) (installed : downstream.Installed) :
    (downstream.sharedStateExit env).Bare ∧ (downstream.sharedStateExit env).NoServer := by
  obtain ⟨bare, noServer⟩ := (installed.cleanupUpstreamInterface removes).stopDhcp removes
  unfold Downstream.sharedStateExit
  exact ⟨bare.stopIpv6, noServer.stopIpv6⟩

variable {netsys : Netsys} {iface upstream : String}

/-- The part of `HandleConnection` for the interface that CLAT adds, from a netsys
that forwards to the upstream only. -/
theorem addTunv4Forward_cases (removes : env.Removes) (only : netsys.targets iface = [upstream]) :
    let clat := addTunv4Forward env iface (tunv4 upstream) netsys
    (clat.1.targets iface = [upstream] ∧ clat.2 = tunv4 upstream ∧
      env.interfaceIndex (tunv4 upstream) = 0) ∨
    (clat.1.targets iface = [upstream, tunv4 upstream] ∧ clat.2 = tunv4 upstream ∧
      env.interfaceIndex (tunv4 upstream) ≠ 0) ∨
    (clat.1.targets iface = [upstream] ∧ clat.2 = "" ∧
      env.interfaceIndex (tunv4 upstream) ≠ 0) := by
  have different : upstream ≠ tunv4 upstream := tunv4_ne_self.symm
  have added := targets_ipfwdAddInterfaceForward env netsys iface (tunv4 upstream)
  rw [only] at added
  unfold addTunv4Forward
  split
  next absent => exact .inl ⟨only, rfl, absent⟩
  next present =>
    dsimp only
    split
    next ok =>
      rw [if_pos ok] at added
      exact .inr (.inl ⟨added, rfl, present⟩)
    next refused =>
      rw [if_neg refused] at added
      refine .inr (.inr ⟨?_, rfl, present⟩)
      rw [targets_ipfwdRemoveInterfaceForward removes, added]
      simp [different]

/-- All is taken back when the local network refuses the interface. -/
theorem targets_removeForwards (removes : env.Removes)
    (only : netsys.targets iface = [upstream]) :
    let clat := addTunv4Forward env iface (tunv4 upstream) netsys
    (removeForwards env iface upstream (tunv4 upstream) clat.2
      (clat.1.ask env request).1).targets iface = [] := by
  have different : upstream ≠ tunv4 upstream := tunv4_ne_self.symm
  have clat := addTunv4Forward_cases removes only
  dsimp only at clat ⊢
  unfold removeForwards
  rw [targets_ipfwdRemoveInterfaceForward removes]
  obtain ⟨one, name, index⟩ | ⟨both, name, index⟩ | ⟨one, name, index⟩ := clat
  · rw [if_pos index, targets_ask, one]
    simp
  · rw [if_neg index, targets_ipfwdRemoveInterfaceForward removes, targets_ask, both, name]
    simp [different]
  · rw [if_neg index, targets_ipfwdRemoveInterfaceForward removes, targets_ask, one, name]
    by_cases empty : upstream = "" <;> simp [empty]

@[simp] theorem localRoutes_removeForwards :
    (removeForwards env iface upstream tunv4Iface tunv4Name netsys).localRoutes =
      netsys.localRoutes := by
  unfold removeForwards
  split <;> simp

@[simp] theorem localRoutes_addTunv4Forward :
    (addTunv4Forward env iface tunv4Iface netsys).1.localRoutes = netsys.localRoutes := by
  unfold addTunv4Forward
  split
  · rfl
  · dsimp only
    split <;> simp

theorem Bare.connect (removes : env.Removes) (bare : downstream.Bare)
    (only : netsys.targets downstream.machine.ifaceName = [downstream.machine.upstreamIfaceName])
    (routes : netsys.localRoutes = downstream.netsys.localRoutes) :
    let clat := addTunv4Forward env downstream.machine.ifaceName
      (tunv4 downstream.machine.upstreamIfaceName) netsys
    let connected : Downstream :=
      ⟨{ downstream.machine with tunv4UpstreamIfaceName := clat.2 }, (clat.1.ask env request).1⟩
    connected.Installed ∧ downstream.machine.upstreamIfaceName ∈ connected.targets := by
  intro clat connected
  have shape := addTunv4Forward_cases removes only
  have noRoute destination : connected.HasRoute destination →
      connected.machine.findDestinationAddr = some destination := by
    intro has
    have before : downstream.HasRoute destination :=
      has.before rfl (localRoutes_addTunv4Forward.trans routes)
    exact absurd before (bare.routes destination)
  obtain ⟨one, name, _⟩ | ⟨both, name, _⟩ | ⟨one, name, _⟩ := shape
  · have targets : connected.targets = [downstream.machine.upstreamIfaceName] := one
    refine ⟨⟨.inr name, .inr (.inl targets), noRoute⟩, ?_⟩
    simp [targets]
  · have targets : connected.targets = [downstream.machine.upstreamIfaceName,
        tunv4 downstream.machine.upstreamIfaceName] := both
    have notEmpty : clat.2 ≠ "" := name.trans_ne (tunv4_ne_empty _)
    refine ⟨⟨.inr name, .inr (.inr ⟨targets, notEmpty⟩), noRoute⟩, ?_⟩
    simp [targets]
  · have targets : connected.targets = [downstream.machine.upstreamIfaceName] := one
    refine ⟨⟨.inl name, .inr (.inl targets), noRoute⟩, ?_⟩
    simp [targets]

/-- `HandleConnection` from a bare downstream: all is installed, or it is bare
again. -/
theorem Bare.handleConnection (removes : env.Removes) (bare : downstream.Bare) :
    ((downstream.handleConnection env).2 = true →
      (downstream.handleConnection env).1.Installed ∧
        (downstream.handleConnection env).1.machine.upstreamIfaceName ∈
          (downstream.handleConnection env).1.targets) ∧
    ((downstream.handleConnection env).2 = false → (downstream.handleConnection env).1.Bare) := by
  have added := targets_ipfwdAddInterfaceForward env downstream.netsys
    downstream.machine.ifaceName downstream.machine.upstreamIfaceName
  rw [show downstream.netsys.targets _ = [] from bare.targets] at added
  unfold Downstream.handleConnection
  dsimp only
  split
  case isFalse refused =>
    rw [if_neg refused] at added
    refine ⟨by simp, fun _ => ⟨rfl, ?_, ?_⟩⟩
    · refine (targets_ipfwdRemoveInterfaceForward removes).trans ?_
      rw [added]
      rfl
    · exact fun destination has => bare.routes destination (has.before rfl (by simp))
  case isTrue ok =>
    rw [if_pos ok] at added
    split
    · exact ⟨fun _ => bare.connect removes added (by simp), by simp⟩
    · refine ⟨by simp, fun _ => ⟨rfl, targets_removeForwards removes added, ?_⟩⟩
      exact fun destination has => bare.routes destination (has.before rfl (by simp))

theorem Installed.addRoute (installed : downstream.Installed)
    (settings : after.machine.settings = downstream.machine.settings)
    (upstream : after.machine.upstreamIfaceName = downstream.machine.upstreamIfaceName)
    (tunv4Name : after.machine.tunv4UpstreamIfaceName = downstream.machine.tunv4UpstreamIfaceName)
    (targets : after.targets = downstream.targets)
    (routes : ∀ destination, after.HasRoute destination →
      downstream.HasRoute destination ∨ downstream.machine.findDestinationAddr = some destination) :
    after.Installed where
  tunv4Name := by
    rw [tunv4Name, upstream]
    exact installed.tunv4Name
  targets := by
    rw [targets, tunv4Name, upstream]
    exact installed.targets
  routes := by
    intro destination has
    rw [findDestinationAddr_congr settings]
    exact (routes destination has).elim (installed.routes destination) id

section

variable (env : Environment)

theorem startDhcp_keeps (downstream : Downstream) :
    (downstream.startDhcp env).machine = downstream.machine ∧
      (downstream.startDhcp env).targets = downstream.targets ∧
      (downstream.startDhcp env).netsys.localRoutes = downstream.netsys.localRoutes := by
  unfold startDhcp
  split
  · exact ⟨rfl, rfl, rfl⟩
  · split
    · exact ⟨rfl, rfl, rfl⟩
    · dsimp only
      split
      · exact ⟨rfl, rfl, rfl⟩
      · exact ⟨rfl, targets_startDhcpServer env _ _, localRoutes_startDhcpServer env _ _⟩

theorem Installed.configureShareDhcp (installed : downstream.Installed) :
    (downstream.configureShareDhcp env true).Installed ∧
      (downstream.configureShareDhcp env true).targets = downstream.targets ∧
      (downstream.configureShareDhcp env true).machine = downstream.machine := by
  unfold Downstream.configureShareDhcp
  rw [if_pos rfl]
  split
  · exact ⟨installed, rfl, rfl⟩
  · split
    · exact ⟨installed, rfl, rfl⟩
    · obtain ⟨machine, targets, routes⟩ := downstream.startDhcp_keeps env
      refine ⟨?_, targets, machine⟩
      refine installed.addRoute ?_ ?_ ?_ targets fun destination has => .inl (has.before ?_ routes)
      all_goals rw [machine]

theorem Installed.addRoutesToLocalNetwork (installed : downstream.Installed) :
    (downstream.addRoutesToLocalNetwork env).Installed ∧
      (downstream.addRoutesToLocalNetwork env).targets = downstream.targets ∧
      (downstream.addRoutesToLocalNetwork env).machine.upstreamIfaceName =
        downstream.machine.upstreamIfaceName := by
  unfold Downstream.addRoutesToLocalNetwork
  split
  · exact ⟨installed, rfl, rfl⟩
  next destination found =>
    split
    · exact ⟨installed, rfl, rfl⟩
    · have targets : (downstream.netsys.networkAddRoute env downstream.machine.ifaceName
          destination).1.targets downstream.machine.ifaceName = downstream.targets :=
        targets_networkAddRoute env _ _ _
      have routes other : (downstream.machine.ifaceName, other) ∈
          (downstream.netsys.networkAddRoute env downstream.machine.ifaceName
            destination).1.localRoutes → downstream.HasRoute other ∨
              downstream.machine.findDestinationAddr = some other := by
        intro member
        unfold Netsys.networkAddRoute at member
        split at member
        · obtain new | old := List.mem_insert_iff.mp member
          · rw [(Prod.mk.inj new).2]
            exact .inr found
          · exact .inl old
        · exact .inl member
      dsimp only
      split <;> exact ⟨installed.addRoute rfl rfl rfl targets routes, targets, rfl⟩

theorem Installed.configureShareIpv4 (installed : downstream.Installed) :
    (downstream.configureShareIpv4 env link).Installed ∧
      (downstream.configureShareIpv4 env link).targets = downstream.targets ∧
      (downstream.configureShareIpv4 env link).machine.upstreamIfaceName =
        downstream.machine.upstreamIfaceName := by
  unfold Downstream.configureShareIpv4
  split
  case isFalse => exact ⟨installed, rfl, rfl⟩
  case isTrue =>
    obtain ⟨routed, targets, upstream⟩ := installed.addRoutesToLocalNetwork env
    obtain ⟨served, sameTargets, sameMachine⟩ := routed.configureShareDhcp env
    exact ⟨served, sameTargets.trans targets,
      (congrArg SubStateMachine.upstreamIfaceName sameMachine).trans upstream⟩

end

theorem configureShareIpv4_of_none
    (none : link.netAddrList.any (·.family = netFamilyIpv4) = false) :
    downstream.configureShareIpv4 env link = downstream := by
  unfold configureShareIpv4
  rw [none]
  rfl

theorem configureShareIpv6_of_none
    (none : link.netAddrList.any (·.family = netFamilyIpv6) = false) :
    downstream.configureShareIpv6 env link = downstream := by
  have noPrefix : link.netAddrList.filter (·.family = netFamilyIpv6) = [] := by
    simpa using none
  unfold configureShareIpv6
  rw [noPrefix]
  rfl

end Downstream

end NetManager.Share
