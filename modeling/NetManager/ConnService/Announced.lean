import NetManager.ConnService.LinkRoutes
import NetManager.Library.Run

/-!
# Routes that netsys has

After an update netsys has exactly the routes of the new link information, in the table
of the network and in the local one, if and only if the update meets `Clean`: what is
removed is removed from both tables, and nothing is removed that stays.
-/

namespace NetManager.ConnService.Network

open List INetAddr

variable (getAddrFamily : String → AddrFamily)

/-- The routes of a list in the local table. -/
def localRoutes (network : Network) (routes : List Route) : List NetworkRouteInfo :=
  (routes.filter fun route => network.hasLocalRoute route).map (localRoute getAddrFamily)

/-- The routes of a list are those of the network's table and of the local table. -/
structure Announced (network : Network) (routes : List Route) : Prop where
  own : ∀ key, (network.netId, key) ∈ network.store ↔ key ∈ routes.map addedRoute
  loc : ∀ key, (localNetId, key) ∈ network.store ↔ key ∈ network.localRoutes getAddrFamily routes

/-! ## What an update removes and adds -/

section

variable (old new : NetLinkInfo)

/-- A remembered route whose family has no address in common with the new information. -/
def drops (route : Route) : Bool :=
  (route.destination.type = ipv4 && !hasSameAddr getAddrFamily old new .inet) ||
    (route.destination.type = ipv6 && !hasSameAddr getAddrFamily old new .inet6)

/-- The routes that `UpdateIpAddrs` removes. -/
def dropped : List Route :=
  old.routeList.filter fun route => drops getAddrFamily old new route

/-- The routes that it leaves. -/
def kept : List Route :=
  old.routeList.filter fun route => !drops getAddrFamily old new route

/-- The routes of these that `UpdateRoutes` removes. -/
def gone : List Route :=
  (kept getAddrFamily old new).filter fun route => !new.hasRoute route

/-- The routes that it adds. -/
def fresh : List Route :=
  new.routeList.filter fun route => !(kept getAddrFamily old new).contains route

/-- The routes that it leaves as they are. -/
def staying : List Route :=
  new.routeList.filter fun route => (kept getAddrFamily old new).contains route

end

variable {getAddrFamily} {network : Network} {routes : List Route} {netId : Int}

theorem removeRouteByFamily_eq (valid : ∀ route ∈ routes, isAddressValid route = true)
    (store : RouteStore) :
    removeRouteByFamily netId addrFamily routes store =
      some (routes.filter (fun route => route.destination.type ≠ addrFamily),
        Inventory.removeAll store ((routes.filter fun route =>
          route.destination.type = addrFamily).map fun route => (netId, removedRoute route))) := by
  induction routes generalizing store with
  | nil => rfl
  | cons route routes ih =>
    have rest := ih fun other member => valid other (mem_cons_of_mem route member)
    unfold removeRouteByFamily
    by_cases other : route.destination.type ≠ addrFamily
    · rw [if_pos other, rest, filter_cons_of_pos (by simpa using other),
        filter_cons_of_neg (by simpa using other)]
    · rw [if_neg other, if_neg (by simp [valid route mem_cons_self]), rest,
        filter_cons_of_neg (by simpa using other), filter_cons_of_pos (by simpa using other)]
      rfl

variable {route : Route}

/-- What two conditions take is what the second takes of the rest of the first. -/
theorem mem_filter_or_iff :
    route ∈ routes.filter (fun route => first route || second route) ↔ route ∈ routes.filter first ∨
        route ∈ (routes.filter fun route => !first route).filter second := by
  rw [mem_filter, mem_filter, mem_filter, mem_filter]
  cases first route <;> simp

section Remembered

variable (valid : ∀ route ∈ network.netLinkInfo.routeList, isAddressValid route = true)

include valid

/-- The routes of a family are removed unless an address of the family stays. -/
theorem removeRoutes_spec :
    ∃ store, (if same then some network else network.removeRoutes addrFamily) =
        some { network with
          netLinkInfo := { network.netLinkInfo with
            routeList := network.netLinkInfo.routeList.filter fun route =>
              !(route.destination.type = addrFamily && !same) }
          store := store } ∧
      ∀ pair, pair ∈ store ↔ pair ∈ network.store ∧
        pair ∉ (network.netLinkInfo.routeList.filter fun route =>
          route.destination.type = addrFamily && !same).map fun route =>
            (network.netId, removedRoute route) := by
  cases same with
  | true =>
    refine ⟨network.store, ?_, fun pair => ?_⟩
    · simp
    · simp
  | false =>
    refine ⟨_, ?_, fun pair => Inventory.mem_removeAll_iff⟩
    rw [removeRoutes, removeRouteByFamily_eq valid]
    simp

/-- `UpdateIpAddrs` drops routes from the table of the network and from the memory. -/
theorem updateIpAddrs_spec :
    ∃ store, updateIpAddrs getAddrFamily network new =
        some { network with
          netLinkInfo := { network.netLinkInfo with
            routeList := kept getAddrFamily network.netLinkInfo new }
          store := store } ∧
      ∀ pair, pair ∈ store ↔ pair ∈ network.store ∧
        pair ∉ (dropped getAddrFamily network.netLinkInfo new).map fun route =>
          (network.netId, removedRoute route) := by
  obtain ⟨middle, isMiddle, inMiddle⟩ := removeRoutes_spec valid
  generalize isNetwork : ({ network with
    netLinkInfo := { network.netLinkInfo with
      routeList := network.netLinkInfo.routeList.filter fun route =>
        !(route.destination.type = ipv4 &&
          !hasSameAddr getAddrFamily network.netLinkInfo new .inet) }
    store := middle } : Network) = between at isMiddle
  have validBetween : ∀ route ∈ between.netLinkInfo.routeList, isAddressValid route = true := by
    subst isNetwork
    exact fun route member => valid route (mem_of_mem_filter member)
  obtain ⟨store, isStore, inStore⟩ := removeRoutes_spec validBetween
  refine ⟨store, ?_, fun pair => ?_⟩
  · unfold updateIpAddrs
    dsimp only
    rw [isMiddle]
    dsimp only
    rw [isStore, ← isNetwork]
    dsimp only
    rw [filter_filter]
    congr 4
    funext route
    unfold drops
    rw [Bool.not_or, Bool.and_comm]
  · rw [inStore, ← isNetwork]
    rw [inMiddle]
    unfold dropped drops
    simp only [mem_map, mem_filter_or_iff, or_and_right, exists_or]
    rw [and_assoc, not_or]

end Remembered

/-! ## The routes after an update -/

section

variable (getAddrFamily : String → AddrFamily) (network : Network) (route : Route)

/-- The routes that are removed for one remembered route. -/
def removedPairs : RouteStore :=
  (network.netId, removedRoute route) ::
    if network.hasLocalRoute route then [(localNetId, localRoute getAddrFamily route)] else []

/-- The routes that are added for one new route. -/
def addedPairs : RouteStore :=
  (network.netId, addedRoute route) ::
    if network.hasLocalRoute route then [(localNetId, localRoute getAddrFamily route)] else []

end

theorem removeOldRoute_eq (valid : isAddressValid route = true)
    (store : RouteStore) :
    network.removeOldRoute getAddrFamily new store route =
      Inventory.removeAll store
        (if new.hasRoute route then [] else network.removedPairs getAddrFamily route) := by
  unfold removeOldRoute removedPairs
  by_cases present : new.hasRoute route
  · rw [if_pos present, if_pos present]
    rfl
  · rw [if_neg present, if_neg (by simp [valid])]
    split <;> rfl

theorem addNewRoute_eq (valid : isAddressValid route = true) (store : RouteStore) :
    network.addNewRoute getAddrFamily store route =
      Inventory.addAll store
        (if network.netLinkInfo.hasRoute route then []
          else network.addedPairs getAddrFamily route) := by
  unfold addNewRoute addedPairs
  by_cases present : network.netLinkInfo.hasRoute route
  · rw [if_pos present, if_pos present]
    rfl
  · rw [if_neg present, if_neg (by simp [valid])]
    split <;> rfl

theorem mem_foldl_removeOldRoute_iff
    (valid : ∀ route ∈ routes, isAddressValid route = true) (store : RouteStore) :
    pair ∈ routes.foldl (network.removeOldRoute getAddrFamily new) store ↔
      pair ∈ store ∧ ∀ route ∈ routes.filter (fun route => !new.hasRoute route),
        pair ∉ network.removedPairs getAddrFamily route := by
  rw [Inventory.mem_foldl_remove_iff fun route member => removeOldRoute_eq (valid route member)]
  refine and_congr_right fun _ => forall_congr' fun route => ?_
  rw [mem_filter]
  cases new.hasRoute route <;> simp

section Announcing

variable {new : NetLinkInfo} (valid : ∀ route ∈ new.routeList, isAddressValid route = true)

include valid

section

variable (store : RouteStore) (pair : Int × NetworkRouteInfo)

theorem mem_updateNewRoutes_iff :
    pair ∈ network.updateNewRoutes getAddrFamily new store ↔ pair ∈ store ∨
        ∃ route ∈ new.routeList.filter (fun route => !network.netLinkInfo.hasRoute route),
          pair ∈ network.addedPairs getAddrFamily route := by
  unfold updateNewRoutes
  rw [Inventory.mem_foldl_add_iff fun route member => addNewRoute_eq (valid route member)]
  refine or_congr_right (exists_congr fun route => ?_)
  rw [mem_filter]
  cases network.netLinkInfo.hasRoute route <;> simp

theorem mem_batchUpdateRoutes_iff :
    pair ∈ network.batchUpdateRoutes getAddrFamily new store ↔
      pair ∈ network.updateNewRoutes getAddrFamily new store := by
  have same : (new.routeList.filter fun route =>
      !network.netLinkInfo.hasRoute route && isAddressValid route) =
        new.routeList.filter fun route => !network.netLinkInfo.hasRoute route := by
    refine filter_congr fun route member => ?_
    rw [valid route member, Bool.and_true]
  unfold batchUpdateRoutes
  rw [mem_updateNewRoutes_iff valid, same, Inventory.mem_addAll_iff, Inventory.mem_addAll_iff,
    or_assoc]
  refine or_congr_right ?_
  generalize new.routeList.filter (fun route => !network.netLinkInfo.hasRoute route) = routes
  simp [addedPairs, and_or_left, exists_or, and_assoc, eq_comm (a := pair)]

end

variable (old : ∀ route ∈ network.netLinkInfo.routeList, isAddressValid route = true)

include old

theorem mem_updateRoutes_iff :
    pair ∈ (network.updateRoutes getAddrFamily new).store ↔
      (pair ∈ network.store ∧
        ∀ route ∈ network.netLinkInfo.routeList.filter (fun route => !new.hasRoute route),
          pair ∉ network.removedPairs getAddrFamily route) ∨
      ∃ route ∈ new.routeList.filter (fun route => !network.netLinkInfo.hasRoute route),
        pair ∈ network.addedPairs getAddrFamily route := by
  unfold updateRoutes
  split
  · rw [mem_batchUpdateRoutes_iff valid, mem_updateNewRoutes_iff valid,
      mem_foldl_removeOldRoute_iff old]
  · rw [mem_updateNewRoutes_iff valid, mem_foldl_removeOldRoute_iff old]

/-- `UpdateNetLinkInfo` returns, and this is what it does with the routes. -/
theorem updateNetLinkInfo_spec :
    ∃ store, updateNetLinkInfo getAddrFamily false network new =
        some { network with netLinkInfo := new, store := store } ∧
      ∀ pair, pair ∈ store ↔
        ((pair ∈ network.store ∧
          pair ∉ (dropped getAddrFamily network.netLinkInfo new).map fun route =>
            (network.netId, removedRoute route)) ∧
          ∀ route ∈ gone getAddrFamily network.netLinkInfo new,
            pair ∉ network.removedPairs getAddrFamily route) ∨
        ∃ route ∈ fresh getAddrFamily network.netLinkInfo new,
          pair ∈ network.addedPairs getAddrFamily route := by
  obtain ⟨middle, isMiddle, inMiddle⟩ := updateIpAddrs_spec old
  unfold updateNetLinkInfo
  rw [isMiddle]
  refine ⟨_, rfl, fun pair => ?_⟩
  rw [mem_updateRoutes_iff valid fun route member => old route (mem_of_mem_filter member)]
  rw [inMiddle]
  rfl

end Announcing

/-! ## The two tables -/

variable {key : NetworkRouteInfo}

section

variable (other : network.netId ≠ localNetId)

include other

theorem own_mem_pairs_iff :
    (network.netId, key) ∈ (network.netId, own) :: (if network.hasLocalRoute route then
      [(localNetId, localRoute getAddrFamily route)] else []) ↔ own = key := by
  split <;> simp [other, eq_comm]

theorem local_mem_pairs_iff :
    (localNetId, key) ∈ (network.netId, own) :: (if network.hasLocalRoute route then
      [(localNetId, localRoute getAddrFamily route)] else []) ↔
      network.hasLocalRoute route = true ∧ localRoute getAddrFamily route = key := by
  split
  next isLocal => simp [other.symm, isLocal, eq_comm]
  next notLocal => simp [other.symm, notLocal]

end

theorem mem_localRoutes_iff :
    key ∈ network.localRoutes getAddrFamily routes ↔
      ∃ route ∈ routes, network.hasLocalRoute route = true ∧
        localRoute getAddrFamily route = key := by
  unfold localRoutes
  simp [and_assoc]

section Tables

variable (getAddrFamily) {new : NetLinkInfo} (other : network.netId ≠ localNetId)
  (old : ∀ route ∈ network.netLinkInfo.routeList, isAddressValid route = true)
  (valid : ∀ route ∈ new.routeList, isAddressValid route = true)

include other old valid

theorem mem_tables_iff :
    ∃ store, updateNetLinkInfo getAddrFamily false network new =
        some { network with netLinkInfo := new, store := store } ∧
      (∀ key, (network.netId, key) ∈ store ↔
        ((network.netId, key) ∈ network.store ∧
          key ∉ (dropped getAddrFamily network.netLinkInfo new ++
            gone getAddrFamily network.netLinkInfo new).map removedRoute) ∨
        key ∈ (fresh getAddrFamily network.netLinkInfo new).map addedRoute) ∧
      ∀ key, (localNetId, key) ∈ store ↔
        ((localNetId, key) ∈ network.store ∧
          key ∉ network.localRoutes getAddrFamily (gone getAddrFamily network.netLinkInfo new)) ∨
        key ∈ network.localRoutes getAddrFamily (fresh getAddrFamily network.netLinkInfo new) := by
  obtain ⟨store, isStore, inStore⟩ := updateNetLinkInfo_spec valid old
  refine ⟨store, isStore, fun key => ?_, fun key => ?_⟩
  · rw [inStore]
    simp [removedPairs, addedPairs, own_mem_pairs_iff other, map_append, Prod.mk.injEq, and_assoc]
  · rw [inStore]
    simp [removedPairs, addedPairs, local_mem_pairs_iff other, mem_localRoutes_iff, other, and_true]

end Tables

/-! ## Updates that leave the announced routes -/

/-- The condition on an update: `old` is remembered and `new` comes. -/
@[mk_iff]
structure Clean (getAddrFamily : String → AddrFamily) (network : Network)
    (old new : NetLinkInfo) : Prop where
  excluded : ∀ route ∈ old.routeList, route.isExcludedRoute = true →
    addedRoute route ∈ new.routeList.map addedRoute
  own : ∀ route ∈ staying getAddrFamily old new,
    addedRoute route ∈ (dropped getAddrFamily old new ++
      gone getAddrFamily old new).map removedRoute →
    addedRoute route ∈ (fresh getAddrFamily old new).map addedRoute
  lost : ∀ key ∈ network.localRoutes getAddrFamily (dropped getAddrFamily old new),
    key ∈ network.localRoutes getAddrFamily new.routeList ∨
      key ∈ network.localRoutes getAddrFamily (gone getAddrFamily old new)
  loc : ∀ key ∈ network.localRoutes getAddrFamily (staying getAddrFamily old new),
    key ∈ network.localRoutes getAddrFamily (gone getAddrFamily old new) →
    key ∈ network.localRoutes getAddrFamily (fresh getAddrFamily old new)

section Lists

variable {old new : NetLinkInfo} {route : Route}

theorem mem_dropped_or_kept :
    route ∈ old.routeList ↔
      route ∈ dropped getAddrFamily old new ∨ route ∈ kept getAddrFamily old new := by
  unfold dropped kept
  rw [mem_filter, mem_filter]
  cases drops getAddrFamily old new route <;> simp

theorem mem_gone_or_staying (member : route ∈ kept getAddrFamily old new) :
    route ∈ gone getAddrFamily old new ∨ route ∈ staying getAddrFamily old new := by
  unfold gone staying
  rw [mem_filter, mem_filter]
  by_cases present : route ∈ new.routeList
  · exact .inr ⟨present, contains_iff_mem.mpr member⟩
  · refine .inl ⟨member, ?_⟩
    unfold NetLinkInfo.hasRoute
    rw [Bool.not_eq_true', contains_eq_mem, decide_eq_false present]

theorem mem_new_iff {f : List Route → List NetworkRouteInfo} {p : NetworkRouteInfo → Route → Prop}
    (mem_iff : ∀ {key routes}, key ∈ f routes ↔ ∃ route ∈ routes, p key route) :
    key ∈ f new.routeList ↔
      key ∈ f (staying getAddrFamily old new) ∨ key ∈ f (fresh getAddrFamily old new) := by
  unfold staying fresh
  rw [mem_iff, mem_iff, mem_iff, ← exists_or]
  refine exists_congr fun route => ?_
  rw [mem_filter, mem_filter]
  cases (kept getAddrFamily old new).contains route <;> simp

theorem mem_of_staying (member : route ∈ staying getAddrFamily old new) :
    route ∈ new.routeList ∧ route ∈ old.routeList := by
  obtain ⟨isNew, isKept⟩ := mem_filter.mp member
  exact ⟨isNew, mem_dropped_or_kept.mpr (.inr (contains_iff_mem.mp isKept))⟩

theorem mem_new_of_not_removed (member : route ∈ old.routeList)
    (notDropped : route ∉ dropped getAddrFamily old new)
    (notGone : route ∉ gone getAddrFamily old new) : route ∈ new.routeList := by
  have isKept := (mem_dropped_or_kept.mp member).resolve_left notDropped
  exact (mem_of_staying ((mem_gone_or_staying isKept).resolve_left notGone)).1

end Lists

theorem removedRoute_eq (included : route.isExcludedRoute = false) :
    removedRoute route = addedRoute route := by
  unfold removedRoute addedRoute
  rw [included]

theorem removedRoute_ne (excluded : route.isExcludedRoute = true) :
    removedRoute other ≠ addedRoute route := by
  intro same
  have flag := congrArg NetworkRouteInfo.isExcludedRoute same
  unfold removedRoute addedRoute at flag
  rw [excluded] at flag
  cases flag

/-- An update of a network whose routes are announced leaves the new ones announced if and
only if it is clean. -/
theorem announced_update_iff {new : NetLinkInfo} (other : network.netId ≠ localNetId)
    (old : ∀ route ∈ network.netLinkInfo.routeList, isAddressValid route = true)
    (valid : ∀ route ∈ new.routeList, isAddressValid route = true)
    (before : Announced getAddrFamily network network.netLinkInfo.routeList) :
    ∃ store, updateNetLinkInfo getAddrFamily false network new =
        some { network with netLinkInfo := new, store := store } ∧
      (Announced getAddrFamily { network with netLinkInfo := new, store := store }
        new.routeList ↔ Clean getAddrFamily network network.netLinkInfo new) := by
  obtain ⟨store, isStore, own, loc⟩ := mem_tables_iff getAddrFamily other old valid
  have ownIff := Inventory.forall_after_iff before.own own (fun key => mem_new_iff mem_map)
    (forall_mem_map.mpr fun route member => mem_map_of_mem (mem_of_staying member).2)
  have locIff := Inventory.forall_after_iff before.loc loc
    (fun key => mem_new_iff mem_localRoutes_iff) fun key stays => by
      obtain ⟨route, member, is⟩ := mem_localRoutes_iff.mp stays
      exact mem_localRoutes_iff.mpr ⟨route, (mem_of_staying member).2, is⟩
  refine ⟨store, isStore, fun announced => ?_, fun clean =>
    ⟨ownIff.mpr ⟨?_, ?_⟩, locIff.mpr ⟨?_, clean.loc⟩⟩⟩
  · obtain ⟨ownLeft, isOwn⟩ := ownIff.mp announced.own
    obtain ⟨locLeft, isLoc⟩ := locIff.mp announced.loc
    refine ⟨fun route member excluded => ?_, fun route stays => isOwn _ (mem_map_of_mem stays),
      fun key isDropped => ?_, isLoc⟩
    · refine ownLeft _ (mem_map_of_mem member) fun removed => ?_
      obtain ⟨removedOne, -, same⟩ := mem_map.mp removed
      exact removedRoute_ne excluded same
    · obtain ⟨route, member, is⟩ := mem_localRoutes_iff.mp isDropped
      refine or_iff_not_imp_right.mpr (locLeft key (mem_localRoutes_iff.mpr ⟨route, ?_, is⟩))
      exact mem_dropped_or_kept.mpr (.inl member)
  · intro key isOld notRemoved
    obtain ⟨route, member, rfl⟩ := mem_map.mp isOld
    cases flag : route.isExcludedRoute with
    | true => exact clean.excluded route member flag
    | false =>
      -- a route that is removed takes its own key with it
      have notGone : route ∉ dropped getAddrFamily network.netLinkInfo new ++
          gone getAddrFamily network.netLinkInfo new := fun isRemoved =>
        notRemoved (mem_map.mpr ⟨route, isRemoved, removedRoute_eq flag⟩)
      rw [mem_append, not_or] at notGone
      exact mem_map_of_mem (mem_new_of_not_removed member notGone.1 notGone.2)
  · exact forall_mem_map.mpr clean.own
  · intro key isOld notGone
    obtain ⟨route, member, is⟩ := mem_localRoutes_iff.mp isOld
    by_cases isDropped : route ∈ dropped getAddrFamily network.netLinkInfo new
    · exact (clean.lost key (mem_localRoutes_iff.mpr ⟨route, isDropped, is⟩)).resolve_right notGone
    · refine mem_localRoutes_iff.mpr
        ⟨route, mem_new_of_not_removed member isDropped fun isGone => ?_, is⟩
      exact notGone (mem_localRoutes_iff.mpr ⟨route, isGone, is⟩)

/-! ## Runs -/

/-- The network after an update. -/
def step (getAddrFamily : String → AddrFamily) (network : Network) (new : NetLinkInfo) : Network :=
  (updateNetLinkInfo getAddrFamily false network new).getD network

/-- The condition on an update: the addresses of routes are not too long, and it is
clean. -/
@[mk_iff]
structure Permitted (getAddrFamily : String → AddrFamily) (network : Network)
    (new : NetLinkInfo) : Prop where
  valid : ∀ route ∈ new.routeList, isAddressValid route = true
  clean : Clean getAddrFamily network network.netLinkInfo new

/-- A network that was created and has internet capability. -/
def created (netId : Int) : Network where
  netId := netId
  isPhyNetCreated := true
  isSupportInternet := true

/-- Routes are announced, and their addresses are not too long. -/
structure Settled (getAddrFamily : String → AddrFamily) (netId : Int) (network : Network) :
    Prop where
  netId : network.netId = netId
  isCreated : network.isPhyNetCreated = true
  notVpn : network.isVpn = false
  valid : ∀ route ∈ network.netLinkInfo.routeList, isAddressValid route = true
  announced : Announced getAddrFamily network network.netLinkInfo.routeList

theorem Settled.update (other : netId ≠ localNetId) (settled : Settled getAddrFamily netId network)
    (permitted : Permitted getAddrFamily network new) :
    ∃ after, updateNetLinkInfo getAddrFamily false network new = some after ∧
      after.netLinkInfo = new ∧ Settled getAddrFamily netId after := by
  have notLocal : network.netId ≠ localNetId := settled.netId ▸ other
  obtain ⟨store, isAfter, iff⟩ := announced_update_iff notLocal settled.valid permitted.valid
    settled.announced
  exact ⟨_, isAfter, rfl, settled.netId, settled.isCreated, settled.notVpn, permitted.valid,
    iff.mpr permitted.clean⟩

theorem Settled.created : Settled getAddrFamily netId (created netId) := by
  refine ⟨rfl, rfl, rfl, nofun, ?_, ?_⟩
  · exact fun key => iff_of_false not_mem_nil not_mem_nil
  · exact fun key => iff_of_false not_mem_nil not_mem_nil

/-! ## Release -/

theorem mem_released_iff (isCreated : network.isPhyNetCreated = true)
    (notVpn : network.isVpn = false)
    (valid : ∀ route ∈ network.netLinkInfo.routeList, isAddressValid route = true) :
    pair ∈ (releaseBasicNetwork getAddrFamily false network).store ↔ pair ∈ network.store ∧
        ∀ route ∈ network.netLinkInfo.routeList,
          pair ∉ network.removedPairs getAddrFamily route := by
  have locals : ∀ route ∈ network.netLinkInfo.routeList, ∀ store,
      releaseLocalRoute getAddrFamily store route = Inventory.removeAll store
        (if network.hasLocalRoute route then [(localNetId, localRoute getAddrFamily route)]
          else []) := by
    intro route member store
    unfold releaseLocalRoute hasLocalRoute
    rw [valid route member, notVpn]
    by_cases isLocal : route.destination.address ≠ localRouteNextHop ∧
        route.destination.address ≠ localRouteIpv6Destination
    · rw [if_pos isLocal, if_neg (by simp), if_pos (by simpa using isLocal)]
      rfl
    · rw [if_neg isLocal, if_neg (by simpa using isLocal)]
      rfl
  have owns : ∀ route ∈ network.netLinkInfo.routeList, ∀ store,
      releaseRoute network.netId store route =
        Inventory.removeAll store [(network.netId, removedRoute route)] := by
    intro route member store
    unfold releaseRoute
    rw [valid route member]
    rfl
  unfold releaseBasicNetwork
  rw [isCreated, if_neg (by simp)]
  dsimp only
  rw [Bool.not_false, Bool.true_or, if_pos rfl]
  rw [Inventory.mem_foldl_remove_iff owns, Inventory.mem_foldl_remove_iff locals, and_assoc,
    ← forall_and]
  refine and_congr_right fun _ => forall_congr' fun route => ?_
  rw [← imp_and]
  unfold removedPairs
  rw [mem_singleton, mem_cons, not_or, and_comm]

/-- A release leaves no route if and only if no announced route is excluded. -/
theorem released_iff (other : network.netId ≠ localNetId)
    (isCreated : network.isPhyNetCreated = true) (notVpn : network.isVpn = false)
    (valid : ∀ route ∈ network.netLinkInfo.routeList, isAddressValid route = true)
    (announced : Announced getAddrFamily network network.netLinkInfo.routeList) :
    (∀ key, (network.netId, key) ∉ (releaseBasicNetwork getAddrFamily false network).store ∧
        (localNetId, key) ∉ (releaseBasicNetwork getAddrFamily false network).store) ↔
      ∀ route ∈ network.netLinkInfo.routeList, route.isExcludedRoute = false := by
  constructor
  · intro nothing route member
    cases flag : route.isExcludedRoute with
    | false => rfl
    | true =>
      refine absurd ((mem_released_iff isCreated notVpn valid).mpr
        ⟨(announced.own _).mpr (mem_map_of_mem member), fun removed _ isRemoved => ?_⟩)
        (nothing (addedRoute route)).1
      exact removedRoute_ne flag ((own_mem_pairs_iff other).mp isRemoved)
  · intro included key
    constructor
    · intro left
      obtain ⟨present, notRemoved⟩ := (mem_released_iff isCreated notVpn valid).mp left
      obtain ⟨route, member, rfl⟩ := mem_map.mp ((announced.own key).mp present)
      exact notRemoved route member ((own_mem_pairs_iff other).mpr
        (removedRoute_eq (included route member)))
    · intro left
      obtain ⟨present, notRemoved⟩ := (mem_released_iff isCreated notVpn valid).mp left
      obtain ⟨route, member, is⟩ := mem_localRoutes_iff.mp ((announced.loc key).mp present)
      exact notRemoved route member ((local_mem_pairs_iff other).mpr is)

/-! ## Whole runs -/

/-- In every network that clean updates lead to, netsys has the announced routes; a next
update keeps that if and only if it is clean, and a release leaves nothing if and only if
no announced route is excluded. -/
theorem announced_of_reach (getAddrFamily : String → AddrFamily) {netId : Int}
    (other : netId ≠ localNetId) {network : Network}
    (reach : Run.Reach (step getAddrFamily) (Permitted getAddrFamily) (created netId) network) :
    Announced getAddrFamily network network.netLinkInfo.routeList ∧
      (∀ new, (∀ route ∈ new.routeList, isAddressValid route = true) →
        ∃ after, updateNetLinkInfo getAddrFamily false network new = some after ∧
          (Announced getAddrFamily after new.routeList ↔
            Clean getAddrFamily network network.netLinkInfo new)) ∧
      ((∀ key, (netId, key) ∉ (releaseBasicNetwork getAddrFamily false network).store ∧
          (localNetId, key) ∉ (releaseBasicNetwork getAddrFamily false network).store) ↔
        ∀ route ∈ network.netLinkInfo.routeList, route.isExcludedRoute = false) := by
  have settled : Settled getAddrFamily netId network := by
    refine reach.invariant Settled.created fun before new settled permitted => ?_
    obtain ⟨after, isAfter, -, settledAfter⟩ := settled.update other permitted
    unfold step
    rw [isAfter]
    exact settledAfter
  obtain ⟨rfl, isCreated, notVpn, valid, announced⟩ := settled
  refine ⟨announced, fun new validNew => ?_, released_iff other isCreated notVpn valid announced⟩
  obtain ⟨store, isAfter, iff⟩ := announced_update_iff other valid validNew announced
  exact ⟨_, isAfter, iff⟩

instance (getAddrFamily : String → AddrFamily) (network : Network) (old new : NetLinkInfo) :
    Decidable (Clean getAddrFamily network old new) :=
  decidable_of_iff _ (clean_iff getAddrFamily network old new).symm

instance (getAddrFamily : String → AddrFamily) (network : Network) (new : NetLinkInfo) :
    Decidable (Permitted getAddrFamily network new) :=
  decidable_of_iff _ (permitted_iff getAddrFamily network new).symm

/-- A route to a network behind the link. -/
def linkRoute (address : String) : Route where
  iface := "wlan0"
  destination := { type := ipv4, address := address, prefixlen := 24 }
  gateway := { address := "10.0.0.1" }

/-- Link information with routes and addresses. -/
def linkInfo (addresses destinations : List String) : NetLinkInfo where
  ifaceName := "wlan0"
  netAddrList := addresses.map fun address => { type := ipv4, address := address }
  routeList := destinations.map linkRoute

/-- A route is replaced by another one while an address stays. -/
theorem announced_replaced :
    let network := [linkInfo ["10.0.0.2"] ["10.0.0.0"], linkInfo ["10.0.0.2"] ["10.1.0.0"]].foldl
      (step fun _ => .inet) (created 100)
    Announced (fun _ => .inet) network [linkRoute "10.1.0.0"] ∧
      (∀ route ∈ network.netLinkInfo.routeList, route.isExcludedRoute = false) ∧
      ∀ key, (100, key) ∉ (releaseBasicNetwork (fun _ => .inet) false network).store ∧
        (localNetId, key) ∉ (releaseBasicNetwork (fun _ => .inet) false network).store := by
  obtain ⟨announced, -, released⟩ := announced_of_reach (fun _ => .inet)
    (by decide : (100 : Int) ≠ localNetId)
    (Run.Reach.start.foldl [linkInfo ["10.0.0.2"] ["10.0.0.0"], linkInfo ["10.0.0.2"] ["10.1.0.0"]]
      (by decide +kernel))
  have included : ∀ route ∈ [linkRoute "10.1.0.0"], route.isExcludedRoute = false := by decide
  exact ⟨announced, included, released.mpr included⟩

/-- A route goes with the last address of its family: its copy in the local table stays
there, after a release too. -/
theorem not_announced_dropped :
    let network := [linkInfo ["10.0.0.2"] ["10.0.0.0"], linkInfo [] []].foldl
      (step fun _ => .inet) (created 100)
    let key : NetworkRouteInfo := ⟨"wlan0", "10.0.0.0/24", "0.0.0.0", false⟩
    isAddressValid (linkRoute "10.0.0.0") = true ∧ network.netLinkInfo.routeList = [] ∧
      (localNetId, key) ∈ network.store ∧
      ¬ Announced (fun _ => .inet) network network.netLinkInfo.routeList ∧
      (localNetId, key) ∈ (releaseBasicNetwork (fun _ => .inet) false network).store := by
  intro network key
  have present : (localNetId, key) ∈ network.store := by decide +kernel
  have nothing : network.netLinkInfo.routeList = [] := by decide +kernel
  refine ⟨by decide +kernel, nothing, present, fun announced => ?_, by decide +kernel⟩
  exact absurd ((announced.loc key).mp present) not_mem_nil

end NetManager.ConnService.Network
