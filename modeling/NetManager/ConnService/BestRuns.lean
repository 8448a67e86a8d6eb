import NetManager.ConnService.BestNetwork

/-!
# Every request has its best network in every run

Each event keeps the lists of best requests and the requests in step, as long as a new
request gets an id that no other request has. At the end is a run in which the counter of
ids goes around and two requests get the same one.
-/

namespace NetManager.ConnService.NetConnService

open List

/-! ## Suppliers -/

section Suppliers

variable {start service : NetConnService} (evolves : Evolves start service)

section

include evolves

/-- Fields other than suppliers, requests and counters do not matter. -/
theorem Evolves.congr {after : NetConnService}
    (activates : after.netUidActivates = service.netUidActivates)
    (tally : after.tally = service.tally) (suppliers : after.suppliers = service.suppliers) :
    Evolves start after := by
  apply evolves.change activates tally
  intro number
  unfold bestRequests
  rw [suppliers]

theorem Evolves.ite [Decidable condition] (otherwise : Evolves start other) :
    Evolves start (if condition then service else other) := by
  split
  · exact evolves
  · exact otherwise

theorem Evolves.modifySupplier (number : Nat) (change : NetSupplier → NetSupplier)
    (same : (change (service.suppliers number)).bestReqList = service.bestRequests number) :
    Evolves start (service.modifySupplier number change) := by
  refine evolves.change rfl rfl fun other => ?_
  rw [bestRequests_modifySupplier]
  split
  next equal => rw [same, equal]
  · exact Finset.Subset.refl _

theorem Evolves.requestToConnect (condition : NetSupplier → Bool) :
    Evolves start (service.modifySupplier number fun supplier =>
      if condition supplier then supplier.requestToConnect reqId isControlled else supplier) := by
  apply evolves.modifySupplier
  split
  · exact NetSupplier.bestReqList_requestToConnect _ _ _
  · rfl

end

theorem bestReqList_setNetValid (supplier : NetSupplier) :
    (supplier.setNetValid netState).bestReqList = supplier.bestReqList := by
  cases netState <;> rfl

theorem bestReqList_setReuseCap (supplier : NetSupplier) :
    (supplier.setReuseCap reuseCap add).bestReqList = supplier.bestReqList := by
  cases reuseCap <;> rfl

theorem bestReqList_initNetScore (supplier : NetSupplier) :
    supplier.initNetScore.bestReqList = supplier.bestReqList := by
  unfold NetSupplier.initNetScore
  split <;> rfl

include evolves

theorem Evolves.registerNetSupplierCallback :
    Evolves start (service.registerNetSupplierCallbackAsync supplierId) := by
  unfold registerNetSupplierCallbackAsync
  split
  · exact evolves
  · exact List.foldlRecOn (motive := Evolves start) _ _ evolves
      fun _ before entry _ => before.requestToConnect _

theorem Evolves.requestAllNetworkExceptDefault :
    Evolves start service.requestAllNetworkExceptDefault := by
  unfold NetConnService.requestAllNetworkExceptDefault
  split
  · exact evolves
  dsimp only
  split
  · exact evolves
  split
  · exact evolves
  · apply eachSupplier_invariant (Evolves start) evolves
    intro after number before
    apply before.modifySupplier
    split_ifs
    all_goals first | rfl | exact NetSupplier.bestReqList_requestToConnect _ _ _

theorem Evolves.unregisterNetSupplier :
    Evolves start (service.unregisterNetSupplierAsync supplierId) := by
  unfold unregisterNetSupplierAsync
  split
  · exact evolves
  next number _ =>
    have left : Evolves start (service.makeDefaultNetWork none) := evolves.congr rfl rfl rfl
    apply Evolves.findBest
    exact ((left.ite evolves).modifySupplier number (·.updateNetSupplierInfo {}) rfl).congr
      rfl rfl rfl

theorem Evolves.stopNotifyLostDelay : Evolves start (service.stopNotifyLostDelay netId) := by
  apply Evolves.handleNotifyLostDelay
  exact evolves.congr rfl rfl rfl

section

variable (supplierId : UInt32)

include supplierId

theorem Evolves.updateNetSupplierInfo :
    Evolves start (service.updateNetSupplierInfoAsync supplierId info) := by
  unfold updateNetSupplierInfoAsync
  split
  · exact evolves
  next number _ =>
    have updated := evolves.modifySupplier number (·.updateNetSupplierInfo info) rfl
    suffices told : Evolves start _ from
      ((told.modifySupplier number _ (bestReqList_initNetScore _)).ite told).findBest
    split
    · refine Evolves.modifySupplier ?_ number (·.resetNetSupplier) rfl
      unfold handleSupplierNotAvailable
      dsimp only
      split_ifs
      all_goals exact updated.congr rfl rfl rfl
    · exact updated.stopNotifyLostDelay.callbackForSupplier number .updateCap

theorem Evolves.handlePreFindBestNetworkForDelay
    (number : Nat) (isFirstTimeDetect isNeedDelay : Bool) :
    Evolves start (service.handlePreFindBestNetworkForDelay supplierId number isFirstTimeDetect
      isNeedDelay) := by
  unfold NetConnService.handlePreFindBestNetworkForDelay
  split_ifs
  all_goals exact evolves.congr rfl rfl rfl

theorem Evolves.updateNetLinkInfo :
    Evolves start (service.updateNetLinkInfoAsync supplierId updated isNeedDelay) := by
  unfold updateNetLinkInfoAsync
  split
  · exact evolves
  split
  · exact evolves
  next number _ _ supplier linked =>
    have same : supplier.bestReqList = service.bestRequests number := by
      unfold NetSupplier.updateNetLinkInfo at linked
      split_ifs at linked
      rw [← Option.some.inj linked]
      rfl
    have told := ((evolves.modifySupplier number (fun _ => supplier) same).callbackForSupplier
      number .updateLink).handlePreFindBestNetworkForDelay supplierId number
    exact (told _ _).ite (told _ _).findBest

theorem Evolves.updateNetCaps : Evolves start (service.updateNetCapsAsync supplierId netCaps) := by
  unfold updateNetCapsAsync
  split
  · exact evolves
  · refine (Evolves.callbackForSupplier ?_ _ _).findBest
    exact (evolves.modifySupplier _ _ rfl).ite evolves

theorem Evolves.detectionResult (netState : NetDetectionStatus) :
    Evolves start (service.handleDetectionResult supplierId netState isNeedDelay) := by
  unfold handleDetectionResult
  split
  · exact evolves
  next number _ =>
    have told := (evolves.modifySupplier number
      (fun supplier => (supplier.setNetValid netState).setDetectionDone)
      (bestReqList_setNetValid _)).callbackForSupplier number .updateCap
    -- the search and the requests may each follow or not
    suffices chosen : Evolves start _ from chosen.requestAllNetworkExceptDefault.ite chosen
    suffices first : Evolves start _ from first.ite first.findBest
    split_ifs
    · exact told.congr rfl rfl rfl
    · exact told.handlePreFindBestNetworkForDelay _ _ _ _
    · exact told

end

theorem Evolves.findBestNetworkForDelay :
    Evolves start (service.handleFindBestNetworkForDelay isNeedDelay) := by
  have begun : Evolves start { service with isDelayHandleFindBestNetwork := false } :=
    evolves.congr rfl rfl rfl
  unfold handleFindBestNetworkForDelay
  split
  · exact evolves
  · have finish : ∀ after : NetConnService, Evolves start after →
        Evolves start { after with delaySupplierId := 0 } := fun _ before => before.congr rfl rfl rfl
    apply finish
    split
    · exact begun
    · exact (begun.detectionResult _ _).ite begun

theorem Evolves.updateSupplierScore (supplierId : UInt32) :
    Evolves start (service.updateSupplierScoreAsync supplierId state) := by
  unfold updateSupplierScoreAsync
  split
  · exact evolves
  next number _ =>
    have begun : Evolves start service.removeDelayNetwork := evolves.congr rfl rfl rfl
    have scored := (begun.modifySupplier number (·.setNetValid state)
      (bestReqList_setNetValid _)).findBest
    exact scored.requestAllNetworkExceptDefault.ite scored

theorem Evolves.setReuseSupplierId (supplierId reuseSupplierId : UInt32) (isReused : Bool)
    (unset : Option NetCap) :
    Evolves start (service.setReuseSupplierId supplierId reuseSupplierId isReused unset) := by
  suffices changed : Evolves start _ from changed.findBest.ite changed
  split
  · exact evolves
  · exact evolves.modifySupplier _ _ (bestReqList_setReuseCap _)

end Suppliers

/-- Events that register no supplier and neither register nor unregister a request. -/
def Event.isOrdinary : Event → Bool
  | .registerNetSupplier _ _ _ | .registerNetConnCallback _ _ | .requestNetConnection _
  | .unregisterNetConnCallback _ => false
  | _ => true

theorem evolves_handle (service : NetConnService) (ordinary : event.isOrdinary) :
    Evolves service (service.handle event) := by
  have evolves : Evolves service service := .refl
  cases event with
  | registerNetSupplier | registerNetConnCallback | requestNetConnection
  | unregisterNetConnCallback => cases ordinary
  | registerNetSupplierCallback => exact evolves.registerNetSupplierCallback
  | unregisterNetSupplier => exact evolves.unregisterNetSupplier
  | updateNetSupplierInfo => exact evolves.updateNetSupplierInfo _
  | updateNetLinkInfo => exact evolves.updateNetLinkInfo _
  | updateNetCaps => exact evolves.updateNetCaps _
  | detectionResult => exact evolves.detectionResult _ _
  | findBestNetworkForDelay => exact evolves.findBestNetworkForDelay
  | updateSupplierScore => exact evolves.updateSupplierScore _
  | recoverNetSys =>
    have left : Evolves service (service.makeDefaultNetWork none) := evolves.congr rfl rfl rfl
    exact left.findBest
  | setReuseSupplierId => exact evolves.setReuseSupplierId _ _ _ _
  | timeOutNetAvailable => exact evolves.timeOutNetAvailable
  | updateNetRequestControlState => exact evolves.updateNetRequestControlState _
  | setAppIsFrozened => exact evolves.setAppIsFrozened _
  | enableAppFrozenedCallbackLimitation | foreground | updateUidLostDelay =>
    exact evolves.congr rfl rfl rfl
  | notifyLostDelay netId =>
    dsimp only [handle]
    split
    · apply Evolves.handleNotifyLostDelay
      exact evolves.congr rfl rfl rfl
    · exact evolves

/-! ## Requests -/

theorem perm_insertActivate :
    (insertActivate uid activate entries).Perm ((uid, activate) :: entries) := by
  induction entries with
  | nil => exact List.Perm.refl _
  | cons entry entries ih =>
    unfold insertActivate
    split
    · exact List.Perm.refl _
    · exact (ih.cons entry).trans (List.Perm.swap _ _ _)

variable {uid : UInt32}

theorem perm_decreaseNetActivates
    (decreased : decreaseNetActivates uid callback entries = some (left, some found)) :
    entries.Perm ((uid, found) :: left) ∧ found.netConnCallback = some callback := by
  induction entries generalizing left with
  | nil => exact absurd decreased (by simp [decreaseNetActivates])
  | cons entry entries ih =>
    have later rest : decreaseNetActivates uid callback entries = some (rest, some found) →
        (entry :: entries).Perm ((uid, found) :: entry :: rest) ∧
          found.netConnCallback = some callback := by
      intro equal
      obtain ⟨perm, own⟩ := ih equal
      exact ⟨(perm.cons entry).trans (List.Perm.swap _ _ _), own⟩
    unfold decreaseNetActivates at decreased
    split at decreased
    next other =>
      split at decreased
      · cases decreased
      · cases decreased
        exact later _ ‹_›
    next same =>
      have key : entry.1 = uid := not_not.mp same
      split at decreased
      · cases decreased
      · split at decreased
        next own =>
          cases decreased
          rw [← key]
          exact ⟨List.Perm.refl _, own ▸ ‹_›⟩
        · split at decreased
          · cases decreased
          · cases decreased
            exact later _ ‹_›

theorem activateNetwork_spec (service : NetConnService) (registration : Registration) :
    ∃ request : NetActivate,
      (service.activateNetwork registration).netUidActivates =
          insertActivate registration.callingUid request service.netUidActivates ∧
        request.requestId = service.nextRequestId ∧ request.isDefault = false ∧
        ∀ number, (service.activateNetwork registration).bestRequests number =
          if request.netServiceSupplied = some number then
            insert service.nextRequestId (service.bestRequests number)
          else service.bestRequests number := by
  unfold activateNetwork
  extract_lets request renewed
  dsimp only
  split
  next best _ =>
    obtain ⟨core, sent, equal⟩ := callbackForAvailable_spec
      (renewed.modifySupplier best (·.selectAsBestNetwork request.requestId request.isControlled))
      best { request with netServiceSupplied := some best }
    have kept := NetActivate.Keeps.of_core core
    refine ⟨_, ?_, kept.requestId, kept.isDefault, fun number => ?_⟩
    · rw [equal]
      rfl
    · have supplied : _ = some best := kept.supplied
      rw [equal, supplied]
      refine (service.bestRequests_modifySupplier_some best number
        (·.selectAsBestNetwork service.nextRequestId registration.isControlled)).trans ?_
      rw [NetSupplier.bestReqList_selectAsBestNetwork]
      rfl
  · generalize told : (if registration.timeoutMS = 0 then _ else _ :
      NetActivate × NetConnService) = result
    have core : result.1.core = request.core ∧
        ∃ sent, result.2 = { renewed with sent := sent } := by
      rw [← told]
      split
      · exact notify_spec _ _ _ _
      · exact ⟨rfl, service.sent, rfl⟩
    obtain ⟨core, sent, equal⟩ := core
    obtain ⟨-, -, -, activates, lists⟩ := result.2.quiet_sendRequestToAllNetwork result.1
    have kept := NetActivate.Keeps.of_core core
    have supplied : result.1.netServiceSupplied = none := kept.supplied
    refine ⟨result.1, ?_, kept.requestId, kept.isDefault, fun number => ?_⟩
    · rw [activates, equal]
    · rw [supplied]
      refine Eq.trans (lists number) ?_
      rw [equal]
      rfl

variable {service : NetConnService}

theorem Consistent.activateNetwork (consistent : service.Consistent)
    (fresh : ∀ entry ∈ service.netUidActivates, entry.2.requestId ≠ service.nextRequestId) :
    (service.activateNetwork registration).Consistent := by
  obtain ⟨request, activates, reqId, notDefault, lists⟩ := service.activateNetwork_spec registration
  have perm : (service.activateNetwork registration).netUidActivates.Perm
      ((registration.callingUid, request) :: service.netUidActivates) := by
    rw [activates]
    exact perm_insertActivate
  have ids : (requestIds (service.activateNetwork registration).netUidActivates).Perm
      (service.nextRequestId :: requestIds service.netUidActivates) := by
    rw [← reqId]
    exact perm.map _
  have unused : service.nextRequestId ∉ requestIds service.netUidActivates := by
    intro member
    obtain ⟨entry, found, same⟩ := mem_map.mp member
    exact fresh entry found same
  have listed : ∀ {other number}, other ∈ (service.activateNetwork registration).bestRequests number →
      other ≠ service.nextRequestId → other ∈ service.bestRequests number := by
    intro other number member different
    rw [lists] at member
    split at member
    · exact Finset.mem_of_mem_insert_of_ne member different
    · exact member
  refine ⟨ids.nodup_iff.mpr (nodup_cons.mpr ⟨unused, consistent.distinct⟩),
    fun entry member => ?_, fun number other member => ids.mem_iff.mpr ?_, ?_⟩
  · rcases mem_cons.mp (perm.mem_iff.mp member) with rfl | old
    · refine ⟨fun number member => ?_, fun isDefault => ?_⟩
      · rw [reqId, lists] at member
        split at member
        next supplied => exact supplied
        · exact absurd (consistent.known number _ member) unused
      · exact absurd (notDefault.symm.trans isDefault) Bool.false_ne_true
    · have sound := consistent.sound entry old
      exact ⟨fun number member => sound.served number (listed member (fresh entry old)),
        sound.default⟩
  · by_cases new : other = service.nextRequestId
    · exact new ▸ mem_cons_self
    · exact mem_cons_of_mem _ (consistent.known number other (listed member new))
  · obtain ⟨entry, member, isDefault⟩ := consistent.hasDefault
    exact ⟨entry, perm.mem_iff.mpr (mem_cons_of_mem _ member), isDefault⟩

theorem increaseNetConnCallbackCntForUid_spec {service after : NetConnService} {isRequest : Bool}
    (increased : service.increaseNetConnCallbackCntForUid uid isRequest = some after) :
    after.netUidActivates = service.netUidActivates ∧ after.suppliers = service.suppliers ∧
      after.nextRequestId = service.nextRequestId := by
  unfold increaseNetConnCallbackCntForUid at increased
  split at increased
  all_goals
    obtain ⟨counts, -, rfl⟩ := Option.map_eq_some_iff.mp increased
    exact ⟨rfl, rfl, rfl⟩

theorem Consistent.registerNetSupplier (consistent : service.Consistent) (bearerType : NetBearType)
    (ident : String) :
    (service.registerNetSupplierAsync bearerType ident netCaps).Consistent := by
  have generated (service : NetConnService) :
      (service.generate netCaps).2.netUidActivates = service.netUidActivates ∧
        (service.generate netCaps).2.bestRequests = service.bestRequests := by
    unfold generate
    split <;> exact ⟨rfl, rfl⟩
  unfold registerNetSupplierAsync
  split
  · exact consistent
  split
  · exact consistent
  obtain ⟨activates, lists⟩ :=
    generated { service with nextNetSupplierId := service.nextNetSupplierId + 1 }
  dsimp only
  split
  next after equal =>
    rw [equal] at activates lists
    exact consistent.of_subset activates fun number => (congrFun lists number).subset
  next netId after equal =>
    rw [equal] at activates lists
    refine consistent.of_subset activates fun number => ?_
    unfold bestRequests
    dsimp only
    rw [Function.update_apply]
    split
    · have fresh : (NetSupplier.create bearerType ident netCaps service.nextNetSupplierId
          netId).bestReqList = ∅ := bestReqList_initNetScore _
      rw [fresh]
      exact Finset.empty_subset _
    · exact (congrFun lists number).subset

theorem Consistent.unregisterNetConnCallback (consistent : service.Consistent) :
    (service.unregisterNetConnCallbackAsync callback).Consistent := by
  unfold unregisterNetConnCallbackAsync
  split
  · exact consistent
  case h_2 first _ =>
    have counted : (service.decreaseNetConnCallbackCntForUid first.uid
        (isRequest first.netSpecifier)).Consistent := by
      unfold decreaseNetConnCallbackCntForUid
      split
      all_goals exact consistent.of_subset rfl fun _ => Finset.Subset.refl _
    generalize service.decreaseNetConnCallbackCntForUid first.uid (isRequest first.netSpecifier) =
      before at counted
    dsimp only
    split
    · exact counted.of_subset rfl fun _ => Finset.Subset.refl _
    · exact counted
    case h_3 left activate decreased =>
      obtain ⟨perm, own⟩ := perm_decreaseNetActivates decreased
      have cancelled := before.cancelled_cancelRequestForSupplier activate
      have ids : (requestIds before.netUidActivates).Perm (activate.requestId :: requestIds left) :=
        perm.map _
      have older : ∀ {entry}, entry ∈ left → entry ∈ before.netUidActivates :=
        fun member => perm.mem_iff.mpr (mem_cons_of_mem _ member)
      refine ⟨(nodup_cons.mp (ids.nodup_iff.mp counted.distinct)).2, fun entry member => ?_,
        fun number reqId member => ?_, ?_⟩
      · have sound := counted.sound entry (older member)
        exact ⟨fun number listed => sound.served number (cancelled.subset number listed),
          sound.default⟩
      · have listed := cancelled.subset number member
        rcases mem_cons.mp (ids.mem_iff.mp (counted.known number reqId listed)) with rfl | later
        · have served := (counted.sound _ (perm.mem_iff.mpr mem_cons_self)).served number listed
          exact absurd member (cancelled.removed number served)
        · exact later
      · obtain ⟨entry, member, isDefault⟩ := counted.hasDefault
        rcases mem_cons.mp (perm.mem_iff.mp member) with rfl | later
        · have missing := ((counted.sound _ member).default isDefault).2.2.1
          exact absurd (own.symm.trans missing) (Option.some_ne_none _)
        · exact ⟨entry, later, isDefault⟩

/-! ## Runs -/

/-- A request that is created gets an id that no registered request has. -/
def FreshId (service : NetConnService) : Event → Prop
  | .registerNetConnCallback _ _ | .requestNetConnection _ =>
    ∀ entry ∈ service.netUidActivates, entry.2.requestId ≠ service.nextRequestId
  | _ => True

instance decidableFreshId (service : NetConnService) : DecidablePred service.FreshId
  | .registerNetConnCallback _ _ | .requestNetConnection _ =>
    inferInstanceAs (Decidable (∀ entry ∈ service.netUidActivates, _))
  | .registerNetSupplier _ _ _ | .registerNetSupplierCallback _ | .unregisterNetSupplier _
  | .updateNetSupplierInfo _ _ | .updateNetLinkInfo _ _ _ | .updateNetCaps _ _
  | .detectionResult _ _ _ | .findBestNetworkForDelay _ | .updateSupplierScore _ _
  | .recoverNetSys | .unregisterNetConnCallback _ | .timeOutNetAvailable _
  | .setAppIsFrozened _ _ | .enableAppFrozenedCallbackLimitation _ | .foreground _
  | .updateUidLostDelay _ | .notifyLostDelay _ | .setReuseSupplierId _ _ _ _
  | .updateNetRequestControlState _ => isTrue trivial

theorem consistent_started (enableSetAppFrozened featureUpdateNetcap : Bool) :
    (started enableSetAppFrozened featureUpdateNetcap).Consistent where
  distinct := nodup_singleton _
  sound := by
    intro entry member
    rw [mem_singleton.mp member]
    exact ⟨fun number member => absurd member (Finset.notMem_empty _), fun _ => ⟨rfl, rfl, rfl, rfl⟩⟩
  known number reqId member := absurd member (Finset.notMem_empty _)
  hasDefault := ⟨_, mem_singleton_self _, rfl⟩

theorem Consistent.step (consistent : service.Consistent) (fresh : service.FreshId event) :
    (service.step event).Consistent := by
  have activated : ∀ {after : NetConnService} {uid isRequest} registration,
      (∀ entry ∈ service.netUidActivates, entry.2.requestId ≠ service.nextRequestId) →
      service.increaseNetConnCallbackCntForUid uid isRequest = some after →
        (after.activateNetwork registration).Consistent := by
    intro after uid isRequest registration fresh increased
    obtain ⟨activates, suppliers, next⟩ := increaseNetConnCallbackCntForUid_spec increased
    have same : ∀ number, after.bestRequests number ⊆ service.bestRequests number := fun number => by
      rw [bestRequests, suppliers]
      exact Finset.Subset.refl _
    apply (consistent.of_subset activates same).activateNetwork
    rw [activates, next]
    exact fresh
  unfold NetConnService.step
  split
  · exact consistent
  · cases event with
    | registerNetSupplier => exact consistent.registerNetSupplier _ _
    | registerNetConnCallback registration isMmsDisabled =>
      dsimp only [handle, registerNetConnCallbackAsync]
      split
      · exact consistent
      split
      · exact consistent
      split
      · exact consistent
      · exact activated registration fresh ‹_›
    | requestNetConnection registration =>
      dsimp only [handle, requestNetConnectionAsync]
      split
      · exact consistent
      split
      · exact consistent
      · exact activated registration fresh ‹_›
    | unregisterNetConnCallback => exact consistent.unregisterNetConnCallback
    | _ => exact (service.evolves_handle rfl).consistent consistent

/-- Requests have the best suppliers, and the lists of best requests and the default
supplier agree with that. -/
structure BestServed (service : NetConnService) : Prop where
  best : ∀ entry ∈ service.netUidActivates, isSkipped entry.2 = false → service.ServedBest entry.2
  listed : ∀ entry ∈ service.netUidActivates, isSkipped entry.2 = false → ∀ number,
    entry.2.requestId ∈ service.bestRequests number ↔ entry.2.netServiceSupplied = some number
  noOther : ∀ entry ∈ service.netUidActivates, ∀ number,
    entry.2.requestId ∈ service.bestRequests number → entry.2.netServiceSupplied = some number
  default : ∃ entry ∈ service.netUidActivates, entry.2.isDefault = true ∧
    service.defaultNetSupplier = entry.2.netServiceSupplied

/-- In every run in which new requests get fresh ids, `FindBestNetworkForAllRequest` gives
each request its best supplier. -/
theorem bestServed_findBestNetworkForAllRequest {enableSetAppFrozened featureUpdateNetcap : Bool}
    {service : NetConnService}
    (reach : Run.Reach step FreshId (started enableSetAppFrozened featureUpdateNetcap) service) :
    service.findBestNetworkForAllRequest.BestServed := by
  have consistent : service.Consistent :=
    reach.invariant (consistent_started enableSetAppFrozened featureUpdateNetcap)
      fun _ _ before fresh => before.step fresh
  obtain ⟨after, settled⟩ := consistent.findBest
  obtain ⟨entry, member, isDefault⟩ := after.hasDefault
  exact ⟨fun entry member => (settled entry member).best,
    fun entry member => (settled entry member).listed,
    fun entry member => (settled entry member).sound.served,
    entry, member, isDefault, (settled entry member).default isDefault⟩

/-- A supplier with internet registers, gets a link and is detected. -/
def supplierComes (bearerType : NetBearType) (supplierId : UInt32) : List Event :=
  [.registerNetSupplier bearerType "" [NetCap.internet, NetCap.notVpn],
    .updateNetSupplierInfo supplierId { isAvailable := true },
    .updateNetLinkInfo supplierId true false,
    .detectionResult supplierId .verification false]

/-- A request for a type of network. -/
def bearerRequest (callback : Nat) (callingUid : UInt32) (bearerType : NetBearType) : Event :=
  .registerNetConnCallback
    { netSpecifier := { bearerTypes := [bearerType] }
      callback := callback
      timeoutMS := 1
      callingUid := callingUid } false

/-- Wifi comes after cellular, and with it the default network. -/
theorem bestServed_wifi :
    let service := (supplierComes .cellular 1003 ++ bearerRequest 7 1000 .cellular ::
      supplierComes .wifi 1004).foldl step (started true false)
    service.defaultNetSupplier = some 1 ∧ service.bestRequests 0 = {2} ∧
      service.findBestNetworkForAllRequest.BestServed :=
  ⟨by decide +kernel, by decide +kernel,
    bestServed_findBestNetworkForAllRequest (Run.Reach.start.foldl _ (by decide +kernel))⟩

/-- In every run in which new requests get fresh ids, an id in the list of a supplier is that
of a registered request which the supplier serves, and it is in no other list. -/
theorem mem_bestRequests_of_reach {enableSetAppFrozened featureUpdateNetcap : Bool}
    {service : NetConnService}
    (reach : Run.Reach step FreshId (started enableSetAppFrozened featureUpdateNetcap) service)
    (listed : reqId ∈ service.bestRequests number) :
    (∃ entry ∈ service.netUidActivates, entry.2.requestId = reqId ∧
      entry.2.netServiceSupplied = some number) ∧
    ∀ other, reqId ∈ service.bestRequests other → other = number := by
  have consistent : service.Consistent :=
    reach.invariant (consistent_started enableSetAppFrozened featureUpdateNetcap)
      fun _ _ before fresh => before.step fresh
  obtain ⟨entry, member, rfl⟩ := List.mem_map.mp (consistent.known number reqId listed)
  have served := (consistent.sound entry member).served
  refine ⟨⟨entry, member, rfl, served number listed⟩, fun other also => ?_⟩
  exact Option.some_inj.mp ((served other also).symm.trans (served number listed))

theorem mem_bestRequests_cellular :
    let service := (supplierComes .cellular 1003 ++ [bearerRequest 7 1000 .cellular]).foldl step
      (started true false)
    ∃ entry ∈ service.netUidActivates, entry.2.requestId = 2 ∧
      entry.2.netServiceSupplied = some 0 :=
  (mem_bestRequests_of_reach (Run.Reach.start.foldl _ (by decide +kernel)) (by decide +kernel)).1

/-! ## The counter goes around -/

/-- A request that nobody serves yet. -/
def waiting (callback : Nat) (uid requestId : UInt32) (bearerType : NetBearType) : NetActivate where
  requestId := requestId
  uid := uid
  netSpecifier := { bearerTypes := [bearerType] }
  netConnCallback := some callback
  isTimeOutPosted := true

/-- A service with one request for wifi and no supplier. -/
def alone (nextRequestId : UInt32) : NetConnService :=
  { started true false with
    netUidActivates := [(1000, waiting 7 1000 2 .wifi), (uidNetManager, defaultNetActivate)]
    netUidRequest := (∅ : AList fun _ : UInt32 => Nat).insert 1000 1
    nextRequestId := nextRequestId }

theorem reach_following {nextRequestId : UInt32}
    (reach : Run.Reach step (fun _ _ => True) (started true false) (alone nextRequestId)) :
    Run.Reach step (fun _ _ => True) (started true false)
      (alone (followingRequestId nextRequestId)) := by
  have pair : Run.Reach step (fun _ _ => True) (started true false)
      (((alone nextRequestId).step (bearerRequest 8 2000 .vpn)).step
        (.unregisterNetConnCallback 8)) :=
    (reach.step trivial).step trivial
  exact pair

variable {count : Nat}

theorem followingRequestId_ofNat (bound : count < 2147483647) :
    followingRequestId (UInt32.ofNat count) = UInt32.ofNat (count + 1) := by
  have next : UInt32.ofNat count + 1 = UInt32.ofNat (count + 1) := (UInt32.ofNat_add count 1).symm
  have inside : ¬ maxRequestId < UInt32.ofNat (count + 1) := by
    rw [UInt32.lt_iff_toNat_lt, UInt32.toNat_ofNat']
    have limit : maxRequestId.toNat = 2147483647 := rfl
    omega
  unfold followingRequestId
  rw [next, if_neg inside]

theorem reach_alone (least : 3 ≤ count) (bound : count ≤ 2147483647) :
    Run.Reach step (fun _ _ => True) (started true false) (alone (UInt32.ofNat count)) := by
  induction count, least using Nat.le_induction with
  | base =>
    have first : alone 3 = (started true false).step (bearerRequest 7 1000 .wifi) := rfl
    have reached : Run.Reach step (fun _ _ => True) (started true false) (alone 3) := by
      rw [first]
      exact Run.Reach.start.step trivial
    exact reached
  | succ count least ih =>
    have next := reach_following (ih (by omega))
    rw [followingRequestId_ofNat (by omega)] at next
    exact next

/-- A request for cellular gets the id of the request for wifi, and the id is in the list
of both suppliers. -/
theorem not_bestServed_around :
    ∃ service, Run.Reach step (fun _ _ => True) (started true false) service ∧
      ¬ service.findBestNetworkForAllRequest.BestServed := by
  have last := reach_alone (show 3 ≤ 2147483647 by omega) le_rfl
  have around : Run.Reach step (fun _ _ => True) (started true false) (alone 2) :=
    reach_following (reach_following last)
  refine ⟨_, around.foldl (bearerRequest 9 3000 .cellular ::
    (supplierComes .wifi 1003 ++ supplierComes .cellular 1004)) (by decide), fun served => ?_⟩
  have first : (2, some 0) ∈ (((bearerRequest 9 3000 .cellular ::
      (supplierComes .wifi 1003 ++ supplierComes .cellular 1004)).foldl step
        (alone 2)).findBestNetworkForAllRequest.netUidActivates.map fun entry =>
          (entry.2.requestId, entry.2.netServiceSupplied)) := by
    decide +kernel
  obtain ⟨entry, member, equal⟩ := mem_map.mp first
  obtain ⟨reqId, supplied⟩ := Prod.mk.inj equal
  have second := served.noOther entry member 1 (by
    rw [reqId]
    decide +kernel)
  rw [supplied] at second
  exact absurd second (by decide)

end NetManager.ConnService.NetConnService
