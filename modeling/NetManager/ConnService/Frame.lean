import NetManager.ConnService.Service

/-!
# What the steps of the connection service leave alone

Most functions of the service change lists of requests or send messages. The frame of a
service is all the rest; the calls below keep it.
-/

namespace NetManager.ConnService

namespace NetSupplier

/-- A supplier without its lists of requests. -/
def profile (supplier : NetSupplier) : NetSupplier :=
  { supplier with requestList := ∅, bestReqList := ∅ }

variable (supplier : NetSupplier) (reqId : UInt32) (isControlled : Bool)

@[simp] theorem profile_requestToConnect :
    (supplier.requestToConnect reqId isControlled).profile = supplier.profile := by
  unfold requestToConnect
  split
  all_goals rfl

@[simp] theorem bestReqList_requestToConnect :
    (supplier.requestToConnect reqId isControlled).bestReqList = supplier.bestReqList := by
  unfold requestToConnect
  split
  all_goals rfl

@[simp] theorem profile_selectAsBestNetwork :
    (supplier.selectAsBestNetwork reqId isControlled).profile = supplier.profile := by
  unfold selectAsBestNetwork
  split
  all_goals rfl

@[simp] theorem bestReqList_selectAsBestNetwork :
    (supplier.selectAsBestNetwork reqId isControlled).bestReqList =
      insert reqId supplier.bestReqList := by
  unfold selectAsBestNetwork
  split
  all_goals rfl

@[simp] theorem profile_receiveBestScore (bestScore : Int) (supplierId : UInt32) :
    (supplier.receiveBestScore bestScore supplierId reqId).profile = supplier.profile := by
  unfold receiveBestScore
  split_ifs
  all_goals rfl

@[simp] theorem bestReqList_receiveBestScore (bestScore : Int) (supplierId : UInt32) :
    (supplier.receiveBestScore bestScore supplierId reqId).bestReqList = supplier.bestReqList := by
  unfold receiveBestScore
  split_ifs
  all_goals rfl

end NetSupplier

namespace NetActivate

variable (activate : NetActivate)

/-- A request without what callbacks remember. -/
def core : NetActivate :=
  { activate with
    lastCallbackType := .unknown
    lastNetId := 0
    isNotifyLostDelay := false
    notifyLostNetId := 0 }

/-- What loops over requests keep of one, apart from the search for its supplier. -/
structure Keeps (before after : NetActivate) : Prop where
  requestId : after.requestId = before.requestId
  isDefault : after.isDefault = before.isDefault
  supplied : after.netServiceSupplied = before.netServiceSupplied
  specifier : after.netSpecifier = before.netSpecifier
  callback : after.netConnCallback = before.netConnCallback
  frozen : before.netSpecifier.bearerTypes = [] → before.isFrozenedSkip = false →
    after.isFrozenedSkip = false

theorem Keeps.of_core (same : after.core = before.core) :
    Keeps before after := by
  obtain ⟨⟩ := after
  obtain ⟨rfl, rfl, rfl, rfl, rfl, rfl, rfl, rfl, rfl, -, -, -, -, rfl, rfl⟩ := same
  exact ⟨rfl, rfl, rfl, rfl, rfl, fun _ => id⟩

@[simp] theorem core_setLastCallbackType (callbackType : CallbackType) :
    (activate.setLastCallbackType callbackType).core = activate.core := by
  unfold setLastCallbackType
  split
  all_goals rfl

end NetActivate

namespace NetConnService

/-- A service without lists of requests, requests, messages and default supplier. -/
def frame (service : NetConnService) : NetConnService :=
  { service with
    suppliers := fun number => (service.suppliers number).profile
    netUidActivates := []
    defaultNetSupplier := none
    sent := [] }

section SameFrame

variable {before after : NetConnService}

section

variable (same : after.frame = before.frame)

include same

theorem profile_of_frame : (after.suppliers number).profile = (before.suppliers number).profile :=
  (congrFun (congrArg NetConnService.suppliers same) number :)

theorem registered_of_frame : after.registered = before.registered :=
  (congrArg NetConnService.registered same :)

theorem isConnected_of_frame :
    (after.suppliers number).isConnected = (before.suppliers number).isConnected :=
  (congrArg NetSupplier.isConnected (profile_of_frame same) :)

theorem getRealScore_of_frame :
    (after.suppliers number).getRealScore = (before.suppliers number).getRealScore :=
  (congrArg NetSupplier.getRealScore (profile_of_frame same) :)

theorem matchRequestAndNetwork_of_frame (activate : NetActivate) :
    activate.matchRequestAndNetwork (after.suppliers number) false =
      activate.matchRequestAndNetwork (before.suppliers number) false :=
  (congrArg (activate.matchRequestAndNetwork · false) (profile_of_frame same) :)

end

end SameFrame

/-! ## Suppliers -/

variable (service : NetConnService)

theorem suppliers_modifySupplier :
    (service.modifySupplier number change).suppliers other =
      if other = number then change (service.suppliers number) else service.suppliers other :=
  Function.update_apply service.suppliers number _ other

variable (number : Nat)

theorem frame_modifySupplier (change : NetSupplier → NetSupplier)
    (same : ∀ supplier, (change supplier).profile = supplier.profile) :
    (service.modifySupplier number change).frame = service.frame := by
  have suppliers : (fun other => ((service.modifySupplier number change).suppliers other).profile) =
      fun other => (service.suppliers other).profile := by
    funext other
    rw [suppliers_modifySupplier]
    split
    next equal => rw [same, equal]
    · rfl
  unfold frame
  rw [suppliers]
  rfl

/-- The requests that a supplier is best for. -/
def bestRequests (service : NetConnService) (number : Nat) : Finset UInt32 :=
  (service.suppliers number).bestReqList

section

variable (number other : Nat) (change : NetSupplier → NetSupplier)

theorem bestRequests_modifySupplier :
    (service.modifySupplier number change).bestRequests other =
      if other = number then (change (service.suppliers number)).bestReqList
      else service.bestRequests other := by
  unfold bestRequests
  rw [suppliers_modifySupplier, apply_ite NetSupplier.bestReqList]

theorem bestRequests_modifySupplier_some :
    (service.modifySupplier number change).bestRequests other =
      if some number = some other then (change (service.suppliers other)).bestReqList
      else service.bestRequests other := by
  rw [bestRequests_modifySupplier]
  by_cases same : other = number
  · rw [if_pos same, if_pos (congrArg some same.symm), same]
  · rw [if_neg same, if_neg fun equal => same (Option.some.inj equal).symm]

end

/-- Only lists of requests other than those of best requests may have changed. -/
structure Quiet (before after : NetConnService) : Prop where
  frame : after.frame = before.frame
  default : after.defaultNetSupplier = before.defaultNetSupplier
  sent : after.sent = before.sent
  activates : after.netUidActivates = before.netUidActivates
  lists : ∀ number, after.bestRequests number = before.bestRequests number

section EachSupplier

theorem eachSupplier_invariant (Invariant : NetConnService → Prop) {service : NetConnService}
    (initially : Invariant service)
    (preserved : ∀ service number, Invariant service →
      Invariant (service.modifySupplier number (change number))) :
    Invariant (service.eachSupplier change) := by
  exact List.foldlRecOn (motive := Invariant) service.registered _ initially
    fun service invariant number _ => preserved service number invariant

theorem eachSupplier_quiet
    (profile : ∀ number supplier, (change number supplier).profile = supplier.profile)
    (best : ∀ number supplier, (change number supplier).bestReqList = supplier.bestReqList) :
    Quiet service (service.eachSupplier change) := by
  apply eachSupplier_invariant (Quiet service)
  · exact ⟨rfl, rfl, rfl, rfl, fun _ => rfl⟩
  · intro after number quiet
    refine ⟨(frame_modifySupplier after number _ (profile number)).trans quiet.frame, quiet.default,
      quiet.sent, quiet.activates, fun other => ?_⟩
    rw [bestRequests_modifySupplier]
    split
    next equal =>
      rw [best, equal]
      exact quiet.lists number
    · exact quiet.lists other

end EachSupplier

/-! ## Messages -/

variable (activate : NetActivate) (callbackType : CallbackType)

theorem core_isAllowCallback :
    (service.isAllowCallback activate callbackType).2.core = activate.core := by
  unfold isAllowCallback
  split
  · rw [NetActivate.core_setLastCallbackType]
    split
    · rfl
    · split
      all_goals rfl
  · split
    all_goals rfl

/-- A call for a request that only sends messages. -/
def Tells (result : NetActivate × NetConnService) : Prop :=
  result.1.core = activate.core ∧ ∃ sent, result.2 = { service with sent := sent }

theorem tells_self : service.Tells activate (activate, service) := ⟨rfl, service.sent, rfl⟩

theorem notify_spec (message : Message) :
    service.Tells activate (service.notify activate callbackType message) := by
  unfold notify
  split
  · exact service.tells_self activate
  · split
    · exact ⟨rfl, _, rfl⟩
    · refine ⟨core_isAllowCallback service activate callbackType, ?_⟩
      dsimp only
      split
      · exact ⟨_, rfl⟩
      · exact ⟨service.sent, rfl⟩

variable {service activate} in
theorem Tells.notify (tells : service.Tells activate result) :
    service.Tells activate (result.2.notify result.1 callbackType message) := by
  obtain ⟨core, sent, equal⟩ := tells
  obtain ⟨sameCore, after, equalAfter⟩ := result.2.notify_spec result.1 callbackType message
  exact ⟨sameCore.trans core, after, by rw [equalAfter, equal]⟩

theorem callbackForAvailable_spec :
    service.Tells activate (service.callbackForAvailable number activate) :=
  ((service.notify_spec activate _ _).notify _).notify _

theorem handleCallback_spec :
    service.Tells activate (service.handleCallback number activate callbackType) := by
  cases callbackType with
  | lost => exact service.notify_spec activate _ _
  | updateCap => exact service.notify_spec activate _ _
  | updateLink => exact service.notify_spec activate _ _
  | blockStatus => exact service.notify_spec activate _ _
  | unavailable => exact service.notify_spec activate _ _
  | _ => exact service.tells_self activate

theorem tellLost_spec : service.Tells activate (service.tellLost number activate) := by
  unfold tellLost
  dsimp only
  split
  · exact service.tells_self activate
  · split
    · exact service.tells_self activate
    · exact service.notify_spec activate _ _

end NetConnService

end NetManager.ConnService
