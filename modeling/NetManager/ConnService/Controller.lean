import NetManager.ConnService.Supplier

/-!
# What a supplier is told

The controller of a supplier is asked for the network when the first request is added,
and told to release it when the last one is removed.
-/

namespace NetManager.ConnService

open List

/-- A message to the controller, with the ident and the capabilities of the supplier. -/
inductive ControllerMessage
  | requestNetwork (ident : String) (netCaps : NetCaps) (reqId : UInt32)
  | releaseNetwork (ident : String) (netCaps : NetCaps) (reqId : UInt32)

def ControllerMessage.isRequest : ControllerMessage → Bool
  | .requestNetwork .. => true
  | .releaseNetwork .. => false

namespace NetSupplier

section

variable (supplier : NetSupplier) (reqId : UInt32)

/-- What `AddRequest` sends, with `SupplierConnection`. -/
def sentByAddRequest : List ControllerMessage :=
  if supplier.requestList = ∅ ∨ supplier.netSupplierType = .wifi ∨ !supplier.isAvailable then
    [.requestNetwork supplier.netSupplierIdent supplier.netCaps reqId]
  else []

/-- What `RemoveRequest` sends, with `SupplierDisconnection`. -/
def sentByRemoveRequest : List ControllerMessage :=
  if reqId ∉ supplier.requestList then []
  else if supplier.requestList.erase reqId = ∅ ∨ supplier.netSupplierType = .wifi then
    [.releaseNetwork supplier.netSupplierIdent supplier.netCaps reqId]
  else []

end

/-- The calls for a request, and the other changes of a supplier between them. -/
inductive Call
  | requestToConnect (reqId : UInt32) (isControlled : Bool)
  | selectAsBestNetwork (reqId : UInt32) (isControlled : Bool)
  | receiveBestScore (bestScore : Int) (supplierId reqId : UInt32)
  | cancelRequest (reqId : UInt32)
  | other (after : NetSupplier)

/-- The supplier after a call, and what the call sends. -/
def handle (supplier : NetSupplier) : Call → NetSupplier × List ControllerMessage
  | .requestToConnect reqId isControlled =>
    (supplier.requestToConnect reqId isControlled,
      if supplier.netSupplierType = .cellular && isControlled then []
      else supplier.sentByAddRequest reqId)
  | .selectAsBestNetwork reqId isControlled =>
    (supplier.selectAsBestNetwork reqId isControlled,
      if supplier.netSupplierType ≠ .cellular || !isControlled then
        supplier.sentByAddRequest reqId
      else supplier.sentByRemoveRequest reqId)
  | .receiveBestScore bestScore supplierId reqId =>
    (supplier.receiveBestScore bestScore supplierId reqId,
      if supplierId = supplier.supplierId then []
      else if reqId ∉ supplier.requestList then []
      else if bestScore ≤ supplier.netScore then []
      else supplier.sentByRemoveRequest reqId)
  | .cancelRequest reqId => (supplier.cancelRequest reqId, supplier.sentByRemoveRequest reqId)
  | .other after =>
    ({ after with
      requestList := supplier.requestList
      netSupplierType := supplier.netSupplierType }, [])

/-- One call; the messages are kept in the order in which they were sent. -/
def step (state : NetSupplier × List ControllerMessage) (call : Call) :
    NetSupplier × List ControllerMessage :=
  let (after, sent) := state.1.handle call
  (after, state.2 ++ sent)

/-- The id of the request that a call is for. -/
def Call.reqId : Call → Option UInt32
  | .requestToConnect reqId _ | .selectAsBestNetwork reqId _ | .receiveBestScore _ _ reqId
  | .cancelRequest reqId => some reqId
  | .other _ => none

/-- The last call for a request cancels it. -/
def lastCancelled (calls : List Call) (reqId : UInt32) : Bool :=
  calls.foldl
    (fun cancelled call =>
      if call.reqId = some reqId then call matches .cancelRequest _ else cancelled) false

/-- A call adds its request, removes it or leaves the list, and sends what belongs to that. -/
theorem handle_cases (supplier : NetSupplier) (call : Call) :
    (supplier.handle call).1.netSupplierType = supplier.netSupplierType ∧
      (((supplier.handle call).1.requestList = supplier.requestList ∧
          (supplier.handle call).2 = [] ∧ ¬call matches .cancelRequest _) ∨
        (∃ reqId, (supplier.handle call).1.requestList = insert reqId supplier.requestList ∧
          (supplier.handle call).2 = supplier.sentByAddRequest reqId ∧ call.reqId = some reqId ∧
          ¬call matches .cancelRequest _) ∨
        ∃ reqId, (supplier.handle call).1.requestList = supplier.requestList.erase reqId ∧
          (supplier.handle call).2 = supplier.sentByRemoveRequest reqId ∧
          call.reqId = some reqId) := by
  cases call with
  | requestToConnect reqId isControlled =>
    simp only [handle, NetSupplier.requestToConnect]
    split <;> simp [addRequest, Call.reqId]
  | selectAsBestNetwork reqId isControlled =>
    simp only [handle, NetSupplier.selectAsBestNetwork]
    split <;> simp [addRequest, removeRequest, addBestRequest, Call.reqId]
  | receiveBestScore bestScore supplierId reqId =>
    simp only [handle, NetSupplier.receiveBestScore]
    split_ifs <;> simp [removeRequest, Call.reqId]
  | cancelRequest reqId => exact ⟨rfl, .inr (.inr ⟨reqId, rfl, rfl, rfl⟩)⟩
  | other after => simp [handle]

/-- The last message asks for the network as long as there are requests, and no request is
listed that was cancelled last. -/
structure Told (calls : List Call) (state : NetSupplier × List ControllerMessage) : Prop where
  last : state.2.getLast?.any (·.isRequest) = true ↔ state.1.requestList ≠ ∅
  cancelled : ∀ reqId, lastCancelled calls reqId = true → reqId ∉ state.1.requestList

theorem Told.step (told : Told calls state) (notWifi : state.1.netSupplierType ≠ .wifi) :
    Told (calls ++ [call]) (NetSupplier.step state call) := by
  obtain ⟨last, cancelled⟩ := told
  have cases := (state.1.handle_cases call).2
  refine ⟨?_, fun reqId => ?_⟩
  · obtain ⟨list, sent, -⟩ | ⟨reqId, list, sent, -⟩ | ⟨reqId, list, sent, -⟩ := cases
    · simpa [NetSupplier.step, list, sent] using last
    · simp only [NetSupplier.step, list, sent, sentByAddRequest]
      split
      · simp [ControllerMessage.isRequest]
      next others => simpa [not_or.mp others] using last
    · simp only [NetSupplier.step, list, sent, sentByRemoveRequest]
      split_ifs with listed only
      · simp [ControllerMessage.isRequest, only.resolve_right notWifi]
      · simpa [Finset.ne_empty_of_mem listed, (not_or.mp only).1] using last
      · simpa [listed] using last
  · simp only [NetSupplier.step, lastCancelled, foldl_append, foldl_cons, foldl_nil]
    grind [lastCancelled]

/-- A supplier is told exactly when it is needed. -/
theorem told_foldl (bearerType : {type : NetBearType // type ≠ .wifi}) (ident : String)
    (netCaps : List NetCap) (supplierId : UInt32) (netId : Int) (calls : List Call) :
    Told calls (calls.foldl step (create bearerType ident netCaps supplierId netId, [])) := by
  have start : (create bearerType ident netCaps supplierId netId).netSupplierType = bearerType ∧
      (create bearerType ident netCaps supplierId netId).requestList = ∅ := by
    rw [create, initNetScore]
    split <;> exact ⟨rfl, rfl⟩
  generalize create bearerType ident netCaps supplierId netId = supplier at start
  suffices told : Told calls (calls.foldl step (supplier, [])) ∧
      (calls.foldl step (supplier, [])).1.netSupplierType = bearerType from told.1
  induction calls using reverseRecOn with
  | nil => exact ⟨⟨by simp [start.2], by simp [start.2]⟩, start.1⟩
  | append_singleton calls call ih =>
    obtain ⟨told, type⟩ := ih
    rw [foldl_append]
    exact ⟨told.step (type ▸ bearerType.2), (handle_cases _ call).1.trans type⟩

end NetSupplier

end NetManager.ConnService
