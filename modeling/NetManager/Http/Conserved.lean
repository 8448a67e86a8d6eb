import NetManager.Http.MultiDriver
import NetManager.Library.Run
import NetManager.Library.ValueCount

/-!
# Requests are conserved

Each request that was taken from the incoming queue is in one place: ongoing, kept back,
or given back to its owner by one call. The proofs follow requests that the driver has in
its hands between two places; a request that stays there is lost.
-/

namespace NetManager.Http

open List ValueCount HandoverStatus AList

/-- The request of a call. -/
def OwnerCall.request : OwnerCall → RequestInfo
  | .done request _ => request
  | .redirect request => request

/-- Where requests are. -/
structure Places where
  incoming : List RequestInfo
  /-- The requests taken from there. -/
  taken : List RequestInfo
  ongoing : OngoingRequests
  /-- The requests that are kept back. -/
  queue : List RequestInfo
  /-- The requests given back, one entry for each call. -/
  completed : List RequestInfo

namespace Places

/-- Each request that was taken is in one place, once. -/
def Conserved (places : Places) : Prop :=
  ∀ request ∈ places.taken, valueCount places.ongoing (some request) +
    places.queue.count request + places.completed.count request = 1

/-- The requests with a handle that libcurl does not have. -/
def waiting (places : Places) (held : List RequestInfo) : List RequestInfo :=
  held ++ (places.incoming ++ places.queue)

/-- Requests are accounted for when those of a list are in the hands of the driver. -/
structure Sound (held : List RequestInfo) (places : Places) : Prop where
  balance : ∀ request, places.taken.count request =
    held.count request + (valueCount places.ongoing (some request) +
      places.queue.count request + places.completed.count request)
  distinct : (places.incoming ++ places.taken).Nodup
  keyed : ∀ handle request, places.ongoing.lookup handle = some (some request) →
    handle = request.easyHandle
  handles : ((places.waiting held).map RequestInfo.easyHandle).Nodup
  apart : ∀ request ∈ places.waiting held, ∀ other,
    places.ongoing.lookup request.easyHandle ≠ some (some other)

namespace Sound

variable {places : Places} {held : List RequestInfo} {request : RequestInfo}

theorem perm (sound : Sound held places) (same : held.Perm other) :
    Sound other places where
  balance request := by
    rw [← same.count_eq]
    exact sound.balance request
  distinct := sound.distinct
  keyed := sound.keyed
  handles := ((same.append_right _).map _).nodup_iff.mp sound.handles
  apart request member := sound.apart request ((same.append_right _).mem_iff.mpr member)

/-- No request is in the hands of the driver if and only if requests are conserved. -/
theorem conserved_iff (sound : Sound held places) : places.Conserved ↔ held = [] := by
  have nodup := (nodup_append.mp sound.distinct).2.1
  constructor
  · intro conserved
    refine eq_nil_iff_forall_not_mem.mpr fun request member => ?_
    have balance := sound.balance request
    have isHeld : 0 < held.count request := count_pos_iff.mpr member
    have isTaken : request ∈ places.taken := count_pos_iff.mp (by omega)
    have once := conserved request isTaken
    rw [count_eq_one_of_mem nodup isTaken] at balance
    omega
  · rintro rfl request isTaken
    have balance := sound.balance request
    rw [count_eq_one_of_mem nodup isTaken, count_nil, Nat.zero_add] at balance
    exact balance.symm

/-! ## Moves -/

section

variable (sound : Sound (request :: held) places)

include sound

theorem handle_ne (member : other ∈ places.waiting held) :
    other.easyHandle ≠ request.easyHandle := by
  have nodup : ((request :: places.waiting held).map RequestInfo.easyHandle).Nodup := sound.handles
  rw [map_cons, nodup_cons] at nodup
  exact fun same => nodup.1 (same ▸ mem_map_of_mem member)

theorem handles_tail : ((places.waiting held).map RequestInfo.easyHandle).Nodup := by
  have nodup : ((request :: places.waiting held).map RequestInfo.easyHandle).Nodup := sound.handles
  exact (nodup_cons.mp nodup).2

theorem apart_tail {waiting : RequestInfo}
    (member : waiting ∈ places.waiting held) (other : RequestInfo) :
    places.ongoing.lookup waiting.easyHandle ≠ some (some other) :=
  sound.apart waiting (mem_cons_of_mem request member) other

theorem toOngoing :
    Sound held { places with
      ongoing := places.ongoing.insert request.easyHandle (some request) } where
  balance other := by
    have balance := sound.balance other
    have erased := valueCount_erase places.ongoing request.easyHandle (some other)
    rw [if_neg (sound.apart request mem_cons_self other)] at erased
    rw [count_cons] at balance
    rw [valueCount_insert]
    simp only [beq_iff_eq, Option.some.injEq] at balance ⊢
    omega
  distinct := sound.distinct
  keyed handle other found := by
    by_cases same : handle = request.easyHandle
    · subst same
      rw [lookup_insert] at found
      cases found
      rfl
    · rw [lookup_insert_ne same] at found
      exact sound.keyed handle other found
  handles := sound.handles_tail
  apart waiting member other := by
    rw [lookup_insert_ne (sound.handle_ne member)]
    exact sound.apart_tail member other

theorem toQueue : Sound held { places with queue := places.queue.insert request } := by
  have absent : request ∉ places.queue := fun member =>
    sound.handle_ne (mem_append_right _ (mem_append_right _ member)) rfl
  have moved : (request :: held ++ (places.incoming ++ places.queue)).Perm
      (held ++ (places.incoming ++ request :: places.queue)) := by
    rw [← append_assoc, ← append_assoc]
    exact perm_middle.symm
  rw [insert_of_not_mem absent]
  refine ⟨fun other => ?_, sound.distinct, sound.keyed, ?_, fun waiting member => ?_⟩
  · have balance := sound.balance other
    rw [count_cons] at balance
    dsimp only
    rw [count_cons]
    omega
  · exact (moved.map _).nodup_iff.mp sound.handles
  · exact sound.apart waiting (moved.mem_iff.mpr member)

theorem toCompleted : Sound held { places with completed := places.completed ++ [request] } where
  balance other := by
    have balance := sound.balance other
    rw [count_cons] at balance
    dsimp only
    rw [count_append, count_singleton]
    omega
  distinct := sound.distinct
  keyed := sound.keyed
  handles := sound.handles_tail
  apart _ := sound.apart_tail

end

variable {handle : CurlHandle}

section

variable (sound : Sound held places)

include sound

theorem fromOngoing (found : places.ongoing.lookup handle = some (some request)) :
    Sound (request :: held) { places with ongoing := places.ongoing.erase handle } where
  balance other := by
    have balance := sound.balance other
    have erased := valueCount_erase places.ongoing handle (some other)
    rw [found] at erased
    rw [count_cons]
    simp only [beq_iff_eq, Option.some.injEq] at erased ⊢
    omega
  distinct := sound.distinct
  keyed other found isOther := by
    have different : other ≠ handle := by
      rintro rfl
      rw [lookup_erase] at isOther
      cases isOther
    rw [lookup_erase_ne different] at isOther
    exact sound.keyed other found isOther
  handles := by
    have isHandle := sound.keyed handle request found
    refine nodup_cons.mpr ⟨fun member => ?_, sound.handles⟩
    obtain ⟨waiting, isWaiting, same⟩ := mem_map.mp member
    exact sound.apart waiting isWaiting request (same ▸ isHandle ▸ found)
  apart waiting member other isOther := by
    have isHandle := sound.keyed handle request found
    by_cases same : waiting.easyHandle = handle
    · rw [same, lookup_erase] at isOther
      cases isOther
    · rw [lookup_erase_ne same] at isOther
      rcases mem_cons.mp member with rfl | member
      · exact same isHandle.symm
      · exact sound.apart waiting member other isOther

theorem again (found : places.ongoing.lookup handle = some (some request)) :
    Sound held { places with
      ongoing := places.ongoing.insert request.easyHandle (some request) } := by
  have moved := (sound.fromOngoing found).toOngoing
  rw [sound.keyed handle request found] at moved
  rwa [insert_erase] at moved

theorem putNull (absent : places.ongoing.lookup handle = none) :
    Sound held { places with ongoing := places.ongoing.insert handle none } := by
  have lookups other found : (places.ongoing.insert handle none).lookup other =
      some (some found) → places.ongoing.lookup other = some (some found) := by
    intro isFound
    by_cases same : other = handle
    · rw [same, lookup_insert] at isFound
      cases isFound
    · rwa [lookup_insert_ne same] at isFound
  refine ⟨fun other => ?_, sound.distinct, fun other found isFound => ?_, sound.handles,
    fun waiting member other isOther => ?_⟩
  · have balance := sound.balance other
    have erased := valueCount_erase places.ongoing handle (some other)
    rw [absent, if_neg (Option.some_ne_none _).symm, Nat.add_zero] at erased
    rw [valueCount_insert, ← erased]
    exact balance
  · exact sound.keyed other found (lookups other found isFound)
  · exact sound.apart waiting member other (lookups _ other isOther)

theorem fromQueue : Sound (places.queue ++ held) { places with queue := [] } := by
  have moved : (held ++ (places.incoming ++ places.queue)).Perm
      (places.queue ++ held ++ (places.incoming ++ [])) := by
    rw [append_nil, ← append_assoc, append_assoc places.queue]
    exact perm_append_comm
  refine ⟨fun other => ?_, sound.distinct, sound.keyed, ?_, fun waiting member => ?_⟩
  · have balance := sound.balance other
    dsimp only
    rw [count_append, count_nil]
    omega
  · exact (moved.map _).nodup_iff.mp sound.handles
  · exact sound.apart waiting (moved.mem_iff.mpr member)

theorem flush :
    Sound (places.incoming ++ held) { places with
      incoming := []
      taken := places.taken ++ places.incoming } := by
  have moved : (held ++ (places.incoming ++ places.queue)).Perm
      (places.incoming ++ held ++ ([] ++ places.queue)) := by
    rw [← append_assoc]
    exact perm_append_comm.append_right _
  refine ⟨fun other => ?_, ?_, sound.keyed, ?_, fun waiting member => ?_⟩
  · have balance := sound.balance other
    dsimp only
    rw [count_append, count_append]
    omega
  · exact (nil_append _).symm ▸ perm_append_comm.nodup_iff.mp sound.distinct
  · exact (moved.map _).nodup_iff.mp sound.handles
  · exact sound.apart waiting (moved.mem_iff.mpr member)

theorem push (new : request ∉ places.incoming ++ places.taken)
    (unused : ∀ other ∈ places.waiting held, other.easyHandle ≠ request.easyHandle)
    (free : ∀ other, places.ongoing.lookup request.easyHandle ≠ some (some other)) :
    Sound held { places with incoming := places.incoming ++ [request] } := by
  have first (after : List RequestInfo) :
      (request :: (places.incoming ++ after)).Perm (places.incoming ++ [request] ++ after) := by
    rw [append_assoc]
    exact perm_middle.symm
  have moved : (request :: places.waiting held).Perm
      (held ++ (places.incoming ++ [request] ++ places.queue)) :=
    perm_middle.symm.trans ((first places.queue).append_left held)
  refine ⟨sound.balance, ?_, sound.keyed, ?_, fun waiting member => ?_⟩
  · exact (first places.taken).nodup_iff.mp (nodup_cons.mpr ⟨new, sound.distinct⟩)
  · refine (moved.map _).nodup_iff.mp (nodup_cons.mpr ⟨fun member => ?_, sound.handles⟩)
    obtain ⟨other, isWaiting, same⟩ := mem_map.mp member
    exact unused other isWaiting same
  · rcases mem_cons.mp (moved.mem_iff.mpr member) with rfl | isWaiting
    · exact free
    · exact sound.apart waiting isWaiting

end

/-- A loop over requests in the hands of the driver: those that a round refuses stay
there, and each other round puts its request to a place. -/
theorem foldl {σ : Type*} (placesOf : σ → Places) (invariant : σ → Prop)
    {round : σ → RequestInfo → σ} {refused : RequestInfo → Bool}
    (keeps : ∀ state request, invariant state → invariant (round state request))
    (puts : ∀ state request held, invariant state → refused request = false →
      Sound (request :: held) (placesOf state) → Sound held (placesOf (round state request)))
    (leaves : ∀ state request held, invariant state → refused request = true →
      Sound (request :: held) (placesOf state) →
      Sound (request :: held) (placesOf (round state request)))
    (requests : List RequestInfo) {state : σ} (initially : invariant state)
    {held : List RequestInfo} (sound : Sound (requests ++ held) (placesOf state)) :
    Sound (requests.filter refused ++ held) (placesOf (requests.foldl round state)) := by
  induction requests generalizing state held with
  | nil => exact sound
  | cons request requests ih =>
    cases isRefused : refused request with
    | false =>
      rw [filter_cons_of_neg (by simp [isRefused])]
      exact ih (keeps state request initially) (puts state request _ initially isRefused sound)
    | true =>
      rw [filter_cons_of_pos isRefused]
      have left := leaves state request _ initially isRefused sound
      have rest := ih (keeps state request initially) (left.perm perm_middle.symm)
      exact rest.perm perm_middle

end Sound

end Places

namespace EpollMultiDriver

open Places

/-- The requests that are kept back. -/
def handoverQueue (driver : EpollMultiDriver) : List RequestInfo :=
  match driver.netHandoverHandler with
  | none => []
  | some handler => handler.handoverQueue

/-- Where requests are. -/
def places (driver : EpollMultiDriver) : Places where
  incoming := driver.incomingQueue
  taken := driver.taken
  ongoing := driver.ongoingRequests
  queue := driver.handoverQueue
  completed := driver.calls.map OwnerCall.request

variable {driver : EpollMultiDriver} {held : List RequestInfo} {request : RequestInfo}

/-! ## Incoming requests -/

theorem tryFlowControl_eq (handler : HttpHandoverHandler) :
    handler.tryFlowControl status request =
      if status = start then
        (true, { handler with
          status := status
          handoverQueue := handler.handoverQueue.insert request })
      else (false, { handler with status := status }) := by
  unfold HttpHandoverHandler.tryFlowControl HttpHandoverHandler.handoverQuery
  by_cases isFatal : status = fatal
  · subst isFatal
    rfl
  · rw [if_neg isFatal]

/-- The handover handler keeps an incoming request back. -/
def flowControlled (driver : EpollMultiDriver) (status : Int32) : Bool :=
  driver.netHandoverHandler.isSome && status = start

@[simp] theorem addIncoming_netHandoverHandler :
    (driver.addIncoming added request).netHandoverHandler = driver.netHandoverHandler := by
  cases added <;> rfl

section Incoming

variable {added : RequestInfo → Bool}

theorem incomingRequest_spec : (incomingRequest status added driver request).places =
        (if driver.flowControlled (status request) then
          { driver.places with queue := driver.handoverQueue.insert request }
        else (driver.addIncoming (added request) request).places) ∧
      (incomingRequest status added driver request).netHandoverHandler.isSome =
        driver.netHandoverHandler.isSome := by
  obtain ⟨incoming, ongoing, handler, taken, calls⟩ := driver
  unfold flowControlled incomingRequest
  cases handler with
  | none =>
    rw [addIncoming_netHandoverHandler]
    exact ⟨rfl, rfl⟩
  | some handler =>
    dsimp only
    rw [tryFlowControl_eq]
    by_cases isStart : status request = start
    · rw [if_pos isStart, if_pos (by simpa using isStart)]
      exact ⟨rfl, rfl⟩
    · rw [if_neg isStart, if_neg (by simpa using isStart)]
      cases added request <;> exact ⟨rfl, rfl⟩

end Incoming

/-- The incoming requests that libcurl refuses. -/
def refused (driver : EpollMultiDriver) (status : RequestInfo → Int32)
    (added : RequestInfo → Bool) (request : RequestInfo) : Bool :=
  !driver.flowControlled (status request) && !added request

theorem sound_incomingRequestCallback (sound : Sound held driver.places)
    (status : RequestInfo → Int32) (added : RequestInfo → Bool) :
    Sound (driver.incomingQueue.filter (driver.refused status added) ++ held)
      (driver.incomingRequestCallback status added).places := by
  have flushed : Sound (driver.incomingQueue ++ held) (places { driver with
      incomingQueue := []
      taken := driver.taken ++ driver.incomingQueue }) := sound.flush
  have same (later : EpollMultiDriver) :
      later.netHandoverHandler.isSome = driver.netHandoverHandler.isSome →
      ∀ request, later.flowControlled (status request) =
        driver.flowControlled (status request) := by
    intro present request
    unfold flowControlled
    rw [present]
  refine Sound.foldl places
    (fun later => later.netHandoverHandler.isSome = driver.netHandoverHandler.isSome)
    ?_ ?_ ?_ driver.incomingQueue (by rfl) flushed
  · exact fun later request present => incomingRequest_spec.2.trans present
  · intro later request held present notRefused sound
    cases controlled : later.flowControlled (status request) with
    | true =>
      rw [incomingRequest_spec.1, if_pos controlled]
      exact sound.toQueue
    | false =>
      have isAdded : added request = true := by
        unfold refused at notRefused
        rw [← same later present, controlled] at notRefused
        simpa using notRefused
      rw [incomingRequest_spec.1, if_neg (Bool.eq_false_iff.mp controlled), isAdded]
      exact sound.toOngoing
  · intro later request held present isRefused sound
    unfold refused at isRefused
    rw [← same later present, Bool.and_eq_true, Bool.not_eq_true', Bool.not_eq_true'] at isRefused
    rw [incomingRequest_spec.1, if_neg (Bool.eq_false_iff.mp isRefused.1), isRefused.2]
    exact sound.toOngoing.fromOngoing (lookup_insert _)

/-! ## Messages of libcurl -/

theorem sound_finishRequest (sound : Sound (request :: held) driver.places) :
    Sound held (driver.finishRequest message request).places := by
  have completes : ∀ call : OwnerCall, call.request = request →
      Sound held (places { driver with calls := driver.calls ++ [call] }) := by
    rintro call rfl
    have completed := sound.toCompleted
    unfold places
    rw [map_append]
    exact completed
  unfold finishRequest handleCompletion
  split
  · split
    · exact completes _ rfl
    · exact completes _ rfl
  · exact completes _ rfl

/-- A request that the handler does not process is left alone; otherwise it is kept back
or ongoing again. -/
theorem processRequestNetError_cases (handler : HttpHandoverHandler) (ongoing : OngoingRequests) :
    ∃ later : HttpHandoverHandler,
      (handler.processRequestNetError ongoing request message = (false, later, ongoing) ∧
        later.handoverQueue = handler.handoverQueue) ∨
      (handler.processRequestNetError ongoing request message = (true, later, ongoing) ∧
        later.handoverQueue = handler.handoverQueue.insert request) ∨
      (handler.processRequestNetError ongoing request message =
          (true, later, ongoing.insert request.easyHandle (some request)) ∧
        later.handoverQueue = handler.handoverQueue) := by
  unfold HttpHandoverHandler.processRequestNetError
  split
  · exact ⟨_, .inl ⟨rfl, rfl⟩⟩
  · dsimp only
    split
    · exact ⟨_, .inl ⟨rfl, rfl⟩⟩
    · split
      · exact ⟨_, .inl ⟨rfl, rfl⟩⟩
      · rw [tryFlowControl_eq]
        by_cases isStart : message.status = start
        · rw [if_pos isStart]
          exact ⟨_, .inr (.inl ⟨rfl, rfl⟩)⟩
        · rw [if_neg isStart]
          dsimp only
          split
          · cases message.added with
            | false => exact ⟨_, .inl ⟨rfl, rfl⟩⟩
            | true => exact ⟨_, .inr (.inr ⟨rfl, rfl⟩)⟩
          · exact ⟨_, .inl ⟨rfl, rfl⟩⟩

theorem places_queue (isHandler : driver.netHandoverHandler = some handler) :
    driver.places.queue = handler.handoverQueue := by
  unfold places handoverQueue
  rw [isHandler]

theorem sound_handleCurlDoneMessage (sound : Sound held driver.places) :
    Sound held (driver.handleCurlDoneMessage message).places := by
  unfold handleCurlDoneMessage
  dsimp only
  split
  next absent => exact sound.putNull absent
  · exact sound
  next request found =>
    split
    · exact sound
    · have taken : Sound (request :: held) { driver.places with
          ongoing := driver.ongoingRequests.erase message.easyHandle } := sound.fromOngoing found
      split
      · exact sound_finishRequest taken
      case h_2 handler isHandler =>
        have isQueue := places_queue isHandler
        obtain ⟨later, ⟨isResult, same⟩ | ⟨isResult, kept⟩ | ⟨isResult, same⟩⟩ :=
          processRequestNetError_cases handler
            (driver.ongoingRequests.erase message.easyHandle)
        · have left : Sound (request :: held) (places { driver with
              netHandoverHandler := some later
              ongoingRequests := driver.ongoingRequests.erase message.easyHandle }) := by
            unfold places handoverQueue
            dsimp only
            rw [same, ← isQueue]
            exact taken
          rw [isResult]
          exact sound_finishRequest left
        · have queued := taken.toQueue
          rw [isResult]
          rw [isQueue, ← kept] at queued
          exact queued
        · have ongoing := taken.toOngoing
          rw [isResult]
          rw [isQueue, ← same] at ongoing
          exact ongoing

theorem sound_checkMultiInfo (sound : Sound held driver.places) :
    Sound held (driver.checkMultiInfo messages).places := by
  unfold checkMultiInfo
  induction messages generalizing driver with
  | nil => exact sound
  | cons message messages ih =>
    rw [foldl_cons]
    apply ih
    split
    · exact sound_handleCurlDoneMessage sound
    · exact sound

/-! ## The end of a handover -/

/-- A round leaves a request, puts it again to where it is, or gives it back. -/
theorem undoneRequest_cases (value : Option RequestInfo) :
    undoneRequest probe added undone ⟨handle, value⟩ = undone ∨ ∃ request, value = some request ∧
        (undoneRequest probe added undone ⟨handle, value⟩ =
            { undone with
              ongoingRequests := undone.ongoingRequests.insert request.easyHandle (some request)
              retrans := undone.retrans + 1 } ∨
          undoneRequest probe added undone ⟨handle, value⟩ =
            { undone with
              ongoingRequests := undone.ongoingRequests.erase handle
              calls := undone.calls ++ [.done request CurlCode.sendError] }) := by
  unfold undoneRequest
  cases value with
  | none => exact .inl rfl
  | some request =>
    dsimp only
    split
    · cases added request with
      | false => exact .inr ⟨request, rfl, .inr rfl⟩
      | true => exact .inr ⟨request, rfl, .inl rfl⟩
    · exact .inl rfl

variable {places : Places}

/-- The rounds of `UndoneRequestHandle` over entries that the map still has. -/
theorem sound_foldl_undoneRequest
    {entries : List (Sigma fun _ : CurlHandle => Option RequestInfo)} (distinct : entries.NodupKeys)
    (present : ∀ entry ∈ entries, undone.ongoingRequests.lookup entry.1 = some entry.2)
    (sound : Sound held { places with
      ongoing := undone.ongoingRequests
      completed := places.completed ++ undone.calls.map OwnerCall.request }) :
    let after := entries.foldl (undoneRequest probe added) undone
    Sound held { places with
      ongoing := after.ongoingRequests
      completed := places.completed ++ after.calls.map OwnerCall.request } := by
  induction entries generalizing undone with
  | nil => exact sound
  | cons entry entries ih =>
    obtain ⟨handle, value⟩ := entry
    obtain ⟨fresh, apart⟩ := nodupKeys_cons.mp distinct
    have here := present _ mem_cons_self
    have others : ∀ other ∈ entries, other.1 ≠ handle := by
      rintro other member rfl
      have isKey : other.1 ∈ entries.keys := mem_keys_of_mem member
      exact fresh isKey
    have later : ∀ other ∈ entries, undone.ongoingRequests.lookup other.1 = some other.2 :=
      (forall_mem_cons.mp present).2
    rw [foldl_cons]
    rcases undoneRequest_cases value with
      same | ⟨request, rfl, isAgain | isBack⟩
    · rw [same]
      exact ih apart later sound
    · rw [isAgain]
      refine ih apart (fun other member => ?_) (sound.again here)
      rw [← sound.keyed handle request here, lookup_insert_ne (others other member)]
      exact later other member
    · rw [isBack]
      refine ih apart (fun other member => ?_) ?_
      · rw [lookup_erase_ne (others other member)]
        exact later other member
      · have back := (sound.fromOngoing here).toCompleted
        rw [map_append, ← append_assoc]
        exact back

theorem sound_undoneRequestHandle (sound : Sound held places)
    (probe : RequestInfo → Probe) (added : RequestInfo → Bool) (retrans : Int) :
    let undone := undoneRequestHandle probe added places.ongoing retrans
    Sound held { places with
      ongoing := undone.ongoingRequests
      completed := places.completed ++ undone.calls.map OwnerCall.request } := by
  refine sound_foldl_undoneRequest places.ongoing.nodupKeys ?_ ?_
  · exact fun entry member => mem_lookup_iff.mpr member
  · rw [map_nil, append_nil]
    exact sound

/-- The requests that libcurl refuses at the end of a handover. -/
def refusedAgain (driver : EpollMultiDriver) (status : Int32) (added : RequestInfo → Bool) :
    List RequestInfo :=
  if status = ended ∨ status = timeout then
    driver.handoverQueue.filter fun request => !added request
  else []

theorem sound_foldl_retransRequest (sound : Sound held places) (added : RequestInfo → Bool) :
    Sound (places.queue.filter (fun request => !added request) ++ held) { places with
      queue := []
      ongoing := places.queue.foldl
        (fun ongoing request => (retransRequest ongoing (added request) request).2)
        places.ongoing } := by
  refine Sound.foldl (fun ongoing => { places with queue := [], ongoing := ongoing })
    (fun _ => True) (fun _ _ _ => trivial) ?_ ?_ places.queue trivial sound.fromQueue
  · intro ongoing request held _ isAdded sound
    unfold retransRequest
    rw [if_neg (by simpa using isAdded)]
    exact sound.toOngoing
  · intro ongoing request held _ isRefused sound
    unfold retransRequest
    rw [if_pos isRefused]
    exact sound

theorem sound_handoverRequestCallback
    (isHandler : driver.netHandoverHandler = some handler) (sound : Sound held driver.places)
    (status : Int32) (probe : RequestInfo → Probe) (undoneAdded added : RequestInfo → Bool) :
    let result := handler.handoverRequestCallback driver.ongoingRequests status probe
      undoneAdded added
    Sound (driver.refusedAgain status added ++ held) { driver.places with
      queue := result.1.handoverQueue
      ongoing := result.2.1
      completed := driver.places.completed ++ result.2.2.map OwnerCall.request } := by
  have isQueue := places_queue isHandler
  have unchanged : Sound held { driver.places with
      queue := handler.handoverQueue
      ongoing := driver.ongoingRequests
      completed := driver.places.completed ++ [].map OwnerCall.request } := by
    rw [map_nil, append_nil, ← isQueue]
    exact sound
  unfold HttpHandoverHandler.handoverRequestCallback HttpHandoverHandler.handoverQuery refusedAgain
  by_cases isStart : status = start
  · subst isStart
    exact unchanged
  · rw [if_neg isStart]
    by_cases isOver : status = ended ∨ status = timeout
    · rw [if_pos isOver, if_pos isOver]
      have undone := fun retrans => sound_foldl_retransRequest
        (sound_undoneRequestHandle sound probe undoneAdded retrans) added
      rw [isQueue] at undone
      have same : driver.handoverQueue = handler.handoverQueue := isQueue
      rw [same]
      split
      · exact undone handler.retrans
      · exact undone handler.retrans
    · rw [if_neg isOver, if_neg isOver]
      exact unchanged

/-! ## Runs -/

section

variable (driver : EpollMultiDriver)

/-- Each request that was taken from the incoming queue is ongoing, kept back or
completed, in one place and once; it is completed by one call. -/
def Conserved : Prop := driver.places.Conserved

/-- What libcurl and the allocator promise: a new request has a handle that no request
has which the driver still knows. -/
def Environment : Event → Prop
  | .push request =>
    request ∉ driver.incomingQueue ++ driver.taken ∧
      (∀ other ∈ driver.incomingQueue ++ driver.handoverQueue,
        other.easyHandle ≠ request.easyHandle) ∧
      driver.ongoingRequests.lookup request.easyHandle ∈ [none, some none]
  | _ => True

/-- The condition on an event: libcurl accepts the handles of incoming requests that are
not kept back, and those of the requests that were. -/
def Accepted : Event → Prop
  | .incoming status added =>
    ∀ request ∈ driver.incomingQueue,
      driver.flowControlled (status request) = true ∨ added request = true
  | .handover status _ _ added =>
    status = ended ∨ status = timeout → ∀ request ∈ driver.handoverQueue, added request = true
  | _ => True

/-- A step of a run. -/
def Permitted (event : Event) : Prop :=
  driver.Environment event ∧ driver.Accepted event

/-- A new driver. -/
def created (hasHandover : Bool) : EpollMultiDriver where
  netHandoverHandler := if hasHandover then some {} else none

/-- The requests that an event loses. -/
def lost : Event → List RequestInfo
  | .incoming status added => driver.incomingQueue.filter (driver.refused status added)
  | .handover status _ _ added => driver.refusedAgain status added
  | _ => []

end

variable {event : Event}

theorem lost_eq_nil_iff : driver.lost event = [] ↔ driver.Accepted event := by
  cases event with
  | push request => exact iff_of_true rfl trivial
  | multiInfo messages => exact iff_of_true rfl trivial
  | handoverTimeout status => exact iff_of_true rfl trivial
  | incoming status added =>
    unfold lost Accepted
    rw [filter_eq_nil_iff]
    refine forall₂_congr fun request _ => ?_
    unfold refused
    cases driver.flowControlled (status request) <;> simp
  | handover status probe undoneAdded added =>
    unfold lost Accepted refusedAgain
    dsimp only
    split
    next isOver =>
      rw [imp_iff_right isOver]
      simp
    next notOver => exact iff_of_true rfl fun isOver => absurd isOver notOver

theorem sound_step (sound : Sound [] driver.places) (environment : driver.Environment event) :
    Sound (driver.lost event) (driver.step event).places := by
  cases event with
  | push request =>
    obtain ⟨new, unused, free⟩ := environment
    refine sound.push new unused fun other isOther => ?_
    have isLookup : driver.ongoingRequests.lookup request.easyHandle = some (some other) := isOther
    rw [isLookup] at free
    simp at free
  | multiInfo messages => exact sound_checkMultiInfo sound
  | handoverTimeout status =>
    obtain ⟨incoming, ongoing, handler, taken, calls⟩ := driver
    cases handler with
    | none => exact sound
    | some handler => exact sound
  | incoming status added =>
    have after := sound_incomingRequestCallback sound status added
    rw [append_nil] at after
    exact after
  | handover status probe undoneAdded added =>
    unfold step lost
    cases isHandler : driver.netHandoverHandler with
    | none =>
      have nothing : driver.refusedAgain status added = [] := by
        unfold refusedAgain handoverQueue
        rw [isHandler]
        split <;> rfl
      dsimp only
      rw [nothing]
      exact sound
    | some handler =>
      have after := sound_handoverRequestCallback isHandler sound status probe undoneAdded added
      rw [append_nil] at after
      unfold places handoverQueue
      rw [map_append]
      exact after

/-- Between events no request is in the hands of the driver. -/
def Accounted (driver : EpollMultiDriver) : Prop := Sound [] driver.places

theorem accounted_created : (created hasHandover).Accounted := by
  have noQueue : (created hasHandover).handoverQueue = [] := by cases hasHandover <;> rfl
  unfold Accounted places
  rw [noQueue]
  refine ⟨fun request => rfl, nodup_nil, fun handle request found => ?_, nodup_nil, nofun⟩
  cases found

/-- In every run whose events meet the condition, requests are conserved in every state;
and a next event conserves them if and only if it meets the condition. -/
theorem conserved_of_reach {hasHandover : Bool} {driver : EpollMultiDriver}
    (reach : Run.Reach step Permitted (created hasHandover) driver) :
    driver.Conserved ∧ ∀ event, driver.Environment event →
        ((driver.step event).Conserved ↔ driver.Accepted event) := by
  have sound : driver.Accounted := by
    refine reach.invariant accounted_created fun before event sound permitted => ?_
    have after := sound_step sound permitted.1
    rwa [lost_eq_nil_iff.mpr permitted.2] at after
  refine ⟨sound.conserved_iff.mpr rfl, fun event environment => ?_⟩
  exact (sound_step sound environment).conserved_iff.trans lost_eq_nil_iff

instance (driver : EpollMultiDriver) : (event : Event) → Decidable (driver.Permitted event)
  | .push _ => inferInstanceAs (Decidable ((_ ∧ _ ∧ _) ∧ True))
  | .incoming _ _ => inferInstanceAs (Decidable (True ∧ ∀ request ∈ _, _ ∨ _))
  | .multiInfo _ => inferInstanceAs (Decidable (True ∧ True))
  | .handover _ _ _ _ =>
    inferInstanceAs (Decidable (True ∧ (_ ∨ _ → ∀ request ∈ driver.handoverQueue, _)))
  | .handoverTimeout _ => inferInstanceAs (Decidable (True ∧ True))

/-- The answer to a request is a redirection. -/
def redirection (easyHandle : CurlHandle) : CurlMessage where
  easyHandle := easyHandle
  responseCode := 302
  location := some "/"
  interceptor := some true

/-- Two requests come in, the second during a handover; both are done in the end. -/
def twoRequests : List Event :=
  [.push ⟨1, 11⟩, .incoming (fun _ => init) (fun _ => true),
    .handover start (fun _ => {}) (fun _ => true) (fun _ => true),
    .push ⟨2, 12⟩, .incoming (fun _ => start) (fun _ => false),
    .multiInfo [{ easyHandle := 11, result := CurlCode.recvError }],
    .handover ended (fun _ => {}) (fun _ => false) (fun _ => true),
    .multiInfo [redirection 12]]

theorem conserved_twoRequests :
    Run.PermittedAll step Permitted (created true) twoRequests ∧
      (twoRequests.foldl step (created true)).taken = [⟨1, 11⟩, ⟨2, 12⟩] ∧
      (twoRequests.foldl step (created true)).Conserved := by
  have permitted : Run.PermittedAll step Permitted (created true) twoRequests := by
    decide +kernel
  exact ⟨permitted, by decide +kernel,
    (conserved_of_reach (Run.Reach.start.foldl twoRequests permitted)).1⟩

/-- A request that libcurl refuses is in no place, and its owner is not called. -/
theorem not_conserved_refused :
    let driver := [.push ⟨1, 11⟩, .incoming (fun _ => init) (fun _ => false)].foldl
      step (created true)
    driver.taken = [⟨1, 11⟩] ∧ driver.ongoingRequests.entries = [] ∧ driver.handoverQueue = [] ∧
      driver.calls.length = 0 ∧ ¬ driver.Conserved := by
  intro driver
  have noCalls : driver.calls.length = 0 := by decide +kernel
  have isTaken : driver.taken = [⟨1, 11⟩] := by decide +kernel
  refine ⟨isTaken, by decide +kernel, by decide +kernel, noCalls, fun conserved => ?_⟩
  have member : ⟨1, 11⟩ ∈ driver.taken := isTaken ▸ mem_cons_self
  have none : valueCount driver.ongoingRequests (some ⟨1, 11⟩) +
      driver.handoverQueue.count ⟨1, 11⟩ +
      (driver.calls.map OwnerCall.request).count ⟨1, 11⟩ = 0 := by decide +kernel
  have once := conserved ⟨1, 11⟩ member
  exact absurd (none.symm.trans once) Nat.zero_ne_one

end EpollMultiDriver

end NetManager.Http
