import NetManager.ConnService.Frame
import NetManager.Library.Run

/-!
# Every request has its best network

After `FindBestNetworkForAllRequest` each request is served by the best matching supplier,
and the list of best requests of a supplier has exactly the requests that it serves. This
holds as long as no two requests have the same id: ids are given out in a circle, and
nothing checks that the next one is free.
-/

namespace NetManager.ConnService

open NetActivate NetConnService

/-! ## What a request asks for -/

/-- A supplier has what a request asks for. -/
structure Matches (activate : NetActivate) (supplier : NetSupplier) : Prop where
  capabilities : if activate.netSpecifier.netCaps = [] then NetCap.internet ∈ supplier.netCaps
    else ∀ cap ∈ activate.netSpecifier.netCaps, cap ∈ supplier.netCaps
  bearerType : activate.netSpecifier.bearerTypes = [] ∨
    supplier.netSupplierType ∈ activate.netSpecifier.bearerTypes
  ident : supplier.netSupplierIdent = "" ∨ activate.netSpecifier.ident = "" ∨
    activate.netSpecifier.ident = "wifi" ∨
    supplier.netSupplierIdent = activate.netSpecifier.ident
  bandwidth : activate.netSpecifier.linkUpBandwidthKbps ≤ supplier.linkUpBandwidthKbps ∧
    activate.netSpecifier.linkDownBandwidthKbps ≤ supplier.linkDownBandwidthKbps

namespace NetActivate

variable (activate : NetActivate)

theorem compareByNetworkCapabilities_iff (supplier : NetSupplier) :
    activate.compareByNetworkCapabilities supplier = true ↔
      if activate.netSpecifier.netCaps = [] then NetCap.internet ∈ supplier.netCaps
      else ∀ cap ∈ activate.netSpecifier.netCaps, cap ∈ supplier.netCaps := by
  unfold compareByNetworkCapabilities
  by_cases empty : activate.netSpecifier.netCaps = []
  · simp [empty, NetSupplier.hasNetCap]
  · simp [empty, NetSupplier.hasNetCaps, NetSupplier.hasNetCap]

theorem compareByNetworkIdent_iff (ident : String) (bearerType : NetBearType) :
    activate.compareByNetworkIdent ident bearerType false = true ↔
      ident = "" ∨ activate.netSpecifier.ident = "" ∨ activate.netSpecifier.ident = "wifi" ∨
        ident = activate.netSpecifier.ident := by
  unfold compareByNetworkIdent identWifi
  by_cases empty : ident = "" ∨ activate.netSpecifier.ident = ""
  · simp only [Bool.or_eq_true, decide_eq_true_eq, if_pos empty, true_iff]
    exact empty.imp_right .inl
  · rw [not_or] at empty
    by_cases isWifi : "wifi" = activate.netSpecifier.ident
    · simp [← isWifi]
    · by_cases same : ident = activate.netSpecifier.ident
      · simp [same]
      · simp [empty.1, empty.2, isWifi, same, eq_comm]

theorem matchRequestAndNetwork_iff :
    activate.matchRequestAndNetwork supplier false = true ↔ Matches activate supplier := by
  have capabilities := activate.compareByNetworkCapabilities_iff supplier
  have ident := activate.compareByNetworkIdent_iff supplier.netSupplierIdent
    supplier.netSupplierType
  have bearerType : activate.compareByNetworkNetType supplier.netSupplierType = true ↔
      activate.netSpecifier.bearerTypes = [] ∨
        supplier.netSupplierType ∈ activate.netSpecifier.bearerTypes := by
    simp [compareByNetworkNetType]
  have bandwidth : activate.compareByNetworkBand supplier.linkUpBandwidthKbps
        supplier.linkDownBandwidthKbps = true ↔
      activate.netSpecifier.linkUpBandwidthKbps ≤ supplier.linkUpBandwidthKbps ∧
        activate.netSpecifier.linkDownBandwidthKbps ≤ supplier.linkDownBandwidthKbps := by
    simp [compareByNetworkBand]
  have parts : activate.matchRequestAndNetwork supplier false =
      (activate.compareByNetworkCapabilities supplier &&
        activate.compareByNetworkNetType supplier.netSupplierType &&
        activate.compareByNetworkIdent supplier.netSupplierIdent supplier.netSupplierType false &&
        activate.compareByNetworkBand supplier.linkUpBandwidthKbps
          supplier.linkDownBandwidthKbps) := by
    unfold matchRequestAndNetwork
    split_ifs <;> simp_all
  rw [parts, Bool.and_eq_true, Bool.and_eq_true, Bool.and_eq_true, capabilities, bearerType, ident,
    bandwidth]
  constructor
  · rintro ⟨⟨⟨hasCapabilities, hasType⟩, hasIdent⟩, hasBand⟩
    exact ⟨hasCapabilities, hasType, hasIdent, hasBand⟩
  · intro matched
    exact ⟨⟨⟨matched.capabilities, matched.bearerType⟩, matched.ident⟩, matched.bandwidth⟩

end NetActivate

namespace NetConnService

/-- A supplier that may serve a request. -/
structure Candidate (service : NetConnService) (activate : NetActivate) (number : Nat) : Prop where
  isRegistered : number ∈ service.registered
  isConnected : (service.suppliers number).isConnected = true
  matched : Matches activate (service.suppliers number)
  positive : 0 < (service.suppliers number).getRealScore

/-- A request has the best candidate, or none if there is none. -/
def ServedBest (service : NetConnService) (activate : NetActivate) : Prop :=
  match activate.netServiceSupplied with
  | none => ∀ other, ¬ service.Candidate activate other
  | some number => service.Candidate activate number ∧ ∀ other, service.Candidate activate other →
        (service.suppliers other).getRealScore ≤ (service.suppliers number).getRealScore

theorem findBestNetworkForRequest_congr (service : NetConnService)
    (same : first.netSpecifier = second.netSpecifier) :
    service.findBestNetworkForRequest first = service.findBestNetworkForRequest second := by
  have matched : first.matchRequestAndNetwork = second.matchRequestAndNetwork := by
    funext supplier skipCheckIdent
    unfold matchRequestAndNetwork compareByNetworkCapabilities
      compareByNetworkNetType compareByNetworkIdent
      compareByNetworkBand
    rw [same]
  unfold findBestNetworkForRequest
  rw [matched]

variable {activate : NetActivate}

theorem servedBest_findBest (service : NetConnService)
    (isBest : activate.netServiceSupplied = (service.findBestNetworkForRequest activate).2) :
    service.ServedBest activate := by
  unfold ServedBest
  split
  next missing =>
    rw [missing] at isBest
    intro other candidate
    have bound := Best.noBest_of_pick isBest.symm other candidate.isRegistered (by
      rw [Bool.and_eq_true, matchRequestAndNetwork_iff]
      exact ⟨candidate.isConnected, candidate.matched⟩)
    exact absurd candidate.positive (not_lt.mpr bound)
  next number found =>
    rw [found] at isBest
    have best := Best.isBest_of_pick isBest.symm
    have eligible := best.isEligible
    rw [Bool.and_eq_true, matchRequestAndNetwork_iff] at eligible
    refine ⟨⟨best.mem, eligible.1, eligible.2, best.positive⟩, fun other candidate => ?_⟩
    apply best.maximal other candidate.isRegistered
    rw [Bool.and_eq_true, matchRequestAndNetwork_iff]
    exact ⟨candidate.isConnected, candidate.matched⟩

variable {before after : NetConnService}

theorem candidate_congr (same : after.frame = before.frame)
    (candidate : before.Candidate activate number) :
    after.Candidate activate number := by
  refine ⟨?_, ?_, ?_, ?_⟩
  · rw [registered_of_frame same]
    exact candidate.isRegistered
  · rw [isConnected_of_frame same]
    exact candidate.isConnected
  · rw [← matchRequestAndNetwork_iff, matchRequestAndNetwork_of_frame same,
      matchRequestAndNetwork_iff]
    exact candidate.matched
  · rw [getRealScore_of_frame same]
    exact candidate.positive

theorem servedBest_congr (same : after.frame = before.frame) (best : before.ServedBest activate) :
    after.ServedBest activate := by
  unfold ServedBest at best ⊢
  split at best
  · exact fun other candidate => best other (candidate_congr same.symm candidate)
  next number found =>
    refine ⟨candidate_congr same best.1, fun other candidate => ?_⟩
    rw [getRealScore_of_frame same, getRealScore_of_frame same]
    exact best.2 other (candidate_congr same.symm candidate)

/-! ## One request -/

section

variable (service : NetConnService) (activate : NetActivate)

theorem quiet_sendRequestToAllNetwork :
    Quiet service (service.sendRequestToAllNetwork activate) := by
  apply eachSupplier_quiet
  · intro number supplier
    split
    · exact supplier.profile_requestToConnect _ _
    · rfl
  · intro number supplier
    split
    · exact supplier.bestReqList_requestToConnect _ _
    · rfl

theorem quiet_sendBestScoreAllNetwork (reqId : UInt32) (bestScore : Int) (supplierId : UInt32) :
    Quiet service (service.sendBestScoreAllNetwork reqId bestScore supplierId) := by
  apply eachSupplier_quiet
  · intro number supplier
    split
    · rfl
    · exact supplier.profile_receiveBestScore _ _ _
  · intro number supplier
    split
    · rfl
    · exact supplier.bestReqList_receiveBestScore _ _ _

/-- What `NotFindBestSupplier` and the selection of a supplier have in common: the request
leaves the list of the supplier that it had and enters the list of `best`. -/
structure Moves (service : NetConnService) (activate : NetActivate) (best : Option Nat)
    (result : NetActivate × NetConnService) : Prop where
  core : ∃ skip, result.1.core =
    { activate with netServiceSupplied := best, needSkipLostDelay := skip }.core
  frame : result.2.frame = service.frame
  default : result.2.defaultNetSupplier = service.defaultNetSupplier
  lists : ∀ number, result.2.bestRequests number =
    if best = some number then insert activate.requestId (service.bestRequests number)
    else if activate.netServiceSupplied = some number then
      (service.bestRequests number).erase activate.requestId
    else service.bestRequests number

theorem moves_notFindBestSupplier :
    Moves service activate none (service.notFindBestSupplier activate) := by
  unfold notFindBestSupplier
  cases supplied : activate.netServiceSupplied with
  | none =>
    obtain ⟨frame, default, -, -, lists⟩ := service.quiet_sendRequestToAllNetwork
      { activate with netServiceSupplied := none }
    refine ⟨⟨activate.needSkipLostDelay, rfl⟩, frame, default, fun number => ?_⟩
    rw [lists, supplied, if_neg nofun, if_neg nofun]
  | some old =>
    dsimp only
    obtain ⟨core, sent, equal⟩ := (service.modifySupplier old
      (·.removeBestRequest activate.requestId)).tellLost_spec old activate
    rw [equal]
    obtain ⟨frame, default, -, -, lists⟩ := quiet_sendRequestToAllNetwork
      { service.modifySupplier old (·.removeBestRequest activate.requestId) with sent := sent }
      { ((service.modifySupplier old
          (·.removeBestRequest activate.requestId)).tellLost old activate).1 with
        netServiceSupplied := none }
    have removed := service.frame_modifySupplier old (·.removeBestRequest activate.requestId)
      fun _ => rfl
    refine ⟨⟨activate.needSkipLostDelay, ?_⟩, frame.trans removed, default, fun number => ?_⟩
    · exact congrArg (fun request : NetActivate => { request with netServiceSupplied := none }) core
    · rw [lists, supplied, if_neg nofun]
      exact service.bestRequests_modifySupplier_some old number
        (·.removeBestRequest activate.requestId)

theorem leaveOldSupplier_spec :
    (service.leaveOldSupplier activate).frame = service.frame ∧
      (service.leaveOldSupplier activate).defaultNetSupplier = service.defaultNetSupplier ∧
      ∀ number, (service.leaveOldSupplier activate).bestRequests number =
        if activate.netServiceSupplied = some number then
          (service.bestRequests number).erase activate.requestId
        else service.bestRequests number := by
  unfold leaveOldSupplier
  cases activate.netServiceSupplied with
  | none => exact ⟨rfl, rfl, fun number => (if_neg nofun).symm⟩
  | some old =>
    exact ⟨service.frame_modifySupplier old _ fun _ => rfl, rfl, fun number =>
      service.bestRequests_modifySupplier_some old number _⟩

theorem moves_serve (activate : NetActivate) :
    Moves service activate (some best) (service.serve score best activate) := by
  obtain ⟨sentFrame, sentDefault, -, -, sentLists⟩ := service.quiet_sendBestScoreAllNetwork
    activate.requestId score (service.suppliers best).supplierId
  generalize scored : service.sendBestScoreAllNetwork activate.requestId score
    (service.suppliers best).supplierId = after at sentFrame sentDefault sentLists
  have selectedFrame := after.frame_modifySupplier best
    (·.selectAsBestNetwork activate.requestId activate.isControlled)
    fun supplier => supplier.profile_selectAsBestNetwork _ _
  have selectedLists number :
      (after.modifySupplier best
        (·.selectAsBestNetwork activate.requestId activate.isControlled)).bestRequests number =
      if some best = some number then insert activate.requestId (service.bestRequests number)
      else service.bestRequests number := by
    rw [bestRequests_modifySupplier_some, NetSupplier.bestReqList_selectAsBestNetwork,
      ← sentLists number]
    rfl
  unfold serve
  dsimp only
  rw [scored]
  by_cases stays : activate.netServiceSupplied = some best
  · rw [if_pos stays]
    refine ⟨⟨false, ?_⟩, selectedFrame.trans sentFrame, sentDefault, fun number => ?_⟩
    · rw [← stays]
    · rw [selectedLists, stays]
      split
      all_goals rfl
  · rw [if_neg stays]
    obtain ⟨leftFrame, leftDefault, leftLists⟩ := leaveOldSupplier_spec
      (after.modifySupplier best (·.selectAsBestNetwork activate.requestId activate.isControlled))
      { activate with needSkipLostDelay := false }
    obtain ⟨core, sent, equal⟩ := callbackForAvailable_spec
      ((after.modifySupplier best
        (·.selectAsBestNetwork activate.requestId activate.isControlled)).leaveOldSupplier
        { activate with needSkipLostDelay := false })
      best { activate with needSkipLostDelay := false, netServiceSupplied := some best }
    refine ⟨⟨false, core⟩, ?_, ?_, fun number => ?_⟩
    · rw [equal]
      exact (leftFrame.trans selectedFrame).trans sentFrame
    · rw [equal]
      exact leftDefault.trans sentDefault
    · rw [equal]
      refine Eq.trans (leftLists number) ?_
      rw [selectedLists]
      by_cases same : some best = some number
      · have other : ¬ activate.netServiceSupplied = some number := same ▸ stays
        simp only [if_neg other, if_pos same]
      · simp only [if_neg same]

end

/-- A round for a request that is not left out. -/
structure RoundSpec (service : NetConnService) (entry : UInt32 × NetActivate)
    (result : (UInt32 × NetActivate) × NetConnService) : Prop where
  key : result.1.1 = entry.1
  core : ∃ skip, result.1.2.core =
    { entry.2 with
      netServiceSupplied := (service.findBestNetworkForRequest entry.2).2
      needSkipLostDelay := skip }.core
  frame : result.2.frame = service.frame
  default : result.2.defaultNetSupplier =
    if entry.2.isDefault then (service.findBestNetworkForRequest entry.2).2
    else service.defaultNetSupplier
  lists : ∀ number, result.2.bestRequests number =
    if (service.findBestNetworkForRequest entry.2).2 = some number then
      insert entry.2.requestId (service.bestRequests number)
    else if entry.2.netServiceSupplied = some number then
      (service.bestRequests number).erase entry.2.requestId
    else service.bestRequests number

theorem findBestRound_spec (notSkipped : isSkipped entry.2 = false) :
    RoundSpec service entry (findBestRound entry service) := by
  unfold findBestRound
  rw [if_neg (by simp [notSkipped])]
  generalize found : service.findBestNetworkForRequest entry.2 = result
  obtain ⟨score, best⟩ := result
  have moves (start : NetConnService) : start.frame = service.frame →
      (∀ number, start.bestRequests number = service.bestRequests number) →
      start.defaultNetSupplier = (if entry.2.isDefault then best else service.defaultNetSupplier) →
      ∀ result, Moves start entry.2 best result →
        RoundSpec service entry ((entry.1, result.1), result.2) := by
    intro frame lists default result moves
    have same : (service.findBestNetworkForRequest entry.2).2 = best := by rw [found]
    refine ⟨rfl, ?_, moves.frame.trans frame, ?_, fun number => ?_⟩
    · rw [same]
      exact moves.core
    · rw [same]
      exact moves.default.trans default
    · rw [same, moves.lists, lists]
  have start : ∀ result,
      Moves (if entry.2.isDefault = true then service.makeDefaultNetWork best else service)
        entry.2 best result → RoundSpec service entry ((entry.1, result.1), result.2) := by
    apply moves
    all_goals split
    all_goals first | rfl | exact fun _ => rfl
  cases best with
  | none => exact start _ (moves_notFindBestSupplier _ _)
  | some number => exact start _ (moves_serve _ _)

theorem findBestRound_cases :
    (isSkipped entry.2 = true ∧ findBestRound entry service = (entry, service)) ∨
      (isSkipped entry.2 = false ∧ RoundSpec service entry (findBestRound entry service)) := by
  cases skipped : isSkipped entry.2 with
  | true => exact .inl ⟨rfl, if_pos skipped⟩
  | false => exact .inr ⟨rfl, findBestRound_spec skipped⟩

/-! ## All requests -/

/-- What always holds for a request. -/
structure Sound (service : NetConnService) (entry : UInt32 × NetActivate) : Prop where
  served : ∀ number, entry.2.requestId ∈ service.bestRequests number →
    entry.2.netServiceSupplied = some number
  default : entry.2.isDefault = true →
    entry.2.requestId = defaultRequestId ∧ entry.2.netSpecifier.bearerTypes = [] ∧
      entry.2.netConnCallback = none ∧ entry.2.isFrozenedSkip = false

/-- What holds for a request after `FindBestNetworkForAllRequest`. -/
structure Settled (service : NetConnService) (entry : UInt32 × NetActivate) : Prop where
  sound : Sound service entry
  best : isSkipped entry.2 = false → service.ServedBest entry.2
  listed : isSkipped entry.2 = false → ∀ number,
    entry.2.requestId ∈ service.bestRequests number ↔ entry.2.netServiceSupplied = some number
  default : entry.2.isDefault = true → service.defaultNetSupplier = entry.2.netServiceSupplied

/-- The ids of requests. -/
def requestIds (entries : List (UInt32 × NetActivate)) : List UInt32 :=
  entries.map fun entry => entry.2.requestId

/-- The lists of best requests have no other ids. -/
def Known (reqIds : List UInt32) (service : NetConnService) : Prop :=
  ∀ number, ∀ reqId ∈ service.bestRequests number, reqId ∈ reqIds

/-- What always holds. -/
structure Consistent (service : NetConnService) : Prop where
  distinct : (requestIds service.netUidActivates).Nodup
  sound : ∀ entry ∈ service.netUidActivates, Sound service entry
  known : Known (requestIds service.netUidActivates) service
  hasDefault : ∃ entry ∈ service.netUidActivates, entry.2.isDefault = true

section Round

theorem mem_lists_other (spec : RoundSpec service entry result)
    (different : reqId ≠ entry.2.requestId) (number : Nat) :
    reqId ∈ result.2.bestRequests number ↔ reqId ∈ service.bestRequests number := by
  rw [spec.lists]
  split_ifs
  · rw [Finset.mem_insert, or_iff_right different]
  · rw [Finset.mem_erase, and_iff_right different]
  · rfl

theorem Sound.settled (sound : Sound service entry) :
    Settled (findBestRound entry service).2 (findBestRound entry service).1 := by
  obtain ⟨skipped, round⟩ | ⟨-, spec⟩ := findBestRound_cases
  · rw [round]
    refine ⟨sound, fun free => absurd (skipped.symm.trans free) (by decide),
      fun free => absurd (skipped.symm.trans free) (by decide), fun isDefault => ?_⟩
    have notFrozen := (sound.default isDefault).2.2.2
    simp [isSkipped, notFrozen] at skipped
  · generalize findBestRound entry service = result at spec
    obtain ⟨skip, core⟩ := spec.core
    have kept := NetActivate.Keeps.of_core core
    obtain ⟨reqId, isDefault, supplied, specifier, callback, frozen⟩ := kept
    have listed number : result.1.2.requestId ∈ result.2.bestRequests number ↔
        result.1.2.netServiceSupplied = some number := by
      rw [reqId, supplied, spec.lists]
      split_ifs with isBest had
      · exact iff_of_true (Finset.mem_insert_self _ _) isBest
      · exact iff_of_false (Finset.notMem_erase _ _) isBest
      · exact iff_of_false (fun member => had (sound.served number member)) isBest
    refine ⟨⟨fun number => (listed number).mp, fun default => ?_⟩, fun _ => ?_, fun _ => listed,
      fun default => ?_⟩
    · rw [isDefault] at default
      obtain ⟨isZero, types, noCallback, notFrozen⟩ := sound.default default
      rw [reqId, specifier, callback]
      exact ⟨isZero, types, noCallback, frozen types notFrozen⟩
    · apply servedBest_congr spec.frame
      apply servedBest_findBest
      rw [supplied, service.findBestNetworkForRequest_congr specifier]
      exact congrArg Prod.snd (service.findBestNetworkForRequest_congr rfl)
    · rw [isDefault] at default
      rw [spec.default, if_pos default, supplied]

theorem Sound.other (sound : Sound service entry)
    (key : different.2.requestId ≠ entry.2.requestId) :
    (Sound service different → Sound (findBestRound entry service).2 different) ∧
      (Settled service different → Settled (findBestRound entry service).2 different) := by
  obtain ⟨-, round⟩ | ⟨-, spec⟩ := findBestRound_cases
  · rw [round]
    exact ⟨id, id⟩
  · have lists := mem_lists_other spec key
    have kept : Sound service different → Sound (findBestRound entry service).2 different :=
      fun before => ⟨fun number member => before.served number ((lists number).mp member),
        before.default⟩
    refine ⟨kept, fun settled => ⟨kept settled.sound,
      fun free => servedBest_congr spec.frame (settled.best free),
      fun free number => (lists number).trans (settled.listed free number), fun isDefault => ?_⟩⟩
    have notDefault : ¬ entry.2.isDefault = true := fun entryDefault =>
      key ((settled.sound.default isDefault).1.trans (sound.default entryDefault).1.symm)
    rw [spec.default, if_neg notDefault]
    exact settled.default isDefault

theorem known_findBestRound (member : reqId ∈ (findBestRound entry service).2.bestRequests number) :
    reqId ∈ service.bestRequests number ∨ reqId = entry.2.requestId := by
  by_cases own : reqId = entry.2.requestId
  · exact .inr own
  · left
    obtain ⟨-, round⟩ | ⟨-, spec⟩ := findBestRound_cases
    · rw [round] at member
      exact member
    · exact (mem_lists_other spec own number).mp member

end Round

theorem findBestRound_id :
    (findBestRound entry service).1.2.requestId = entry.2.requestId ∧
      (findBestRound entry service).1.2.isDefault = entry.2.isDefault := by
  obtain ⟨-, round⟩ | ⟨-, spec⟩ := findBestRound_cases
  · rw [round]
    exact ⟨rfl, rfl⟩
  · obtain ⟨skip, core⟩ := spec.core
    have kept := NetActivate.Keeps.of_core core
    exact ⟨kept.requestId, kept.isDefault⟩

variable {service : NetConnService}

theorem Consistent.findBest (consistent : service.Consistent) :
    service.findBestNetworkForAllRequest.Consistent ∧
      ∀ entry ∈ service.findBestNetworkForAllRequest.netUidActivates,
        Settled service.findBestNetworkForAllRequest entry := by
  have loop := Each.run_good
    (Known (requestIds service.netUidActivates))
    (fun after entry => Sound after entry ∧ entry.2.requestId ∈ requestIds service.netUidActivates)
    Settled
    (fun entry after known ready =>
      ⟨fun number reqId member => (known_findBestRound member).elim (known number reqId)
        fun own => own ▸ ready.2, ready.1.settled, findBestRound_id.1⟩)
    (fun entry after known ready different key =>
      ⟨fun before => ⟨(ready.1.other key).1 before.1, before.2⟩, (ready.1.other key).2⟩)
    consistent.distinct consistent.known
    fun entry member => ⟨consistent.sound entry member, List.mem_map_of_mem member⟩
  obtain ⟨known, settled, keys, -⟩ := loop
  have frame : service.findBestNetworkForAllRequest.frame =
      (Each.run findBestRound service.netUidActivates service).2.frame := rfl
  have ids : requestIds service.findBestNetworkForAllRequest.netUidActivates =
      requestIds service.netUidActivates := keys
  have settledAll : ∀ entry ∈ service.findBestNetworkForAllRequest.netUidActivates,
      Settled service.findBestNetworkForAllRequest entry := fun entry member =>
    ⟨⟨(settled entry member).sound.served, (settled entry member).sound.default⟩,
      fun free => servedBest_congr frame ((settled entry member).best free),
      (settled entry member).listed, (settled entry member).default⟩
  refine ⟨⟨?_, fun entry member => (settledAll entry member).sound, ?_, ?_⟩, settledAll⟩
  · rw [ids]
    exact consistent.distinct
  · rw [ids]
    exact known
  · obtain ⟨entry, member, isDefault⟩ := consistent.hasDefault
    obtain ⟨before, found⟩ := Each.exists_mem_run member
    exact ⟨_, found, findBestRound_id.2.trans isDefault⟩

/-! ## The other calls -/

theorem Consistent.of_subset (consistent : before.Consistent)
    (activates : after.netUidActivates = before.netUidActivates)
    (lists : ∀ number, after.bestRequests number ⊆ before.bestRequests number) :
    after.Consistent := by
  refine ⟨?_, fun entry member => ?_, fun number reqId member => ?_, ?_⟩
  · rw [activates]
    exact consistent.distinct
  · rw [activates] at member
    have sound := consistent.sound entry member
    exact ⟨fun number listed => sound.served number (lists number listed), sound.default⟩
  · rw [activates]
    exact consistent.known number reqId (lists number member)
  · rw [activates]
    exact consistent.hasDefault

/-- A call for a request that keeps it and adds nothing to lists. -/
def Mild (service : NetConnService) (activate : NetActivate)
    (result : NetActivate × NetConnService) : Prop :=
  NetActivate.Keeps activate result.1 ∧
    ∀ number, result.2.bestRequests number ⊆ service.bestRequests number

/-- What a request is known by: its key, its user, its callback and what it asks for. -/
abbrev Ticket := UInt32 × UInt32 × Option Nat × NetSpecifier

def ticket (entry : UInt32 × NetActivate) : Ticket :=
  (entry.1, entry.2.uid, entry.2.netConnCallback, entry.2.netSpecifier)

/-- A mild round that keeps the frame. -/
structure Gentle (service : NetConnService) (entry : UInt32 × NetActivate)
    (result : (UInt32 × NetActivate) × NetConnService) : Prop where
  mild : service.Mild entry.2 (result.1.2, result.2)
  ticket : ticket result.1 = ticket entry
  frame : result.2.frame = service.frame

theorem snd_ticket {before after : NetActivate} (core : after.core = before.core) (key : UInt32) :
    (ticket (key, after)).2 = (ticket (key, before)).2 :=
  (congrArg (fun request => (ticket (key, request)).2) core :)

theorem Tells.gentle (key : result.1.1 = entry.1)
    (tells : service.Tells entry.2 (result.1.2, result.2)) : service.Gentle entry result := by
  obtain ⟨core, sent, equal : result.2 = _⟩ := tells
  refine ⟨⟨.of_core core, fun number => ?_⟩, Prod.ext key (snd_ticket core 0), ?_⟩
  · rw [equal]
    exact Finset.Subset.refl _
  · rw [equal]
    rfl

theorem Consistent.each (consistent : service.Consistent)
    (gentle : ∀ entry (service : NetConnService), service.Gentle entry (body entry service)) :
    (service.eachActivate body).Consistent := by
  have mild := fun entry service => (gentle entry service).mild
  have subset : ∀ number,
      (service.eachActivate body).bestRequests number ⊆ service.bestRequests number :=
    Each.run_invariant
      (fun after => ∀ number, after.bestRequests number ⊆ service.bestRequests number)
      (fun _ => Finset.Subset.refl _)
      fun entry _ after before number => ((mild entry after).2 number).trans (before number)
  have ids : requestIds (service.eachActivate body).netUidActivates =
      requestIds service.netUidActivates :=
    Each.map_run (fun entry service => (mild entry service).1.requestId)
  refine ⟨?_, fun result member => ?_, fun number reqId member => ?_, ?_⟩
  · rw [ids]
    exact consistent.distinct
  · obtain ⟨entry, found, before, rfl⟩ := Each.exists_of_mem_run member
    have sound := consistent.sound entry found
    have kept := (mild entry before).1
    refine ⟨fun number listed => ?_, fun isDefault => ?_⟩
    · rw [kept.requestId] at listed
      rw [kept.supplied]
      exact sound.served number (subset number listed)
    · rw [kept.isDefault] at isDefault
      obtain ⟨reqId, types, callback, frozen⟩ := sound.default isDefault
      refine ⟨kept.requestId.trans reqId, ?_, kept.callback.trans callback,
        kept.frozen types frozen⟩
      rw [kept.specifier]
      exact types
  · rw [ids]
    exact consistent.known number reqId (subset number member)
  · obtain ⟨entry, member, isDefault⟩ := consistent.hasDefault
    obtain ⟨before, found⟩ := Each.exists_mem_run member
    exact ⟨_, found, (mild entry before).1.isDefault.trans isDefault⟩

/-- The request has left the list of its supplier, and no list has grown. -/
structure Cancelled (service : NetConnService) (activate : NetActivate)
    (after : NetConnService) : Prop where
  frame : after.frame = service.frame
  subset : ∀ number, after.bestRequests number ⊆ service.bestRequests number
  removed : ∀ number, activate.netServiceSupplied = some number →
    activate.requestId ∉ after.bestRequests number

theorem cancelled_cancelRequestForSupplier (service : NetConnService) (activate : NetActivate) :
    service.Cancelled activate (service.cancelRequestForSupplier activate) := by
  apply eachSupplier_invariant (service.Cancelled activate)
  · cases supplied : activate.netServiceSupplied with
    | none =>
      refine ⟨rfl, fun _ => Finset.Subset.refl _, fun number is => ?_⟩
      exact absurd (supplied.symm.trans is) nofun
    | some old =>
      refine ⟨service.frame_modifySupplier old _ fun _ => rfl, fun number => ?_, fun number is => ?_⟩
      · rw [bestRequests_modifySupplier]
        split
        next same => exact same ▸ Finset.erase_subset _ _
        · exact Finset.Subset.refl _
      · rw [bestRequests_modifySupplier, if_pos (Option.some.inj (is.symm.trans supplied))]
        exact Finset.notMem_erase _ _
  · rintro after number ⟨frame, subset, removed⟩
    have kept := after.frame_modifySupplier number (·.cancelRequest activate.requestId) fun _ => rfl
    refine ⟨kept.trans frame, fun other => ?_, fun other supplied => ?_⟩
    · rw [bestRequests_modifySupplier]
      split
      next same => exact same ▸ (Finset.erase_subset _ _).trans (same ▸ subset other)
      · exact subset other
    · rw [bestRequests_modifySupplier]
      split
      · exact Finset.notMem_erase _ _
      · exact removed other supplied

/-! ## Events that keep the requests -/

/-- The counters of the service. -/
def tally (service : NetConnService) :=
  (service.netUidRequest, service.internalDefaultUidRequest, service.netIdLastValue,
    service.internalNetIdLastValue, service.isHanging)

/-- A service comes from another one by changes of other fields, gentle loops and searches for
the best networks. -/
inductive Evolves (start : NetConnService) : NetConnService → Prop
  | refl : Evolves start start
  | change {before after : NetConnService} (evolves : Evolves start before)
      (activates : after.netUidActivates = before.netUidActivates)
      (tally : after.tally = before.tally)
      (lists : ∀ number, after.bestRequests number ⊆ before.bestRequests number) :
      Evolves start after
  | each {before : NetConnService}
      {body : UInt32 × NetActivate → NetConnService → (UInt32 × NetActivate) × NetConnService}
      (evolves : Evolves start before)
      (gentle : ∀ entry (service : NetConnService), service.Gentle entry (body entry service)) :
      Evolves start (before.eachActivate body)
  | findBest {before : NetConnService} (evolves : Evolves start before) :
      Evolves start before.findBestNetworkForAllRequest

section Evolves

variable {start : NetConnService}

theorem Evolves.consistent (evolves : Evolves start service) (consistent : start.Consistent) :
    service.Consistent := by
  induction evolves with
  | refl => exact consistent
  | change _ activates _ lists ih => exact ih.of_subset activates lists
  | each _ gentle ih => exact ih.each gentle
  | findBest _ ih => exact ih.findBest.1

variable (evolves : Evolves start service)

include evolves

theorem Evolves.callbackForSupplier (number : Nat) (callbackType : CallbackType) :
    Evolves start (service.callbackForSupplier number callbackType) := by
  refine evolves.each fun entry service => Tells.gentle ?_ ?_
  · unfold callbackRound
    dsimp only
    split_ifs <;> rfl
  unfold callbackRound
  dsimp only
  split
  · exact service.tells_self entry.2
  · split
    · exact service.tells_self entry.2
    · exact service.handleCallback_spec number entry.2 callbackType

theorem Evolves.handleNotifyLostDelay (netId : Int) :
    Evolves start (service.handleNotifyLostDelay netId) := by
  refine evolves.each fun entry service => Tells.gentle ?_ ?_
  · unfold notifyLostRound
    dsimp only
    split_ifs <;> rfl
  unfold notifyLostRound
  dsimp only
  split
  · exact service.tells_self entry.2
  · generalize cleared : (if (entry.2.isNotifyLostDelay && entry.2.notifyLostNetId = netId) = true
      then { entry.2 with isNotifyLostDelay := false, notifyLostNetId := 0 }
      else entry.2) = activate
    have core : activate.core = entry.2.core := by
      rw [← cleared]
      split
      all_goals rfl
    split
    · exact ⟨core, service.sent, rfl⟩
    · obtain ⟨notified, sent⟩ := service.notify_spec activate .lost (.lost netId)
      exact ⟨notified.trans core, sent⟩

theorem Evolves.timeOutNetAvailable : Evolves start (service.timeOutNetAvailable callback) := by
  refine evolves.each fun entry service => ?_
  unfold timeOutRound
  dsimp only
  split
  · exact Tells.gentle rfl (service.tells_self entry.2)
  · split
    · exact ⟨⟨⟨rfl, rfl, rfl, rfl, rfl, fun _ => id⟩, fun _ => Finset.Subset.refl _⟩, rfl, rfl⟩
    · obtain ⟨core, sent, equal⟩ := service.notify_spec { entry.2 with isTimeOutPosted := false }
        .unavailable .unavailable
      have kept := NetActivate.Keeps.of_core core
      have cancelled := cancelled_cancelRequestForSupplier { service with sent := sent }
        (service.notify { entry.2 with isTimeOutPosted := false } .unavailable .unavailable).1
      rw [equal]
      exact ⟨⟨⟨kept.requestId, kept.isDefault, kept.supplied, kept.specifier, kept.callback,
        kept.frozen⟩, cancelled.subset⟩, Prod.ext rfl (snd_ticket core 0), cancelled.frame⟩

theorem Evolves.updateNetRequestControlState (netRequest : List (UInt32 × Bool)) :
    Evolves start (service.updateNetRequestControlState netRequest) := by
  apply Evolves.findBest
  refine List.foldlRecOn (motive := Evolves start) _ _ evolves fun _ before request _ => ?_
  refine before.each fun entry service => ?_
  unfold controlRound
  split
  · exact Tells.gentle rfl (service.tells_self entry.2)
  · exact ⟨⟨⟨rfl, rfl, rfl, rfl, rfl, fun _ => id⟩, fun _ => Finset.Subset.refl _⟩, rfl, rfl⟩

/-! ## Frozen applications -/

omit evolves

theorem handleSkipRequest_spec (service : NetConnService) (key : UInt32) (activate : NetActivate) :
    service.Gentle (key, activate)
      ((key, (service.handleSkipRequest activate).1), (service.handleSkipRequest activate).2) := by
  unfold handleSkipRequest
  split
  next cellular =>
    obtain ⟨frame, subset, -⟩ := service.cancelled_cancelRequestForSupplier _
    refine ⟨⟨⟨rfl, rfl, rfl, rfl, rfl, fun types => ?_⟩, subset⟩, rfl, frame⟩
    dsimp only at types
    simp [checkTypes, haveTypes, types] at cellular
  · exact Tells.gentle rfl (service.tells_self activate)

theorem handleUnfrozenCallback_spec (service : NetConnService) (activate : NetActivate) :
    service.Tells activate (service.handleUnfrozenCallback activate) := by
  have finish : ∀ result, service.Tells activate result →
      service.Tells activate
        ({ result.1 with lastNetId := 0 }.setLastCallbackType .unknown, result.2) :=
    fun result tells => tells
  unfold handleUnfrozenCallback
  split
  · exact service.tells_self activate
  · split
    · split
      · exact service.tells_self activate
      · split
        · exact service.tells_self activate
        · exact finish _ (service.notify_spec activate .lost (.lost activate.lastNetId))
    · split
      · exact finish _ (service.callbackForAvailable_spec _ activate)
      · exact finish _ (service.handleCallback_spec _ activate activate.lastCallbackType)

theorem frozenRound_spec (uid : UInt32) (entry : UInt32 × NetActivate)
    (service : NetConnService) :
    service.Gentle entry (frozenRound uid isFrozened entry service) := by
  have whole : ∀ {result}, service.Gentle (entry.1, { entry.2 with isAppFrozened := isFrozened })
      result → service.Gentle entry result := fun ⟨⟨kept, lists⟩, same, frame⟩ =>
    ⟨⟨⟨kept.requestId, kept.isDefault, kept.supplied, kept.specifier, kept.callback, kept.frozen⟩,
      lists⟩, same, frame⟩
  unfold frozenRound
  dsimp only
  split
  · exact Tells.gentle rfl (service.tells_self entry.2)
  · split
    · exact whole (service.handleSkipRequest_spec _ _)
    · split
      · exact whole (Tells.gentle rfl (service.tells_self _))
      · exact whole (Tells.gentle rfl (service.handleUnfrozenCallback_spec _))

theorem unskipRound_spec (uid : UInt32) (entry : UInt32 × NetActivate) (service : NetConnService) :
    service.Gentle entry (unskipRound uid entry service) := by
  unfold unskipRound
  split
  · exact Tells.gentle rfl (service.tells_self entry.2)
  · have core := core_setLastCallbackType
      { entry.2 with isFrozenedSkip := false, lastNetId := 0 } .unknown
    have kept := NetActivate.Keeps.of_core core
    exact ⟨⟨⟨kept.requestId, kept.isDefault, kept.supplied, kept.specifier, kept.callback,
      fun types _ => kept.frozen types rfl⟩, fun _ => Finset.Subset.refl _⟩,
      Prod.ext rfl (snd_ticket core 0), rfl⟩

theorem Evolves.setAppIsFrozened (evolves : Evolves start service)
    (uid : UInt32) :
    Evolves start (service.setAppIsFrozenedAsync uid isFrozened) := by
  have looped : Evolves start (service.eachActivate (frozenRound uid isFrozened)) :=
    evolves.each (frozenRound_spec uid)
  unfold setAppIsFrozenedAsync
  split
  · exact evolves
  · dsimp only
    split
    · exact looped.findBest.each (unskipRound_spec uid)
    · exact looped

end Evolves

end NetConnService

end NetManager.ConnService
