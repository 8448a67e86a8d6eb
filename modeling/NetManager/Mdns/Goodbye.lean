import NetManager.Library.Run
import NetManager.Mdns.ServiceName

/-!
# Services that say goodbye

A record of a service with the time to live 0 makes its result one to be removed. The
event then reports the service as lost if the cache has an entry of it, and as found if
it has none.
-/

namespace NetManager.Mdns

open List Wire Std.ExtTreeSet Std.LawfulEqCmp

/-! ## Records -/

/-- The name and the type of the service of a pointer record for the service type. -/
def ptrOf (setup : Setup) (rr : ResourceRecord) : Option (Bytes × Bytes) :=
  if rr.rtype = rrtypePtr ∧ rr.name = setup.name then
    match rr.rdata with
    | .string data =>
      let key := extractNameAndType data
      if key.1 = [] ∨ key.2 = [] then none else some key
    | _ => none
  else none

/-- A record that goes into the cache. -/
def stores (setup : Setup) (v6 : Bool) (rr : ResourceRecord) : Bool :=
  if rr.rtype = rrtypePtr then false
  else if rr.rtype = rrtypeSrv then match rr.rdata with | .srv _ => true | _ => false
  else if rr.rtype = rrtypeTxt then match rr.rdata with | .txt _ => true | _ => false
  else if rr.rtype = rrtypeA ∨ rr.rtype = rrtypeAaaa then
    v6 = decide (rr.rtype = rrtypeAaaa) ∧ setup.addrToString rr.rdata ≠ []
  else false

/-- A record of this device for a name that is not in the cache. -/
def skipped (setup : Setup) (cacheMap : CacheMap) (name : Bytes) : Prop :=
  cacheMap.contains name = false ∧ name ≠ setup.name ∧ setup.srvMap.contains name

namespace MDnsProtocolImpl

section Records

variable {setup : Setup} {v6 : Bool} {now : Int}

/-- The results with one for a service. -/
def withResult (results : List Result) (serviceName serviceType : Bytes) : List Result :=
  if results.any (·.serviceName = serviceName) then results
  else results ++ [{ serviceName := serviceName, serviceType := serviceType, state := .add }]

/-- What a pointer record does. -/
def ptrUpdate (setup : Setup) (now : Int) (ttl : UInt32) (key : Bytes × Bytes)
    (state : MDnsProtocolImpl × Changed) : MDnsProtocolImpl × Changed :=
  let results := modifyFirst key.1 (touch ttl now) (withResult state.1.results key.1 key.2)
  ({ state.1 with results := results },
    if (results.find? (·.serviceName = key.1)).any (·.state.pending) then state.2.insert setup.name
    else state.2)

/-- The entry that a record puts into the cache. -/
structure Stored (rr : ResourceRecord) (cacheMap : CacheMap) (entry : Result) : Prop where
  ttl : entry.ttl = rr.ttl
  state : rr.ttl ≠ 0 → (∀ old ∈ cacheMap[rr.name]?, old.state ≠ .remove) → entry.state ≠ .remove

theorem stored_cacheEntry (freshState : ∀ result, (fresh result).state = result.state)
    (assignState : ∀ result, (assign result).state = result.state) (cacheMap : CacheMap) :
    Stored rr cacheMap (cacheEntry now rr fresh differs assign keepAdd cacheMap[rr.name]?) := by
  refine ⟨rfl, fun alive before => ?_⟩
  have assigned (result : Result) : result.state ≠ .remove →
      (if differs result ∨ result.state = .dead then
        assign { result with state := if keepAdd ∧ result.state = .add then .add else .refresh }
      else result).state ≠ .remove := by
    intro stays
    split
    · rw [assignState]
      dsimp only
      split <;> decide
    · exact stays
  unfold cacheEntry
  dsimp only
  rw [if_neg alive]
  cases found : cacheMap[rr.name]? with
  | none => exact assigned _ (by rw [freshState]; exact State.noConfusion)
  | some old => exact assigned old (before old found)

/-- What a record can do: nothing, change the result of a service, or go into the
cache. -/
def Effect (setup : Setup) (v6 : Bool) (now : Int) (state : MDnsProtocolImpl × Changed)
    (rr : ResourceRecord)
    (after : MDnsProtocolImpl × Changed) : Prop :=
  (ptrOf setup rr = none ∧ after = state ∧
      (stores setup v6 rr → skipped setup state.1.cacheMap rr.name)) ∨
    (∃ key, ptrOf setup rr = some key ∧ stores setup v6 rr = false ∧
      after = ptrUpdate setup now rr.ttl key state) ∨
    (ptrOf setup rr = none ∧ stores setup v6 rr ∧ ∃ entry, Stored rr state.1.cacheMap entry ∧
      after = ({ state.1 with cacheMap := state.1.cacheMap.insert rr.name entry },
        if entry.state.pending then state.2.insert rr.name else state.2))

variable {rr : ResourceRecord} (state : MDnsProtocolImpl × Changed)

theorem updatePtr_effect (isPtr : rr.rtype = rrtypePtr) :
    Effect setup v6 now state rr (updatePtr setup now rr state) := by
  have noStore : stores setup v6 rr = false := if_pos isPtr
  have nothing : ptrOf setup rr = none → updatePtr setup now rr state = state →
      Effect setup v6 now state rr (updatePtr setup now rr state) := fun none same =>
    .inl ⟨none, same, fun store => absurd (noStore.symm.trans store) Bool.false_ne_true⟩
  obtain ⟨name, rtype, rclass, ttl, length, rdata⟩ := rr
  cases rdata with
  | string data =>
    by_cases other : name ≠ setup.name ∨ (extractNameAndType data).1 = [] ∨
        (extractNameAndType data).2 = []
    · refine nothing ?_ (if_pos other)
      rcases other with otherName | empty
      · exact if_neg fun is => otherName is.2
      · unfold ptrOf
        split
        · exact if_pos empty
        · rfl
    · obtain ⟨sameName, nonempty⟩ := not_or.mp other
      refine .inr (.inl ⟨extractNameAndType data, ?_, noStore, if_neg other⟩)
      unfold ptrOf
      rw [if_pos ⟨isPtr, not_not.mp sameName⟩]
      exact if_neg nonempty
  | _ => exact nothing (by simp [ptrOf]) rfl

theorem updateCache_effect {state : MDnsProtocolImpl × Changed} (none : ptrOf setup rr = none)
    (store : stores setup v6 rr) (freshState : ∀ result, (fresh result).state = result.state)
    (assignState : ∀ result, (assign result).state = result.state) :
    Effect setup v6 now state rr (updateCache now rr fresh differs assign keepAdd state) :=
  .inr (.inr ⟨none, store, _, stored_cacheEntry freshState assignState _, rfl⟩)

theorem updateSrv_effect (notPtr : rr.rtype ≠ rrtypePtr) (isSrv : rr.rtype = rrtypeSrv) :
    Effect setup v6 now state rr (updateSrv now rr state) := by
  have none : ptrOf setup rr = none := if_neg fun is => notPtr is.1
  obtain ⟨name, rtype, rclass, ttl, length, rdata⟩ := rr
  cases rdata with
  | srv srv =>
    refine updateCache_effect none ?_ (fun _ => rfl) fun _ => rfl
    simp only [stores, if_neg notPtr, if_pos isSrv]
  | _ =>
    refine .inl ⟨none, rfl, fun store => ?_⟩
    simp only [stores, if_neg notPtr, if_pos isSrv, Bool.false_eq_true] at store

theorem updateTxt_effect
    (notPtr : rr.rtype ≠ rrtypePtr) (notSrv : rr.rtype ≠ rrtypeSrv) (isTxt : rr.rtype = rrtypeTxt) :
    Effect setup v6 now state rr (updateTxt now rr state) := by
  have none : ptrOf setup rr = none := if_neg fun is => notPtr is.1
  obtain ⟨name, rtype, rclass, ttl, length, rdata⟩ := rr
  cases rdata with
  | txt txt =>
    refine updateCache_effect none ?_ (fun _ => rfl) fun _ => rfl
    simp only [stores, if_neg notPtr, if_neg notSrv, if_pos isTxt]
  | _ =>
    refine .inl ⟨none, rfl, fun store => ?_⟩
    simp only [stores, if_neg notPtr, if_neg notSrv, if_pos isTxt, Bool.false_eq_true] at store

theorem updateAddr_effect
    (notPtr : rr.rtype ≠ rrtypePtr) (notSrv : rr.rtype ≠ rrtypeSrv) (notTxt : rr.rtype ≠ rrtypeTxt)
    (isAddr : rr.rtype = rrtypeA ∨ rr.rtype = rrtypeAaaa) :
    Effect setup v6 now state rr (updateAddr setup v6 now rr state) := by
  have none : ptrOf setup rr = none := if_neg fun is => notPtr is.1
  have stores_iff : stores setup v6 rr = true ↔
      v6 = decide (rr.rtype = rrtypeAaaa) ∧ setup.addrToString rr.rdata ≠ [] := by
    simp [stores, if_neg notPtr, if_neg notSrv, if_neg notTxt, if_pos isAddr]
  by_cases other : v6 ≠ decide (rr.rtype = rrtypeAaaa) ∨ setup.addrToString rr.rdata = []
  · refine .inl ⟨none, if_pos other, fun store => ?_⟩
    obtain ⟨sameFamily, nonempty⟩ := stores_iff.mp store
    exact absurd other (not_or.mpr ⟨not_not.mpr sameFamily, nonempty⟩)
  · obtain ⟨sameFamily, nonempty⟩ := not_or.mp other
    unfold updateAddr
    rw [if_neg other]
    exact updateCache_effect none (stores_iff.mpr ⟨not_not.mp sameFamily, nonempty⟩)
      (fun _ => rfl) fun _ => rfl

theorem processAnswerRecord_effect :
    Effect setup v6 now state rr (processAnswerRecord setup v6 now state rr) := by
  unfold processAnswerRecord
  split
  next skip =>
    refine .inl ⟨if_neg fun is => skip.2.1 is.2, rfl, fun _ => ⟨?_, skip.2⟩⟩
    simpa using skip.1
  · split
    next isPtr => exact updatePtr_effect state isPtr
    next notPtr =>
      split
      next isSrv => exact updateSrv_effect state notPtr isSrv
      next notSrv =>
        split
        next isTxt => exact updateTxt_effect state notPtr notSrv isTxt
        next notTxt =>
          split
          next isAddr => exact updateAddr_effect state notPtr notSrv notTxt isAddr
          next notAddr =>
            refine .inl ⟨if_neg fun is => notPtr is.1, rfl, fun store => ?_⟩
            simp only [stores, if_neg notPtr, if_neg notSrv, if_neg notTxt, if_neg notAddr,
              Bool.false_eq_true] at store

variable {motive : MDnsProtocolImpl × Changed → Prop} {records : List ResourceRecord}

theorem foldl_invariant (initially : motive start)
    (preserved : ∀ rr ∈ records, ∀ state after, Effect setup v6 now state rr after →
      motive state → motive after) :
    motive (records.foldl (processAnswerRecord setup v6 now) start) := by
  induction records generalizing start with
  | nil => exact initially
  | cons rr records ih =>
    refine ih ?_ (forall_mem_cons.mp preserved).2
    exact preserved rr mem_cons_self _ _ (processAnswerRecord_effect start) initially

/-- A property that a record brings about and that no record ends. -/
theorem foldl_eventually (member : rr ∈ records)
    (caused : ∀ state after, Effect setup v6 now state rr after → motive after)
    (preserved : ∀ other ∈ records, ∀ state after, Effect setup v6 now state other after →
      motive state → motive after) :
    motive (records.foldl (processAnswerRecord setup v6 now) start) := by
  obtain ⟨before, behind, rfl⟩ := append_of_mem member
  rw [foldl_append, foldl_cons]
  refine foldl_invariant (caused _ _ (processAnswerRecord_effect _)) fun other later => ?_
  exact preserved other (mem_append_right _ (mem_cons_of_mem _ later))

end Records

/-! ## Results -/

section Results

variable {setup : Setup} {v6 : Bool} {now : Int}

/-- The name and the type of a result. -/
def key (result : Result) : Bytes × Bytes := (result.serviceName, result.serviceType)

/-- The names are different, and each belongs to its type. -/
structure Keyed (keys : List (Bytes × Bytes)) : Prop where
  nodup : (keys.map Prod.fst).Nodup
  extracted : ∀ key ∈ keys, Extracted key.1 key.2

theorem Keyed.sublist {keys fewer : List (Bytes × Bytes)} (keyed : Keyed keys)
    (sublist : fewer.Sublist keys) :
    Keyed fewer where
  nodup := keyed.nodup.sublist (sublist.map _)
  extracted key member := keyed.extracted key (sublist.subset member)

variable {rr : ResourceRecord}

theorem extracted_of_ptrOf {key : Bytes × Bytes} (is : ptrOf setup rr = some key) :
    Extracted key.1 key.2 := by
  unfold ptrOf at is
  split at is
  case isFalse => cases is
  case isTrue =>
    split at is
    case h_2 => cases is
    case h_1 data _ =>
      dsimp only at is
      split at is
      · cases is
      next nonempty =>
        cases is
        exact ⟨data, rfl, (not_or.mp nonempty).2⟩

theorem map_key_modifyFirst
    (same : ∀ result, key (change result) = key result) (results : List Result) :
    (modifyFirst serviceName change results).map key = results.map key := by
  induction results with
  | nil => rfl
  | cons result results ih =>
    unfold modifyFirst
    split
    · rw [map_cons, map_cons, same]
    · rw [map_cons, map_cons, ih]

variable {serviceName : Bytes} {result : Result}

theorem mem_modifyFirst {results : List Result}
    (member : result ∈ results) :
    result ∈ modifyFirst serviceName change results ∨
      change result ∈ modifyFirst serviceName change results := by
  induction results with
  | nil => cases member
  | cons first results ih =>
    unfold modifyFirst
    rcases mem_cons.mp member with rfl | later
    · split
      · exact .inr mem_cons_self
      · exact .inl mem_cons_self
    · split
      · exact .inl (mem_cons_of_mem _ later)
      · exact (ih later).imp (mem_cons_of_mem _) (mem_cons_of_mem _)

theorem find_modifyFirst
    (same : ∀ result, key (change result) = key result) (results : List Result) :
    (modifyFirst serviceName change results).find? (·.serviceName = serviceName) =
      (results.find? (·.serviceName = serviceName)).map change := by
  induction results with
  | nil => rfl
  | cons result results ih =>
    unfold modifyFirst
    by_cases here : result.serviceName = serviceName
    · have changed : (change result).serviceName = serviceName :=
        (congrArg Prod.fst (same result)).trans here
      rw [if_pos here, find?_cons_of_pos (by simpa using changed),
        find?_cons_of_pos (by simpa using here)]
      rfl
    · rw [if_neg here, find?_cons_of_neg (by simpa using here),
        find?_cons_of_neg (by simpa using here), ih]

theorem map_key_withResult (results : List Result) :
    (withResult results serviceName serviceType).map key =
      if serviceName ∈ results.map (·.serviceName) then results.map key
      else results.map key ++ [(serviceName, serviceType)] := by
  unfold withResult
  by_cases known : serviceName ∈ results.map (·.serviceName)
  · obtain ⟨result, member, is⟩ := mem_map.mp known
    rw [if_pos known, if_pos (any_eq_true.mpr ⟨result, member, decide_eq_true is⟩)]
  · rw [if_neg known, if_neg, map_append]
    · rfl
    · intro any
      obtain ⟨result, member, is⟩ := any_eq_true.mp any
      exact known (mem_map.mpr ⟨result, member, of_decide_eq_true is⟩)

variable {state after : MDnsProtocolImpl × Changed}

theorem Effect.map_key (effect : Effect setup v6 now state rr after) :
    after.1.results.map key = state.1.results.map key ∨
      ∃ added, ptrOf setup rr = some added ∧ added.1 ∉ state.1.results.map (·.serviceName) ∧
        after.1.results.map key = state.1.results.map key ++ [added] := by
  rcases effect with ⟨_, rfl, _⟩ | ⟨added, is, _, rfl⟩ | ⟨_, _, entry, _, rfl⟩
  · exact .inl rfl
  · have touched : ∀ result, key (touch rr.ttl now result) = key result := fun _ => rfl
    dsimp only [ptrUpdate]
    rw [map_key_modifyFirst touched, map_key_withResult]
    split
    · exact .inl rfl
    · exact .inr ⟨added, is, by assumption, rfl⟩
  · exact .inl rfl

/-- The keys stay different, and they are those of before or of pointer records. -/
theorem keyed_foldl (v6 : Bool) (now : Int) (records : List ResourceRecord)
    (start : MDnsProtocolImpl × Changed) (keyed : Keyed (start.1.results.map key)) :
    let after := records.foldl (processAnswerRecord setup v6 now) start
    Keyed (after.1.results.map key) ∧ ∀ found ∈ after.1.results.map key,
      found ∈ start.1.results.map key ∨ ∃ rr ∈ records, ptrOf setup rr = some found := by
  refine foldl_invariant (motive := fun state => Keyed (state.1.results.map key) ∧
    ∀ found ∈ state.1.results.map key, found ∈ start.1.results.map key ∨
      ∃ rr ∈ records, ptrOf setup rr = some found) ⟨keyed, fun _ => .inl⟩ ?_
  rintro rr member state after effect ⟨stateKeyed, known⟩
  rcases effect.map_key with same | ⟨added, is, new, same⟩
  · rw [same]
    exact ⟨stateKeyed, known⟩
  · rw [same]
    refine ⟨⟨?_, ?_⟩, ?_⟩
    · rw [map_append]
      refine nodup_append.mpr ⟨stateKeyed.nodup, pairwise_singleton _ _, ?_⟩
      rintro name before other here rfl
      rw [mem_singleton.mp here, map_map] at before
      exact new before
    · exact forall_mem_append.mpr ⟨stateKeyed.extracted, by simpa using extracted_of_ptrOf is⟩
    · exact forall_mem_append.mpr ⟨known, forall_mem_singleton.mpr (.inr ⟨rr, member, is⟩)⟩

/-- A service is to be removed, and the event of the service type is to run. -/
structure Removing (setup : Setup) (serviceName : Bytes)
    (state : MDnsProtocolImpl × Changed) : Prop where
  result : ∃ result ∈ state.1.results, result.serviceName = serviceName ∧ result.state = .remove
  changed : setup.name ∈ state.2

theorem touch_remove (remove : result.state = .remove) :
    (touch ttl now result).state = .remove := by
  unfold touch
  rw [remove]
  exact ite_self _

theorem mem_ite_insert {changed : Changed} (member : name ∈ changed) (pending : Bool) :
    name ∈ if pending then changed.insert other else changed := by
  split
  · exact mem_insert.mpr (.inr member)
  · exact member

theorem Effect.removing (effect : Effect setup v6 now state rr after)
    (removing : Removing setup serviceName state) :
    Removing setup serviceName after := by
  obtain ⟨⟨result, member, named, remove⟩, changed⟩ := removing
  rcases effect with ⟨_, rfl, _⟩ | ⟨other, _, _, rfl⟩ | ⟨_, _, entry, _, rfl⟩
  · exact ⟨⟨result, member, named, remove⟩, changed⟩
  · refine ⟨?_, mem_ite_insert changed _⟩
    have still : result ∈ withResult state.1.results other.1 other.2 := by
      unfold withResult
      split
      · exact member
      · exact mem_append_left _ member
    rcases mem_modifyFirst still with same | touched
    · exact ⟨result, same, named, remove⟩
    · exact ⟨_, touched, named, touch_remove remove⟩
  · exact ⟨⟨result, member, named, remove⟩, mem_ite_insert changed _⟩

theorem find_withResult (results : List Result) :
    ∃ result, (withResult results serviceName serviceType).find? (·.serviceName = serviceName) =
      some result := by
  refine Option.isSome_iff_exists.mp (find?_isSome.mpr ?_)
  unfold withResult
  split
  next known => exact any_eq_true.mp known
  · exact ⟨_, mem_append_right _ mem_cons_self, decide_eq_true rfl⟩

theorem Effect.removing_of_ptrOf (effect : Effect setup v6 now state rr after)
    (is : ptrOf setup rr = some service) (goodbye : rr.ttl = 0) :
    Removing setup service.1 after := by
  rcases effect with ⟨none, _, _⟩ | ⟨other, sameService, _, rfl⟩ | ⟨none, _⟩
  · exact absurd (is.symm.trans none) (Option.some_ne_none _)
  · obtain rfl := Option.some_inj.mp (is.symm.trans sameService)
    obtain ⟨result, found⟩ := find_withResult state.1.results
    have touched : ∀ result, key (touch rr.ttl now result) = key result := fun _ => rfl
    have foundAfter := (find_modifyFirst touched
      (withResult state.1.results service.1 service.2)).trans (congrArg _ found)
    have named : result.serviceName = service.1 := by simpa using find?_some found
    have remove : (touch rr.ttl now result).state = .remove := if_pos goodbye
    refine ⟨⟨_, mem_of_find?_eq_some foundAfter, named, remove⟩, ?_⟩
    dsimp only [ptrUpdate]
    rw [foundAfter, if_pos]
    · exact mem_insert_self
    · rw [Option.map_some, Option.any_some, remove]
      rfl
  · exact absurd (is.symm.trans none) (Option.some_ne_none _)

theorem removing_foldl {records : List ResourceRecord}
    (member : rr ∈ records) (is : ptrOf setup rr = some service)
    (goodbye : rr.ttl = 0) :
    Removing setup service.1 (records.foldl (processAnswerRecord setup v6 now) start) :=
  foldl_eventually member (fun _ _ effect => effect.removing_of_ptrOf is goodbye)
    fun _ _ _ _ effect => effect.removing

end Results

/-! ## Entries of the cache -/

section Entries

variable {setup : Setup} {v6 : Bool} {now : Int}

/-- An entry that `KillCache` does not erase. -/
def Safe (entry : Result) : Prop := entry.ttl = 0 ∨ entry.state ≠ .remove

variable {state after : MDnsProtocolImpl × Changed} {name : Bytes} {rr : ResourceRecord}

theorem Effect.contains (effect : Effect setup v6 now state rr after)
    (contains : name ∈ state.1.cacheMap) :
    name ∈ after.1.cacheMap := by
  rcases effect with ⟨_, rfl, _⟩ | ⟨_, _, _, rfl⟩ | ⟨_, _, entry, _, rfl⟩
  · exact contains
  · exact contains
  · exact Std.ExtTreeMap.mem_insert.mpr (.inr contains)

variable {records : List ResourceRecord}

/-- The cache has an entry behind the records if it had one, or if there is one in the
records. -/
theorem contains_foldl (start : MDnsProtocolImpl × Changed)
    (cached : name ∈ start.1.cacheMap ∨ (∃ rr ∈ records, rr.name = name ∧ stores setup v6 rr) ∧
      ¬ (name ≠ setup.name ∧ setup.srvMap.contains name)) :
    name ∈ (records.foldl (processAnswerRecord setup v6 now) start).1.cacheMap := by
  rcases cached with before | ⟨⟨rr, member, rfl, store⟩, foreign⟩
  · exact foldl_invariant (motive := fun state => name ∈ state.1.cacheMap) before
      fun _ _ _ _ effect => effect.contains
  · refine foldl_eventually (motive := fun state => rr.name ∈ state.1.cacheMap) member ?_
      fun _ _ _ _ effect => effect.contains
    rintro state after (⟨_, _, skip⟩ | ⟨_, _, noStore, _⟩ | ⟨_, _, entry, _, rfl⟩)
    · exact absurd (skip store).2 foreign
    · exact absurd (noStore.symm.trans store) Bool.false_ne_true
    · exact Std.ExtTreeMap.mem_insert_self

theorem Effect.entry (effect : Effect setup v6 now state rr after) (name : Bytes) :
    (after.1.cacheMap[name]? = state.1.cacheMap[name]? ∧
        (name ∈ after.2 → name = setup.name ∨ name ∈ state.2)) ∨
      (rr.name = name ∧ stores setup v6 rr ∧ ∃ entry, Stored rr state.1.cacheMap entry ∧
        after.1.cacheMap[name]? = some entry) := by
  rcases effect with ⟨_, rfl, _⟩ | ⟨_, _, _, rfl⟩ | ⟨_, store, entry, stored, rfl⟩
  · exact .inl ⟨rfl, .inr⟩
  · refine .inl ⟨rfl, fun member => ?_⟩
    dsimp only [ptrUpdate] at member
    split at member
    · exact (mem_insert.mp member).imp
        (fun same => (eq_of_compare same).symm) id
    · exact .inr member
  · by_cases same : rr.name = name
    · subst same
      exact .inr ⟨rfl, store, entry, stored, Std.ExtTreeMap.getElem?_insert_self⟩
    · refine .inl ⟨?_, fun member => .inr ?_⟩
      · rw [Std.ExtTreeMap.getElem?_insert, if_neg]
        exact fun equal => same (eq_of_compare equal)
      · split at member
        · exact (mem_insert.mp member).resolve_left
            fun equal => same (eq_of_compare equal)
        · exact member

/-- The records of a name agree about goodbye. -/
def Agree (setup : Setup) (v6 : Bool) (cacheMap : CacheMap) (records : List ResourceRecord)
    (name : Bytes) : Prop :=
  (∀ rr ∈ records, rr.name = name → stores setup v6 rr → rr.ttl = 0) ∨
    ((∀ rr ∈ records, rr.name = name → stores setup v6 rr → rr.ttl ≠ 0) ∧
      ∀ entry ∈ cacheMap[name]?, entry.state ≠ .remove)
deriving Decidable

theorem safe_foldl (agree : Agree setup v6 impl.cacheMap records name) (other : name ≠ setup.name) :
    let after := records.foldl (processAnswerRecord setup v6 now) (impl, ∅)
    name ∈ after.2 → ∀ entry ∈ after.1.cacheMap[name]?, Safe entry := by
  rcases agree with goodbye | ⟨alive, before⟩
  · refine foldl_invariant (motive := fun state =>
      name ∈ state.2 → ∀ entry ∈ state.1.cacheMap[name]?, Safe entry)
      (fun member => absurd member Std.ExtTreeSet.not_mem_empty) ?_
    intro rr member state after effect safe changed
    rcases effect.entry name with ⟨same, changes⟩ | ⟨named, store, entry, stored, is⟩
    · rw [same]
      exact safe ((changes changed).resolve_left other)
    · rw [is]
      rintro _ ⟨⟩
      exact .inl (stored.ttl.trans (goodbye rr member named store))
  · refine fun _ entry is => .inr ?_
    refine foldl_invariant (motive := fun state =>
      ∀ entry ∈ state.1.cacheMap[name]?, entry.state ≠ .remove) before ?_ entry is
    intro rr member state after effect stays
    rcases effect.entry name with ⟨same, _⟩ | ⟨named, store, entry, stored, is⟩
    · rw [same]
      exact stays
    · rw [is]
      rintro _ ⟨⟩
      exact stored.state (alive rr member named store) (named ▸ stays)

end Entries

/-! ## Events -/

section Events

variable {setup : Setup}

/-- The service that a notification is about. -/
def serviceOf : Notification → Bytes
  | .found info | .lost info => info.name

/-- The notifications about a service. -/
def concerning (serviceName : Bytes) (notifications : List Notification) : List Notification :=
  notifications.filter (serviceOf · = serviceName)

theorem concerning_append :
    concerning serviceName (first ++ second) =
      concerning serviceName first ++ concerning serviceName second :=
  filter_append ..

/-- What an event does with a result: it keeps to the service, does not leave it to be removed,
and reports it as lost if it was and its entry is in the cache. -/
structure Reported (setup : Setup) (cacheMap : CacheMap) (result : Result)
    (outcome : Result × CacheMap × List Notification) : Prop where
  key : key outcome.1 = key result
  state : outcome.1.state ≠ .remove
  services : ∀ notification ∈ outcome.2.2, serviceOf notification = result.serviceName
  others : ∀ name ∈ cacheMap, name ≠ fullName setup result → name ∈ outcome.2.1
  lost : result.state = .remove → fullName setup result ∈ cacheMap →
    outcome.2.2 = [.lost (convertResultToInfo result)]

theorem reported_notify (setup : Setup) (cacheMap : CacheMap) (result : Result) :
    Reported setup cacheMap result (notify setup cacheMap result) := by
  unfold notify
  by_cases find : !cacheMap.contains (fullName setup result) ∨ result.state = .add ∨
      result.state = .refresh
  · rw [if_pos find]
    refine ⟨rfl, State.noConfusion, forall_mem_singleton.mpr rfl, fun _ member _ => member,
      fun remove contains => ?_⟩
    rw [remove, Std.ExtTreeMap.mem_iff_contains.mp contains] at find
    exact absurd find (by decide)
  · rw [if_neg find]
    dsimp only
    split
    · refine ⟨rfl, State.noConfusion, forall_mem_singleton.mpr rfl, fun name member other => ?_,
        fun _ _ => rfl⟩
      exact Std.ExtTreeMap.mem_erase.mpr ⟨fun same => other (eq_of_compare same).symm, member⟩
    next stays =>
      exact ⟨rfl, stays, nofun, fun _ member _ => member, fun remove => absurd remove stays⟩

/-- What a loop over results does: it keeps to their services, and leaves none that is to
be removed. -/
structure Notified (results : List Result)
    (outcome : List Result × CacheMap × List Notification) : Prop where
  sublist : (outcome.1.map key).Sublist (results.map key)
  state : ∀ result ∈ outcome.1, result.state ≠ .remove
  services : ∀ notification ∈ outcome.2.2, serviceOf notification ∈ results.map (·.serviceName)

theorem notifyAll_cons (results : List Result) (cacheMap : CacheMap) :
    notifyAll setup (result :: results) cacheMap =
      let first := notify setup cacheMap result
      let others := notifyAll setup results first.2.1
      (first.1 :: others.1, others.2.1, first.2.2 ++ others.2.2) := rfl

theorem notified_notifyAll (setup : Setup) (results : List Result) (cacheMap : CacheMap) :
    Notified results (notifyAll setup results cacheMap) := by
  induction results generalizing cacheMap with
  | nil =>
    refine ⟨.refl _, ?_, ?_⟩
    · exact nofun
    · exact nofun
  | cons result results ih =>
    obtain ⟨sublist, state, services⟩ := ih (notify setup cacheMap result).2.1
    have first := reported_notify setup cacheMap result
    refine ⟨?_, ?_, ?_⟩
    · rw [notifyAll_cons, map_cons, first.key]
      exact sublist.cons_cons _
    · exact forall_mem_cons.mpr ⟨first.state, state⟩
    · intro notification member
      rcases mem_append.mp member with here | later
      · exact mem_cons.mpr (.inl (first.services notification here))
      · exact mem_cons_of_mem _ (services notification later)

variable {results : List Result}

theorem Notified.concerning_eq_nil (notified : Notified results outcome)
    (other : serviceName ∉ results.map (·.serviceName)) :
    concerning serviceName outcome.2.2 = [] := by
  refine filter_eq_nil_iff.mpr fun notification member is => other ?_
  rw [← of_decide_eq_true is]
  exact notified.services notification member

variable {cacheMap : CacheMap} {result : Result}

/-- A service that is in the cache is reported as lost, and not otherwise. -/
theorem concerning_notifyAll (keyed : Keyed (results.map key))
    (member : result ∈ results) (remove : result.state = .remove)
    (contains : fullName setup result ∈ cacheMap) :
    concerning result.serviceName (notifyAll setup results cacheMap).2.2 =
      [.lost (convertResultToInfo result)] := by
  induction results generalizing cacheMap with
  | nil => cases member
  | cons first results ih =>
    have names := keyed.nodup
    rw [map_cons, map_cons, map_map, nodup_cons] at names
    have others : first.serviceName ∉ results.map (·.serviceName) := names.1
    rw [notifyAll_cons, concerning_append]
    rcases mem_cons.mp member with rfl | later
    · have silent := (notified_notifyAll setup results (notify setup cacheMap result).2.1
        ).concerning_eq_nil others
      rw [silent, append_nil, (reported_notify setup cacheMap result).lost remove contains]
      exact filter_cons_of_pos (decide_eq_true rfl)
    · have reported := reported_notify setup cacheMap first
      have otherService : first.serviceName ≠ result.serviceName := fun same =>
        others (mem_map.mpr ⟨result, later, same.symm⟩)
      have otherName : fullName setup result ≠ fullName setup first := fun same =>
        otherService (serviceName_eq_of_fullName_eq
          (keyed.extracted _ mem_cons_self)
          (keyed.extracted _ (mem_cons_of_mem _ (mem_map_of_mem later))) same.symm)
      have silent : concerning result.serviceName (notify setup cacheMap first).2.2 = [] := by
        refine filter_eq_nil_iff.mpr fun notification member is => otherService ?_
        rw [← of_decide_eq_true is]
        exact (reported.services notification member).symm
      rw [silent]
      exact ih (keyed.sublist (sublist_cons_self _ _)) later
        (reported.others _ contains otherName)

theorem killBrowseCaches_cons :
    killBrowseCaches setup (result :: results) cacheMap =
      let first := killBrowseCache setup cacheMap result
      let others := killBrowseCaches setup results first.2.1
      (first.1 ++ others.1, others.2.1, first.2.2 ++ others.2.2) := rfl

theorem killBrowseCaches_silent (stay : ∀ result ∈ results, result.state ≠ .remove) :
    (killBrowseCaches setup results cacheMap).2.2 = [] := by
  induction results with
  | nil => rfl
  | cons result results ih =>
    have first : (killBrowseCache setup cacheMap result).2 = (cacheMap, []) := by
      have stays := stay result mem_cons_self
      unfold killBrowseCache
      cases is : result.state with
      | remove => exact absurd is stays
      | _ => rfl
    rw [killBrowseCaches_cons]
    dsimp only
    rw [first]
    exact ih (forall_mem_cons.mp stay).2

theorem sublist_killBrowseCaches (cacheMap : CacheMap) :
    ((killBrowseCaches setup results cacheMap).1.map key).Sublist (results.map key) := by
  induction results generalizing cacheMap with
  | nil => exact .refl _
  | cons result results ih =>
    have first : ((killBrowseCache setup cacheMap result).1.map key).Sublist [key result] := by
      unfold killBrowseCache
      cases result.state with
      | remove => exact nil_sublist _
      | _ => exact .refl _
    rw [killBrowseCaches_cons, map_append]
    exact first.append (ih _)

/-! ## The names that have changed -/

variable (now : Int)

theorem getElem_killCacheEntry_of_ne (other : changed ≠ name) :
    (killCacheEntry now changed cacheMap)[name]? = cacheMap[name]? := by
  have differ : ¬ compare changed name = .eq := fun same =>
    other (eq_of_compare same)
  unfold killCacheEntry
  split
  · rw [Std.ExtTreeMap.getElem?_insert, if_neg differ]
  · split
    · split
      · rw [Std.ExtTreeMap.getElem?_erase, if_neg differ]
      · rw [Std.ExtTreeMap.getElem?_insert, if_neg differ]
      · rw [Std.ExtTreeMap.getElem?_insert, if_neg differ]
      · rfl
      · rfl
    · rfl

variable {entry : Result}

theorem not_isAvailable (goodbye : entry.ttl = 0) : isAvailable now entry = false := by
  refine decide_eq_false fun available => ?_
  rw [goodbye] at available
  exact absurd available (Int.not_lt.mpr (Int.emod_nonneg _ (by decide)))

variable {name : Bytes}

theorem safe_killCacheEntry (is : cacheMap[name]? = some entry) (safe : Safe entry) :
    ∃ kept, (killCacheEntry now name cacheMap)[name]? = some kept ∧ Safe kept := by
  unfold killCacheEntry
  rw [is]
  dsimp only
  split
  case isFalse => exact ⟨entry, is, safe⟩
  case isTrue available =>
    have stays : entry.state ≠ .remove := safe.resolve_left fun goodbye =>
      absurd (available.symm.trans (not_isAvailable now goodbye)) (by decide)
    split
    next remove => exact absurd remove stays
    · exact ⟨_, Std.ExtTreeMap.getElem?_insert_self, .inr State.noConfusion⟩
    · exact ⟨_, Std.ExtTreeMap.getElem?_insert_self, .inr State.noConfusion⟩
    · exact ⟨entry, is, safe⟩
    · exact ⟨entry, is, safe⟩

theorem runChanged_cons :
    runChanged setup now (name :: names) impl =
      let task := runTaskQueue setup name impl
      let kill := killCache setup now name task.1
      let others := runChanged setup now names kill.1
      (others.1, task.2 ++ kill.2 ++ others.2) := rfl

theorem runChanged_append :
    runChanged setup now (first ++ second) impl =
      let before := runChanged setup now first impl
      let behind := runChanged setup now second before.1
      (behind.1, before.2 ++ behind.2) := by
  induction first generalizing impl with
  | nil => rfl
  | cons name names ih =>
    rw [cons_append, runChanged_cons, runChanged_cons]
    dsimp only
    rw [ih, append_assoc _ _ (runChanged setup now second _).2]

theorem runChanged_cons_of_ne (other : name ≠ setup.name) :
    runChanged setup now (name :: names) impl =
      runChanged setup now names
        { impl with cacheMap := killCacheEntry now name impl.cacheMap } := by
  have task : runTaskQueue setup name impl = (impl, []) := if_neg other
  have kill : killCache setup now name impl =
      ({ impl with cacheMap := killCacheEntry now name impl.cacheMap }, []) := by
    unfold killCache
    rw [if_neg other]
  rw [runChanged_cons, task]
  dsimp only
  rw [kill]
  rfl

variable {names : List Bytes}

theorem runChanged_others (others : setup.name ∉ names) (impl : MDnsProtocolImpl) :
    (runChanged setup now names impl).1.results = impl.results ∧
      (runChanged setup now names impl).2 = [] := by
  induction names generalizing impl with
  | nil => exact ⟨rfl, rfl⟩
  | cons name names ih =>
    obtain ⟨here, later⟩ := not_or.mp (mt mem_cons.mpr others)
    rw [runChanged_cons_of_ne now (Ne.symm here)]
    exact ih later _

variable {impl : MDnsProtocolImpl}

theorem contains_runChanged (others : setup.name ∉ names)
    (is : impl.cacheMap[name]? = some entry) (safe : name ∈ names → Safe entry) :
    name ∈ (runChanged setup now names impl).1.cacheMap := by
  induction names generalizing impl entry with
  | nil => exact Std.ExtTreeMap.mem_iff_isSome_getElem?.mpr (is ▸ rfl)
  | cons first names ih =>
    obtain ⟨here, later⟩ := not_or.mp (mt mem_cons.mpr others)
    rw [runChanged_cons_of_ne now (Ne.symm here)]
    by_cases same : first = name
    · subst same
      obtain ⟨kept, isKept, keptSafe⟩ := safe_killCacheEntry now is (safe mem_cons_self)
      exact ih later isKept fun _ => keptSafe
    · exact ih later ((getElem_killCacheEntry_of_ne now same).trans is)
        fun member => safe (mem_cons_of_mem _ member)

theorem runChanged_cons_self :
    runChanged setup now (setup.name :: names) impl =
      let event := notifyAll setup impl.results impl.cacheMap
      let kill := killBrowseCaches setup event.1 event.2.1
      let others := runChanged setup now names
        { impl with
          results := kill.1
          cacheMap := killCacheEntry now setup.name kill.2.1 }
      (others.1, event.2.2 ++ kill.2.2 ++ others.2) := by
  have task : runTaskQueue setup setup.name impl =
      ({ impl with
          results := (notifyAll setup impl.results impl.cacheMap).1
          cacheMap := (notifyAll setup impl.results impl.cacheMap).2.1 },
        (notifyAll setup impl.results impl.cacheMap).2.2) := if_pos rfl
  rw [runChanged_cons, task]
  unfold killCache
  dsimp only
  rw [if_pos rfl]

theorem sublist_runChanged (impl : MDnsProtocolImpl) :
    ((runChanged setup now names impl).1.results.map key).Sublist (impl.results.map key) := by
  induction names generalizing impl with
  | nil => exact .refl _
  | cons name names ih =>
    by_cases same : name = setup.name
    · subst same
      rw [runChanged_cons_self]
      exact (ih _).trans ((sublist_killBrowseCaches _).trans
        (notified_notifyAll setup _ _).sublist)
    · rw [runChanged_cons_of_ne now same]
      exact ih _

theorem concerning_runChanged (nodup : names.Nodup)
    (event : setup.name ∈ names) (keyed : Keyed (impl.results.map key))
    (member : result ∈ impl.results) (remove : result.state = .remove)
    (is : impl.cacheMap[fullName setup result]? = some entry)
    (safe : fullName setup result ≠ setup.name → fullName setup result ∈ names → Safe entry) :
    concerning result.serviceName (runChanged setup now names impl).2 =
      [.lost (convertResultToInfo result)] := by
  obtain ⟨before, behind, rfl⟩ := append_of_mem event
  obtain ⟨_, behindNodup, disjoint⟩ := nodup_append.mp nodup
  have notBefore : setup.name ∉ before := fun early => disjoint _ early _ mem_cons_self rfl
  have notBehind : setup.name ∉ behind := (nodup_cons.mp behindNodup).1
  obtain ⟨results, silentBefore⟩ := runChanged_others now notBefore impl
  have contains : fullName setup result ∈ (runChanged setup now before impl).1.cacheMap :=
    contains_runChanged now notBefore is fun early =>
      safe (fun same => notBefore (same ▸ early)) (mem_append_left _ early)
  rw [← results] at keyed member
  rw [runChanged_append]
  dsimp only
  rw [silentBefore, runChanged_cons_self]
  dsimp only
  rw [killBrowseCaches_silent (notified_notifyAll setup _ _).state,
    (runChanged_others now notBehind _).2, append_nil, append_nil]
  exact concerning_notifyAll keyed member remove contains

end Events

/-! ## Messages -/

section Messages

variable {setup : Setup}

/-- The full name of a service. -/
def fullNameOf (setup : Setup) (service : Bytes × Bytes) : Bytes :=
  decorated setup (service.1 ++ mdnsDomainSpliter :: service.2)

/-- The records that `ProcessAnswer` goes through. -/
def recordsOf (msg : Message) : List ResourceRecord := msg.answers ++ msg.additional

/-- The services of the results and of the records. -/
def knownServices (setup : Setup) (impl : MDnsProtocolImpl) (msg : Message) :
    List (Bytes × Bytes) :=
  impl.results.map key ++ (recordsOf msg).filterMap (ptrOf setup)

/-- The entry of a name is in the cache when the event runs: it was there or a record
brings it, and the records agree whether it says goodbye. -/
def Present (setup : Setup) (v6 : Bool) (msg : Message) (impl : MDnsProtocolImpl)
    (name : Bytes) : Prop :=
  (name ∈ impl.cacheMap ∨
      (∃ rr ∈ recordsOf msg, rr.name = name ∧ stores setup v6 rr) ∧
        ¬ (name ≠ setup.name ∧ setup.srvMap.contains name)) ∧
    Agree setup v6 impl.cacheMap (recordsOf msg) name
deriving Decidable

/-- Each service that says goodbye in a message has an entry in the cache. -/
def Covered (setup : Setup) (v6 : Bool) (msg : Message) (impl : MDnsProtocolImpl) : Prop :=
  ∀ rr ∈ recordsOf msg, rr.ttl = 0 → ∀ service ∈ ptrOf setup rr,
    ∀ known ∈ knownServices setup impl msg, known.1 = service.1 →
      Present setup v6 msg impl (fullNameOf setup known)
deriving Decidable

theorem nodup_toList (changed : Changed) : changed.toList.Nodup := by
  refine changed.distinct_toList.imp ?_
  rintro name _ differ rfl
  exact differ Std.ReflCmp.compare_self

variable {impl : MDnsProtocolImpl}

theorem concerning_processAnswer {msg : Message}
    (keyed : Keyed (impl.results.map key)) (covered : Covered setup v6 msg impl)
    (member : rr ∈ recordsOf msg) (goodbye : rr.ttl = 0) (is : ptrOf setup rr = some service) :
    ∃ info, concerning service.1 (processAnswer setup v6 now later msg impl).2 = [.lost info] := by
  obtain ⟨afterKeyed, known⟩ := keyed_foldl v6 now (recordsOf msg) (impl, ∅) keyed
  obtain ⟨⟨result, resultMember, named, remove⟩, changed⟩ :=
    removing_foldl member is goodbye
  have resultKnown : key result ∈ knownServices setup impl msg := by
    refine mem_append.mpr ((known _ (mem_map_of_mem resultMember)).imp id ?_)
    rintro ⟨source, sourceMember, sourceIs⟩
    exact mem_filterMap.mpr ⟨source, sourceMember, sourceIs⟩
  obtain ⟨cached, agree⟩ := covered rr member goodbye service is _ resultKnown named
  obtain ⟨entry, isEntry⟩ := Option.isSome_iff_exists.mp
    (Std.ExtTreeMap.mem_iff_isSome_getElem?.mp (contains_foldl (impl, ∅) cached))
  refine ⟨convertResultToInfo result, named ▸ ?_⟩
  exact concerning_runChanged later (nodup_toList _) (mem_toList.mpr changed)
    afterKeyed resultMember remove isEntry fun other listed =>
      safe_foldl agree other (mem_toList.mp listed) entry isEntry

theorem keyed_processAnswer (keyed : Keyed (impl.results.map key)) :
    Keyed ((processAnswer setup v6 now later msg impl).1.results.map key) :=
  (keyed_foldl v6 now (recordsOf msg) (impl, ∅) keyed).1.sublist
    (sublist_runChanged later _)

variable (connects : Bytes → Int → Bool)

theorem sublist_handleOfflineService (results : List Result) (cacheMap : CacheMap) :
    ((handleOfflineService setup connects now results cacheMap).1.map key).Sublist
      (results.map key) := by
  induction results generalizing cacheMap with
  | nil => exact .refl _
  | cons result results ih =>
    unfold handleOfflineService
    dsimp only
    split
    all_goals
      split
      · exact (ih _).cons _
      · exact (ih _).cons_cons _

theorem keyed_browse (keyed : Keyed (impl.results.map key)) :
    Keyed ((browse setup connects now impl).1.results.map key) := by
  unfold browse
  split
  · exact keyed
  · exact keyed.sublist (sublist_handleOfflineService connects _ _)

end Messages

end MDnsProtocolImpl

/-! ## Runs -/

/-- What happens while the callback is registered. -/
inductive Event where
  /-- A message of answers is received over IPv6 or not, and processed. -/
  | receive (v6 : Bool) (now later : Int) (msg : Message)
  | browse (connects : Bytes → Int → Bool) (now : Int)
  /-- The screen goes on or off. -/
  | screen (on : Bool)

/-- The protocol, and what its callback was last told. -/
structure Discovery where
  impl : MDnsProtocolImpl
  /-- The last notification for a service. -/
  last : Bytes → Option Notification := fun _ => none

namespace Discovery

open MDnsProtocolImpl

variable (setup : Setup)

/-- What the protocol does. -/
def handle (impl : MDnsProtocolImpl) : Event → MDnsProtocolImpl × List Notification
  | .receive v6 now later msg => processAnswer setup v6 now later msg impl
  | .browse connects now => browse setup connects now impl
  | .screen on => ({ impl with isScreenOn := on }, [])

variable (discovery : Discovery)

/-- One event. -/
def step (event : Event) : Discovery :=
  let (impl, notifications) := handle setup discovery.impl event
  { impl := impl
    last := fun serviceName =>
      (concerning serviceName notifications).getLast? <|> discovery.last serviceName }

/-- A notification that a service was found. -/
def isFound : Notification → Bool
  | .found _ => true
  | .lost _ => false

/-- A message with a goodbye of a service does not have it found, and has it lost once if
it was last found. -/
def Heeded : Event → Prop
  | .receive v6 now later msg =>
    ∀ rr ∈ recordsOf msg, rr.ttl = 0 → ∀ service ∈ ptrOf setup rr,
      let told := concerning service.1 (processAnswer setup v6 now later msg discovery.impl).2
      told.countP isFound = 0 ∧
        ((discovery.last service.1).any isFound → told.countP (!isFound ·) = 1)
  | _ => True

/-- Goodbyes are covered by the cache. -/
def permitted : Event → Prop
  | .receive v6 _ _ msg => Covered setup v6 msg discovery.impl
  | _ => True

instance decidablePermitted (discovery : Discovery) :
    (event : Event) → Decidable (permitted setup discovery event)
  | .receive .. => inferInstanceAs (Decidable (Covered ..))
  | .browse .. => isTrue trivial
  | .screen .. => isTrue trivial

variable {setup}

/-- The results are of different services. -/
def Distinct : Prop := Keyed (discovery.impl.results.map key)

theorem distinct_start (fresh : start.impl.results = []) : Distinct start := by
  unfold Distinct
  rw [fresh]
  exact ⟨.nil, nofun⟩

theorem Distinct.step (keyed : Distinct discovery) :
    Distinct (step setup discovery event) := by
  cases event with
  | receive v6 now later msg => exact keyed_processAnswer keyed
  | browse connects now => exact keyed_browse connects keyed
  | screen on => exact keyed

/-- In a run in which every goodbye is covered, each is heeded. -/
theorem heeded_of_reach {start discovery : Discovery} (fresh : start.impl.results = [])
    (reach : Run.Reach (step setup) (permitted setup) start discovery) {event : Event}
    (allowed : permitted setup discovery event) :
    Heeded setup discovery event := by
  have keyed : Distinct discovery :=
    reach.invariant (distinct_start fresh) fun _ event keyed _ => keyed.step
  cases event with
  | receive v6 now later msg =>
    intro rr member goodbye service is
    obtain ⟨info, told⟩ := concerning_processAnswer keyed allowed member goodbye is
    rw [told]
    exact ⟨rfl, fun _ => rfl⟩
  | browse => trivial
  | screen => trivial

/-- `_http._tcp.local`. -/
def httpType : Bytes := [95, 104, 116, 116, 112, 46, 95, 116, 99, 112, 46, 108, 111, 99, 97, 108]

/-- `s._http._tcp.local`. -/
def httpService : Bytes := 115 :: mdnsDomainSpliter :: httpType

/-- A callback for `_http._tcp`. -/
def httpSetup : Setup where
  name := httpType
  topDomain := mdnsTopDomainDefault
  srvMap := []
  addrToString _ := []

/-- The pointer record of the service. -/
def httpPtr (ttl : UInt32) : ResourceRecord := ⟨httpType, rrtypePtr, 1, ttl, 0, .string httpService⟩

/-- The service record of the service. -/
def httpSrv (ttl : UInt32) : ResourceRecord :=
  ⟨httpService, rrtypeSrv, 1, ttl, 0, .srv ⟨0, 0, 80, httpType⟩⟩

/-- A message with records. -/
def received (records : List ResourceRecord) : Event := .receive false 0 0 { answers := records }

/-- A goodbye with the service record. -/
theorem heeded_httpSrv :
    Heeded httpSetup (step httpSetup { impl := {} } (received [httpPtr 120, httpSrv 120]))
      (received [httpPtr 0, httpSrv 0]) :=
  heeded_of_reach rfl (Run.Reach.start.step (by decide +kernel)) (by decide +kernel)

/-- A goodbye without one: the service is found again, and not lost. -/
theorem not_heeded :
    ¬ ∀ (setup : Setup) (start discovery : Discovery), start.impl.results = [] →
      Run.Reach (step setup) (fun _ _ => True) start discovery →
        ∀ event, Heeded setup discovery event := by
  intro heeded
  have told := heeded httpSetup { impl := {} }
    (step httpSetup { impl := {} } (received [httpPtr 120])) rfl (.step .start trivial)
    (received [httpPtr 0]) (httpPtr 0) mem_cons_self rfl _ rfl
  exact absurd told (by decide +kernel)

end Discovery

end NetManager.Mdns
