import NetManager.Slice.Selection

/-!
# Which route is selected

A route is available if some S-NSSAI and DNN that it lists, where it lists any, is allowed
and not forbidden. The code tries the same combinations, but with what the routes before
have left in the result in place of what a route does not list, and not for a route that is
forbidden without an S-NSSAI and a DNN. Where nothing that routes list matters for those behind
them, the first available route that is not refused so is selected, of the rules of any PLMN.
-/

namespace NetManager.Slice

open List Wire Option

/-- An S-NSSAI and a DNN, which may both be empty. -/
structure Combination where
  snssai : Bytes := []
  dnn : Bytes := []
  deriving DecidableEq

namespace SelectedRouteDescriptor

section

variable (route : SelectedRouteDescriptor)

/-- The combination of a result. -/
def combination : Combination := ⟨route.snssai, route.dnn⟩

/-- The result with another combination. -/
def withCombination (combination : Combination) : SelectedRouteDescriptor :=
  { route with
    snssai := combination.snssai
    dnn := combination.dnn }

/-- The result for a route. -/
def withDescriptor (descriptor : RouteSelectionDescriptor) : SelectedRouteDescriptor :=
  { route with
    pduSessionType := descriptor.pduSessionType
    sscMode := descriptor.sscMode }

end

theorem combination_new : combination {} = {} := rfl

variable (route : SelectedRouteDescriptor)

section

variable (combination : Combination) (descriptor : RouteSelectionDescriptor)

@[simp] theorem combination_withCombination :
    (route.withCombination combination).combination = combination := rfl

@[simp] theorem combination_withDescriptor :
    (route.withDescriptor descriptor).combination = route.combination := rfl

theorem withDescriptor_withCombination :
    (route.withCombination combination).withDescriptor descriptor =
      (route.withDescriptor descriptor).withCombination combination := rfl

end

end SelectedRouteDescriptor

open SelectedRouteDescriptor

section Surroundings

variable (around : Surroundings)

/-! ## Available routes -/

section

variable (descriptor : RouteSelectionDescriptor) (given : Bytes)

/-- A combination is forbidden for a route. -/
def Forbidden (combination : Combination) : Bool :=
  around.forbidden.contains
    ⟨descriptor.sscMode, descriptor.pduSessionType, combination.snssai, combination.dnn⟩

/-- The texts of S-NSSAIs that are allowed. -/
def allowedTexts (snssais : List Snssai) : List Bytes :=
  (snssais.map around.allowedText).filter (· ≠ [])

/-- The S-NSSAIs that a route can have: those which it lists and that are allowed, or the one
that is given if it lists none. -/
def snssaisOf : List Bytes :=
  if descriptor.snssais = [] then [given] else allowedTexts around descriptor.snssais

/-- The DNNs that a route can have. -/
def dnnsOf : List Bytes :=
  if descriptor.dnns = [] then [given] else descriptor.dnns

/-- The combinations of a route. -/
def combinations (given : Combination) : List Combination :=
  (snssaisOf around descriptor given.snssai).flatMap fun snssai =>
    (dnnsOf descriptor given.dnn).map fun dnn => ⟨snssai, dnn⟩

/-- A route is available: it has a combination that is not forbidden. -/
def Available : Prop :=
  ∃ combination ∈ combinations around descriptor {},
    Forbidden around descriptor combination = false
deriving Decidable

end

/-- The routes of the rules that match an application. -/
def candidates (app : AppDescriptor) (urspRules : List UrspRule) : List Candidate :=
  (urspRules.filter fun urspRule =>
    isTrafficDescriptorMatch urspRule.trafficDescriptor app).flatMap fun urspRule =>
      urspRule.routeSelectionDescriptors.map fun descriptor => ⟨urspRule, descriptor⟩

/-- The first available route of the rules that match an application. -/
def firstAvailable (app : AppDescriptor) (urspRules : List UrspRule) : Option Candidate :=
  (candidates app urspRules).find? fun candidate => Available around candidate.descriptor

/-- The first combination of a route that is not forbidden. -/
def firstAllowed (descriptor : RouteSelectionDescriptor) : Option Combination :=
  (combinations around descriptor {}).find? fun combination =>
    !Forbidden around descriptor combination

/-- A route is available, and not refused without an S-NSSAI and a DNN. -/
def Taken (descriptor : RouteSelectionDescriptor) : Prop :=
  Forbidden around descriptor {} = false ∧ Available around descriptor
deriving Decidable

/-- The first available route that is not refused, of the rules that match an application. -/
def firstTaken (app : AppDescriptor) (urspRules : List UrspRule) : Option Candidate :=
  (candidates app urspRules).find? fun candidate => Taken around candidate.descriptor

/-- A combination of an S-NSSAI and a DNN that candidates list, or of nothing. -/
def Listed (candidates : List Candidate) (combination : Combination) : Prop :=
  (combination.snssai = [] ∨ ∃ candidate ∈ candidates,
      combination.snssai ∈ allowedTexts around candidate.descriptor.snssais) ∧
    (combination.dnn = [] ∨ ∃ candidate ∈ candidates,
      combination.dnn ∈ candidate.descriptor.dnns)

/-- A route lists what a combination has, and is refused with it as without it. -/
structure Indifferent (descriptor : RouteSelectionDescriptor) (combination : Combination) :
    Prop where
  snssai : descriptor.snssais = [] → combination.snssai = []
  dnn : descriptor.dnns = [] → combination.dnn = []
  refused : Forbidden around descriptor combination = Forbidden around descriptor {}

/-- What candidates list does not matter for those behind them, up to the first that is taken. -/
def Undisturbed (passed : List Candidate) : List Candidate → Prop
  | [] => True
  | candidate :: candidates =>
    (∀ combination, Listed around passed combination →
        Indifferent around candidate.descriptor combination) ∧
      (¬ Taken around candidate.descriptor → Undisturbed (passed ++ [candidate]) candidates)

/-- The traffic descriptor of a candidate can be put to the result: it matches all, or it has
no IPv4 address, and no DNN or one with which the candidate is not forbidden. -/
def Fits (app : AppDescriptor) (candidate : Candidate) : Prop :=
  candidate.urspRule.trafficDescriptor.isMatchAll = true ∨
    candidate.urspRule.trafficDescriptor.ipv4Addrs = [] ∧
      (candidate.urspRule.trafficDescriptor.dnns = [] ∨
        ∀ combination ∈ firstAllowed around candidate.descriptor,
          Forbidden around candidate.descriptor ⟨combination.snssai, app.dnn⟩ = false)

/-! ## Routes that are tried -/

section

variable (left : Combination) (descriptor : RouteSelectionDescriptor)

/-- The combination that is taken for a route, after another one is left. -/
def pick : Option Combination :=
  if Forbidden around descriptor left then none
  else (combinations around descriptor left).find? fun combination =>
    !Forbidden around descriptor combination

/-- The combination that is left by a route for which none is taken. -/
def leave : Combination :=
  if Forbidden around descriptor left then left
  else (combinations around descriptor left).getLastD left

end

/-! ## Combinations in turn -/

/-- Combinations in turn. -/
def tryCombinations : List Combination → SelectedRouteDescriptor → Bool × SelectedRouteDescriptor
  | [], route => (false, route)
  | combination :: combinations, route =>
    if isRouteRuleInForbiddenList around (route.withCombination combination) then
      tryCombinations combinations (route.withCombination combination)
    else (true, route.withCombination combination)

variable {around}

theorem isRouteRuleInForbiddenList_eq (route : SelectedRouteDescriptor) :
    isRouteRuleInForbiddenList around (route.withDescriptor descriptor) =
      Forbidden around descriptor route.combination := by
  unfold isRouteRuleInForbiddenList Forbidden
  rw [contains_eq_any_beq]
  congr 1
  funext forbidden
  rw [Bool.eq_iff_iff]
  cases forbidden
  simp only [Bool.and_eq_true, decide_eq_true_eq, beq_iff_eq, ForbiddenRouteDescriptor.mk.injEq]
  tauto

theorem tryCombinations_append (route : SelectedRouteDescriptor) :
    tryCombinations around (first ++ second) route =
      if (tryCombinations around first route).1 then tryCombinations around first route
      else tryCombinations around second (tryCombinations around first route).2 := by
  induction first generalizing route with
  | nil => rfl
  | cons combination first ih =>
    rw [cons_append, tryCombinations, tryCombinations]
    split
    · exact ih _
    · rfl

theorem tryCombinations_withCombination {combinations : List Combination}
    (nonempty : combinations ≠ []) (before : Combination) :
    tryCombinations around combinations (route.withCombination before) =
      tryCombinations around combinations route := by
  cases combinations with
  | nil => exact absurd rfl nonempty
  | cons combination combinations => rfl

theorem findAvailableDnn_eq (route : SelectedRouteDescriptor) :
    findAvailableDnn around dnns route =
      tryCombinations around (dnns.map (⟨route.snssai, ·⟩)) route := by
  induction dnns generalizing route with
  | nil => rfl
  | cons dnn dnns ih =>
    have later := ih (route.withCombination ⟨route.snssai, dnn⟩)
    change (if _ then findAvailableDnn around dnns
      (route.withCombination ⟨route.snssai, dnn⟩) else _) = _
    rw [later]
    rfl

theorem allowedTexts_cons (snssai : Snssai) :
    allowedTexts around (snssai :: snssais) =
      if around.allowedText snssai = [] then allowedTexts around snssais
      else around.allowedText snssai :: allowedTexts around snssais := by
  unfold allowedTexts
  rw [map_cons, filter_cons]
  simp

theorem findAvailableSnssai_eq (route : SelectedRouteDescriptor) :
    findAvailableSnssai around snssais route =
      tryCombinations around
        ((allowedTexts around snssais).map (⟨·, route.dnn⟩)) route := by
  induction snssais generalizing route with
  | nil => rfl
  | cons snssai snssais ih =>
    rw [findAvailableSnssai, allowedTexts_cons]
    split
    · exact ih route
    · have later := ih (route.withCombination ⟨around.allowedText snssai, route.dnn⟩)
      change (if _ then findAvailableSnssai around snssais
        (route.withCombination ⟨around.allowedText snssai, route.dnn⟩) else _) = _
      rw [later]
      rfl

theorem findAvailableSnssaiAndDnn_eq (nonempty : dnns ≠ [])
    (route : SelectedRouteDescriptor) :
    findAvailableSnssaiAndDnn around dnns snssais route =
      tryCombinations around ((allowedTexts around snssais).flatMap fun snssai =>
        dnns.map (⟨snssai, ·⟩)) route := by
  induction snssais generalizing route with
  | nil => rfl
  | cons snssai snssais ih =>
    rw [findAvailableSnssaiAndDnn, allowedTexts_cons]
    dsimp only
    split
    · exact ih route
    · rw [flatMap_cons, tryCombinations_append]
      have same : findAvailableDnn around dnns
          { route with snssai := around.allowedText snssai } =
            tryCombinations around
              (dnns.map (⟨around.allowedText snssai, ·⟩)) route := by
        rw [findAvailableDnn_eq]
        exact tryCombinations_withCombination
          (fun empty => nonempty (map_eq_nil_iff.mp empty))
          ⟨around.allowedText snssai, route.dnn⟩
      rw [same]
      split
      · rfl
      · exact ih _

variable {route : SelectedRouteDescriptor} {descriptor : RouteSelectionDescriptor}

theorem findAvailable_eq (notForbidden : isRouteRuleInForbiddenList around route = false) :
    findAvailable around descriptor route =
      tryCombinations around (combinations around descriptor route.combination)
        route := by
  unfold findAvailable combinations snssaisOf dnnsOf
  split
  · rw [flatMap_singleton]
    split
    · change _ = (if isRouteRuleInForbiddenList around route then _ else _)
      rw [notForbidden]
      rfl
    · exact findAvailableDnn_eq _
  · split
    · rw [findAvailableSnssai_eq, map_eq_flatMap]
      rfl
    next someDnns => exact findAvailableSnssaiAndDnn_eq someDnns _

theorem tryCombinations_eq (combinations : List Combination) (route : SelectedRouteDescriptor) :
    tryCombinations around combinations (route.withDescriptor descriptor) =
      match combinations.find? fun combination =>
        !Forbidden around descriptor combination with
      | some combination => (true, (route.withDescriptor descriptor).withCombination combination)
      | none => (false, (route.withDescriptor descriptor).withCombination
          (combinations.getLastD route.combination)) := by
  induction combinations generalizing route with
  | nil => rfl
  | cons combination combinations ih =>
    have later := ih (route.withCombination combination)
    rw [tryCombinations, ← withDescriptor_withCombination, isRouteRuleInForbiddenList_eq, later,
      combination_withCombination, find?_cons, getLastD_cons]
    cases Forbidden around descriptor combination with
    | true => rfl
    | false => rfl

/-! ## Candidates in turn -/

theorem findAvailableRouteRule_cons :
    findAvailableRouteRule around (descriptor :: descriptors) route =
      match pick around route.combination descriptor with
      | some combination =>
        (some descriptor, (route.withDescriptor descriptor).withCombination combination)
      | none => findAvailableRouteRule around descriptors
          ((route.withDescriptor descriptor).withCombination
            (leave around route.combination descriptor)) := by
  change (if isRouteRuleInForbiddenList around (route.withDescriptor descriptor) then
    findAvailableRouteRule around descriptors (route.withDescriptor descriptor)
    else if (findAvailable around descriptor (route.withDescriptor descriptor)).1 then
      (some descriptor, (findAvailable around descriptor (route.withDescriptor descriptor)).2)
    else findAvailableRouteRule around descriptors
      (findAvailable around descriptor (route.withDescriptor descriptor)).2) = _
  unfold pick leave
  split
  next forbidden =>
    rw [isRouteRuleInForbiddenList_eq] at forbidden
    rw [if_pos forbidden, if_pos forbidden]
    rfl
  next notForbidden =>
    rw [findAvailable_eq (eq_false_of_ne_true notForbidden), combination_withDescriptor,
      tryCombinations_eq]
    rw [isRouteRuleInForbiddenList_eq] at notForbidden
    rw [if_neg notForbidden, if_neg notForbidden]
    cases (combinations around descriptor route.combination).find? fun combination =>
        !Forbidden around descriptor combination with
    | none => rfl
    | some combination => rfl

variable (around) in
/-- The first candidate for which a combination is taken, and the last combination. -/
def search (left : Combination) : List Candidate → Option (Candidate × Combination) × Combination
  | [] => (none, left)
  | candidate :: candidates =>
    match pick around left candidate.descriptor with
    | some combination => (some (candidate, combination), combination)
    | none => search (leave around left candidate.descriptor) candidates

theorem search_append (left : Combination) :
    search around left (first ++ second) = match search around left first with
      | (some found, last) => (some found, last)
      | (none, last) => search around last second := by
  induction first generalizing left with
  | nil => rfl
  | cons candidate first ih =>
    rw [cons_append, search, search]
    cases pick around left candidate.descriptor with
    | some combination => rfl
    | none => exact ih _

/-- Results that differ in what a search writes only. -/
def Alike (route other : SelectedRouteDescriptor) : Prop :=
  ∀ descriptor combination, (other.withDescriptor descriptor).withCombination combination =
    (route.withDescriptor descriptor).withCombination combination

variable (around) in
theorem findAvailableRouteRule_eq (route : SelectedRouteDescriptor) :
    ∃ other, Alike route other ∧
      match search around route.combination (descriptors.map (⟨urspRule, ·⟩)) with
      | (some (candidate, combination), _) =>
        candidate.urspRule = urspRule ∧
          findAvailableRouteRule around descriptors route =
            (some candidate.descriptor,
              (route.withDescriptor candidate.descriptor).withCombination combination)
      | (none, last) =>
        findAvailableRouteRule around descriptors route = (none, other) ∧
          other.combination = last := by
  induction descriptors generalizing route with
  | nil => exact ⟨route, fun _ _ => rfl, rfl, rfl⟩
  | cons descriptor descriptors ih =>
    rw [map_cons, search, findAvailableRouteRule_cons]
    cases pick around route.combination descriptor with
    | some combination => exact ⟨route, fun _ _ => rfl, rfl, rfl⟩
    | none =>
      obtain ⟨other, alike, spec⟩ := ih
        ((route.withDescriptor descriptor).withCombination
          (leave around route.combination descriptor))
      exact ⟨other, alike, spec⟩

/-- The result for a candidate, before its traffic descriptor is put to it. -/
def resultFor (route : SelectedRouteDescriptor) (candidate : Candidate)
    (combination : Combination) : SelectedRouteDescriptor :=
  { (route.withDescriptor candidate.descriptor).withCombination combination with
    urspPrecedence := UInt8.ofInt candidate.urspRule.urspPrecedence }

variable (around) in
theorem selectRule_eq (app : AppDescriptor) (urspRules : List UrspRule)
    (route : SelectedRouteDescriptor) :
    match search around route.combination (candidates app urspRules) with
    | (some (candidate, combination), _) =>
      selectRule around app urspRules route =
        (fillTrafficDescriptor candidate.urspRule.trafficDescriptor app
          (resultFor route candidate combination)).map fun route => (some candidate, route)
    | (none, _) => ∃ other, selectRule around app urspRules route = .ok (none, other) := by
  induction urspRules generalizing route with
  | nil => exact ⟨route, rfl⟩
  | cons urspRule urspRules ih =>
    rw [selectRule]
    by_cases isMatch : isTrafficDescriptorMatch urspRule.trafficDescriptor app = true
    case neg =>
      rw [candidates, filter_cons, if_neg isMatch, if_neg isMatch]
      exact ih route
    case pos =>
      rw [candidates, filter_cons, if_pos isMatch, flatMap_cons, search_append, if_pos isMatch]
      obtain ⟨other, alike, spec⟩ := findAvailableRouteRule_eq around route
      revert spec
      cases search around route.combination
          (urspRule.routeSelectionDescriptors.map (⟨urspRule, ·⟩)) with
      | mk found last =>
        cases found with
        | some found =>
          rintro ⟨rfl, is⟩
          rw [is]
          rfl
        | none =>
          rintro ⟨is, rfl⟩
          rw [is]
          have later := ih other
          have same : ∀ candidate combination,
              resultFor other candidate combination = resultFor route candidate combination :=
            fun candidate combination => by rw [resultFor, alike, resultFor]
          simp only [same] at later
          exact later

variable {candidate : Candidate} {left combination : Combination}

theorem Listed.leave (listed : Listed around passed left) :
    Listed around (passed ++ [candidate]) (leave around left candidate.descriptor) := by
  have last : candidate ∈ passed ++ [candidate] := mem_append_right _ mem_cons_self
  have old : Listed around (passed ++ [candidate]) left :=
    listed.imp (Or.imp_right fun ⟨other, member, is⟩ => ⟨other, mem_append_left _ member, is⟩)
      (Or.imp_right fun ⟨other, member, is⟩ => ⟨other, mem_append_left _ member, is⟩)
  unfold Slice.leave
  rw [getLastD_eq_getLast?]
  split
  · exact old
  · cases tried : (combinations around candidate.descriptor left).getLast? with
    | none => exact old
    | some combination =>
      obtain ⟨snssai, isSnssai, isCombination⟩ := mem_flatMap.mp (mem_of_getLast? tried)
      obtain ⟨dnn, isDnn, rfl⟩ := mem_map.mp isCombination
      unfold snssaisOf at isSnssai
      unfold dnnsOf at isDnn
      constructor
      · split at isSnssai
        · exact mem_singleton.mp isSnssai ▸ old.1
        · exact .inr ⟨candidate, last, isSnssai⟩
      · split at isDnn
        · exact mem_singleton.mp isDnn ▸ old.2
        · exact .inr ⟨candidate, last, isDnn⟩

theorem pick_of_indifferent (indifferent : Indifferent around descriptor left) :
    pick around left descriptor =
      if Forbidden around descriptor {} then none else firstAllowed around descriptor := by
  have same : combinations around descriptor left = combinations around descriptor {} := by
    unfold combinations snssaisOf dnnsOf
    by_cases noSnssais : descriptor.snssais = [] <;> by_cases noDnns : descriptor.dnns = [] <;>
      simp [noSnssais, noDnns, indifferent.snssai, indifferent.dnn]
  rw [pick, indifferent.refused, same]
  rfl

theorem isSome_firstAllowed :
    (firstAllowed around descriptor).isSome ↔ Available around descriptor := by
  simp [firstAllowed, Available, find?_isSome]

theorem search_eq {candidates : List Candidate} (listed : Listed around passed left)
    (undisturbed : Undisturbed around passed candidates) :
    (search around left candidates).1 =
      (candidates.find? fun candidate => Taken around candidate.descriptor).bind fun candidate =>
        (firstAllowed around candidate.descriptor).map (candidate, ·) := by
  induction candidates generalizing left passed with
  | nil => rfl
  | cons candidate candidates ih =>
    obtain ⟨indifferent, later⟩ := undisturbed
    rw [search, pick_of_indifferent (indifferent left listed)]
    by_cases taken : Taken around candidate.descriptor
    · obtain ⟨combination, allowed⟩ :=
        Option.isSome_iff_exists.mp (isSome_firstAllowed.mpr taken.2)
      rw [taken.1, allowed, find?_cons_of_pos (by simpa using taken), bind_some, allowed]
      rfl
    · have nothing : (if Forbidden around candidate.descriptor {} then none
          else firstAllowed around candidate.descriptor) = none := by
        split
        · rfl
        next notRefused =>
          rw [← not_isSome_iff_eq_none, isSome_firstAllowed]
          exact fun available => taken ⟨eq_false_of_ne_true notRefused, available⟩
      rw [nothing, find?_cons_of_neg (by simpa using taken)]
      exact ih listed.leave (later taken)

/-! ## The traffic descriptor of the result -/

/-- The DNN of a result. -/
def finalDnn (descriptor : TrafficDescriptor) (app : AppDescriptor) (dnn : Bytes) : Bytes :=
  if descriptor.isMatchAll ∨ descriptor.dnns = [] then dnn else app.dnn

/-- The traffic descriptor changes the DNN only, of what is selected. -/
structure Filled (descriptor : TrafficDescriptor) (app : AppDescriptor)
    (route after : SelectedRouteDescriptor) : Prop where
  sscMode : after.sscMode = route.sscMode
  pduSessionType : after.pduSessionType = route.pduSessionType
  snssai : after.snssai = route.snssai
  urspPrecedence : after.urspPrecedence = route.urspPrecedence
  dnn : after.dnn = finalDnn descriptor app route.dnn

theorem fillTrafficDescriptor_cases (descriptor : TrafficDescriptor) :
    ((descriptor.isMatchAll = true ∨ descriptor.ipv4Addrs = []) ∧
        ∃ after, fillTrafficDescriptor descriptor app route = .ok after ∧
          Filled descriptor app route after) ∨
      (¬ (descriptor.isMatchAll = true ∨ descriptor.ipv4Addrs = []) ∧
        fillTrafficDescriptor descriptor app route = .error .outside) := by
  unfold fillTrafficDescriptor
  split
  next matchAll =>
    refine .inl ⟨.inl matchAll, _, rfl, rfl, rfl, rfl, rfl, ?_⟩
    rw [finalDnn, if_pos (.inl matchAll)]
  next notAll =>
    by_cases none : descriptor.ipv4Addrs = []
    · rw [if_pos none]
      refine .inl ⟨.inr none, _, rfl, ?_⟩
      have final : finalDnn descriptor app route.dnn =
          if descriptor.dnns = [] then route.dnn else app.dnn := by
        simp [finalDnn, notAll]
      constructor
      all_goals
        dsimp only [fillRemotePorts, fillDnn, fillProtocolIds, fillIpv6Addrs, fillOsAppIds]
        try rw [final]
        split_ifs <;> rfl
    · rw [if_neg none, fillIpv4Addrs, if_pos]
      · exact .inr ⟨not_or.mpr ⟨notAll, none⟩, rfl⟩
      · have positive := length_pos_of_ne_nil none
        omega

/-! ## What is selected -/

variable (around)

/-- A rule matches the application and has an available route. -/
def Serves (app : AppDescriptor) (urspRule : UrspRule) : Prop :=
  isTrafficDescriptorMatch urspRule.trafficDescriptor app = true ∧
    ∃ descriptor ∈ urspRule.routeSelectionDescriptors, Available around descriptor

/-- A candidate of the first rule that serves the application, with its first available
route. -/
structure Foremost (app : AppDescriptor) (urspRules : List UrspRule) (candidate : Candidate) :
    Prop where
  stored : candidate.urspRule ∈ urspRules
  isMatch : isTrafficDescriptorMatch candidate.urspRule.trafficDescriptor app = true
  listed : candidate.descriptor ∈ candidate.urspRule.routeSelectionDescriptors
  available : Available around candidate.descriptor
  /-- No rule that serves the application has a precedence before. -/
  firstRule : ∀ urspRule ∈ urspRules, Serves around app urspRule →
    candidate.urspRule.urspPrecedence ≤ urspRule.urspPrecedence
  /-- No available route of the rule has a precedence before. -/
  firstRoute : ∀ descriptor ∈ candidate.urspRule.routeSelectionDescriptors,
    Available around descriptor →
      candidate.descriptor.routePrecedence ≤ descriptor.routePrecedence

/-- The selection is right: there is one if a rule of the PLMN serves the application, it is
the first available route of the first rule, and what is returned is of this route. -/
structure Right (app : AppDescriptor) (urspRules : List UrspRule) (selected : Option Candidate)
    (route : SelectedRouteDescriptor) : Prop where
  isSome_iff : selected.isSome ↔ ∃ urspRule ∈ urspRules, Serves around app urspRule
  isFirst : selected = firstAvailable around app urspRules
  foremost : ∀ candidate ∈ selected, Foremost around app urspRules candidate
  urspPrecedence : ∀ candidate ∈ selected,
    route.urspPrecedence = UInt8.ofInt candidate.urspRule.urspPrecedence
  sscMode : ∀ candidate ∈ selected, route.sscMode = candidate.descriptor.sscMode
  pduSessionType : ∀ candidate ∈ selected,
    route.pduSessionType = candidate.descriptor.pduSessionType
  snssai : ∀ candidate ∈ selected, route.snssai ∈ snssaisOf around candidate.descriptor []
  notForbidden : selected.isSome → isRouteRuleInForbiddenList around route = false

variable {around}

theorem firstAvailable_eq :
    firstAvailable around app urspRules =
      (urspRules.filter fun urspRule =>
        isTrafficDescriptorMatch urspRule.trafficDescriptor app).findSome? fun urspRule =>
          (urspRule.routeSelectionDescriptors.find? fun descriptor =>
            Available around descriptor).map (⟨urspRule, ·⟩) := by
  unfold firstAvailable candidates
  rw [find?_flatMap]
  congr 1
  funext urspRule
  rw [find?_map]
  rfl

theorem isSome_firstAvailable :
    (firstAvailable around app urspRules).isSome ↔
      ∃ urspRule ∈ urspRules, Serves around app urspRule := by
  rw [firstAvailable_eq, findSome?_isSome_iff]
  constructor
  · rintro ⟨urspRule, member, isSome⟩
    obtain ⟨stored, isMatch⟩ := mem_filter.mp member
    rw [isSome_map, find?_isSome] at isSome
    obtain ⟨descriptor, listed, available⟩ := isSome
    exact ⟨urspRule, stored, isMatch, descriptor, listed, of_decide_eq_true available⟩
  · rintro ⟨urspRule, stored, isMatch, descriptor, listed, available⟩
    refine ⟨urspRule, mem_filter.mpr ⟨stored, isMatch⟩, ?_⟩
    rw [isSome_map, find?_isSome]
    exact ⟨descriptor, listed, decide_eq_true available⟩

/-- In a list in order, the first element with a property is before the others with it. -/
theorem le_of_find_first {α : Type} {key : α → Int} {before after : List α} {first other : α}
    (ordered : (before ++ first :: after).Pairwise fun first second => key first ≤ key second)
    (member : other ∈ before ++ first :: after) (notBefore : other ∉ before) :
    key first ≤ key other := by
  obtain inBefore | inRest := mem_append.mp member
  · exact absurd inBefore notBefore
  · obtain rfl | inAfter := mem_cons.mp inRest
    · exact Int.le_refl _
    · exact (pairwise_cons.mp (pairwise_append.mp ordered).2.1).1 other inAfter

/-- Stored rules have the first available route at the first precedence. -/
theorem foremost_of_firstAvailable (urspRules : StoredRules)
    (is : firstAvailable around app urspRules.val = some candidate) :
    Foremost around app urspRules.val candidate := by
  obtain ⟨urspRules, rulesOrdered, routesOrdered⟩ := urspRules
  rw [firstAvailable_eq, findSome?_eq_some_iff] at is
  obtain ⟨before, urspRule, after, isRules, isFound, noneBefore⟩ := is
  obtain ⟨descriptor, isDescriptor, rfl⟩ := map_eq_some_iff.mp isFound
  obtain ⟨available, earlier, later, isRoutes, noneEarlier⟩ :=
    find?_eq_some_iff_append.mp isDescriptor
  have member : urspRule ∈ urspRules.filter fun urspRule =>
      isTrafficDescriptorMatch urspRule.trafficDescriptor app :=
    isRules ▸ mem_append_right before mem_cons_self
  obtain ⟨stored, isMatch⟩ := mem_filter.mp member
  refine ⟨stored, isMatch, mem_of_find?_eq_some isDescriptor, of_decide_eq_true available, ?_, ?_⟩
  · rintro other otherStored ⟨otherMatch, route, listed, routeAvailable⟩
    have ordered := rulesOrdered.sublist (filter_sublist (p := fun urspRule =>
      isTrafficDescriptorMatch urspRule.trafficDescriptor app))
    rw [isRules] at ordered
    refine le_of_find_first ordered (isRules ▸ mem_filter.mpr ⟨otherStored, otherMatch⟩) ?_
    intro inBefore
    have nothing := noneBefore other inBefore
    rw [map_eq_none_iff, find?_eq_none] at nothing
    exact nothing route listed (decide_eq_true routeAvailable)
  · intro other listed otherAvailable
    have ordered := routesOrdered urspRule stored
    rw [isRoutes] at ordered listed
    refine le_of_find_first ordered listed fun inEarlier => ?_
    have unavailable : ¬ Available around other := by
      simpa using noneEarlier other inEarlier
    exact unavailable otherAvailable

variable (around) in
/-- `SliceNetworkSelection` selects what it should, on a new result. -/
def SelectsRight (policies : Policies) (plmn : Bytes) (app : AppDescriptor) : Prop :=
  ∃ selected route,
    sliceNetworkSelection around policies plmn app {} = .ok (selected, route) ∧
      Right around app (policies.used.rulesFor plmn) selected route

variable {urspRules : List UrspRule}

theorem right_none :
    Right around app urspRules none route ↔
      firstAvailable around app urspRules = none := by
  constructor
  · intro right
    exact right.isFirst.symm
  · intro is
    constructor
    case isSome_iff => rw [← isSome_firstAvailable, is]
    case isFirst => exact is.symm
    case notForbidden => exact fun isSome => absurd isSome Bool.false_ne_true
    all_goals rintro _ ⟨⟩

/-- The DNN of the application takes the place of the one that is not forbidden. -/
theorem fits_iff (allowed : firstAllowed around candidate.descriptor = some combination) :
    Fits around app candidate ↔
      (candidate.urspRule.trafficDescriptor.isMatchAll = true ∨
          candidate.urspRule.trafficDescriptor.ipv4Addrs = []) ∧
        Forbidden around candidate.descriptor ⟨combination.snssai,
          finalDnn candidate.urspRule.trafficDescriptor app combination.dnn⟩ = false := by
  have notForbidden : Forbidden around candidate.descriptor combination = false := by
    simpa using find?_some allowed
  unfold Fits finalDnn
  rw [allowed]
  by_cases matchAll : candidate.urspRule.trafficDescriptor.isMatchAll = true
  · simp [matchAll, notForbidden]
  · by_cases noDnns : candidate.urspRule.trafficDescriptor.dnns = [] <;>
      simp [matchAll, noDnns, notForbidden]

section

variable (allowed : firstAllowed around candidate.descriptor = some combination)

include allowed

theorem right_some (urspRules : StoredRules)
    (filled : Filled candidate.urspRule.trafficDescriptor app
      (resultFor {} candidate combination) route) :
    Right around app urspRules.val (some candidate) route ↔
      firstAvailable around app urspRules.val = some candidate ∧
        Forbidden around candidate.descriptor ⟨combination.snssai,
          finalDnn candidate.urspRule.trafficDescriptor app combination.dnn⟩ = false := by
  have isCombination : route.combination = ⟨combination.snssai,
      finalDnn candidate.urspRule.trafficDescriptor app combination.dnn⟩ := by
    rw [SelectedRouteDescriptor.combination, filled.snssai, filled.dnn]
    rfl
  have sscMode : route.sscMode = candidate.descriptor.sscMode := filled.sscMode
  have pduSessionType : route.pduSessionType = candidate.descriptor.pduSessionType :=
    filled.pduSessionType
  rw [← isCombination, ← isRouteRuleInForbiddenList_eq, withDescriptor, ← sscMode,
    ← pduSessionType]
  constructor
  · intro right
    exact ⟨right.isFirst.symm, right.notForbidden rfl⟩
  · rintro ⟨is, notForbidden⟩
    constructor
    case isSome_iff => rw [← isSome_firstAvailable, is]
    case isFirst => exact is.symm
    case notForbidden => exact fun _ => notForbidden
    all_goals rintro _ ⟨⟩
    case foremost => exact foremost_of_firstAvailable urspRules is
    case urspPrecedence => exact filled.urspPrecedence
    case sscMode => exact sscMode
    case pduSessionType => exact pduSessionType
    case snssai =>
      obtain ⟨snssai, isSnssai, isCombination⟩ := mem_flatMap.mp (mem_of_find?_eq_some allowed)
      obtain ⟨dnn, -, rfl⟩ := mem_map.mp isCombination
      rwa [filled.snssai]

/-- The candidate is right where its traffic descriptor can be put to the result. -/
theorem exists_right_iff (stored : StoredRules) :
    (∃ selected route, (fillTrafficDescriptor candidate.urspRule.trafficDescriptor app
          (resultFor {} candidate combination)).map (some candidate, ·) = .ok (selected, route) ∧
        Right around app stored.val selected route) ↔
      some candidate = firstAvailable around app stored.val ∧ Fits around app candidate := by
  rw [fits_iff allowed]
  rcases fillTrafficDescriptor_cases candidate.urspRule.trafficDescriptor with
    ⟨fills, route, isRoute, filled⟩ | ⟨faults, isFault⟩
  · have right := right_some allowed stored filled
    rw [isRoute]
    constructor
    · rintro ⟨selected, other, isOther, isRight⟩
      obtain ⟨rfl, rfl⟩ := Prod.mk.inj (Except.ok.inj isOther)
      exact ⟨(right.mp isRight).1.symm, fills, (right.mp isRight).2⟩
    · rintro ⟨isFirst, -, notForbidden⟩
      exact ⟨some candidate, route, rfl, right.mpr ⟨isFirst.symm, notForbidden⟩⟩
  · rw [isFault]
    refine iff_of_false ?_ fun right => faults right.2.1
    rintro ⟨selected, route, isOther, -⟩
    cases isOther

end

theorem exists_storedRules (policyMap : PolicyMap) :
    ∃ urspRules : StoredRules, policyMap.rulesFor plmn = urspRules.val := by
  unfold PolicyMap.rulesFor
  cases policyMap.entries.lookup plmn with
  | none => exact ⟨⟨[], .nil, nofun⟩, rfl⟩
  | some urspRules => exact ⟨urspRules, rfl⟩

/-- Two allowed S-NSSAIs, of which one is forbidden with the SSC mode 1. -/
def twoSlices : Surroundings where
  allowedNssaiConfig :=
    some { allowedNssais := [{ sst := 1, snssai := [49] }, { sst := 2, snssai := [50] }] }
  forbidden := [{ sscMode := 1, pduSessionType := 0, snssai := [49] }]

/-- A rule for all applications, with a route for each of the two S-NSSAIs. -/
def twoRoutes : UrspRule where
  trafficDescriptor := { isMatchAll := true }
  routeSelectionDescriptors :=
    [{ sscMode := 1, snssais := [{ sst := 1 }] }, { sscMode := 2, snssais := [{ sst := 2 }] }]

theorem ordered_twoRoutes : Ordered [twoRoutes] := ⟨pairwise_singleton _ _, by simp [twoRoutes]⟩

theorem undisturbed_twoRoutes : Undisturbed twoSlices [] (candidates {} [twoRoutes]) := by
  have texts : allowedTexts twoSlices [{ sst := 1 }] = [[49]] := by decide
  refine ⟨?_, fun _ => ⟨?_, fun _ => trivial⟩⟩
  · rintro ⟨snssai, dnn⟩ ⟨isSnssai, isDnn⟩
    obtain rfl : snssai = [] := by simpa using isSnssai
    obtain rfl : dnn = [] := by simpa using isDnn
    exact ⟨fun _ => rfl, fun _ => rfl, rfl⟩
  · rintro ⟨snssai, dnn⟩ ⟨isSnssai, isDnn⟩
    obtain rfl : dnn = [] := by simpa using isDnn
    obtain rfl | rfl : snssai = [] ∨ snssai = [49] := by simpa [texts] using isSnssai
    · exact ⟨nofun, fun _ => rfl, rfl⟩
    · exact ⟨nofun, fun _ => rfl, by decide⟩

end Surroundings

end NetManager.Slice
