import NetManager.Slice.UrspConfig
import Mathlib.Data.List.Sort

/-!
# Selection of routes

`SliceNetworkSelection` goes through the rules of a policy for an application. While it
tries the routes of a rule, it writes each S-NSSAI and DNN that it tries to the result.
-/

namespace NetManager.Slice

open List Wire

/-! ## Policies -/

/-- Rules are in the order of their precedence, and so are their routes. -/
structure Ordered (urspRules : List UrspRule) : Prop where
  rules : urspRules.Pairwise fun first second => first.urspPrecedence ≤ second.urspPrecedence
  routes : ∀ urspRule ∈ urspRules, urspRule.routeSelectionDescriptors.Pairwise
    fun first second => first.routePrecedence ≤ second.routePrecedence

/-- Rules that are stored. -/
def StoredRules := { urspRules : List UrspRule // Ordered urspRules }

/-- The routes of a rule in their order. -/
def sortRoutes (urspRule : UrspRule) : UrspRule :=
  { urspRule with
    routeSelectionDescriptors := urspRule.routeSelectionDescriptors.mergeSort
      fun first second => decide (first.routePrecedence ≤ second.routePrecedence) }

theorem pairwise_mergeSort_key (key : α → Int) (list : List α) :
    (list.mergeSort fun first second => decide (key first ≤ key second)).Pairwise
      fun first second => key first ≤ key second := by
  refine (pairwise_mergeSort ?_ ?_ list).imp of_decide_eq_true
  · intro first second third before after
    exact decide_eq_true (Int.le_trans (of_decide_eq_true before) (of_decide_eq_true after))
  · intro first second
    rw [Bool.or_eq_true, decide_eq_true_eq, decide_eq_true_eq]
    exact Int.le_total _ _

def urspRuleSort (urspRules : List UrspRule) : StoredRules :=
  ⟨(urspRules.map sortRoutes).mergeSort fun first second =>
      decide (first.urspPrecedence ≤ second.urspPrecedence), by
    refine ⟨pairwise_mergeSort_key _ _, fun urspRule member => ?_⟩
    obtain ⟨unsorted, -, rfl⟩ := mem_map.mp (mem_mergeSort.mp member)
    exact pairwise_mergeSort_key _ _⟩

/-- A `std::unordered_map` from PLMNs to rules, in the order in which it is iterated. -/
structure PolicyMap where
  entries : List (Bytes × StoredRules) := []
  /-- A PLMN has one entry. -/
  nodup : (entries.map Prod.fst).Nodup := by exact nodup_nil

/-- The rules of a PLMN. -/
def PolicyMap.rulesFor (policyMap : PolicyMap) (plmn : Bytes) : List UrspRule :=
  match policyMap.entries.lookup plmn with
  | none => []
  | some urspRules => urspRules.val

/-- The rules of a PLMN are other ones. -/
def PolicyMap.insert (policyMap : PolicyMap) (plmn : Bytes) (urspRules : StoredRules) :
    PolicyMap where
  entries := (plmn, urspRules) :: policyMap.entries.filter (·.1 ≠ plmn)
  nodup := by
    rw [map_cons, nodup_cons]
    refine ⟨fun member => ?_, policyMap.nodup.sublist (filter_sublist.map Prod.fst)⟩
    obtain ⟨entry, kept, same⟩ := mem_map.mp member
    exact of_decide_eq_true (mem_filter.mp kept).2 same

/-! ## Applications -/

/-- `AppDescriptor`, as far as it is matched. -/
structure AppDescriptor where
  osAppId : OsAppId := {}
  ipv4Addr : UInt32 := 0
  ipv6Addr : Bytes := List.replicate 16 0
  protocolId : Int := 0
  remotePort : Int := 0
  dnn : Bytes := []
  fqdn : Bytes := []
  connectionCapability : Int := 0

def transIpv6AddrToStr : Bytes → Bytes
  | high :: low :: rest =>
    byteToHexStr high ++ byteToHexStr low ++ if rest = [] then [] else 58 :: transIpv6AddrToStr rest
  | _ => []

variable (descriptor : TrafficDescriptor) (app : AppDescriptor)

def isOsAppIdMatch : Bool :=
  descriptor.osAppIds.isEmpty || descriptor.osAppIds.any (·.appId = app.osAppId.appId)

def isIpv4AddrMatch : Bool :=
  descriptor.ipv4Addrs.isEmpty || descriptor.ipv4Addrs.any fun ipv4Addr =>
      app.ipv4Addr &&& ipv4Addr.mask = ipv4Addr.addr &&& ipv4Addr.mask

def isIpv6AddrMatch : Bool :=
  descriptor.ipv6Addrs.isEmpty || descriptor.ipv6Addrs.any fun ipv6Addr =>
      transIpv6AddrToStr ipv6Addr.addr = transIpv6AddrToStr app.ipv6Addr

/-- `isRemotePortMatch`: without ranges, single ports that differ do match. -/
def isRemotePortMatch : Bool :=
  descriptor.singleRemotePorts.contains app.remotePort || descriptor.remotePortRanges.isEmpty ||
    descriptor.remotePortRanges.any fun range =>
      range.low ≤ app.remotePort && app.remotePort ≤ range.high

/-- A list that is empty or has the value. -/
def isEmptyOrHas {α : Type} [DecidableEq α] (list : List α) (value : α) : Bool :=
  list.isEmpty || list.contains value

def isTrafficDescriptorMatch : Bool :=
  descriptor.isMatchAll ||
    (isOsAppIdMatch descriptor app && isIpv4AddrMatch descriptor app &&
      isIpv6AddrMatch descriptor app && isEmptyOrHas descriptor.protocolIds app.protocolId &&
      isEmptyOrHas descriptor.dnns app.dnn && isEmptyOrHas descriptor.fqdns app.fqdn &&
      isEmptyOrHas descriptor.connectionCapabilities app.connectionCapability &&
      isRemotePortMatch descriptor app)

/-! ## What is allowed and what is forbidden -/

structure AllowedNssaiConfig where
  isRoaming : Bool := false
  allowedNssais : List Snssai := []

/-- `isSnssaiInAllowedNssai`: the text of the allowed S-NSSAI, or an empty one. -/
def isSnssaiInAllowedNssai (config : AllowedNssaiConfig) (snssai : Snssai) : Bytes :=
  if config.isRoaming then []
  else
    match config.allowedNssais.find? fun allowed =>
        snssai.snssaiLen = allowed.snssaiLen && snssai.sst = allowed.sst &&
          snssai.sd = allowed.sd && snssai.mappedSst = allowed.mappedSst &&
          snssai.mappedSd = allowed.mappedSd with
    | none => []
    | some allowed => allowed.snssai

structure ForbiddenRouteDescriptor where
  sscMode : UInt8 := 0
  pduSessionType : Int := -1
  snssai : Bytes := []
  dnn : Bytes := []
  deriving DecidableEq

structure SelectedRouteDescriptor where
  sscMode : UInt8 := 0
  pduSessionType : Int := -1
  snssai : Bytes := []
  dnn : Bytes := []
  routeBitmap : UInt8 := 0
  appIds : Bytes := []
  ipv4Num : UInt8 := 0
  ipv4AddrAndMask : Bytes := []
  ipv6Num : UInt8 := 0
  ipv6AddrAndPrefix : Bytes := []
  protocolIds : Bytes := []
  remotePorts : Bytes := []
  urspPrecedence : UInt8 := 0
  deriving DecidableEq

/-- What a selection looks at, beside the rules and the application. -/
structure Surroundings where
  allowedNssaiConfig : Option AllowedNssaiConfig := none
  /-- `mNormalForbiddenRules`. -/
  forbidden : List ForbiddenRouteDescriptor := []

variable (around : Surroundings)

/-- The text of an allowed S-NSSAI. Without a configuration there is none. -/
def Surroundings.allowedText (snssai : Snssai) : Bytes :=
  match around.allowedNssaiConfig with
  | none => []
  | some config => isSnssaiInAllowedNssai config snssai

variable (route : SelectedRouteDescriptor)

def isRouteRuleInForbiddenList : Bool :=
  around.forbidden.any fun forbidden =>
    route.dnn = forbidden.dnn && route.snssai = forbidden.snssai &&
      route.pduSessionType = forbidden.pduSessionType && route.sscMode = forbidden.sscMode

/-! ## The traffic descriptor of the result -/

/-- The bytes of a text. -/
def textBytes (text : String) : Bytes := text.toUTF8.data.toList

/-- Texts with commas between them. -/
def joinCommas (texts : List Bytes) : Bytes := (texts.intersperse [44]).flatten

def convertIntListToString (numbers : List Int) : Bytes :=
  joinCommas (numbers.map fun number => textBytes (toString number))

def fillOsAppIds : SelectedRouteDescriptor :=
  { route with
    appIds := joinCommas (descriptor.osAppIds.map fun id => id.osId ++ 35 :: id.appId) }

/-- `FillIpv4Addrs`. The size of the vector is a product with `(LEN_INT + LEN_INT, 0)`, which
is 0, and eight bytes are written for each address. -/
def fillIpv4Addrs : Except Fault SelectedRouteDescriptor :=
  let ipv4Num : UInt8 := .ofNat descriptor.ipv4Addrs.length
  let size := ipv4Num.toNat * 0
  if size < 8 * descriptor.ipv4Addrs.length then throw .outside
  else return { route with ipv4Num := ipv4Num, ipv4AddrAndMask := List.replicate size 0 }

def fillIpv6Addrs : SelectedRouteDescriptor :=
  { route with
    ipv6Num := .ofNat descriptor.ipv6Addrs.length
    ipv6AddrAndPrefix := descriptor.ipv6Addrs.flatMap fun ipv6Addr =>
      ipv6Addr.addr ++ [UInt8.ofInt ipv6Addr.prefixLen] }

def fillProtocolIds : SelectedRouteDescriptor :=
  { route with protocolIds := convertIntListToString descriptor.protocolIds }

def fillRemotePorts : SelectedRouteDescriptor :=
  let remotePorts := convertIntListToString descriptor.singleRemotePorts
  let ranges := joinCommas (descriptor.remotePortRanges.map fun range =>
    textBytes (toString range.low) ++ 45 :: textBytes (toString range.high))
  { route with
    remotePorts :=
      if descriptor.remotePortRanges = [] then remotePorts
      else if remotePorts = [] then ranges
      else remotePorts ++ 44 :: ranges }

/-- The DNN of the result is the one of the application if the rule has DNNs. -/
def fillDnn (route : SelectedRouteDescriptor) : SelectedRouteDescriptor :=
  if descriptor.dnns = [] then route else { route with dnn := app.dnn }

/-- `routeBitmap`, for a rule that does not match all. -/
def routeBitmapOf : UInt8 :=
  (if descriptor.dnns = [] then 0 else 0x02) ||| (if descriptor.fqdns = [] then 0 else 0x04) |||
    if descriptor.connectionCapabilities = [] then 0 else 0x08

def fillTrafficDescriptor
    (route : SelectedRouteDescriptor) : Except Fault SelectedRouteDescriptor :=
  if descriptor.isMatchAll then return { route with routeBitmap := 0x01 }
  else do
    let route := if descriptor.osAppIds = [] then route else fillOsAppIds descriptor route
    let route ← if descriptor.ipv4Addrs = [] then pure route else fillIpv4Addrs descriptor route
    let route := if descriptor.ipv6Addrs = [] then route else fillIpv6Addrs descriptor route
    let route := if descriptor.protocolIds = [] then route else fillProtocolIds descriptor route
    let route := fillDnn descriptor app route
    return fillRemotePorts descriptor { route with routeBitmap := routeBitmapOf descriptor }

/-! ## Routes -/

section Routes

variable (around : Surroundings)

/-- `FindAvailableDnn`, which is also the inner loop of `FindAvailableSnssaiAndDnn`. -/
def findAvailableDnn : List Bytes → SelectedRouteDescriptor → Bool × SelectedRouteDescriptor
  | [], route => (false, route)
  | dnn :: dnns, route =>
    let route := { route with dnn := dnn }
    if isRouteRuleInForbiddenList around route then findAvailableDnn dnns route
    else (true, route)

def findAvailableSnssai : List Snssai → SelectedRouteDescriptor → Bool × SelectedRouteDescriptor
  | [], route => (false, route)
  | snssai :: snssais, route =>
    let text := around.allowedText snssai
    if text = [] then findAvailableSnssai snssais route
    else
      let route := { route with snssai := text }
      if isRouteRuleInForbiddenList around route then findAvailableSnssai snssais route
      else (true, route)

def findAvailableSnssaiAndDnn (dnns : List Bytes) :
    List Snssai → SelectedRouteDescriptor → Bool × SelectedRouteDescriptor
  | [], route => (false, route)
  | snssai :: snssais, route =>
    let text := around.allowedText snssai
    if text = [] then findAvailableSnssaiAndDnn dnns snssais route
    else
      let result := findAvailableDnn around dnns { route with snssai := text }
      if result.1 then result else findAvailableSnssaiAndDnn dnns snssais result.2

/-- The four cases of `FindAvailableRouteRule`. -/
def findAvailable (descriptor : RouteSelectionDescriptor) (route : SelectedRouteDescriptor) :
    Bool × SelectedRouteDescriptor :=
  if descriptor.snssais = [] then
    if descriptor.dnns = [] then (true, route)
    else findAvailableDnn around descriptor.dnns route
  else if descriptor.dnns = [] then findAvailableSnssai around descriptor.snssais route
  else findAvailableSnssaiAndDnn around descriptor.dnns descriptor.snssais route

/-- `FindAvailableRouteRule`, with the descriptor at which it returns true. -/
def findAvailableRouteRule : List RouteSelectionDescriptor → SelectedRouteDescriptor →
    Option RouteSelectionDescriptor × SelectedRouteDescriptor
  | [], route => (none, route)
  | descriptor :: descriptors, route =>
    let route :=
      { route with
        pduSessionType := descriptor.pduSessionType
        sscMode := descriptor.sscMode }
    if isRouteRuleInForbiddenList around route then findAvailableRouteRule descriptors route
    else
      let result := findAvailable around descriptor route
      if result.1 then (some descriptor, result.2)
      else findAvailableRouteRule descriptors result.2

/-- A rule and one of its routes. -/
structure Candidate where
  urspRule : UrspRule
  descriptor : RouteSelectionDescriptor
  deriving DecidableEq

/-- The loop of `SliceNetworkSelection`, with the rule and the route at which it returns
true. -/
def selectRule (app : AppDescriptor) : List UrspRule → SelectedRouteDescriptor →
    Except Fault (Option Candidate × SelectedRouteDescriptor)
  | [], route => return (none, route)
  | urspRule :: urspRules, route =>
    if isTrafficDescriptorMatch urspRule.trafficDescriptor app then
      match findAvailableRouteRule around urspRule.routeSelectionDescriptors route with
      | (none, route) => selectRule app urspRules route
      | (some descriptor, route) => do
          let route ← fillTrafficDescriptor urspRule.trafficDescriptor app
            { route with urspPrecedence := UInt8.ofInt urspRule.urspPrecedence }
          return (some ⟨urspRule, descriptor⟩, route)
    else selectRule app urspRules route

end Routes

/-- The policies. -/
structure Policies where
  preConfigUrspMap : PolicyMap := {}
  uePolicyMap : PolicyMap := {}

variable (policies : Policies)

/-- The map that is used. -/
def Policies.used : PolicyMap :=
  if policies.uePolicyMap.entries.isEmpty then policies.preConfigUrspMap else policies.uePolicyMap

/-- `SliceNetworkSelection`, with the rule and the route at which it returns true. The PLMN
is not looked at, and the first entry of an empty map is not there. -/
def sliceNetworkSelection (_plmn : Bytes) (app : AppDescriptor) (route : SelectedRouteDescriptor) :
    Except Fault (Option Candidate × SelectedRouteDescriptor) :=
  match policies.used.entries with
  | [] => throw .outside
  | (_, urspRules) :: _ => selectRule around app urspRules.val route

/-- `setUrspRules`: the entry of a PLMN is replaced, or there is a new one. -/
def Policies.setUrspRules (plmn : Bytes) (urspRules : List UrspRule) : Policies :=
  { policies with
    uePolicyMap := policies.uePolicyMap.insert plmn (urspRuleSort urspRules) }

end NetManager.Slice
