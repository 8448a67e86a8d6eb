import NetManager.Mdns.Message
import Mathlib.Algebra.Ring.Int.Defs
import Std.Data.ExtTreeMap
import Std.Data.ExtTreeSet

/-!
# Discovery of services

`MDnsProtocolImpl` while one callback for a service type is registered by `Discovery`:
answers that are received, the event that `DiscoveryFromNet` adds, the caches that are
killed behind it, and `Browse`.
-/

namespace NetManager.Mdns

open Wire

/-! ## Names of services -/

variable (text : Bytes)

/-- The segments of a text, also the empty ones, which `Split` leaves out. -/
def segments : List Bytes := text.splitOn mdnsDomainSpliter

/-- From `views[index].begin()` on. -/
def fromView : Nat → List Bytes → List Bytes
  | _, [] => []
  | index, [] :: rest => fromView index rest
  | 0, (byte :: bytes) :: rest => (byte :: bytes) :: rest
  | index + 1, (_ :: _) :: rest => fromView index rest

/-- Up to `views[index].end()`. -/
def uptoView : Nat → List Bytes → List Bytes
  | _, [] => []
  | index, [] :: rest => [] :: uptoView index rest
  | 0, (byte :: bytes) :: _ => [byte :: bytes]
  | index + 1, (byte :: bytes) :: rest => (byte :: bytes) :: uptoView index rest

/-- `std::string(views[first].begin(), views[last].end())`. -/
def viewed (first last : Nat) : Bytes :=
  [mdnsDomainSpliter].intercalate (uptoView (last - first) (fromView first (segments text)))

def split : List Bytes := (segments text).filter (· ≠ [])

/-- `_tcp` or `_udp`. -/
def isTransport (view : Bytes) : Bool := view = [95, 116, 99, 112] ∨ view = [95, 117, 100, 112]

/-- `GetMDNSTypeIndex`: the last such view. -/
def getMDNSTypeIndex (views : List Bytes) : Option Nat :=
  ((List.range views.length).filter fun index => isTransport (views.getD index [])).getLast?

def extractNameAndType : Bytes × Bytes :=
  let views := split text
  if views.length = 3 ∨ views.length = 4 then (viewed text 0 0, viewed text 1 2)
  else
    match getMDNSTypeIndex views with
    | none => ([], [])
    | some typeIndex =>
      if typeIndex > 2 then (viewed text 0 (typeIndex - 2), viewed text (typeIndex - 1) typeIndex)
      else ([], [])

/-! ## Results -/

inductive State where
  | dead
  | add
  | live
  | refresh
  | remove
  deriving DecidableEq

structure Result where
  serviceName : Bytes := []
  serviceType : Bytes := []
  domain : Bytes := []
  port : Int := -1
  ipv6 : Bool := false
  addr : Bytes := []
  txt : Bytes := []
  state : State := .dead
  ttl : UInt32 := 0
  refrehTime : Int := -1

structure MDnsServiceInfo where
  name : Bytes
  type : Bytes
  /-- `family`: whether it is IPv6, if it is known. -/
  family : Option Bool
  addr : Bytes
  port : Int
  txtRecord : Bytes
  deriving DecidableEq

def convertResultToInfo (result : Result) : MDnsServiceInfo where
  name := result.serviceName
  type := result.serviceType
  family := if result.addr = [] then none else some result.ipv6
  addr := result.addr
  port := result.port
  txtRecord := result.txt

/-- A call of the callback. -/
inductive Notification where
  /-- `HandleServiceFound`. -/
  | found (info : MDnsServiceInfo)
  /-- `HandleServiceLost`. -/
  | lost (info : MDnsServiceInfo)
  deriving DecidableEq

/-- The map of cached results. -/
abbrev CacheMap := Std.ExtTreeMap Bytes Result

/-- What does not change while a callback is registered. -/
structure Setup where
  /-- The decorated service type. -/
  name : Bytes
  topDomain : Bytes
  /-- The keys of `srvMap_`, the services of this device. -/
  srvMap : List Bytes
  addrToString : RData → Bytes

/-- `MDNS_TOP_DOMAIN_DEFAULT`, `.local`. -/
def mdnsTopDomainDefault : Bytes := [46, 108, 111, 99, 97, 108]

/-- `MDnsProtocolImpl`. The service type of the callback is the only key of
`browserMap_`. -/
structure MDnsProtocolImpl where
  /-- `browserMap_[name]`. -/
  results : List Result := []
  cacheMap : CacheMap := ∅
  lastRunTime : Int := -1
  isScreenOn : Bool := true

/-- The set of names that have changed. -/
abbrev Changed := Std.ExtTreeSet Bytes

/-- `state != LIVE && state != DEAD`. -/
def State.pending (state : State) : Bool := state ≠ .live ∧ state ≠ .dead

namespace MDnsProtocolImpl

section Setup

variable (setup : Setup)

def decorated (name : Bytes) : Bytes :=
  if setup.topDomain = mdnsTopDomainDefault ∧ name.getLast? = some mdnsDomainSpliter then
    name ++ setup.topDomain.drop 1
  else name ++ setup.topDomain

/-- The full name of a result. -/
def fullName (result : Result) : Bytes :=
  decorated setup (result.serviceName ++ mdnsDomainSpliter :: result.serviceType)

/-! ## Records -/

/-- Change the first result that has a name. -/
def modifyFirst (serviceName : Bytes) (change : Result → Result) : List Result → List Result
  | [] => []
  | result :: results =>
    if result.serviceName = serviceName then change result :: results
    else result :: modifyFirst serviceName change results

/-- What `UpdatePtr` does to a result. -/
def touch (ttl : UInt32) (now : Int) (result : Result) : Result :=
  let state := if result.state = .dead then .refresh else result.state
  { result with
    state := if ttl = 0 then .remove else state
    ttl := ttl
    refrehTime := now }

variable (now : Int) (rr : ResourceRecord) (fresh : Result → Result) (differs : Result → Bool)
  (state : MDnsProtocolImpl × Changed)

def updatePtr : MDnsProtocolImpl × Changed :=
  match rr.rdata with
  | .string data =>
    let (srvName, srvType) := extractNameAndType data
    if rr.name ≠ setup.name ∨ srvName = [] ∨ srvType = [] then state
    else
      let results :=
        if state.1.results.any (·.serviceName = srvName) then state.1.results
        else state.1.results ++ [{ serviceName := srvName, serviceType := srvType, state := .add }]
      let results := modifyFirst srvName (touch rr.ttl now) results
      ({ state.1 with results := results },
        if (results.find? (·.serviceName = srvName)).any (·.state.pending) then
          state.2.insert setup.name
        else state.2)
  | _ => state

/-- The entry of the cache behind a record: `fresh` completes a new entry, `differs` is
whether the record has other data than an entry and `assign` takes them over. `keepAdd`
keeps a new entry a new one. -/
def cacheEntry (assign : Result → Result) (keepAdd : Bool) (old : Option Result) : Result :=
  let result := match old with
    | some result => result
    | none =>
      let (serviceName, serviceType) := extractNameAndType rr.name
      fresh { serviceName := serviceName, serviceType := serviceType, state := .add }
  let result :=
    if differs result ∨ result.state = .dead then
      assign { result with state := if keepAdd ∧ result.state = .add then .add else .refresh }
    else result
  { result with
    state := if rr.ttl = 0 then .remove else result.state
    ttl := rr.ttl
    refrehTime := now }

/-- A record of the cache. -/
def updateCache (assign : Result → Result) (keepAdd : Bool) (state : MDnsProtocolImpl × Changed) :
    MDnsProtocolImpl × Changed :=
  let entry := cacheEntry now rr fresh differs assign keepAdd state.1.cacheMap[rr.name]?
  ({ state.1 with cacheMap := state.1.cacheMap.insert rr.name entry },
    if entry.state.pending then state.2.insert rr.name else state.2)

def updateSrv : MDnsProtocolImpl × Changed :=
  match rr.rdata with
  | .srv srv =>
    let assign (result : Result) : Result :=
      { result with domain := srv.name, port := srv.port.toNat }
    updateCache now rr assign
      (fun result => result.domain ≠ srv.name ∨ result.port ≠ srv.port.toNat) assign true state
  | _ => state

def updateTxt : MDnsProtocolImpl × Changed :=
  match rr.rdata with
  | .txt txt =>
    let assign (result : Result) : Result := { result with txt := txt }
    updateCache now rr assign (fun result => result.txt ≠ txt) assign true state
  | _ => state

def updateAddr (v6 : Bool) (now : Int) (rr : ResourceRecord)
    (state : MDnsProtocolImpl × Changed) : MDnsProtocolImpl × Changed :=
  let v6rr := decide (rr.rtype = rrtypeAaaa)
  let addr := setup.addrToString rr.rdata
  if v6 ≠ v6rr ∨ addr = [] then state
  else
    let assign (result : Result) : Result := { result with addr := addr, ipv6 := v6rr }
    updateCache now rr assign (fun result => result.addr ≠ addr ∨ result.ipv6 ≠ v6rr) assign
      false state

def processAnswerRecord (v6 : Bool) (now : Int) (state : MDnsProtocolImpl × Changed)
    (rr : ResourceRecord) : MDnsProtocolImpl × Changed :=
  if !state.1.cacheMap.contains rr.name ∧ rr.name ≠ setup.name ∧ setup.srvMap.contains rr.name then
    state
  else if rr.rtype = rrtypePtr then updatePtr setup now rr state
  else if rr.rtype = rrtypeSrv then updateSrv now rr state
  else if rr.rtype = rrtypeTxt then updateTxt now rr state
  else if rr.rtype = rrtypeA ∨ rr.rtype = rrtypeAaaa then updateAddr setup v6 now rr state
  else state

/-! ## Events -/

/-- What the event of `DiscoveryFromNet` does to a result. -/
def notify (cacheMap : CacheMap) (result : Result) : Result × CacheMap × List Notification :=
  let (result, found) :=
    if !cacheMap.contains (fullName setup result) ∨ result.state = .add ∨
        result.state = .refresh then
      ({ result with state := .live }, [.found (convertResultToInfo result)])
    else (result, [])
  if result.state = .remove then
    ({ result with state := .dead }, cacheMap.erase (fullName setup result),
      found ++ [.lost (convertResultToInfo result)])
  else (result, cacheMap, found)

/-- The loop of the event. -/
def notifyAll : List Result → CacheMap → List Result × CacheMap × List Notification
  | [], cacheMap => ([], cacheMap, [])
  | result :: results, cacheMap =>
    let (result, cacheMap, first) := notify setup cacheMap result
    let (results, cacheMap, others) := notifyAll results cacheMap
    (result :: results, cacheMap, first ++ others)

variable (key : Bytes) (cacheMap : CacheMap) (impl : MDnsProtocolImpl)

/-- `RunTaskQueue(taskOnChange_[key])`: there is an event for the service type only. -/
def runTaskQueue : MDnsProtocolImpl × List Notification :=
  if key = setup.name then
    let (results, cacheMap, notifications) := notifyAll setup impl.results impl.cacheMap
    ({ impl with results := results, cacheMap := cacheMap }, notifications)
  else (impl, [])

def killBrowseCache (result : Result) : List Result × CacheMap × List Notification :=
  match result.state with
  | .remove => ([], cacheMap.erase (fullName setup result), [.lost (convertResultToInfo result)])
  | .add | .refresh => ([{ result with state := .live }], cacheMap, [])
  | .dead | .live => ([result], cacheMap, [])

/-- The loop of `KillCache`. -/
def killBrowseCaches : List Result → CacheMap → List Result × CacheMap × List Notification
  | [], cacheMap => ([], cacheMap, [])
  | result :: results, cacheMap =>
    let (kept, cacheMap, first) := killBrowseCache setup cacheMap result
    let (results, cacheMap, others) := killBrowseCaches results cacheMap
    (kept ++ results, cacheMap, first ++ others)

/-- `IsCacheAvailable` of an entry. -/
def isAvailable (result : Result) : Bool :=
  1000 * (result.ttl.toNat : Int) > (now - result.refrehTime) % 2 ^ 32

/-- The second half of `KillCache`. Its log line puts an entry into the cache if there is
none. -/
def killCacheEntry : CacheMap :=
  match cacheMap[key]? with
  | none => cacheMap.insert key {}
  | some result =>
    if isAvailable now result then
      match result.state with
      | .remove => cacheMap.erase key
      | .add | .refresh => cacheMap.insert key { result with state := .live }
      | .dead | .live => cacheMap
    else cacheMap

def killCache : MDnsProtocolImpl × List Notification :=
  let (results, cacheMap, notifications) :=
    if key = setup.name then killBrowseCaches setup impl.results impl.cacheMap
    else (impl.results, impl.cacheMap, [])
  ({ impl with results := results, cacheMap := killCacheEntry now key cacheMap }, notifications)

/-- The loop of `ProcessAnswer` over the names that have changed. -/
def runChanged (now : Int) : List Bytes → MDnsProtocolImpl → MDnsProtocolImpl × List Notification
  | [], impl => (impl, [])
  | key :: keys, impl =>
    let (impl, first) := runTaskQueue setup key impl
    let (impl, second) := killCache setup now key impl
    let (impl, others) := runChanged now keys impl
    (impl, first ++ second ++ others)

/-- `ProcessAnswer`: records are stored at the time `now`, and caches killed at `later`. -/
def processAnswer (v6 : Bool) (now later : Int) (msg : Message) (impl : MDnsProtocolImpl) :
    MDnsProtocolImpl × List Notification :=
  let (impl, changed) :=
    (msg.answers ++ msg.additional).foldl (processAnswerRecord setup v6 now) (impl, ∅)
  runChanged setup later changed.toList impl

/-! ## Browsing -/

/-- `handleOfflineService`; `connects` is `IsConnectivity`. -/
def handleOfflineService (connects : Bytes → Int → Bool) (lastRunTime : Int) :
    List Result → CacheMap → List Result × CacheMap × List Notification
  | [], cacheMap => ([], cacheMap, [])
  | result :: results, cacheMap =>
    let alive := match cacheMap[fullName setup result]? with
      | some entry => connects entry.addr entry.port
      | none => false
    if lastRunTime - result.refrehTime > 20000 ∧ result.state = .live ∧ !alive then
      let (results, cacheMap, others) := handleOfflineService connects lastRunTime results
        (cacheMap.erase (fullName setup result))
      (results, cacheMap, .lost (convertResultToInfo result) :: others)
    else
      let (results, cacheMap, others) := handleOfflineService connects lastRunTime results cacheMap
      (result :: results, cacheMap, others)

def browse (connects : Bytes → Int → Bool) (now : Int) (impl : MDnsProtocolImpl) :
    MDnsProtocolImpl × List Notification :=
  if (impl.lastRunTime ≠ -1 ∧ now - impl.lastRunTime < 2000) ∨ !impl.isScreenOn then (impl, [])
  else
    let (results, cacheMap, notifications) :=
      handleOfflineService setup connects now impl.results impl.cacheMap
    ({ impl with results := results, cacheMap := cacheMap, lastRunTime := now }, notifications)

end Setup

end MDnsProtocolImpl

end NetManager.Mdns
