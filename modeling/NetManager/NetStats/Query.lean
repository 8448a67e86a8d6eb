import NetManager.NetStats.Cached

/-!
# The query of traffic by network

`GetTrafficStatsByNetwork` adds up rows of two tables, what the kernel has counted since
the last time, records pushed by applications and records in memory. Each part is read
in a critical section of its own; timers and the kernel go on in between.
-/

namespace NetManager.NetStats

namespace ReservedUid

/-- `Sim_UID`. -/
def sim : UInt32 := 4294967295
/-- `UNINSTALLED_UID`. -/
def uninstalled : UInt32 := 4294967294
/-- `SIM2_UID`. -/
def sim2 : UInt32 := 4294967293
/-- `DEFAULT_ACCOUNT_UID`. -/
def defaultAccount : UInt32 := 4294967291
/-- `OTHER_ACCOUNT_UID`. -/
def otherAccount : UInt32 := 4294967290

end ReservedUid

/-- A query, with what other services answer while it runs. -/
structure Query where
  /-- The identity: `simId_` as text, or empty. -/
  ident : String
  startTime : UInt32
  endTime : UInt32
  /-- `GetForegroundOsAccountLocalId`. -/
  curUserId : Int := -1
  isSharingOn : Bool := false

namespace NetStatsCached

/-! ## The parts of the sum -/

/-- `QueryData` on a table. -/
def queryData (query : Query) (table : List NetStatsInfo) : List NetStatsInfo :=
  table.filter fun row => row.ident = query.ident && query.startTime.toUInt64 ≤ row.date &&
    row.date ≤ query.endTime.toUInt64

variable (cached : NetStatsCached)

/-- The number under which a record of a simulated application is shown. -/
def simInfo (info : NetStatsInfo) : NetStatsInfo :=
  if !cached.isDisplayTrafficAncoList then
    if info.flag = DataFlag.sim2 then { info with uid := ReservedUid.sim2 }
    else if info.flag = DataFlag.sim then { info with uid := ReservedUid.sim }
    else info
  else
    if info.flag = DataFlag.simBasic then { info with uid := ReservedUid.sim }
    else if info.flag = DataFlag.sim2Basic then { info with uid := ReservedUid.sim2 }
    else info

/-- The records of simulated applications that are shown. -/
def simInfos (infos : List NetStatsInfo) : List NetStatsInfo :=
  (infos.filter fun info => !DataFlag.isOutside info.flag).map cached.simInfo

variable (kernel : Kernel) (curSecond : UInt64)

def getKernelUidStats : List NetStatsInfo :=
  (cached.assignIdents kernel.stats).filterMap fun info =>
    if info.iface = ifaceLo then none
    else
      let tmp := increased NetStatsInfo.equals cached.lastUidStatsInfo info
      if tmp.hasNoData then none
      else
        some { tmp with
          userId := if 0 < tmp.uid then tmp.uid.toNat / userIdDividor else tmp.userId
          date := curSecond }

/-- One round of `GetKernelUidSimStats`. -/
def getKernelUidSimInfo (info : NetStatsInfo) (cached : NetStatsCached) :
    Option NetStatsInfo × NetStatsCached :=
  if info.iface = ifaceLo then (none, cached)
  else
    let info := if info.iface = "rmnet0" then { info with ident := cached.curDefaultSimId } else info
    let tmp := increased NetStatsInfo.equals cached.lastUidSimStatsInfo info
    if tmp.hasNoData then (none, cached)
    else
      let tmp := { tmp with date := curSecond }
      let (tmp, cached) := cached.updateNetStatsFlag tmp
      let tmp :=
        if 0 < tmp.uid then { tmp with userId := tmp.uid.toNat / userIdDividorSim } else tmp
      if !cached.isDisplayTrafficAncoList && tmp.flag ≠ DataFlag.sim2 && tmp.flag ≠ DataFlag.sim then
        (none, cached)
      else (some (cached.simInfo tmp), cached)

/-- The rounds of `GetKernelUidSimStats`. -/
def getKernelUidSimInfos (curSecond : UInt64) :
    List NetStatsInfo → NetStatsCached → List NetStatsInfo × NetStatsCached
  | [], cached => ([], cached)
  | info :: infos, cached =>
    let (first, cached) := getKernelUidSimInfo curSecond info cached
    let (rest, cached) := getKernelUidSimInfos curSecond infos cached
    (first.toList ++ rest, cached)

def getKernelStats : List NetStatsInfo × NetStatsCached :=
  let (simStats, after) := getKernelUidSimInfos curSecond (cached.assignFlags kernel.simStats) cached
  (cached.getKernelUidStats kernel curSecond ++ simStats, after)

def getIptablesStatsIncrease : List NetStatsInfo :=
  match kernel.sharing with
  | none => []
  | some traffic =>
    let infos := (cached.sharingInfo traffic).map fun info => { info with date := curSecond }
    if cached.lastIptablesStatsInfo.isEmpty then infos
    else
      (infos.filter fun info => info.iface ≠ ifaceLo).map
        (increasedRecord NetStatsInfo.equals cached.lastIptablesStatsInfo curSecond)

def getIptablesStatsCached : List NetStatsInfo :=
  cached.stats.iptables.infos ++ cached.getIptablesStatsIncrease kernel curSecond

def getSharingStats (query : Query) : List NetStatsInfo :=
  if cached.supportNetworkShare && cached.writeDate < query.endTime.toUInt64 &&
      query.isSharingOn then
    cached.getIptablesStatsCached kernel curSecond
  else []

/-! ## The answer -/

def mergeTrafficStatsByAccount (curUserId : Int) (infos : List NetStatsInfo) : List NetStatsInfo :=
  if curUserId = cached.curDefaultUserId then
    infos.map fun info =>
      if info.userId = cached.curPrivateUserId ∨ info.userId = simPrivateUserId then
        { info with uid := ReservedUid.otherAccount }
      else info
  else if curUserId = cached.curPrivateUserId then
    infos.map fun info =>
      if info.userId ≠ curUserId ∧ info.userId ≠ simPrivateUserId then
        { info with uid := ReservedUid.defaultAccount }
      else info
  else infos

/-- The sums of a list of records, by application. -/
def addUp (infos : List NetStatsInfo) : List NetStatsInfo :=
  infos.foldl
    (fun sums info =>
      let info :=
        if info.flag = DataFlag.uninstalled then { info with uid := ReservedUid.uninstalled } else info
      mergeInfo (fun info item => item.uid == info.uid) info sums)
    []

def filterTrafficStatsByNetwork (query : Query) (infos : List NetStatsInfo) : List NetStatsInfo :=
  addUp (infos.filter fun info => query.ident = info.ident &&
    query.startTime.toUInt64 ≤ info.date && info.date ≤ query.endTime.toUInt64)

end NetStatsCached

/-! ## Interleavings -/

/-- The state at one moment. -/
structure Moment where
  /-- The cache and the database. -/
  cached : NetStatsCached
  kernel : Kernel := {}
  curSecond : UInt64 := 0

/-- The critical sections of the query. -/
inductive Stage
  /-- `QueryData` on `T_uid`. -/
  | uidRows
  /-- `QueryData` on `T_uid_sim`. -/
  | uidSimRows
  | kernel
  /-- `GetUidPushStatsCached`. -/
  | push
  /-- `GetUidStatsCached`. -/
  | uid
  /-- `GetUidSimStatsCached`. -/
  | uidSim
  /-- `GetSharingStats`. -/
  | sharing
  deriving DecidableEq

/-- The critical sections, in their order. -/
def Stage.all : List Stage := [.uidRows, .uidSimRows, .kernel, .push, .uid, .uidSim, .sharing]

/-- What a critical section adds. -/
def Moment.part (moment : Moment) (query : Query) : Stage → List NetStatsInfo
  | .uidRows => NetStatsCached.queryData query moment.cached.uidTable
  | .uidSimRows => moment.cached.simInfos (NetStatsCached.queryData query moment.cached.uidSimTable)
  | .kernel => (moment.cached.getKernelStats moment.kernel moment.curSecond).1
  | .push => moment.cached.uidPushStatsInfo
  | .uid => moment.cached.stats.uid.infos
  | .uidSim => moment.cached.simInfos moment.cached.stats.uidSim.infos
  | .sharing => moment.cached.getSharingStats moment.kernel moment.curSecond query

/-- A query that runs. -/
structure Progress where
  query : Query
  /-- The critical sections to come. -/
  left : List Stage := Stage.all
  allInfo : List NetStatsInfo := []
  /-- The moments since the start. -/
  moments : List Moment

/-- A query that has ended. -/
structure Answer where
  query : Query
  /-- The sums by application. -/
  infos : List NetStatsInfo
  /-- The moments from the start to the end. -/
  moments : List Moment

/-- The statistics service with at most one query. -/
structure System where
  moment : Moment
  progress : Option Progress := none
  answers : List Answer := []

namespace System

/-- What happens. -/
inductive Action
  /-- Counters and clock go on. -/
  | elapse (kernel : Kernel) (curSecond : UInt64)
  | cacheStats
  | writeStats
  | start (query : Query)
  /-- The next critical section of the query. -/
  | read
  | finish

variable (system : System)

/-- A new moment. -/
def pass (moment : Moment) : System :=
  { system with
    moment := moment
    progress := system.progress.map fun progress =>
      { progress with moments := progress.moments ++ [moment] } }

/-- The next critical section. -/
def readNext : System :=
  match system.progress with
  | none => system
  | some progress =>
    match progress.left with
    | [] => system
    | stage :: left =>
      let moment := system.moment
      let progress := { progress with
        left := left
        allInfo := progress.allInfo ++ moment.part progress.query stage }
      let cached :=
        if stage = .kernel then (moment.cached.getKernelStats moment.kernel moment.curSecond).2
        else moment.cached
      { system with progress := some progress }.pass { moment with cached := cached }

/-- The end of the query. -/
def finishQuery : System :=
  match system.progress with
  | none => system
  | some progress =>
    match progress.left with
    | _ :: _ => system
    | [] =>
      let infos := NetStatsCached.filterTrafficStatsByNetwork progress.query
        (system.moment.cached.mergeTrafficStatsByAccount progress.query.curUserId progress.allInfo)
      { system with
        progress := none
        answers := system.answers ++ [⟨progress.query, infos, progress.moments⟩] }

/-- One action. -/
def step : Action → System
  | .elapse kernel curSecond =>
    system.pass { system.moment with kernel := kernel, curSecond := curSecond }
  | .cacheStats =>
    system.pass { system.moment with
      cached := system.moment.cached.cacheStats system.moment.kernel system.moment.curSecond }
  | .writeStats =>
    system.pass { system.moment with
      cached := system.moment.cached.writeStats system.moment.curSecond }
  | .start query =>
    match system.progress with
    | some _ => system
    | none => { system with progress := some { query := query, moments := [system.moment] } }
  | .read => system.readNext
  | .finish => system.finishQuery

end System

end NetManager.NetStats
