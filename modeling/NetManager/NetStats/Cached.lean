import Mathlib.Data.List.AList

/-!
# The cache of traffic statistics

`NetStatsCached` reads the counters of the kernel from time to time, keeps what has come
since the last time as records, and moves the records to the database when they are
large enough. What the kernel has and what the clock says are inputs of each call.
-/

namespace NetManager.NetStats

structure NetStatsInfo where
  uid : UInt32 := 0
  iface : String := ""
  ident : String := ""
  date : UInt64 := 0
  rxBytes : UInt64 := 0
  txBytes : UInt64 := 0
  rxPackets : UInt64 := 0
  txPackets : UInt64 := 0
  flag : UInt32 := 0
  userId : Int := 0
  deriving DecidableEq

namespace NetStatsInfo

def getStats (info : NetStatsInfo) : UInt64 := info.rxBytes + info.txBytes

def equals (self info : NetStatsInfo) : Bool := info.uid == self.uid && info.iface == self.iface

def equalsByIfaceAndIndet (self info : NetStatsInfo) : Bool := info.iface == self.iface

def hasNoData (info : NetStatsInfo) : Bool :=
  info.rxBytes == 0 && info.rxPackets == 0 && info.txBytes == 0 && info.txPackets == 0

/-- A counter of `operator-`. -/
def increase (counter last : UInt64) : UInt64 := if counter > last then counter - last else 0

/-- `operator-`. -/
def sub (self other : NetStatsInfo) : NetStatsInfo where
  uid := other.uid
  iface := other.iface
  ident := self.ident
  rxPackets := increase self.rxPackets other.rxPackets
  rxBytes := increase self.rxBytes other.rxBytes
  txPackets := increase self.txPackets other.txPackets
  txBytes := increase self.txBytes other.txBytes
  flag := self.flag
  userId := self.userId

/-- `operator+=`. -/
def add (self other : NetStatsInfo) : NetStatsInfo :=
  { self with
    rxPackets := self.rxPackets + other.rxPackets
    rxBytes := self.rxBytes + other.rxBytes
    txPackets := self.txPackets + other.txPackets
    txBytes := self.txBytes + other.txBytes }

end NetStatsInfo

/-! ## Records in memory -/

/-- Records of one kind and their running total. -/
structure Records where
  /-- The vector, such as `uidStatsInfo_`. -/
  infos : List NetStatsInfo := []
  /-- The total, such as `currentUidStats_`. -/
  current : UInt64 := 0

namespace Records

/-- A record is pushed unless it has no data. -/
def push (records : Records) (info : NetStatsInfo) : Records :=
  if info.hasNoData then records
  else { infos := records.infos ++ [info], current := records.current + info.getStats }

/-- All records are dropped. -/
def reset (_ : Records) : Records := {}

end Records

structure CachedInfo where
  /-- `uidStatsInfo_`. -/
  uid : Records := {}
  /-- `uidSimStatsInfo_`. -/
  uidSim : Records := {}
  /-- `ifaceStatsInfo_`. -/
  iface : Records := {}
  /-- `iptablesStatsInfo_`. -/
  iptables : Records := {}

namespace CachedInfo

variable (stats : CachedInfo) (info : NetStatsInfo)

def pushUidStats : CachedInfo := { stats with uid := stats.uid.push info }

def pushUidSimStats : CachedInfo := { stats with uidSim := stats.uidSim.push info }

def pushIfaceStats : CachedInfo := { stats with iface := stats.iface.push info }

def pushIptablesStats : CachedInfo := { stats with iptables := stats.iptables.push info }

end CachedInfo

def ifaceLo : String := "lo"
def iptablesUid : UInt32 := 4294967292
def userIdDividor : Nat := 200000
def userIdDividorSim : Nat := 100000
def systemDefaultUserId : Int := 0
def simPrivateUserId : Int := 124

namespace DataFlag

/-- `STATS_DATA_FLAG_DEFAULT`. -/
def default : UInt32 := 0
/-- `STATS_DATA_FLAG_UNINSTALLED`. -/
def uninstalled : UInt32 := 1
/-- `STATS_DATA_FLAG_SIM2`. -/
def sim2 : UInt32 := 2
/-- `STATS_DATA_FLAG_SIM`. -/
def sim : UInt32 := 3
/-- `STATS_DATA_FLAG_SIM_BASIC`. -/
def simBasic : UInt32 := 4
/-- `STATS_DATA_FLAG_SIM2_BASIC`. -/
def sim2Basic : UInt32 := 5
/-- `STATS_DATA_FLAG_LIMIT`. -/
def limit : UInt32 := 6

/-- A flag without a meaning. -/
def isOutside (flag : UInt32) : Bool := flag ≤ default || limit ≤ flag

end DataFlag

/-- What iptables counts of a shared network. -/
structure SharingTraffic where
  receive : UInt64
  send : UInt64
  ifaceName : String
  deriving DecidableEq

/-- The counters of the kernel at one time. -/
structure Kernel where
  /-- `GetAllStatsInfo`. -/
  stats : List NetStatsInfo := []
  /-- `GetAllSimStatsInfo`. -/
  simStats : List NetStatsInfo := []
  /-- `InterfaceGetList`, with what `GetIfaceStats` says of each interface. -/
  ifaces : List NetStatsInfo := []
  /-- `GetNetworkCellularSharingTraffic`, if it succeeds. -/
  sharing : Option SharingTraffic := none

/-- `NetStatsCached`, and the tables of the database. -/
structure NetStatsCached where
  supportNetworkShare : Bool := false
  isDisplayTrafficAncoList : Bool := false
  trafficThreshold : UInt64 := 2097152
  dateCycle : UInt64 := 7776000
  stats : CachedInfo := {}
  lastUidStatsInfo : List NetStatsInfo := []
  lastUidSimStatsInfo : List NetStatsInfo := []
  /-- `lastIfaceStatsMap_`. -/
  lastIfaceStats : List NetStatsInfo := []
  lastIptablesStatsInfo : List NetStatsInfo := []
  uidPushStatsInfo : List NetStatsInfo := []
  allPushStatsInfo : List NetStatsInfo := []
  ifaceNameIdentMap : AList (fun _ : String => String) := ∅
  uidStatsFlagMap : AList (fun _ : UInt32 => UInt32) := ∅
  /-- `uidSimSampleBundleMap_`: whether `IsSim` says so of the bundle. -/
  uidSimSampleBundleMap : AList (fun _ : UInt32 => Bool) := ∅
  curDefaultSimId : String := ""
  isForce : Bool := false
  uninstalledUid : Int := -1
  curDefaultUserId : Int := -1
  curPrivateUserId : Int := -1
  isPrivateSpaceExist : Bool := false
  writeDate : UInt64 := 0
  /-- `T_uid`. -/
  uidTable : List NetStatsInfo := []
  /-- The rows that were inserted into `T_uid` so far. -/
  uidInserted : List NetStatsInfo := []
  /-- `T_uid_sim`. -/
  uidSimTable : List NetStatsInfo := []
  /-- `T_iface`. -/
  ifaceTable : List NetStatsInfo := []

namespace NetStatsCached

/-! ## Records of what has come -/

variable (same : NetStatsInfo → NetStatsInfo → Bool)

/-- `GetIncreasedStats`, `GetIncreasedSimStats` and `GetIncreasedIfaceStats`: what has come
since the last time. -/
def increased (last : List NetStatsInfo) (info : NetStatsInfo) : NetStatsInfo :=
  match last.find? (same info) with
  | none => info
  | some lastInfo => info.sub lastInfo

/-- The record of what has come. -/
def increasedRecord (last : List NetStatsInfo)
    (curSecond : UInt64) (info : NetStatsInfo) : NetStatsInfo :=
  { increased same last info with date := curSecond }

variable (cached : NetStatsCached)

/-- The loop over `ifaceNameIdentMap_`. -/
def assignIdents (infos : List NetStatsInfo) : List NetStatsInfo :=
  cached.ifaceNameIdentMap.entries.foldl
    (fun infos entry => infos.map fun info =>
      if info.iface = entry.1 then { info with ident := entry.2 } else info)
    infos

variable (curSecond : UInt64)

/-- `userId_` and `date_` in `CacheUidStats`. -/
def stampUidStats (info : NetStatsInfo) : NetStatsInfo :=
  if info.iface = ifaceLo then info
  else
    { info with
      userId := if 0 < info.uid then info.uid.toNat / userIdDividor else info.userId
      date := curSecond }

variable (kernel : Kernel)

def cacheUidStats (curSecond : UInt64) : NetStatsCached :=
  if kernel.stats.isEmpty then cached
  else
    let statsInfos := (cached.assignIdents kernel.stats).map (stampUidStats curSecond)
    { cached with
      stats := statsInfos.foldl
        (fun stats info =>
          if info.iface = ifaceLo then stats
          else stats.pushUidStats
            (increasedRecord NetStatsInfo.equals cached.lastUidStatsInfo curSecond info))
        cached.stats
      lastUidStatsInfo := statsInfos }

/-- Records of one key are added up. -/
def mergeInfo (same : NetStatsInfo → NetStatsInfo → Bool) (info : NetStatsInfo) :
    List NetStatsInfo → List NetStatsInfo
  | [] => [info]
  | item :: items =>
    if same info item then item.add info :: items else item :: mergeInfo same info items

def cacheAppStats : NetStatsCached :=
  let pushInfos := cached.uidPushStatsInfo.foldl
    (fun pushInfos info => mergeInfo NetStatsInfo.equals info pushInfos) []
  let items := pushInfos.map fun item => { item with date := curSecond }
  { cached with
    stats := items.foldl CachedInfo.pushUidStats cached.stats
    allPushStatsInfo := items.foldl
      (fun infos item => mergeInfo
        (fun item info => info.equals item && info.ident == item.ident) item infos)
      cached.allPushStatsInfo
    uidPushStatsInfo := [] }

def getUidStatsFlag (uid : UInt32) : UInt32 × NetStatsCached :=
  match cached.uidStatsFlagMap.lookup uid with
  | some flag => (flag, cached)
  | none =>
    let isExistSim := cached.uidSimSampleBundleMap.entries.any fun entry => entry.2
    let flag :=
      if isExistSim then if cached.isDisplayTrafficAncoList then DataFlag.simBasic else DataFlag.sim
      else DataFlag.default
    (flag, { cached with uidStatsFlagMap := cached.uidStatsFlagMap.insert uid flag })

variable (info : NetStatsInfo)

def updateNetStatsFlag : NetStatsInfo × NetStatsCached :=
  if DataFlag.isOutside info.flag then
    let (flag, cached) := cached.getUidStatsFlag info.uid
    ({ info with flag := flag }, cached)
  else (info, cached)

theorem updateNetStatsFlag_eq :
    ∃ flags, (cached.updateNetStatsFlag info).2 = { cached with uidStatsFlagMap := flags } := by
  unfold updateNetStatsFlag getUidStatsFlag
  split
  · dsimp only
    split
    · exact ⟨cached.uidStatsFlagMap, rfl⟩
    · exact ⟨_, rfl⟩
  · exact ⟨cached.uidStatsFlagMap, rfl⟩

/-- The loop over `uidStatsFlagMap_`. -/
def assignFlags (infos : List NetStatsInfo) : List NetStatsInfo :=
  cached.uidStatsFlagMap.entries.foldl
    (fun infos entry => infos.map fun info =>
      if info.uid = entry.1 then { info with flag := entry.2 } else info)
    infos

/-- One round of `CacheUidSimStats`: the information as it is remembered, and the cache. -/
def cacheUidSimInfo (last : List NetStatsInfo) (curSecond : UInt64) (info : NetStatsInfo)
    (cached : NetStatsCached) : NetStatsInfo × NetStatsCached :=
  if info.iface = ifaceLo then (info, cached)
  else
    let info := if info.iface = "rmnet0" then { info with ident := cached.curDefaultSimId } else info
    let (info, cached) := cached.updateNetStatsFlag info
    let info :=
      if 0 < info.uid then { info with userId := info.uid.toNat / userIdDividorSim } else info
    let record := increasedRecord NetStatsInfo.equals last curSecond info
    let info := if (last.find? (NetStatsInfo.equals info)).isNone then
      { info with date := curSecond } else info
    (info, { cached with stats := cached.stats.pushUidSimStats record })

/-- The rounds of `CacheUidSimStats`. -/
def cacheUidSimInfos (last : List NetStatsInfo) (curSecond : UInt64) :
    List NetStatsInfo → NetStatsCached → List NetStatsInfo × NetStatsCached
  | [], cached => ([], cached)
  | info :: infos, cached =>
    let (info, cached) := cacheUidSimInfo last curSecond info cached
    let (infos, cached) := cacheUidSimInfos last curSecond infos cached
    (info :: infos, cached)

variable (ifName : Option String) (curSecond : UInt64)

def cacheUidSimStats : NetStatsCached :=
  if kernel.simStats.isEmpty then cached
  else
    let (statsInfos, after) := cacheUidSimInfos cached.lastUidSimStatsInfo curSecond
      (cached.assignFlags kernel.simStats) cached
    { after with lastUidSimStatsInfo := statsInfos }

def updateIdent : NetStatsInfo :=
  if info.iface = "rmnet0" ∨ info.iface = "rmnet1" ∨ info.iface = "rmnet2" ∨
      info.iface = "rmnet3" then
    match cached.ifaceNameIdentMap.lookup info.iface with
    | some ident => if ident ≠ "" then { info with ident := ident } else info
    | none => info
  else info

/-- `CacheIfaceStats`, without the traffic of a month. -/
def cacheIfaceStats : NetStatsCached :=
  let infos := (kernel.ifaces.filter fun info => info.iface ≠ ifaceLo).map cached.updateIdent
  { cached with
    stats := infos.foldl
      (fun stats info => stats.pushIfaceStats
        (increasedRecord NetStatsInfo.equalsByIfaceAndIndet cached.lastIfaceStats curSecond info))
      cached.stats
    lastIfaceStats := infos.filter fun info => !info.hasNoData }

/-- The information about a shared network. -/
def sharingInfo (traffic : SharingTraffic) : List NetStatsInfo :=
  cached.assignIdents
    [{ uid := iptablesUid
       iface := traffic.ifaceName
       rxBytes := traffic.receive
       txBytes := traffic.send
       flag := DataFlag.default
       rxPackets := if 0 < traffic.receive then 1 else 0
       txPackets := if 0 < traffic.send then 1 else 0 }]

def cacheIptablesStats : NetStatsCached :=
  match kernel.sharing with
  | none => cached
  | some traffic =>
    let infos := cached.sharingInfo traffic
    { cached with
      stats := infos.foldl
        (fun stats info =>
          if info.iface = ifaceLo then stats
          else stats.pushIptablesStats
            (increasedRecord NetStatsInfo.equals cached.lastIptablesStatsInfo curSecond info))
        cached.stats
      lastIptablesStatsInfo := infos }

def cacheStats : NetStatsCached :=
  let cached := cached.cacheUidStats kernel curSecond
  let cached := cached.cacheAppStats curSecond
  let cached := cached.cacheUidSimStats kernel curSecond
  let cached := cached.cacheIfaceStats kernel curSecond
  if cached.supportNetworkShare then cached.cacheIptablesStats kernel curSecond else cached

/-! ## Records pushed by others -/

/-- `PushStatsInfo`, as `SetAppStats` reads it. -/
structure PushStatsInfo where
  uid : UInt32
  iface : String
  endTime : UInt64
  rxBytes : UInt64
  txBytes : UInt64
  /-- `std::to_string(simId_)` if `netBearType_` is `BEARER_CELLULAR`. -/
  cellularIdent : Option String
  userId : Int

def setAppStats (info : PushStatsInfo) : NetStatsCached :=
  { cached with
    uidPushStatsInfo := cached.uidPushStatsInfo ++
      [{ uid := info.uid
         iface := info.iface
         date := info.endTime
         rxBytes := info.rxBytes
         txBytes := info.txBytes
         rxPackets := if 0 < info.rxBytes then 1 else 0
         txPackets := if 0 < info.txBytes then 1 else 0
         ident := info.cellularIdent.getD ""
         userId := info.userId }] }

/-- The record of `SetDpaAppStats`; `ifName` is what `if_indextoname` says of the index. -/
def dpaRecord : NetStatsInfo :=
  match ifName with
  | none => info
  | some iface => { info with iface := iface }

def setDpaAppStats : NetStatsCached :=
  { cached with stats := cached.stats.pushUidStats (dpaRecord info ifName) }

/-! ## The database -/

/-- `WriteStatsData` and `DeleteByDate` on a table. -/
def writeTable (table infos : List NetStatsInfo) : List NetStatsInfo :=
  (table ++ infos).filter fun row => !decide (row.date ≤ curSecond - cached.dateCycle)

/-- The records are large enough, or have to be written. -/
def stores (records : Records) : Bool := cached.trafficThreshold ≤ records.current || cached.isForce

/-- The rows that `WriteUidStats` writes. -/
def uidRow : NetStatsInfo :=
  let info :=
    if (info.uid.toNat : Int) = cached.uninstalledUid then
      { info with flag := DataFlag.uninstalled }
    else info
  if info.userId ≠ cached.curDefaultUserId ∧ info.userId ≠ systemDefaultUserId ∧
      info.userId ≠ cached.curPrivateUserId then
    { info with flag := DataFlag.uninstalled }
  else info

def writeUidStats : NetStatsCached :=
  if !cached.stores cached.stats.uid then cached
  else
    { cached with
      uidTable := cached.writeTable curSecond cached.uidTable
        (cached.stats.uid.infos.map cached.uidRow)
      uidInserted := cached.uidInserted ++ cached.stats.uid.infos.map cached.uidRow
      stats := { cached.stats with uid := cached.stats.uid.reset } }

/-- The rows that `WriteUidSimStats` writes. -/
def uidSimRow : NetStatsInfo :=
  let info :=
    if (info.uid.toNat : Int) = cached.uninstalledUid then
      { info with flag := DataFlag.uninstalled }
    else info
  if info.userId = simPrivateUserId ∧ cached.isPrivateSpaceExist = false then
    { info with flag := DataFlag.uninstalled }
  else info

def writeUidSimStats : NetStatsCached :=
  if !cached.stores cached.stats.uidSim then cached
  else
    { cached with
      uidSimTable := cached.writeTable curSecond cached.uidSimTable
        (cached.stats.uidSim.infos.map cached.uidSimRow)
      stats := { cached.stats with uidSim := cached.stats.uidSim.reset } }

def writeIfaceStats : NetStatsCached :=
  if !cached.stores cached.stats.iface then cached
  else
    { cached with
      ifaceTable := cached.writeTable curSecond cached.ifaceTable cached.stats.iface.infos
      stats := { cached.stats with iface := cached.stats.iface.reset } }

/-- `WriteIptablesStats`, to the same table as `WriteUidStats`. -/
def writeIptablesStats : NetStatsCached :=
  if !cached.stores cached.stats.iptables then cached
  else
    { cached with
      uidTable := cached.writeTable curSecond cached.uidTable cached.stats.iptables.infos
      uidInserted := cached.uidInserted ++ cached.stats.iptables.infos
      stats := { cached.stats with iptables := cached.stats.iptables.reset } }

def writeStats : NetStatsCached :=
  let cached := cached.writeUidStats curSecond
  let cached := cached.writeUidSimStats curSecond
  let cached := cached.writeIfaceStats curSecond
  if cached.supportNetworkShare then
    { cached.writeIptablesStats curSecond with writeDate := curSecond }
  else cached

/-- `ForceUpdateStats`; `identMap` is what `LoadIfaceNameIdentMaps` finds. -/
def forceUpdateStats (identMap : AList (fun _ : String => String)) : NetStatsCached :=
  let cached := { cached with isForce := true }
  let cached := (cached.cacheStats kernel curSecond).writeStats curSecond
  { cached with isForce := false, ifaceNameIdentMap := identMap }

end NetStatsCached

end NetManager.NetStats
