import NetManager.NetStats.Query
import NetManager.Library.Run

/-!
# A query sees one moment

The traffic of an identity at a moment is what all records of that moment add up to. A
query whose parts are not moved from one place to another while it reads them returns
the traffic of a moment between its start and its end. `CacheStats` between the reading
of the kernel and of the cache moves bytes to a place that is still to be read, and they
count twice.
-/

namespace NetManager.NetStats

open List NetStatsCached

/-- A record without its date. -/
def NetStatsInfo.undated (info : NetStatsInfo) : NetStatsInfo := { info with date := 0 }

/-- Records without their dates. -/
def undated (infos : List NetStatsInfo) : List NetStatsInfo := infos.map NetStatsInfo.undated

/-- A record of the identity that is asked for. -/
def Query.asks (query : Query) (info : NetStatsInfo) : Bool := query.ident = info.ident

/-- A record in the window of a query. -/
def Query.within (query : Query) (info : NetStatsInfo) : Bool :=
  query.startTime.toUInt64 ≤ info.date && info.date ≤ query.endTime.toUInt64

namespace Moment

variable (moment : Moment)

/-- The records of one kind, whatever their identity and date. -/
def record : Stage → List NetStatsInfo
  | .uidRows => moment.cached.uidTable
  | .uidSimRows => moment.cached.simInfos moment.cached.uidSimTable
  | .kernel => (moment.cached.getKernelStats moment.kernel moment.curSecond).1
  | .push => moment.cached.uidPushStatsInfo
  | .uid => moment.cached.stats.uid.infos
  | .uidSim => moment.cached.simInfos moment.cached.stats.uidSim.infos
  | .sharing =>
    if moment.cached.supportNetworkShare then
      moment.cached.getIptablesStatsCached moment.kernel moment.curSecond
    else []

/-- All records. -/
def records : List NetStatsInfo := Stage.all.flatMap moment.record

/-- The traffic of an identity by application, as the user who asks sees it. -/
def traffic (query : Query) : List NetStatsInfo :=
  addUp (undated ((moment.cached.mergeTrafficStatsByAccount query.curUserId
    moment.records).filter query.asks))

/-- The window covers all records. -/
def Covered (query : Query) : Prop := ∀ info ∈ moment.records, query.within info
deriving Decidable

end Moment

/-! ## Dates do not matter for sums -/

section Undated

variable (infos : List NetStatsInfo) (info : NetStatsInfo)

@[simp] theorem uid_undated : info.undated.uid = info.uid := rfl

theorem undated_append : undated (first ++ second) = undated first ++ undated second := map_append

theorem filter_undated (query : Query) :
    (undated infos).filter query.asks = undated (infos.filter query.asks) := by
  unfold undated
  rw [filter_map]
  rfl

/-- The record as it is added up. -/
def addedInfo (info : NetStatsInfo) : NetStatsInfo :=
  if info.flag = DataFlag.uninstalled then { info with uid := ReservedUid.uninstalled } else info

theorem undated_addedInfo : (addedInfo info).undated = addedInfo info.undated := by
  unfold addedInfo
  have flag : info.undated.flag = info.flag := rfl
  rw [flag]
  split
  all_goals rfl

theorem undated_mergeInfo :
    undated (mergeInfo (fun info item => item.uid == info.uid) info sums) =
      mergeInfo (fun info item => item.uid == info.uid) info.undated (undated sums) := by
  induction sums with
  | nil => rfl
  | cons item items ih =>
    by_cases same : item.uid == info.uid
    · simp [undated, mergeInfo, same, NetStatsInfo.undated, NetStatsInfo.add]
    · simp only [undated, map_cons, mergeInfo, uid_undated, same]
      exact congrArg (item.undated :: ·) ih

theorem undated_addUp : undated (addUp infos) = addUp (undated infos) := by
  refine (foldl_hom undated fun sums info => ?_).symm.trans foldl_map.symm
  exact (undated_addedInfo info ▸ undated_mergeInfo (addedInfo info)).symm

/-- What `MergeTrafficStatsByAccount` does to one record. -/
def accountInfo (cached : NetStatsCached) (curUserId : Int) (info : NetStatsInfo) : NetStatsInfo :=
  if curUserId = cached.curDefaultUserId then
    if info.userId = cached.curPrivateUserId ∨ info.userId = simPrivateUserId then
      { info with uid := ReservedUid.otherAccount }
    else info
  else if curUserId = cached.curPrivateUserId then
    if info.userId ≠ curUserId ∧ info.userId ≠ simPrivateUserId then
      { info with uid := ReservedUid.defaultAccount }
    else info
  else info

variable (cached : NetStatsCached) (curUserId : Int)

theorem mergeTrafficStatsByAccount_eq :
    cached.mergeTrafficStatsByAccount curUserId infos =
      infos.map (accountInfo cached curUserId) := by
  unfold mergeTrafficStatsByAccount accountInfo
  split
  · rfl
  · split
    · rfl
    · exact (map_id' infos).symm

theorem accountInfo_eq (info : NetStatsInfo) :
    ∃ uid, accountInfo cached curUserId info = { info with uid := uid } := by
  unfold accountInfo
  split_ifs <;> exact ⟨_, rfl⟩

theorem undated_accountInfo (info : NetStatsInfo) :
    (accountInfo cached curUserId info).undated = accountInfo cached curUserId info.undated := by
  unfold accountInfo
  have userId : info.undated.userId = info.userId := rfl
  rw [userId]
  split_ifs
  all_goals rfl

end Undated

/-! ## What the calls leave alone -/

namespace NetStatsCached

/-- What `CacheStats` and `GetKernelStats` leave alone. -/
structure Base where
  supportNetworkShare : Bool
  isDisplayTrafficAncoList : Bool
  curDefaultUserId : Int
  curPrivateUserId : Int
  uidTable : List NetStatsInfo
  uidSimTable : List NetStatsInfo

/-- The base of a cache. -/
def base (cached : NetStatsCached) : Base where
  supportNetworkShare := cached.supportNetworkShare
  isDisplayTrafficAncoList := cached.isDisplayTrafficAncoList
  curDefaultUserId := cached.curDefaultUserId
  curPrivateUserId := cached.curPrivateUserId
  uidTable := cached.uidTable
  uidSimTable := cached.uidSimTable

variable (cached : NetStatsCached) (curSecond : UInt64)

theorem getKernelUidSimInfo_eq (cached : NetStatsCached) :
    ∃ flags, (getKernelUidSimInfo curSecond info cached).2 =
      { cached with uidStatsFlagMap := flags } := by
  unfold getKernelUidSimInfo
  split
  · exact ⟨cached.uidStatsFlagMap, rfl⟩
  · generalize (if info.iface = "rmnet0" then { info with ident := cached.curDefaultSimId }
      else info) = named
    by_cases nothing : (increased NetStatsInfo.equals cached.lastUidSimStatsInfo named).hasNoData
    · rw [if_pos nothing]
      exact ⟨cached.uidStatsFlagMap, rfl⟩
    · rw [if_neg nothing]
      rw [apply_ite Prod.snd, ite_self]
      exact updateNetStatsFlag_eq _ _

theorem getKernelUidSimInfos_eq (cached : NetStatsCached) :
    ∃ flags, (getKernelUidSimInfos curSecond infos cached).2 =
      { cached with uidStatsFlagMap := flags } := by
  induction infos generalizing cached with
  | nil => exact ⟨cached.uidStatsFlagMap, rfl⟩
  | cons info infos ih =>
    obtain ⟨first, firstEq⟩ := getKernelUidSimInfo_eq curSecond cached
    obtain ⟨flags, restEq⟩ := ih (getKernelUidSimInfo curSecond info cached).2
    rw [firstEq] at restEq
    refine ⟨flags, ?_⟩
    rw [← restEq, ← firstEq]
    rfl

theorem getKernelStats_eq (kernel : Kernel) (curSecond : UInt64) :
    ∃ flags, (cached.getKernelStats kernel curSecond).2 =
      { cached with uidStatsFlagMap := flags } :=
  getKernelUidSimInfos_eq curSecond cached

theorem base_cacheUidSimInfos (curSecond : UInt64)
    (cached : NetStatsCached) :
    (cacheUidSimInfos last curSecond infos cached).2.base = cached.base := by
  induction infos generalizing cached with
  | nil => rfl
  | cons info infos ih =>
    have first : (cacheUidSimInfo last curSecond info cached).2.base = cached.base := by
      unfold cacheUidSimInfo
      split
      · rfl
      · obtain ⟨flags, equal⟩ := updateNetStatsFlag_eq cached _
        dsimp only
        rw [equal]
        rfl
    exact (ih _).trans first

theorem base_cacheStats (kernel : Kernel) (curSecond : UInt64) :
    (cached.cacheStats kernel curSecond).base = cached.base := by
  have uid (cached : NetStatsCached) :
      (cached.cacheUidStats kernel curSecond).base = cached.base := by
    unfold cacheUidStats
    split
    all_goals rfl
  have uidSim (cached : NetStatsCached) :
      (cached.cacheUidSimStats kernel curSecond).base = cached.base := by
    unfold cacheUidSimStats
    split
    · rfl
    · exact base_cacheUidSimInfos _ _
  have iptables (cached : NetStatsCached) :
      (cached.cacheIptablesStats kernel curSecond).base = cached.base := by
    unfold cacheIptablesStats
    split
    all_goals rfl
  have before := (uidSim ((cached.cacheUidStats kernel curSecond).cacheAppStats curSecond)).trans
    (uid cached)
  unfold cacheStats
  dsimp only
  split
  · exact (iptables _).trans before
  · exact before

/-- What `WriteStats` does to the parts of a query. -/
structure Written (before after : NetStatsCached) : Prop where
  share : after.supportNetworkShare = before.supportNetworkShare
  display : after.isDisplayTrafficAncoList = before.isDisplayTrafficAncoList
  defaultUser : after.curDefaultUserId = before.curDefaultUserId
  privateUser : after.curPrivateUserId = before.curPrivateUserId
  push : after.uidPushStatsInfo = before.uidPushStatsInfo
  stores : after.stores = before.stores
  uid : before.stores before.stats.uid = false → after.stats.uid = before.stats.uid
  uidTable : before.stores before.stats.uid = false → before.supportNetworkShare = false →
    after.uidTable = before.uidTable
  uidSim : before.stores before.stats.uidSim = false → after.stats.uidSim = before.stats.uidSim
  uidSimTable : before.stores before.stats.uidSim = false → after.uidSimTable = before.uidSimTable

theorem Written.refl : Written cached cached :=
  ⟨rfl, rfl, rfl, rfl, rfl, rfl, fun _ => rfl, fun _ _ => rfl, fun _ => rfl, fun _ => rfl⟩

theorem Written.trans {first second third : NetStatsCached} (before : Written first second)
    (after : Written second third) :
    Written first third := by
  have uid (kept : first.stores first.stats.uid = false) :
      second.stores second.stats.uid = false := by
    rwa [before.uid kept, before.stores]
  have uidSim (kept : first.stores first.stats.uidSim = false) :
      second.stores second.stats.uidSim = false := by
    rwa [before.uidSim kept, before.stores]
  exact
    { share := after.share.trans before.share
      display := after.display.trans before.display
      defaultUser := after.defaultUser.trans before.defaultUser
      privateUser := after.privateUser.trans before.privateUser
      push := after.push.trans before.push
      stores := after.stores.trans before.stores
      uid := fun kept => (after.uid (uid kept)).trans (before.uid kept)
      uidTable := fun kept off =>
        (after.uidTable (uid kept) (before.share.trans off)).trans (before.uidTable kept off)
      uidSim := fun kept => (after.uidSim (uidSim kept)).trans (before.uidSim kept)
      uidSimTable := fun kept => (after.uidSimTable (uidSim kept)).trans (before.uidSimTable kept) }

theorem written_writeUidStats : Written cached (cached.writeUidStats curSecond) := by
  unfold writeUidStats
  split
  · exact Written.refl cached
  next stored =>
    have contradiction : cached.stores cached.stats.uid ≠ false := by simpa using stored
    exact ⟨rfl, rfl, rfl, rfl, rfl, rfl, fun kept => absurd kept contradiction,
      fun kept => absurd kept contradiction, fun _ => rfl, fun _ => rfl⟩

theorem written_writeUidSimStats : Written cached (cached.writeUidSimStats curSecond) := by
  unfold writeUidSimStats
  split
  · exact Written.refl cached
  next stored =>
    have contradiction : cached.stores cached.stats.uidSim ≠ false := by simpa using stored
    exact ⟨rfl, rfl, rfl, rfl, rfl, rfl, fun _ => rfl, fun _ _ => rfl,
      fun kept => absurd kept contradiction, fun kept => absurd kept contradiction⟩

theorem written_writeIfaceStats : Written cached (cached.writeIfaceStats curSecond) := by
  unfold writeIfaceStats
  split
  · exact Written.refl cached
  · exact ⟨rfl, rfl, rfl, rfl, rfl, rfl, fun _ => rfl, fun _ _ => rfl, fun _ => rfl, fun _ => rfl⟩

theorem written_writeIptablesStats {cached : NetStatsCached}
    (shares : cached.supportNetworkShare = true) (curSecond writeDate : UInt64) :
    Written cached { cached.writeIptablesStats curSecond with writeDate := writeDate } := by
  have contradiction : cached.supportNetworkShare ≠ false := by simp [shares]
  unfold writeIptablesStats
  split
  all_goals
    exact ⟨rfl, rfl, rfl, rfl, rfl, rfl, fun _ => rfl, fun _ off => absurd off contradiction,
      fun _ => rfl, fun _ => rfl⟩

theorem written_writeStats : Written cached (cached.writeStats curSecond) := by
  have uid := written_writeUidStats cached curSecond
  have uidSim := uid.trans (written_writeUidSimStats _ curSecond)
  have iface := uidSim.trans (written_writeIfaceStats _ curSecond)
  unfold writeStats
  dsimp only
  split
  next shares => exact iface.trans (written_writeIptablesStats shares curSecond curSecond)
  · exact iface

end NetStatsCached

/-! ## One reading -/

namespace NetStatsCached

variable (cached : NetStatsCached)

theorem simInfo_eq (info : NetStatsInfo) :
    ∃ uid, cached.simInfo info = { info with uid := uid } := by
  unfold simInfo
  split_ifs <;> exact ⟨_, rfl⟩

theorem simInfos_congr {first second : NetStatsCached}
    (display : first.isDisplayTrafficAncoList = second.isDisplayTrafficAncoList) :
    first.simInfos = second.simInfos := by
  have simInfo : first.simInfo = second.simInfo := by
    funext info
    unfold simInfo
    rw [display]
  funext infos
  unfold simInfos
  rw [simInfo]

variable (query : Query)

theorem asks_simInfo (info : NetStatsInfo) :
    query.asks (cached.simInfo info) = query.asks info ∧
      query.within (cached.simInfo info) = query.within info := by
  obtain ⟨uid, equal⟩ := cached.simInfo_eq info
  rw [equal]
  exact ⟨rfl, rfl⟩

theorem queryData_eq :
    queryData query table = table.filter fun row => query.asks row && query.within row := by
  apply filter_congr
  intro row _
  simp [Query.asks, Query.within, eq_comm, Bool.and_assoc]

theorem filter_simInfos :
    (cached.simInfos infos).filter query.asks =
      (infos.filter fun info => query.asks info && !DataFlag.isOutside info.flag).map
        cached.simInfo := by
  have asks : query.asks ∘ cached.simInfo = query.asks :=
    funext fun info => (cached.asks_simInfo query info).1
  unfold simInfos
  rw [filter_map, asks, filter_filter]

end NetStatsCached

namespace Moment

variable {moment : Moment} {query : Query}

theorem mem_records (stage : Stage) (member : info ∈ moment.record stage) :
    info ∈ moment.records := by
  apply mem_flatMap.mpr
  refine ⟨stage, ?_, member⟩
  cases stage <;> decide

/-- The sharing part is read when sharing is on and nothing was written late. -/
def ReadsSharing (moment : Moment) (query : Query) : Prop :=
  moment.cached.supportNetworkShare = true →
    query.isSharingOn = true ∧ moment.cached.writeDate < query.endTime.toUInt64

/-- A part of a query with a wide window is what there is of the identity. -/
theorem filter_part (covered : moment.Covered query)
    (sharing : stage = .sharing → moment.ReadsSharing query) :
    (moment.part query stage).filter query.asks = (moment.record stage).filter query.asks := by
  cases stage with
  | uidRows =>
    unfold part record
    rw [queryData_eq, filter_filter]
    apply filter_congr
    intro row member
    rw [covered row (mem_records .uidRows member)]
    simp
  | uidSimRows =>
    unfold part record
    rw [filter_simInfos, filter_simInfos, queryData_eq, filter_filter]
    congr 1
    apply filter_congr
    intro row member
    by_cases outside : DataFlag.isOutside row.flag
    · simp [outside]
    · have shown : moment.cached.simInfo row ∈ moment.record .uidSimRows := by
        apply mem_map_of_mem
        exact mem_filter.mpr ⟨member, by simp [outside]⟩
      have inside := covered _ (mem_records _ shown)
      rw [(asks_simInfo ..).2] at inside
      simp [inside]
      tauto
  | sharing =>
    unfold part record getSharingStats
    by_cases share : moment.cached.supportNetworkShare = true
    · obtain ⟨isOn, early⟩ := sharing rfl share
      simp [share, isOn, early]
    · simp [share]
  | _ => rfl

theorem within_of_mem_part (covered : moment.Covered query)
    (member : info ∈ moment.part query stage) :
    query.within info := by
  have recorded : info ∈ moment.record stage → query.within info := fun inside =>
    covered info (mem_records stage inside)
  cases stage with
  | uidRows => exact recorded (mem_of_mem_filter member)
  | uidSimRows =>
    obtain ⟨row, rowMember, rfl⟩ := mem_map.mp member
    obtain ⟨found, shown⟩ := mem_filter.mp rowMember
    apply recorded
    apply mem_map_of_mem
    exact mem_filter.mpr ⟨mem_of_mem_filter found, shown⟩
  | sharing =>
    apply recorded
    dsimp only [part, getSharingStats] at member
    dsimp only [record]
    split at member
    next holds =>
      simp only [Bool.and_eq_true] at holds
      rw [if_pos holds.1.1]
      exact member
    · cases member
  | _ => exact recorded member

end Moment

/-! ## The query as a whole -/

namespace System

/-- Nothing moves to a place that is read later, or from one, than the place where it is
or goes to. -/
def Permitted (system : System) : Action → Prop
  | .elapse kernel _ => ∀ progress ∈ system.progress,
      Stage.kernel ∈ progress.left ∨ Stage.sharing ∉ progress.left ∨
        system.moment.cached.supportNetworkShare = false ∨
        kernel.sharing = system.moment.kernel.sharing
  | .cacheStats => ∀ progress ∈ system.progress, Stage.kernel ∈ progress.left ∨
        Stage.uidSim ∉ progress.left ∧
          (Stage.sharing ∉ progress.left ∨ system.moment.cached.supportNetworkShare = false)
  | .writeStats => ∀ progress ∈ system.progress,
      (Stage.uidRows ∈ progress.left ∨ Stage.uid ∉ progress.left ∨
        system.moment.cached.stores system.moment.cached.stats.uid = false) ∧
      (Stage.uidSimRows ∈ progress.left ∨ Stage.uidSim ∉ progress.left ∨
        system.moment.cached.stores system.moment.cached.stats.uidSim = false) ∧
      (Stage.uidRows ∈ progress.left ∨ Stage.sharing ∉ progress.left ∨
        system.moment.cached.supportNetworkShare = false)
  | .start _ => True
  | .read => ∀ progress ∈ system.progress,
      progress.left.head? = some Stage.sharing → system.moment.ReadsSharing progress.query
  | .finish => True

/-- The records that a query has read are those of one moment, and so are those that it
is about to read. -/
structure Reads (current seen : Moment) (done : List Stage) (progress : Progress) : Prop where
  order : done ++ progress.left = Stage.all
  visited : seen ∈ progress.moments
  present : Stage.kernel ∈ progress.left → seen = current
  defaultUser : current.cached.curDefaultUserId = seen.cached.curDefaultUserId
  privateUser : current.cached.curPrivateUserId = seen.cached.curPrivateUserId
  infos : undated (progress.allInfo.filter progress.query.asks) =
    undated ((done.flatMap seen.record).filter progress.query.asks)
  within : ∀ info ∈ progress.allInfo, progress.query.within info
  ahead : ∀ stage ∈ progress.left, undated (current.record stage) = undated (seen.record stage)

/-- A query on its way. -/
def Underway (current : Moment) (progress : Progress) : Prop :=
  current ∈ progress.moments ∧
    ((∀ moment ∈ progress.moments, moment.Covered progress.query) →
      ∃ seen done, Reads current seen done progress)

/-- A query that returned the traffic of one of its moments. -/
def Answered (answer : Answer) : Prop :=
  (∀ moment ∈ answer.moments, moment.Covered answer.query) →
    ∃ moment ∈ answer.moments, undated answer.infos = moment.traffic answer.query

/-- The invariant of a run. -/
structure Consistent (system : System) : Prop where
  underway : ∀ progress ∈ system.progress, Underway system.moment progress
  answers : ∀ answer ∈ system.answers, Answered answer

theorem order_cases (order : done ++ left = Stage.all) :
    (Stage.kernel ∈ left ∧ Stage.uid ∈ left ∧ Stage.uidSim ∈ left ∧ Stage.sharing ∈ left ∧
        ∀ stage ∈ done, stage ∉ left ∧ (stage = .uidRows ∨ stage = .uidSimRows)) ∨
      ((∀ stage ∈ left, stage = .push ∨ stage = .uid ∨ stage = .uidSim ∨ stage = .sharing) ∧
        (Stage.uidSim ∈ left ∨ ∀ stage ∈ left, stage = .sharing)) := by
  have short : done.length < 8 := by
    have lengths := congrArg List.length order
    rw [length_append] at lengths
    have all : Stage.all.length = 7 := rfl
    omega
  have isDone : done = Stage.all.take done.length := by rw [← order, take_left]
  have isLeft : left = Stage.all.drop done.length := by rw [← order, drop_left]
  clear order
  generalize done.length = n at short isDone isLeft
  subst isDone isLeft
  revert n
  decide

section Steps

variable {current : Moment} {progress : Progress}

/-- A new moment: either the query may still see it, or what it is about to read stays. -/
structure Moves (current next : Moment) (left : List Stage) : Prop where
  defaultUser : next.cached.curDefaultUserId = current.cached.curDefaultUserId
  privateUser : next.cached.curPrivateUserId = current.cached.curPrivateUserId
  parts : ∀ done, done ++ left = Stage.all →
    (Stage.kernel ∈ left ∧ ∀ stage ∈ done, next.record stage = current.record stage) ∨
      (Stage.kernel ∉ left ∧
        ∀ stage ∈ left, undated (next.record stage) = undated (current.record stage))

theorem Underway.pass (underway : Underway current progress) {next : Moment}
    (moves : Moves current next progress.left) :
    Underway next { progress with moments := progress.moments ++ [next] } := by
  refine ⟨mem_append_right _ mem_cons_self, fun covered => ?_⟩
  obtain ⟨seen, done, reads⟩ := underway.2 fun moment member =>
    covered moment (mem_append_left _ member)
  cases moves.parts done reads.order with
  | inl early =>
    obtain ⟨ahead, same⟩ := early
    obtain rfl := reads.present ahead
    have records : done.flatMap next.record = done.flatMap seen.record := flatMap_congr same
    refine ⟨next, done, reads.order, mem_append_right _ mem_cons_self, fun _ => rfl,
      rfl, rfl, ?_, reads.within, fun _ _ => rfl⟩
    rw [records]
    exact reads.infos
  | inr late =>
    obtain ⟨read, same⟩ := late
    exact ⟨seen, done, reads.order, mem_append_left _ reads.visited,
      fun ahead => absurd ahead read, moves.defaultUser.trans reads.defaultUser,
      moves.privateUser.trans reads.privateUser, reads.infos, reads.within,
      fun stage member => (same stage member).trans (reads.ahead stage member)⟩

theorem undated_getIptablesStatsIncrease (cached : NetStatsCached)
    (same : later.sharing = kernel.sharing) :
    undated (cached.getIptablesStatsIncrease later laterSecond) =
      undated (cached.getIptablesStatsIncrease kernel curSecond) := by
  have records (info : NetStatsInfo) :
      (increasedRecord NetStatsInfo.equals cached.lastIptablesStatsInfo laterSecond
        { info with date := laterSecond }).undated =
      (increasedRecord NetStatsInfo.equals cached.lastIptablesStatsInfo curSecond
        { info with date := curSecond }).undated := by
    have find : cached.lastIptablesStatsInfo.find?
        (NetStatsInfo.equals { info with date := laterSecond }) =
        cached.lastIptablesStatsInfo.find?
          (NetStatsInfo.equals { info with date := curSecond }) := rfl
    unfold increasedRecord increased
    rw [find]
    split
    all_goals rfl
  unfold getIptablesStatsIncrease
  rw [same]
  split
  · rfl
  · split
    · simp only [undated, map_map]
      rfl
    · simp only [undated, filter_map, map_map]
      exact map_congr_left fun info _ => records info

variable {left : List Stage}

theorem moves_elapse (allowed : Stage.kernel ∈ left ∨ Stage.sharing ∉ left ∨
      current.cached.supportNetworkShare = false ∨ kernel.sharing = current.kernel.sharing) :
    Moves current { current with kernel := kernel, curSecond := curSecond } left where
  defaultUser := rfl
  privateUser := rfl
  parts := by
    intro done order
    obtain ⟨ahead, -, -, -, before⟩ | ⟨rest, -⟩ := order_cases order
    · refine .inl ⟨ahead, fun stage member => ?_⟩
      obtain ⟨-, rfl | rfl⟩ := before stage member
      all_goals rfl
    · have read : Stage.kernel ∉ left := fun member => by simpa using rest _ member
      refine .inr ⟨read, fun stage member => ?_⟩
      obtain rfl | rfl | rfl | rfl := rest stage member
      · rfl
      · rfl
      · rfl
      · dsimp only [Moment.record]
        split
        next share =>
          obtain ahead | gone | off | same := allowed
          · exact absurd ahead read
          · exact absurd member gone
          · exact absurd (share.symm.trans off) (by decide)
          · unfold getIptablesStatsCached
            rw [undated_append, undated_append,
              undated_getIptablesStatsIncrease current.cached same]
        · rfl

theorem moves_cacheStats (allowed : Stage.kernel ∈ left ∨ Stage.uidSim ∉ left ∧
      (Stage.sharing ∉ left ∨ current.cached.supportNetworkShare = false)) :
    Moves current
      { current with cached := current.cached.cacheStats current.kernel current.curSecond }
      left := by
  have base := base_cacheStats current.cached current.kernel current.curSecond
  have share := congrArg Base.supportNetworkShare base
  have display := congrArg Base.isDisplayTrafficAncoList base
  have uidTable := congrArg Base.uidTable base
  have uidSimTable := congrArg Base.uidSimTable base
  dsimp only [NetStatsCached.base] at share display uidTable uidSimTable
  refine ⟨congrArg Base.curDefaultUserId base, congrArg Base.curPrivateUserId base, ?_⟩
  intro done order
  obtain ⟨ahead, -, -, -, before⟩ | ⟨rest, ending⟩ := order_cases order
  · refine .inl ⟨ahead, fun stage member => ?_⟩
    obtain ⟨-, rfl | rfl⟩ := before stage member
    · exact uidTable
    · simp only [Moment.record, simInfos_congr display, uidSimTable]
  · have read : Stage.kernel ∉ left := fun member => by simpa using rest _ member
    refine .inr ⟨read, fun stage member => ?_⟩
    obtain ahead | ⟨gone, off⟩ := allowed
    · exact absurd ahead read
    · obtain rfl := ending.resolve_left gone stage member
      obtain absent | off := off
      · exact absurd member absent
      · simp only [Moment.record, share, off]
        rfl

theorem moves_writeStats (uidAllowed : Stage.uidRows ∈ left ∨ Stage.uid ∉ left ∨
      current.cached.stores current.cached.stats.uid = false)
    (uidSimAllowed : Stage.uidSimRows ∈ left ∨ Stage.uidSim ∉ left ∨
      current.cached.stores current.cached.stats.uidSim = false)
    (sharingAllowed : Stage.uidRows ∈ left ∨ Stage.sharing ∉ left ∨
      current.cached.supportNetworkShare = false) :
    Moves current { current with cached := current.cached.writeStats current.curSecond }
      left := by
  have written := written_writeStats current.cached current.curSecond
  have simInfos := simInfos_congr written.display
  refine ⟨written.defaultUser, written.privateUser, ?_⟩
  intro done order
  obtain ⟨ahead, uidAhead, uidSimAhead, sharingAhead, before⟩ | ⟨rest, -⟩ := order_cases order
  · refine .inl ⟨ahead, fun stage member => ?_⟩
    obtain ⟨absent, rfl | rfl⟩ := before stage member
    · have kept := (uidAllowed.resolve_left absent).resolve_left (not_not_intro uidAhead)
      have off := (sharingAllowed.resolve_left absent).resolve_left (not_not_intro sharingAhead)
      exact written.uidTable kept off
    · have kept := (uidSimAllowed.resolve_left absent).resolve_left (not_not_intro uidSimAhead)
      simp only [Moment.record, simInfos, written.uidSimTable kept]
  · have absent : ∀ stage, stage = .kernel ∨ stage = .uidRows ∨ stage = .uidSimRows →
        stage ∉ left := by
      rintro stage (rfl | rfl | rfl) member
      all_goals simpa using rest _ member
    refine .inr ⟨absent _ (.inl rfl), fun stage member => ?_⟩
    have noUidRows := absent .uidRows (.inr (.inl rfl))
    have noUidSimRows := absent .uidSimRows (.inr (.inr rfl))
    obtain rfl | rfl | rfl | rfl := rest stage member
    · simp only [Moment.record, written.push]
    · have kept := (uidAllowed.resolve_left noUidRows).resolve_left (not_not_intro member)
      simp only [Moment.record, written.uid kept]
    · have kept := (uidSimAllowed.resolve_left noUidSimRows).resolve_left (not_not_intro member)
      simp only [Moment.record, simInfos, written.uidSim kept]
    · have off := (sharingAllowed.resolve_left noUidRows).resolve_left (not_not_intro member)
      simp only [Moment.record, written.share, off]
      rfl

/-- The moment after a critical section. -/
def afterRead (moment : Moment) (stage : Stage) : Moment :=
  { moment with
    cached :=
      if stage = .kernel then (moment.cached.getKernelStats moment.kernel moment.curSecond).2
      else moment.cached }

theorem record_afterRead (moment : Moment)
    (different : stage = .kernel → other ≠ .kernel) :
    (afterRead moment stage).record other = moment.record other := by
  unfold afterRead
  split
  next isKernel =>
    obtain ⟨flags, equal⟩ := moment.cached.getKernelStats_eq moment.kernel moment.curSecond
    rw [equal]
    cases other with
    | kernel => exact absurd rfl (different isKernel)
    | _ => rfl
  · rfl

theorem Underway.read (underway : Underway current progress)
    (isLeft : progress.left = stage :: left)
    (sharing : stage = .sharing → current.ReadsSharing progress.query) :
    Underway (afterRead current stage)
      { progress with
        left := left
        allInfo := progress.allInfo ++ current.part progress.query stage
        moments := progress.moments ++ [afterRead current stage] } := by
  refine ⟨mem_append_right _ mem_cons_self, fun covered => ?_⟩
  have coveredBefore : ∀ moment ∈ progress.moments, moment.Covered progress.query :=
    fun moment member => covered moment (mem_append_left _ member)
  have currentCovered := coveredBefore current underway.1
  obtain ⟨seen, done, reads⟩ := underway.2 coveredBefore
  have distinct : stage = .kernel → Stage.kernel ∉ left := by
    rintro rfl member
    have nodup : (done ++ progress.left).Nodup := by rw [reads.order]; decide
    rw [isLeft] at nodup
    exact (nodup_cons.mp nodup.of_append_right).1 member
  have same : ∀ other ∈ left, (afterRead current stage).record other = current.record other := by
    intro other member
    apply record_afterRead
    rintro isKernel rfl
    exact distinct isKernel member
  have users : (afterRead current stage).cached.curDefaultUserId = current.cached.curDefaultUserId ∧
      (afterRead current stage).cached.curPrivateUserId = current.cached.curPrivateUserId := by
    unfold afterRead
    split
    · obtain ⟨flags, equal⟩ := current.cached.getKernelStats_eq current.kernel current.curSecond
      rw [equal]
      exact ⟨rfl, rfl⟩
    · exact ⟨rfl, rfl⟩
  have added : undated ((current.part progress.query stage).filter progress.query.asks) =
      undated ((seen.record stage).filter progress.query.asks) := by
    have equal := reads.ahead stage (by rw [isLeft]; exact mem_cons_self)
    rw [Moment.filter_part currentCovered sharing, ← filter_undated, equal, filter_undated]
  refine ⟨seen, done ++ [stage], ?_, mem_append_left _ reads.visited, ?_,
    users.1.trans reads.defaultUser, users.2.trans reads.privateUser, ?_, ?_, ?_⟩
  · rw [append_assoc, singleton_append, ← isLeft]
    exact reads.order
  · intro ahead
    have isSeen := reads.present (by rw [isLeft]; exact mem_cons_of_mem _ ahead)
    have notKernel : stage ≠ .kernel := fun isKernel => distinct isKernel ahead
    rw [isSeen]
    unfold afterRead
    rw [if_neg notKernel]
  · rw [filter_append, undated_append, flatMap_append, filter_append,
      undated_append, reads.infos, added, flatMap_singleton]
  · exact forall_mem_append.mpr
      ⟨reads.within, fun info => Moment.within_of_mem_part currentCovered⟩
  · intro other member
    rw [same other member]
    exact reads.ahead other (by rw [isLeft]; exact mem_cons_of_mem _ member)

theorem Underway.finish (underway : Underway current progress) (nothingLeft : progress.left = []) :
    Answered
      { query := progress.query
        infos := filterTrafficStatsByNetwork progress.query
          (current.cached.mergeTrafficStatsByAccount progress.query.curUserId progress.allInfo)
        moments := progress.moments } := by
  intro covered
  obtain ⟨seen, done, reads⟩ := underway.2 covered
  refine ⟨seen, reads.visited, ?_⟩
  have all : done = Stage.all := by
    rw [← reads.order, nothingLeft, append_nil]
  have account : accountInfo current.cached progress.query.curUserId =
      accountInfo seen.cached progress.query.curUserId := by
    funext info
    unfold accountInfo
    rw [reads.defaultUser, reads.privateUser]
  have keeps := accountInfo_eq seen.cached progress.query.curUserId
  have undates := undated_accountInfo seen.cached progress.query.curUserId
  unfold Moment.traffic filterTrafficStatsByNetwork
  rw [undated_addUp, mergeTrafficStatsByAccount_eq, mergeTrafficStatsByAccount_eq, account]
  -- Only what one account sees of a record matters from here on.
  generalize accountInfo seen.cached progress.query.curUserId = account at keeps undates ⊢
  have asks : progress.query.asks ∘ account = progress.query.asks := by
    funext info
    obtain ⟨uid, equal⟩ := keeps info
    simp only [Function.comp, equal]
    rfl
  have filtered : (progress.allInfo.map account).filter
        (fun info => progress.query.ident = info.ident &&
          progress.query.startTime.toUInt64 ≤ info.date &&
          info.date ≤ progress.query.endTime.toUInt64) =
      (progress.allInfo.filter progress.query.asks).map account := by
    rw [filter_map]
    congr 1
    apply filter_congr
    intro info member
    have inside := reads.within info member
    obtain ⟨uid, equal⟩ := keeps info
    simp only [Function.comp, equal, Bool.and_assoc]
    simp only [Query.within] at inside
    rw [inside, Bool.and_true]
    rfl
  have dates (infos : List NetStatsInfo) :
      undated (infos.map account) = (undated infos).map account := by
    simp only [undated, map_map]
    exact map_congr_left fun info _ => undates info
  rw [filtered, dates, reads.infos, all, filter_map, asks, dates]
  rfl

end Steps

theorem underway_start (moment : Moment) :
    Underway moment { query := query, moments := [moment] } :=
  ⟨mem_cons_self, fun _ => ⟨moment, [], rfl, mem_cons_self, fun _ => rfl, rfl, rfl, rfl,
    nofun, fun _ _ => rfl⟩⟩

variable {system : System}

section

variable (consistent : system.Consistent)

include consistent

theorem Consistent.pass {next : Moment}
    (moves : ∀ progress ∈ system.progress, Moves system.moment next progress.left) :
    (system.pass next).Consistent := by
  refine ⟨fun progress member => ?_, consistent.answers⟩
  obtain ⟨before, found, rfl⟩ := Option.map_eq_some_iff.mp member
  exact (consistent.underway before found).pass (moves before found)

theorem Consistent.readNext (allowed : system.Permitted .read) : system.readNext.Consistent := by
  unfold System.readNext
  split
  · exact consistent
  case h_2 progress isProgress =>
    have underway := consistent.underway progress isProgress
    have sharing := allowed progress isProgress
    split
    · exact consistent
    case h_2 stage left isLeft =>
      have read := underway.read isLeft (by
        rintro rfl
        apply sharing
        rw [isLeft]
        rfl)
      refine ⟨fun later member => ?_, consistent.answers⟩
      obtain rfl := Option.some.inj member
      exact read

theorem Consistent.finishQuery : system.finishQuery.Consistent := by
  unfold System.finishQuery
  split
  · exact consistent
  case h_2 progress isProgress =>
    have underway := consistent.underway progress isProgress
    split
    · exact consistent
    case h_2 nothingLeft =>
      refine ⟨fun later member => absurd member (by simp), ?_⟩
      exact forall_mem_append.mpr
        ⟨consistent.answers, forall_mem_singleton.mpr (underway.finish nothingLeft)⟩

theorem Consistent.step (allowed : system.Permitted action) :
    (system.step action).Consistent := by
  cases action with
  | elapse kernel curSecond =>
    exact consistent.pass fun progress found => moves_elapse (allowed progress found)
  | cacheStats =>
    exact consistent.pass fun progress found => moves_cacheStats (allowed progress found)
  | writeStats =>
    apply consistent.pass
    intro progress found
    obtain ⟨uid, uidSim, sharing⟩ := allowed progress found
    exact moves_writeStats uid uidSim sharing
  | start query =>
    dsimp only [System.step]
    split
    · exact consistent
    · refine ⟨fun progress member => ?_, consistent.answers⟩
      obtain rfl := Option.some.inj member
      exact underway_start system.moment
  | read => exact consistent.readNext allowed
  | finish => exact consistent.finishQuery

end

/-- In every interleaving that moves no bytes between a place that a running query has
read and one that it has not, a query whose window covers all records returns the traffic
of a moment between its start and its end. -/
theorem query_oneMoment {moment : Moment} {system : System}
    (reach : Run.Reach step Permitted { moment := moment } system) {answer : Answer}
    (returned : answer ∈ system.answers)
    (covered : ∀ visited ∈ answer.moments, visited.Covered answer.query) :
    ∃ visited ∈ answer.moments, undated answer.infos = visited.traffic answer.query := by
  have initially : Consistent { moment := moment } :=
    ⟨fun progress member => absurd member (by simp), nofun⟩
  have consistent : system.Consistent :=
    reach.invariant initially fun _ _ consistent allowed => consistent.step allowed
  exact consistent.answers answer returned covered

instance decidablePermitted (system : System) :
    (action : Action) → Decidable (system.Permitted action)
  | .elapse _ _ => inferInstanceAs (Decidable (∀ progress ∈ system.progress, _ ∨ _ ∨ _ ∨ _))
  | .cacheStats => inferInstanceAs (Decidable (∀ progress ∈ system.progress, _ ∨ _ ∧ (_ ∨ _)))
  | .writeStats =>
    inferInstanceAs (Decidable (∀ progress ∈ system.progress,
      (_ ∨ _ ∨ _) ∧ (_ ∨ _ ∨ _) ∧ (_ ∨ _ ∨ _)))
  | .start _ => isTrue trivial
  | .read => inferInstanceAs (Decidable (∀ progress ∈ system.progress, _ → (_ = _ → _ ∧ _ < _)))
  | .finish => isTrue trivial

/-- The counters of one application. -/
def received (rxBytes : UInt64) : Kernel where
  stats := [{ uid := 20010044, iface := "wlan0", rxBytes := rxBytes, rxPackets := 1 }]

/-- A query of what is not cellular. -/
def wlanQuery : Query where
  ident := ""
  startTime := 0
  endTime := 100

/-- Counters go on and are cached while the query reads the tables, and go on later. -/
def quiet : List Action :=
  [.elapse (received 100) 1, .start wlanQuery, .read, .elapse (received 150) 2, .cacheStats,
    .writeStats, .read, .elapse (received 170) 3, .read, .elapse (received 300) 4, .read, .read,
    .read, .cacheStats, .read, .finish]

/-- The bytes that each answer has received. -/
def receivedBytes (system : System) : List (List UInt64) :=
  system.answers.map fun answer => answer.infos.map fun info => info.rxBytes

theorem query_oneMoment_quiet : let system := quiet.foldl step { moment := { cached := {} } }
    Run.PermittedAll step Permitted { moment := { cached := {} } } quiet ∧
      system.receivedBytes = [[170]] ∧
      ∀ answer ∈ system.answers, (∀ visited ∈ answer.moments, visited.Covered answer.query) ∧
        ∃ visited ∈ answer.moments, undated answer.infos = visited.traffic answer.query := by
  intro system
  have permitted : Run.PermittedAll step Permitted { moment := { cached := {} } } quiet := by
    decide +kernel
  refine ⟨permitted, by decide +kernel, fun answer returned => ?_⟩
  have covered : ∀ answer ∈ system.answers,
      ∀ visited ∈ answer.moments, visited.Covered answer.query := by
    decide +kernel
  exact ⟨covered answer returned,
    query_oneMoment (Run.Reach.start.foldl quiet permitted) returned (covered answer returned)⟩

/-- The counters are cached after the query has read them. -/
def cachedLate : List Action :=
  [.elapse (received 100) 1, .start wlanQuery, .read, .read, .read, .cacheStats, .read, .read,
    .read, .read, .finish]

/-- 100 bytes that are in the kernel when the query starts and in the cache when it ends
count twice. -/
theorem not_oneMoment_cachedLate :
    let system := cachedLate.foldl step { moment := { cached := {} } }
    system.receivedBytes = [[200]] ∧
      ∀ answer ∈ system.answers, (∀ visited ∈ answer.moments, visited.Covered answer.query) ∧
          (∀ visited ∈ answer.moments,
            (visited.traffic answer.query).map (fun info => info.rxBytes) = [100]) ∧
          ¬ ∃ visited ∈ answer.moments, undated answer.infos = visited.traffic answer.query := by
  decide +kernel

end System

end NetManager.NetStats
