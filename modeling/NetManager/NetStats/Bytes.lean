import Mathlib.Algebra.GroupWithZero.Nat
import NetManager.Library.Run
import NetManager.NetStats.Cached

/-!
# Bytes are accounted for

For each application and interface, the rows inserted into the table and the records in
memory add up to the counter of the kernel and what was pushed. The traffic of a shared
network is in the same table under a number of its own.
-/

namespace NetManager.NetStats

open List Records

/-- A direction of traffic. -/
inductive Direction
  | rx
  | tx

variable (info : NetStatsInfo)

/-- The bytes of a record. -/
def NetStatsInfo.bytes : Direction → Nat
  | .rx => info.rxBytes.toNat
  | .tx => info.txBytes.toNat

/-- The application and the interface. -/
def NetStatsInfo.key : UInt32 × String := (info.uid, info.iface)

/-- What is counted for a key. -/
def NetStatsInfo.counters : (UInt32 × String) × UInt64 × UInt64 :=
  (info.key, info.rxBytes, info.txBytes)

open NetStatsInfo (counters equals)

/-- The bytes of a record that belong to an application and an interface. -/
def share (direction : Direction) (key : UInt32 × String) (info : NetStatsInfo) : Nat :=
  if info.key = key then info.bytes direction else 0

/-- The bytes of an application on an interface. -/
def total (direction : Direction) (key : UInt32 × String) (infos : List NetStatsInfo) : Nat :=
  (infos.map (share direction key)).sum

section Total

variable {direction : Direction} {key : UInt32 × String} {infos : List NetStatsInfo}
  {info : NetStatsInfo}

@[simp] theorem total_nil : total direction key [] = 0 := rfl

@[simp] theorem total_cons :
    total direction key (info :: infos) = share direction key info + total direction key infos :=
  sum_cons

@[simp] theorem total_append :
    total direction key (first ++ second) =
      total direction key first + total direction key second := by
  unfold total
  rw [map_append, sum_append]

theorem share_of_ne (other : info.key ≠ key) : share direction key info = 0 := if_neg other

theorem share_of_hasNoData (nothing : info.hasNoData = true) : share direction key info = 0 := by
  simp only [NetStatsInfo.hasNoData, Bool.and_eq_true, beq_iff_eq] at nothing
  unfold share NetStatsInfo.bytes
  cases direction <;> simp [nothing]

theorem bytes_of_counters {info other : NetStatsInfo} (same : info.counters = other.counters) :
    info.bytes direction = other.bytes direction := by
  cases direction with
  | rx => exact congrArg (fun counted => counted.2.1.toNat) same
  | tx => exact congrArg (fun counted => counted.2.2.toNat) same

theorem share_congr (same : info.counters = other.counters) :
    share direction key info = share direction key other := by
  have sameKey : info.key = other.key := congrArg Prod.fst same
  rw [share, share, sameKey, bytes_of_counters same]

theorem total_congr (same : first.map counters = second.map counters) :
    total direction key first = total direction key second := by
  induction first generalizing second with
  | nil => rw [map_eq_nil_iff.mp same.symm]
  | cons info infos ih =>
    obtain ⟨other, others, rfl, sameHead, sameTail⟩ := map_eq_cons_iff.mp same.symm
    rw [total_cons, total_cons, share_congr sameHead.symm, ih sameTail.symm]

theorem total_eq_zero (others : ∀ info ∈ infos, info.key ≠ key) :
    total direction key infos = 0 := by
  induction infos with
  | nil => rfl
  | cons info infos ih =>
    rw [total_cons, share_of_ne (others info mem_cons_self),
      ih fun other member => others other (mem_cons_of_mem info member)]

theorem total_of_mem (direction : Direction) (distinct : (infos.map NetStatsInfo.key).Nodup)
    (member : info ∈ infos) :
    total direction info.key infos = info.bytes direction := by
  obtain ⟨before, after, rfl⟩ := append_of_mem member
  rw [map_append, map_cons, nodup_middle, nodup_cons, ← map_append] at distinct
  have elsewhere : total direction info.key (before ++ after) = 0 :=
    total_eq_zero fun other isOther same => distinct.1 (same ▸ mem_map_of_mem isOther)
  rw [total_append] at elsewhere
  rw [total_append, total_cons, share, if_pos rfl]
  omega

end Total

/-! ## Running totals -/

namespace Records

/-- The running total is the sum of the records. -/
def Tallied (records : Records) : Prop :=
  records.current = (records.infos.map NetStatsInfo.getStats).foldl (· + ·) 0

theorem tallied_push {records : Records} (tallied : records.Tallied) (info : NetStatsInfo) :
    (records.push info).Tallied := by
  unfold push
  split
  · exact tallied
  · unfold Tallied
    rw [map_append, foldl_append, ← tallied]
    rfl

theorem total_push (direction : Direction) (key : UInt32 × String) (records : Records)
    (info : NetStatsInfo) :
    total direction key (records.push info).infos =
      total direction key records.infos + share direction key info := by
  unfold push
  split
  next nothing => rw [share_of_hasNoData nothing, Nat.add_zero]
  · rw [total_append, total_cons, total_nil, Nat.add_zero]

end Records

/-! ## What has come since the last time -/

namespace NetStatsInfo

theorem toNat_increase : (increase counter last).toNat = counter.toNat - last.toNat := by
  unfold increase
  split
  next more => exact UInt64.toNat_sub_of_le counter last (UInt64.le_of_lt more)
  next notMore =>
    have most : counter.toNat ≤ last.toNat := UInt64.le_iff_toNat_le.mp (UInt64.not_lt.mp notMore)
    rw [Nat.sub_eq_zero_of_le most]
    rfl

theorem bytes_sub (info last : NetStatsInfo) (direction : Direction) :
    (info.sub last).bytes direction = info.bytes direction - last.bytes direction := by
  cases direction with
  | rx => exact toNat_increase
  | tx => exact toNat_increase

theorem equals_iff {info other : NetStatsInfo} :
    info.equals other = true ↔ other.key = info.key := by
  unfold equals key
  simp

end NetStatsInfo

/-- No counter of a snapshot disappears or decreases; a snapshot has one record for each
application and interface. -/
structure Grows (last infos : List NetStatsInfo) : Prop where
  distinct : (infos.map NetStatsInfo.key).Nodup
  keeps : ∀ old ∈ last, ∃ info ∈ infos, info.key = old.key ∧
    ∀ direction, old.bytes direction ≤ info.bytes direction

theorem keys_congr {first second : List NetStatsInfo}
    (same : first.map counters = second.map counters) :
    first.map NetStatsInfo.key = second.map NetStatsInfo.key := by
  have keys := congrArg (List.map Prod.fst) same
  rw [map_map, map_map] at keys
  exact keys

theorem Grows.congr {last infos otherLast others : List NetStatsInfo} (grows : Grows last infos)
    (sameLast : otherLast.map counters = last.map counters)
    (same : others.map counters = infos.map counters) :
    Grows otherLast others := by
  refine ⟨keys_congr same ▸ grows.distinct, fun old isOld => ?_⟩
  have isLast := mem_map_of_mem (f := counters) isOld
  rw [sameLast] at isLast
  obtain ⟨before, isBefore, sameBefore⟩ := mem_map.mp isLast
  obtain ⟨info, isInfo, sameKey, more⟩ := grows.keeps before isBefore
  have isOther := mem_map_of_mem (f := counters) isInfo
  rw [← same] at isOther
  obtain ⟨other, member, sameInfo⟩ := mem_map.mp isOther
  refine ⟨other, member, ?_, fun direction => ?_⟩
  · exact ((congrArg Prod.fst sameInfo).trans sameKey).trans (congrArg Prod.fst sameBefore)
  · rw [bytes_of_counters sameInfo, ← bytes_of_counters sameBefore]
    exact more direction

namespace NetStatsCached

variable (last : List NetStatsInfo) (curSecond : UInt64)

theorem key_increasedRecord (info : NetStatsInfo) :
    (increasedRecord equals last curSecond info).key = info.key := by
  unfold increasedRecord increased
  split
  · rfl
  next old found => exact (NetStatsInfo.equals_iff.mp (find?_some found) :)

/-- The records of what has come and the last counters add up to the counters. -/
theorem total_increasedRecord {last infos : List NetStatsInfo}
    (distinct : (last.map NetStatsInfo.key).Nodup) (grows : Grows last infos) (curSecond : UInt64)
    (direction : Direction) (key : UInt32 × String) :
    total direction key (infos.map (increasedRecord equals last curSecond)) +
      total direction key last = total direction key infos := by
  have sameKeys : (infos.map (increasedRecord equals last curSecond)).map
      NetStatsInfo.key = infos.map NetStatsInfo.key := by
    rw [map_map]
    exact map_congr_left fun info _ => key_increasedRecord last curSecond info
  by_cases present : ∃ info ∈ infos, info.key = key
  · obtain ⟨info, member, rfl⟩ := present
    have record := total_of_mem direction (sameKeys ▸ grows.distinct) (mem_map_of_mem member)
    rw [key_increasedRecord] at record
    rw [record, total_of_mem direction grows.distinct member]
    unfold increasedRecord increased
    split
    next absent =>
      have nothing : total direction info.key last = 0 := by
        apply total_eq_zero
        intro old isOld same
        exact absurd (NetStatsInfo.equals_iff.mpr same) (find?_eq_none.mp absent old isOld)
      rw [nothing]
      rfl
    next old found =>
      have isOld := mem_of_find?_eq_some found
      have sameKey := NetStatsInfo.equals_iff.mp (find?_some found)
      obtain ⟨next, isNext, nextKey, more⟩ := grows.keeps old isOld
      have lastTotal := total_of_mem direction distinct isOld
      have nextTotal := total_of_mem direction grows.distinct isNext
      rw [nextKey, sameKey, total_of_mem direction grows.distinct member] at nextTotal
      rw [sameKey] at lastTotal
      rw [lastTotal]
      have difference := NetStatsInfo.bytes_sub info old direction
      have atLeast := more direction
      change (info.sub old).bytes direction + old.bytes direction = info.bytes direction
      omega
  · have nothing : total direction key infos = 0 :=
      total_eq_zero fun info member same => present ⟨info, member, same⟩
    have noRecord : total direction key
        (infos.map (increasedRecord equals last curSecond)) = 0 := by
      apply total_eq_zero
      refine forall_mem_map.mpr fun info isInfo same => ?_
      exact present ⟨info, isInfo, (key_increasedRecord last curSecond info).symm.trans same⟩
    have noLast : total direction key last = 0 := by
      apply total_eq_zero
      intro old isOld same
      obtain ⟨info, member, sameKey, -⟩ := grows.keeps old isOld
      exact present ⟨info, member, sameKey.trans same⟩
    rw [nothing, noRecord, noLast]

/-! ## The calls -/

variable {β : Type*} {read : NetStatsInfo → β}

theorem map_assignIdents
    (keeps : ∀ info ident, read { info with ident := ident } = read info) (cached : NetStatsCached)
    (infos : List NetStatsInfo) :
    (cached.assignIdents infos).map read = infos.map read := by
  unfold assignIdents
  induction cached.ifaceNameIdentMap.entries generalizing infos with
  | nil => rfl
  | cons entry entries ih =>
    rw [foldl_cons, ih, map_map]
    refine map_congr_left fun info _ => ?_
    rw [Function.comp_apply]
    split
    · exact keeps info entry.2
    · rfl

theorem map_stampUidStats
    (keeps : ∀ info userId date, read { info with userId := userId, date := date } = read info)
    (curSecond : UInt64) (infos : List NetStatsInfo) :
    (infos.map (stampUidStats curSecond)).map read = infos.map read := by
  rw [map_map]
  refine map_congr_left fun info _ => ?_
  rw [Function.comp_apply]
  unfold stampUidStats
  split
  · rfl
  · exact keeps info _ _

/-- The loop of `CacheUidStats`. -/
def pushIncreased (last : List NetStatsInfo) (curSecond : UInt64) (stats : CachedInfo)
    (info : NetStatsInfo) : CachedInfo :=
  if info.iface = ifaceLo then stats
  else stats.pushUidStats (increasedRecord equals last curSecond info)

theorem total_foldl_pushIncreased (direction : Direction) (notLoopback : key.2 ≠ ifaceLo)
    (infos : List NetStatsInfo) (stats : CachedInfo) :
    total direction key (infos.foldl (pushIncreased last curSecond) stats).uid.infos =
      total direction key stats.uid.infos +
        total direction key (infos.map (increasedRecord equals last curSecond)) := by
  induction infos generalizing stats with
  | nil => rfl
  | cons info infos ih =>
    have round : total direction key (pushIncreased last curSecond stats info).uid.infos =
        total direction key stats.uid.infos +
          share direction key (increasedRecord equals last curSecond info) := by
      unfold pushIncreased
      split
      next isLoopback =>
        have other : (increasedRecord equals last curSecond info).key ≠ key := by
          rw [key_increasedRecord]
          rintro rfl
          exact notLoopback isLoopback
        rw [share_of_ne other, Nat.add_zero]
      · exact Records.total_push direction key stats.uid _
    rw [foldl_cons, ih, round, map_cons, total_cons, Nat.add_assoc]

/-! ## What the calls do to the table of applications -/

/-- The parts of the cache that the table of applications depends on. -/
structure Books where
  shares : Bool
  /-- The records of applications. -/
  uid : Records
  /-- The records of a shared network. -/
  iptables : Records
  last : List NetStatsInfo
  /-- The records that wait for `CacheAppStats`. -/
  push : List NetStatsInfo
  inserted : List NetStatsInfo

/-- These parts of a cache. -/
def books (cached : NetStatsCached) : Books where
  shares := cached.supportNetworkShare
  uid := cached.stats.uid
  iptables := cached.stats.iptables
  last := cached.lastUidStatsInfo
  push := cached.uidPushStatsInfo
  inserted := cached.uidInserted

/-- All running totals are the sums of their records. -/
structure Tallied (stats : CachedInfo) : Prop where
  uid : stats.uid.Tallied
  uidSim : stats.uidSim.Tallied
  iface : stats.iface.Tallied
  iptables : stats.iptables.Tallied

/-- A call that leaves the books alone and keeps the running totals. -/
structure Leaves (cached after : NetStatsCached) : Prop where
  books : after.books = cached.books
  tallied : Tallied cached.stats → Tallied after.stats

variable {cached : NetStatsCached}

theorem Leaves.trans {middle after : NetStatsCached} (first : Leaves cached middle)
    (second : Leaves middle after) : Leaves cached after :=
  ⟨second.books.trans first.books, second.tallied ∘ first.tallied⟩

theorem leaves_cacheUidSimInfo (info : NetStatsInfo) :
    Leaves cached (cacheUidSimInfo last curSecond info cached).2 := by
  unfold cacheUidSimInfo
  split
  · exact ⟨rfl, id⟩
  · dsimp only
    obtain ⟨flags, after⟩ := updateNetStatsFlag_eq cached _
    rw [after]
    exact ⟨rfl, fun tallied => { tallied with uidSim := tallied_push tallied.uidSim _ }⟩

theorem leaves_cacheUidSimInfos (infos : List NetStatsInfo) (cached : NetStatsCached) :
    Leaves cached (cacheUidSimInfos last curSecond infos cached).2 := by
  induction infos generalizing cached with
  | nil => exact ⟨rfl, id⟩
  | cons info infos ih => exact (leaves_cacheUidSimInfo last curSecond info).trans (ih _)

section

variable (cached : NetStatsCached) (kernel : Kernel) (curSecond : UInt64)

theorem leaves_cacheUidSimStats : Leaves cached (cached.cacheUidSimStats kernel curSecond) := by
  unfold cacheUidSimStats
  split
  · exact ⟨rfl, id⟩
  · have leaves := leaves_cacheUidSimInfos cached.lastUidSimStatsInfo curSecond
      (cached.assignFlags kernel.simStats) cached
    exact ⟨leaves.books, leaves.tallied⟩

theorem leaves_cacheIfaceStats : Leaves cached (cached.cacheIfaceStats kernel curSecond) := by
  refine List.foldlRecOn (motive := fun stats =>
    Leaves cached { cached with stats := stats, lastIfaceStats := _ }) _ _ ⟨rfl, id⟩
    fun stats leaves info _ => ⟨leaves.books, fun tallied => ?_⟩
  have before := leaves.tallied tallied
  exact { before with iface := tallied_push before.iface _ }

theorem leaves_writeUidSimStats : Leaves cached (cached.writeUidSimStats curSecond) := by
  unfold writeUidSimStats
  split
  · exact ⟨rfl, id⟩
  · exact ⟨rfl, fun tallied => { tallied with uidSim := rfl }⟩

theorem leaves_writeIfaceStats : Leaves cached (cached.writeIfaceStats curSecond) := by
  unfold writeIfaceStats
  split
  · exact ⟨rfl, id⟩
  · exact ⟨rfl, fun tallied => { tallied with iface := rfl }⟩

end

theorem leaves_cacheAppStats (nothing : cached.uidPushStatsInfo = []) (curSecond : UInt64) :
    Leaves cached (cached.cacheAppStats curSecond) := by
  unfold cacheAppStats
  rw [nothing]
  exact ⟨by rw [books, books, nothing]; rfl, id⟩

theorem books_cacheUidStats (cached : NetStatsCached)
    (notEmpty : kernel.stats.isEmpty = false) (curSecond : UInt64) :
    let infos := (cached.assignIdents kernel.stats).map (stampUidStats curSecond)
    (cached.cacheUidStats kernel curSecond).books =
      { cached.books with
        uid := (infos.foldl (pushIncreased cached.lastUidStatsInfo curSecond) cached.stats).uid
        last := infos } := by
  have keeps (infos : List NetStatsInfo) :
      (infos.foldl (pushIncreased cached.lastUidStatsInfo curSecond) cached.stats).iptables =
        cached.stats.iptables := by
    refine List.foldlRecOn
      (motive := fun stats : CachedInfo => stats.iptables = cached.stats.iptables)
      infos _ rfl fun stats same info _ => ?_
    unfold pushIncreased
    split
    · exact same
    · exact same
  unfold cacheUidStats
  rw [notEmpty]
  unfold books
  rw [← keeps]
  rfl

theorem uid_sharingInfo {info : NetStatsInfo}
    (member : info ∈ cached.sharingInfo traffic) :
    info.uid = iptablesUid := by
  have uids : (cached.sharingInfo traffic).map NetStatsInfo.uid = [iptablesUid] :=
    map_assignIdents (fun _ _ => rfl) cached _
  have isUid : info.uid ∈ [iptablesUid] := uids ▸ mem_map_of_mem member
  exact mem_singleton.mp isUid

theorem mem_push {records : Records} {info other : NetStatsInfo}
    (member : other ∈ (records.push info).infos) :
    other ∈ records.infos ∨ other = info := by
  unfold push at member
  split at member
  · exact .inl member
  · rcases mem_append.mp member with old | new
    · exact .inl old
    · exact .inr (mem_singleton.mp new)

/-- Only the records of a shared network change, and they have its number. -/
theorem books_cacheIptablesStats
    (only : ∀ info ∈ cached.stats.iptables.infos, info.uid = iptablesUid)
    (curSecond : UInt64) :
    let after := cached.cacheIptablesStats kernel curSecond
    after.books = { cached.books with iptables := after.stats.iptables } ∧
      ∀ info ∈ after.stats.iptables.infos, info.uid = iptablesUid := by
  unfold cacheIptablesStats
  split
  · exact ⟨rfl, only⟩
  next traffic _ =>
    have keeps := List.foldlRecOn
      (motive := fun stats : CachedInfo => stats.uid = cached.stats.uid ∧
        ∀ info ∈ stats.iptables.infos, info.uid = iptablesUid)
      (cached.sharingInfo traffic)
      (fun stats info =>
        if info.iface = ifaceLo then stats
        else stats.pushIptablesStats
          (increasedRecord equals cached.lastIptablesStatsInfo curSecond info))
      ⟨rfl, only⟩
      (fun stats same info member => by
        split
        · exact same
        · refine ⟨same.1, fun other isOther => ?_⟩
          rcases mem_push isOther with old | rfl
          · exact same.2 other old
          · have sameKey := key_increasedRecord cached.lastIptablesStatsInfo curSecond info
            exact (congrArg Prod.fst sameKey).trans (uid_sharingInfo member))
    refine ⟨?_, keeps.2⟩
    unfold books
    rw [keeps.1]

section

variable (tallied : Tallied cached.stats) (kernel : Kernel) (curSecond : UInt64)
include tallied

theorem tallied_cacheUidStats : Tallied (cached.cacheUidStats kernel curSecond).stats := by
  unfold cacheUidStats
  split
  · exact tallied
  · refine List.foldlRecOn (motive := Tallied) _ _ tallied fun stats tallied info _ => ?_
    split
    · exact tallied
    · exact { tallied with uid := tallied_push tallied.uid _ }

theorem tallied_cacheIptablesStats :
    Tallied (cached.cacheIptablesStats kernel curSecond).stats := by
  unfold cacheIptablesStats
  split
  · exact tallied
  · refine List.foldlRecOn (motive := Tallied) _ _ tallied fun stats tallied info _ => ?_
    split
    · exact tallied
    · exact { tallied with iptables := tallied_push tallied.iptables _ }

end

end NetStatsCached

/-! ## Runs -/

open NetStatsCached

/-- A cache with the last counters it read and the records pushed by others. -/
structure Account where
  cached : NetStatsCached
  /-- The counters of applications that `CacheStats` read last. -/
  kernel : List NetStatsInfo := []
  /-- The records of `SetDpaAppStats`. -/
  pushed : List NetStatsInfo := []

namespace Account

/-- A call. -/
inductive Call
  | cacheStats (kernel : Kernel) (curSecond : UInt64)
  | writeStats (curSecond : UInt64)
  | setDpaAppStats (info : NetStatsInfo) (ifName : Option String)
  | forceUpdateStats (kernel : Kernel) (curSecond : UInt64)
      (identMap : AList fun _ : String => String)

/-- One call. -/
def step (account : Account) : Call → Account
  | .cacheStats kernel curSecond =>
    { account with
      cached := account.cached.cacheStats kernel curSecond
      kernel := kernel.stats }
  | .writeStats curSecond => { account with cached := account.cached.writeStats curSecond }
  | .setDpaAppStats info ifName =>
    { account with
      cached := account.cached.setDpaAppStats info ifName
      pushed := account.pushed ++ [dpaRecord info ifName] }
  | .forceUpdateStats kernel curSecond identMap =>
    { account with
      cached := account.cached.forceUpdateStats kernel curSecond identMap
      kernel := kernel.stats }

/-- The counters of the kernel do not disappear or decrease. -/
def Growing (account : Account) : Call → Prop
  | .cacheStats kernel _ => Grows account.kernel kernel.stats
  | .forceUpdateStats kernel _ _ => Grows account.kernel kernel.stats
  | _ => True

/-- The rows and the records of an application on an interface add up to its counter and
to what was pushed. -/
def Conserves (account : Account) (direction : Direction) (key : UInt32 × String) : Prop :=
  total direction key account.cached.uidInserted +
      total direction key account.cached.stats.uid.infos =
    total direction key account.kernel + total direction key account.pushed

/-- The number of a shared network is in use. -/
def Shares (account : Account) (key : UInt32 × String) : Prop :=
  account.cached.supportNetworkShare = true ∧ key.1 = iptablesUid

/-- What calls keep. -/
structure Kept (account : Account) : Prop where
  conserves : ∀ direction key, key.2 ≠ ifaceLo → ¬ account.Shares key →
    account.Conserves direction key
  last : account.cached.lastUidStatsInfo.map counters = account.kernel.map counters
  distinct : (account.kernel.map NetStatsInfo.key).Nodup
  idle : account.cached.uidPushStatsInfo = []
  iptables : ∀ info ∈ account.cached.stats.iptables.infos, info.uid = iptablesUid
  tallied : Tallied account.cached.stats

variable {account : Account}

/-- Calls that leave the books alone, up to the records of a shared network. -/
theorem Kept.of_books (kept : account.Kept) {cached : NetStatsCached} {iptables : Records}
    (same : cached.books = { account.cached.books with iptables := iptables })
    (only : ∀ info ∈ iptables.infos, info.uid = iptablesUid) (tallied : Tallied cached.stats) :
    Kept { account with cached := cached } where
  conserves direction key notLoopback other := by
    have inserted : cached.uidInserted = account.cached.uidInserted := congrArg Books.inserted same
    have uid : cached.stats.uid = account.cached.stats.uid := congrArg Books.uid same
    have shares : cached.supportNetworkShare = account.cached.supportNetworkShare :=
      congrArg Books.shares same
    unfold Shares at other
    rw [shares] at other
    unfold Conserves
    rw [inserted, uid]
    exact kept.conserves direction key notLoopback other
  last := (congrArg (List.map counters) (congrArg Books.last same)).trans kept.last
  distinct := kept.distinct
  idle := (congrArg Books.push same).trans kept.idle
  iptables := by
    have isIptables : cached.stats.iptables = iptables := congrArg Books.iptables same
    dsimp only
    rw [isIptables]
    exact only
  tallied := tallied

theorem Kept.of_leaves (kept : account.Kept) {cached : NetStatsCached}
    (leaves : Leaves account.cached cached) : Kept { account with cached := cached } :=
  kept.of_books leaves.books kept.iptables (leaves.tallied kept.tallied)

variable {kernel : Kernel}

section

variable (kept : account.Kept) (grows : Grows account.kernel kernel.stats) (curSecond : UInt64)
include kept grows

theorem Kept.cacheUidStats :
    Kept { account with
      cached := account.cached.cacheUidStats kernel curSecond
      kernel := kernel.stats } := by
  have tallied := tallied_cacheUidStats kept.tallied kernel curSecond
  cases isEmpty : kernel.stats.isEmpty with
  | true =>
    have noStats : kernel.stats = [] := List.isEmpty_iff.mp isEmpty
    have noKernel : account.kernel = [] := by
      refine eq_nil_iff_forall_not_mem.mpr fun old isOld => ?_
      obtain ⟨info, member, -⟩ := grows.keeps old isOld
      rw [noStats] at member
      cases member
    have unchanged : account.cached.cacheUidStats kernel curSecond = account.cached := by
      unfold NetStatsCached.cacheUidStats
      rw [isEmpty, if_pos rfl]
    rw [unchanged, noStats, ← noKernel]
    exact kept
  | false =>
    have isBooks := books_cacheUidStats account.cached isEmpty curSecond
    have sameInfos : ((account.cached.assignIdents kernel.stats).map
        (stampUidStats curSecond)).map counters = kernel.stats.map counters :=
      (map_stampUidStats (fun _ _ _ => rfl) curSecond _).trans
        (map_assignIdents (fun _ _ => rfl) account.cached kernel.stats)
    generalize (account.cached.assignIdents kernel.stats).map (stampUidStats curSecond) = infos
      at isBooks sameInfos
    generalize account.cached.cacheUidStats kernel curSecond = after at isBooks tallied
    have distinct : (account.cached.lastUidStatsInfo.map NetStatsInfo.key).Nodup :=
      keys_congr kept.last ▸ kept.distinct
    have shares : after.supportNetworkShare = account.cached.supportNetworkShare :=
      congrArg Books.shares isBooks
    have inserted : after.uidInserted = account.cached.uidInserted :=
      congrArg Books.inserted isBooks
    have uid : after.stats.uid = (infos.foldl (pushIncreased account.cached.lastUidStatsInfo
        curSecond) account.cached.stats).uid := congrArg Books.uid isBooks
    have last : after.lastUidStatsInfo = infos := congrArg Books.last isBooks
    have iptables : after.stats.iptables = account.cached.stats.iptables :=
      congrArg Books.iptables isBooks
    refine ⟨fun direction key notLoopback other => ?_, last ▸ sameInfos, grows.distinct,
      (congrArg Books.push isBooks).trans kept.idle, iptables ▸ kept.iptables, tallied⟩
    unfold Shares at other
    rw [shares] at other
    have before := kept.conserves direction key notLoopback other
    have increase := total_increasedRecord distinct (grows.congr kept.last sameInfos) curSecond
      direction key
    have pushed := total_foldl_pushIncreased account.cached.lastUidStatsInfo curSecond direction
      notLoopback infos account.cached.stats
    rw [total_congr kept.last, total_congr sameInfos] at increase
    unfold Conserves at before ⊢
    dsimp only
    rw [inserted, uid]
    omega

theorem Kept.cacheStats :
    Kept { account with
      cached := account.cached.cacheStats kernel curSecond
      kernel := kernel.stats } := by
  have uid := kept.cacheUidStats grows curSecond
  have app := uid.of_leaves (leaves_cacheAppStats uid.idle curSecond)
  have uidSim := app.of_leaves (leaves_cacheUidSimStats _ kernel curSecond)
  have iface := uidSim.of_leaves (leaves_cacheIfaceStats _ kernel curSecond)
  unfold NetStatsCached.cacheStats
  dsimp only
  split
  · obtain ⟨isBooks, only⟩ := books_cacheIptablesStats iface.iptables curSecond
    exact iface.of_books isBooks only (tallied_cacheIptablesStats iface.tallied kernel curSecond)
  · exact iface

end

theorem share_uidRow (cached : NetStatsCached)
    (info : NetStatsInfo) :
    share direction key (cached.uidRow info) = share direction key info := by
  apply share_congr
  unfold uidRow
  dsimp only
  split <;> split <;> rfl

section

variable (kept : account.Kept)

include kept

theorem Kept.writeUidStats (curSecond : UInt64) :
    Kept { account with cached := account.cached.writeUidStats curSecond } := by
  unfold NetStatsCached.writeUidStats
  split
  · exact kept
  · refine ⟨fun direction key notLoopback other => ?_, kept.last, kept.distinct, kept.idle,
      kept.iptables, { kept.tallied with uid := rfl }⟩
    have before := kept.conserves direction key notLoopback other
    have rows : total direction key (account.cached.stats.uid.infos.map account.cached.uidRow) =
        total direction key account.cached.stats.uid.infos := by
      rw [total, map_map]
      exact congrArg List.sum
        (map_congr_left fun info _ => share_uidRow account.cached info)
    unfold Conserves at before ⊢
    dsimp only [reset]
    rw [total_append, rows]
    exact before

theorem Kept.writeIptablesStats (shares : account.cached.supportNetworkShare = true) :
    Kept { account with cached := account.cached.writeIptablesStats curSecond } := by
  unfold NetStatsCached.writeIptablesStats
  split
  · exact kept
  · refine ⟨fun direction key notLoopback other => ?_, kept.last, kept.distinct, kept.idle,
      nofun, { kept.tallied with iptables := rfl }⟩
    have before := kept.conserves direction key notLoopback other
    have nothing : total direction key account.cached.stats.iptables.infos = 0 := by
      apply total_eq_zero
      intro info member same
      exact other ⟨shares, (congrArg Prod.fst same).symm.trans (kept.iptables info member)⟩
    unfold Conserves at before ⊢
    rw [total_append, nothing]
    exact before

theorem Kept.with_settings (isForce : Bool) (writeDate : UInt64)
    (identMap : AList fun _ : String => String) :
    Kept { account with cached := { account.cached with
      isForce := isForce, writeDate := writeDate, ifaceNameIdentMap := identMap } } :=
  kept.of_leaves ⟨rfl, id⟩

theorem Kept.writeStats (curSecond : UInt64) :
    Kept { account with cached := account.cached.writeStats curSecond } := by
  have uid := kept.writeUidStats curSecond
  have uidSim := uid.of_leaves (leaves_writeUidSimStats _ curSecond)
  have iface := uidSim.of_leaves (leaves_writeIfaceStats _ curSecond)
  unfold NetStatsCached.writeStats
  dsimp only
  split
  next shares =>
    exact (iface.writeIptablesStats shares).with_settings _ curSecond _
  · exact iface

theorem Kept.setDpaAppStats (info : NetStatsInfo) :
    Kept { account with
      cached := account.cached.setDpaAppStats info ifName
      pushed := account.pushed ++ [dpaRecord info ifName] } := by
  refine ⟨fun direction key notLoopback other => ?_, kept.last, kept.distinct, kept.idle,
    kept.iptables, { kept.tallied with uid := tallied_push kept.tallied.uid _ }⟩
  have before := kept.conserves direction key notLoopback other
  have pushed := total_push direction key account.cached.stats.uid (dpaRecord info ifName)
  unfold Conserves at before ⊢
  rw [total_append, total_cons, total_nil]
  dsimp only [NetStatsCached.setDpaAppStats, CachedInfo.pushUidStats]
  omega

theorem Kept.step (growing : account.Growing call) : (account.step call).Kept := by
  cases call with
  | cacheStats kernel curSecond => exact kept.cacheStats growing curSecond
  | writeStats curSecond => exact kept.writeStats curSecond
  | setDpaAppStats info ifName => exact kept.setDpaAppStats info
  | forceUpdateStats kernel curSecond identMap =>
    have forced := kept.with_settings true account.cached.writeDate account.cached.ifaceNameIdentMap
    have written := (forced.cacheStats growing curSecond).writeStats curSecond
    exact written.with_settings false _ identMap

end

/-- A new cache. -/
def started (settings : NetStatsCached) : Account where
  cached :=
    { supportNetworkShare := settings.supportNetworkShare
      isDisplayTrafficAncoList := settings.isDisplayTrafficAncoList
      trafficThreshold := settings.trafficThreshold
      dateCycle := settings.dateCycle
      ifaceNameIdentMap := settings.ifaceNameIdentMap
      uidStatsFlagMap := settings.uidStatsFlagMap
      uidSimSampleBundleMap := settings.uidSimSampleBundleMap
      curDefaultSimId := settings.curDefaultSimId
      curDefaultUserId := settings.curDefaultUserId
      curPrivateUserId := settings.curPrivateUserId
      isPrivateSpaceExist := settings.isPrivateSpaceExist }

theorem kept_started : (started settings).Kept :=
  ⟨fun _ _ _ _ => rfl, rfl, nodup_nil, rfl, nofun, ⟨rfl, rfl, rfl, rfl⟩⟩

/-- Bytes are conserved and running totals are right in every run over counters that do
not disappear or decrease. -/
theorem conservesBytes_of_reach {settings : NetStatsCached} {account : Account}
    (reach : Run.Reach step Growing (started settings) account) :
    (∀ direction key, key.2 ≠ ifaceLo → ¬ account.Shares key → account.Conserves direction key) ∧
      Tallied account.cached.stats := by
  have kept : account.Kept :=
    reach.invariant kept_started fun _ _ kept growing => kept.step growing
  exact ⟨kept.conserves, kept.tallied⟩

/-- The counters of one application on one interface. -/
def wlanKernel (rxBytes : UInt64) : Kernel where
  stats := [{ uid := 20010044, iface := "wlan0", rxBytes := rxBytes, rxPackets := 1 }]

/-- The counters are read twice, a record is pushed in between and all is written. -/
def twoReadings : List Call :=
  [.cacheStats (wlanKernel 100) 1, .writeStats 2,
    .setDpaAppStats { uid := 20010044, iface := "3", rxBytes := 7 } (some "wlan0"),
    .forceUpdateStats (wlanKernel 250) 3 ∅]

theorem permitted_twoReadings : Run.PermittedAll step Growing (started {}) twoReadings := by
  have first : Grows [] (wlanKernel 100).stats := ⟨by decide, nofun⟩
  have second : Grows (wlanKernel 100).stats (wlanKernel 250).stats := by
    refine ⟨by decide, forall_mem_singleton.mpr ?_⟩
    refine ⟨_, mem_cons_self, rfl, fun direction => ?_⟩
    cases direction <;> decide
  exact ⟨first, trivial, trivial, second, trivial⟩

theorem conservesBytes_twoReadings :
    Run.PermittedAll step Growing (started {}) twoReadings ∧
      (twoReadings.foldl step (started {})).Conserves .rx (20010044, "wlan0") ∧
      total .rx (20010044, "wlan0") (twoReadings.foldl step (started {})).cached.uidInserted =
        257 := by
  have conserves := conservesBytes_of_reach
    (Run.Reach.start.foldl twoReadings permitted_twoReadings)
  refine ⟨permitted_twoReadings, conserves.1 .rx _ (by decide) ?_, by decide +kernel⟩
  rintro ⟨shares, -⟩
  revert shares
  decide +kernel

/-- The traffic of a shared network is written to the same table without a counter of
that application. -/
theorem not_conserves_shared : let kernel : Kernel := { sharing := some ⟨10, 0, "rmnet0"⟩ }
    let account := (started { supportNetworkShare := true }).step (.forceUpdateStats kernel 1 ∅)
    (started { supportNetworkShare := true }).Growing (.forceUpdateStats kernel 1 ∅) ∧
      total .rx (iptablesUid, "rmnet0") account.cached.uidInserted = 10 ∧
      total .rx (iptablesUid, "rmnet0") account.kernel = 0 ∧
      total .rx (iptablesUid, "rmnet0") account.pushed = 0 ∧
      ¬ account.Conserves .rx (iptablesUid, "rmnet0") := by
  intro kernel account
  have inserted : total .rx (iptablesUid, "rmnet0") account.cached.uidInserted = 10 := by
    decide +kernel
  have noKernel : total .rx (iptablesUid, "rmnet0") account.kernel = 0 := rfl
  have noPush : total .rx (iptablesUid, "rmnet0") account.pushed = 0 := rfl
  refine ⟨⟨nodup_nil, nofun⟩, inserted, noKernel, noPush, fun conserves => ?_⟩
  unfold Conserves at conserves
  omega

end Account

end NetManager.NetStats
