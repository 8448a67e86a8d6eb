import Mathlib.Algebra.Group.Prod
import Mathlib.Data.UInt
import NetManager.Library.Merge
import NetManager.NetStats.Bytes

/-!
# Pushed statistics and their SIM

`CacheAppStats` merges what was pushed for an application on an interface before it looks
at the SIM, so that all of it counts for the SIM of the first push.
-/

namespace NetManager.NetStats

open List

/-- The application and the interface, and the SIM. -/
def NetStatsInfo.place (info : NetStatsInfo) : (UInt32 × String) × String := (info.key, info.ident)

/-- The bytes received and sent. -/
def NetStatsInfo.both (info : NetStatsInfo) : UInt64 × UInt64 := (info.rxBytes, info.txBytes)

variable (info item : NetStatsInfo)

theorem place_add : (item.add info).place = item.place := rfl

theorem both_add : (item.add info).both = item.both + info.both := rfl

/-- The bytes of a place, as the code adds them. -/
def held (place : (UInt32 × String) × String) (infos : List NetStatsInfo) : UInt64 × UInt64 :=
  Merge.sumOf (fun info => info.place == place) NetStatsInfo.both infos

theorem held_push (records : Records) (info : NetStatsInfo) :
    held place (records.push info).infos = held place records.infos + held place [info] := by
  unfold Records.push
  split_ifs with nothing
  · have noBytes : info.both = 0 := by
      simp only [NetStatsInfo.hasNoData, Bool.and_eq_true, beq_iff_eq] at nothing
      exact Prod.ext nothing.1.1.1 nothing.1.2
    simp [held, noBytes, Merge.sumOf]
  · exact Merge.sumOf_append

namespace NetStatsCached

theorem mergeInfo_eq : mergeInfo same info items =
    Merge.put (same info) (·.add info) info items := by
  induction items with
  | nil => rfl
  | cons item items ih => rw [mergeInfo, ih, Merge.put]

theorem held_foldl (push : α → NetStatsInfo → α) (read : α → List NetStatsInfo)
    (adds : ∀ state info, held place (read (push state info)) =
      held place (read state) + held place [info]) :
    held place (read (infos.foldl push state)) = held place (read state) + held place infos := by
  induction infos generalizing state with
  | nil => exact (add_zero _).symm
  | cons info infos ih =>
    rw [foldl_cons, ih, adds, add_assoc]
    exact congrArg _ Merge.sumOf_append.symm

theorem held_mergeInfo (infos : List NetStatsInfo) (info : NetStatsInfo) :
    held place (mergeInfo (fun item info => info.equals item && info.ident == item.ident) info
      infos) = held place infos + held place [info] := by
  let fits (info : NetStatsInfo) (place : (UInt32 × String) × String) : Bool :=
    info.key == place.1 && place.2 == info.ident
  have own : ((infos.map NetStatsInfo.place).find? (fits info)).getD info.place = info.place := by
    cases found : (infos.map NetStatsInfo.place).find? (fits info) with
    | none => rfl
    | some leader =>
      have isFit := find?_some found
      obtain ⟨sameKey, sameIdent⟩ := Bool.and_eq_true_iff.mp isFit
      exact Prod.ext (eq_of_beq sameKey).symm (eq_of_beq sameIdent)
  have added := (Merge.sumOf_put fits place_add both_add (· == place) info infos).1
  rw [own] at added
  rw [mergeInfo_eq]
  exact added.trans (congrArg _ (add_zero _).symm)

variable (cached : NetStatsCached) (calls : List PushStatsInfo) (curSecond : UInt64)
  (place : (UInt32 × String) × String)

/-- `SetAppStats` for each push. -/
def pushAll : NetStatsCached := calls.foldl setAppStats cached

/-- The pushes that `CacheAppStats` finds, each with the place of the first one for its
application and interface. -/
def credited : List (((UInt32 × String) × String) × NetStatsInfo) :=
  Merge.credits (fun info place => place.1 == info.key) NetStatsInfo.place []
    (cached.pushAll calls).uidPushStatsInfo

/-- The records of a place and the list of all pushes grow by the bytes that were pushed
there. -/
structure KeepsSim : Prop where
  uid : held place ((cached.pushAll calls).cacheAppStats curSecond).stats.uid.infos =
    held place cached.stats.uid.infos + held place (cached.pushAll calls).uidPushStatsInfo
  allPush : held place ((cached.pushAll calls).cacheAppStats curSecond).allPushStatsInfo =
    held place cached.allPushStatsInfo + held place (cached.pushAll calls).uidPushStatsInfo

/-- What is credited to a place is added to its records and to the list of all pushes. -/
theorem held_cacheAppStats :
    let added := Merge.sumOf (fun credit => credit.1 == place) (·.2.both) (Merge.credits
      (fun info place => place.1 == info.key) NetStatsInfo.place [] cached.uidPushStatsInfo)
    held place (cached.cacheAppStats curSecond).stats.uid.infos =
        held place cached.stats.uid.infos + added ∧
      held place (cached.cacheAppStats curSecond).allPushStatsInfo =
        held place cached.allPushStatsInfo + added := by
  intro added
  have merged : held place ((cached.uidPushStatsInfo.foldl
      (fun pushInfos info => mergeInfo NetStatsInfo.equals info pushInfos) []).map
        fun item => { item with date := curSecond }) = 0 + added := by
    refine (congrArg List.sum map_map).trans ?_
    simp only [mergeInfo_eq]
    exact Merge.sumOf_foldl_put (fun info place => place.1 == info.key) place_add both_add
      (· == place)
  rw [← zero_add added, ← merged]
  exact ⟨held_foldl CachedInfo.pushUidStats (·.uid.infos) (fun stats => held_push stats.uid),
    held_foldl _ id held_mergeInfo⟩

/-- A place keeps its bytes if and only if other places push as much that is credited to it
as it pushes itself that is credited to another one. -/
theorem keepsSim_iff :
    KeepsSim cached calls curSecond place ↔
      Merge.sumOf (fun credit => credit.1 == place && credit.2.place != place) (·.2.both)
          (cached.credited calls) =
        Merge.sumOf (fun credit => credit.2.place == place && credit.1 != place) (·.2.both)
          (cached.credited calls) := by
  have same : (cached.pushAll calls).stats = cached.stats ∧
      (cached.pushAll calls).allPushStatsInfo = cached.allPushStatsInfo :=
    foldlRecOn (motive := fun after : NetStatsCached => after.stats = cached.stats ∧
      after.allPushStatsInfo = cached.allPushStatsInfo) calls _ ⟨rfl, rfl⟩ fun _ same _ _ => same
  obtain ⟨uid, allPush⟩ := (cached.pushAll calls).held_cacheAppStats curSecond place
  rw [same.1] at uid
  rw [same.2] at allPush
  have own : held place (cached.pushAll calls).uidPushStatsInfo =
      Merge.sumOf (fun credit => credit.2.place == place) (·.2.both) (cached.credited calls) := by
    rw [← Merge.map_snd_credits (cached.pushAll calls).uidPushStatsInfo]
    exact congrArg List.sum map_map
  have split := Merge.sumOf_eq_iff (fun credit => credit.1 == place)
    (fun credit => credit.2.place == place) (fun credit => credit.2.both) (cached.credited calls)
  refine Iff.trans ⟨fun keeps => ?_, fun grown => ⟨?_, ?_⟩⟩ split
  · exact add_left_cancel (uid.symm.trans (keeps.uid.trans (congrArg _ own)))
  · rw [uid, own, ← grown]; rfl
  · rw [allPush, own, ← grown]; rfl

/-- A push of two bytes for the second SIM counts for the first one, which pushed before. -/
theorem not_keepsSim_second :
    let push (sim : String) (bytes : UInt64) : PushStatsInfo :=
      { uid := 10, iface := "rmnet0", endTime := 0, rxBytes := bytes, txBytes := 0,
        cellularIdent := some sim, userId := 100 }
    ¬ KeepsSim {} [push "1" 1, push "2" 2] 5 ((10, "rmnet0"), "2") := by
  intro push keeps
  exact absurd keeps.uid (by decide +kernel)

end NetStatsCached

end NetManager.NetStats
