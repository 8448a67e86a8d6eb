import NetManager.Policy.Firewall
import Mathlib.Data.List.Nodup

/-!
# The list of the idle-deny mode

`SetUidsDeniedListChain` denies or releases the users of a list. Its loop removes
a user that is denied already, also when the call is to deny it, so that a call
that denies turns each of its users over as often as it names them.
-/

namespace NetManager.Policy

open List Std

namespace NetPolicyFirewall

/-- The arguments of `SetUidsDeniedListChain`. -/
structure DenyCall where
  uids : List Uid
  isAdd : Bool
  length_le : uids.length ≤ maxListSize

variable (state : NetPolicyFirewall) (calls : List DenyCall) (uid : Uid)

/-- `GetDeniedList` of the idle-deny rule. -/
def getDeniedList : List Uid := state.uidList .undozable

def deny (call : DenyCall) : NetPolicyFirewall :=
  state.setUidsDeniedListChain call.uids call.isAdd

/-- The last call that mentions the user is to deny it. -/
def lastDenied : Bool :=
  calls.foldl (fun denied call => if call.uids.contains uid then call.isAdd else denied) false

/-- The list has the users denied last, once each. -/
def ListsLastDenied : Prop :=
  (calls.foldl deny state).getDeniedList.Nodup ∧
    ∀ uid, uid ∈ (calls.foldl deny state).getDeniedList ↔ lastDenied calls uid = true

/-- A call that denies names users an odd number of times when they are not
denied before it, and an even number of times when they are. -/
def TurnsOver (call : DenyCall) : Prop :=
  call.isAdd = true → ∀ uid ∈ call.uids,
    (lastDenied calls uid = true ↔ call.uids.count uid % 2 = 0)

variable {state calls uid} {list uids : List Uid} {isAdd : Bool}

theorem nodup_denyUid (nodup : list.Nodup) : (denyUid isAdd list uid).Nodup := by
  rw [denyUid]
  split
  next new =>
    have absent : uid ∉ list := by simp_all
    simpa using nodup.concat absent
  next => exact nodup.filter _

theorem nodup_foldl_denyUid (nodup : list.Nodup) : (uids.foldl (denyUid isAdd) list).Nodup := by
  induction uids generalizing list with
  | nil => exact nodup
  | cons uid uids ih => exact ih (nodup_denyUid nodup)

theorem mem_denyUid_true : uid ∈ denyUid true list other ↔ (uid ∈ list ↔ uid ≠ other) := by
  by_cases same : uid = other <;> by_cases listed : other ∈ list <;> simp [denyUid, same, listed]

theorem mem_foldl_denyUid_true :
    uid ∈ uids.foldl (denyUid true) list ↔ (uid ∈ list ↔ uids.count uid % 2 = 0) := by
  induction uids generalizing list with
  | nil => simp
  | cons other uids ih =>
    rw [foldl_cons, ih, mem_denyUid_true, count_cons]
    by_cases same : uid = other
    · have turned : (uids.count uid + 1) % 2 = 0 ↔ ¬uids.count uid % 2 = 0 := by omega
      simpa [← same, turned, not_iff_comm] using iff_comm
    · simp [same, Ne.symm same]

theorem mem_foldl_denyUid_false :
    uid ∈ uids.foldl (denyUid false) list ↔ uid ∈ list ∧ uid ∉ uids := by
  induction uids generalizing list with
  | nil => simp
  | cons other uids ih => simp [ih, denyUid, and_assoc]

@[simp] theorem uidList_pushAllowedList :
    (state.pushAllowedList chain).uidList = state.uidList := by
  rw [pushAllowedList]
  split <;> rfl

@[simp] theorem uidList_pushDeniedList : (state.pushDeniedList chain).uidList = state.uidList := by
  rw [pushDeniedList]
  split <;> rfl

@[simp] theorem getDeniedList_deny :
    (state.deny call).getDeniedList = call.uids.foldl (denyUid call.isAdd) state.getDeniedList := by
  rw [deny, setUidsDeniedListChain, if_neg (Nat.not_lt.mpr call.length_le)]
  simp [getDeniedList, setDeniedList]

@[simp] theorem lastDenied_concat :
    lastDenied (calls ++ [call]) uid =
      if uid ∈ call.uids then call.isAdd else lastDenied calls uid := by
  simp [lastDenied]

@[simp] theorem getDeniedList_init :
    (init maxUid deviceIdleAllowed deviceIdleDenied
      powerSaveAllowed powerSaveDenied).getDeniedList = [] := by
  simp [init, getDeniedList]

theorem listsLastDenied_concat_iff (lists : state.ListsLastDenied calls) (call : DenyCall) :
    state.ListsLastDenied (calls ++ [call]) ↔ TurnsOver calls call := by
  obtain ⟨nodup, member⟩ := lists
  simp only [ListsLastDenied, foldl_append, foldl_cons, foldl_nil, getDeniedList_deny,
    lastDenied_concat, nodup_foldl_denyUid nodup, true_and, TurnsOver]
  cases call.isAdd with
  | false =>
    simp only [mem_foldl_denyUid_false, member]
    grind
  | true =>
    simp only [mem_foldl_denyUid_true, member, true_implies]
    refine ⟨fun follows uid named => ?_, fun turns uid => ?_⟩
    · simpa [named] using follows uid
    · by_cases named : uid ∈ call.uids
      · simp [named, turns uid named]
      · simp [named, count_eq_zero_of_not_mem]

variable (maxUid : Uid) (deviceIdleAllowed deviceIdleDenied : ExtTreeSet Uid)
  (powerSaveAllowed powerSaveDenied : ExtTreeSet Uid) (calls)

/-- The list follows the calls as far as each call that denies turns its users to
denied. -/
theorem listsLastDenied_iff :
    (∀ made, made <+: calls →
      (init maxUid deviceIdleAllowed deviceIdleDenied
        powerSaveAllowed powerSaveDenied).ListsLastDenied made) ↔
      ∀ made call, made ++ [call] <+: calls → TurnsOver made call := by
  refine Run.forall_prefix_iff ?_ (fun _ lists => listsLastDenied_concat_iff lists) calls
  simp [ListsLastDenied, lastDenied]

/-- A user that is denied twice is released. -/
theorem not_listsLastDenied_twice :
    ¬(init 20000 ∅ ∅ ∅ ∅).ListsLastDenied [⟨[7], true, by decide⟩, ⟨[7], true, by decide⟩] := by
  intro lists
  have denied := (lists.2 7).mpr (by decide)
  simp [denyUid] at denied

end NetPolicyFirewall

end NetManager.Policy
