import Mathlib.Data.List.Nodup
import NetManager.Policy.FileRoundTrip

/-!
# What the updates of the policy file do

The records of the file stand for pairs of a user and a policy and for quota
policies. Each update is described on what the records stand for.
-/

namespace NetManager.Policy

open List Std NetQuotaPolicy Function

namespace NetPolicy

/-! ## Policies of users -/

/-- The record of a pair. -/
def recordOf (entry : Uid × BitVec 32) : UidPolicy := uidPolicyOf entry.1 entry.2

/-- The records hold the users whose policy is not `NET_POLICY_NONE`, each once
and with its policy. -/
def Mirrors (records : List UidPolicy) (policyOf : Uid → BitVec 32) : Prop :=
  ∃ entries : List (Uid × BitVec 32), records = entries.map recordOf ∧
    (entries.map Prod.fst).Nodup ∧
      ∀ uid policy, (uid, policy) ∈ entries ↔ policy ≠ 0 ∧ policyOf uid = policy

theorem recordOf_uid_eq_iff : (recordOf entry).uid = uid.toNat.repr ↔ entry.1 = uid :=
  CommonUtils.repr_toNat_injective.eq_iff

theorem fst_ne_of_mem {entry other : Uid × BitVec 32} {entries : List (Uid × BitVec 32)}
    (fresh : entry.1 ∉ entries.map Prod.fst) (member : other ∈ entries) :
    other.1 ≠ entry.1 :=
  fun same => fresh (same ▸ mem_map_of_mem member)

theorem updateUid_map (entries : List (Uid × BitVec 32))
    (nodup : (entries.map Prod.fst).Nodup) :
    updateUid uid policy (entries.map recordOf) =
      (entries.map fun entry => if entry.1 = uid then (uid, policy) else entry).map recordOf := by
  induction entries with
  | nil => rfl
  | cons entry entries ih =>
    obtain ⟨fresh, rest⟩ := nodup_cons.mp nodup
    simp only [map_cons, updateUid, recordOf_uid_eq_iff]
    split
    next same =>
        subst same
        have unchanged : entries.map (fun other =>
            if other.1 = entry.1 then (entry.1, policy) else other) = entries.map id :=
          map_congr_left fun other member => if_neg (fst_ne_of_mem fresh member)
        rw [unchanged, map_id]
        rfl
    · rw [ih rest]

theorem eraseP_map_recordOf (entries : List (Uid × BitVec 32))
    (nodup : (entries.map Prod.fst).Nodup) :
    ((entries.map recordOf).eraseP fun record => record.uid = uid.toNat.repr) =
      (entries.filter fun entry => entry.1 ≠ uid).map recordOf := by
  induction entries with
  | nil => rfl
  | cons entry entries ih =>
    obtain ⟨fresh, rest⟩ := nodup_cons.mp nodup
    rw [map_cons]
    by_cases same : entry.1 = uid
    · subst same
      have unchanged : entries.filter (fun other => other.1 ≠ entry.1) = entries :=
        filter_eq_self.mpr fun other member => by
          simpa using fst_ne_of_mem fresh member
      rw [eraseP_cons_of_pos (by simp [recordOf_uid_eq_iff]),
        filter_cons_of_neg (by simp), unchanged]
    · rw [eraseP_cons_of_neg (by simp [recordOf_uid_eq_iff, same]), ih rest]
      simp [same]

section Mirrors

theorem Mirrors.nil : Mirrors [] fun _ => 0 := by
  refine ⟨[], rfl, nodup_nil, fun uid policy => ?_⟩
  constructor
  · intro member
    cases member
  · rintro ⟨notNone, none⟩
    exact absurd none.symm notNone

variable {netPolicy : NetPolicy} {policyOf : Uid → BitVec 32}

/-- A user is found exactly when its policy is not `NET_POLICY_NONE`. -/
theorem Mirrors.any_iff (mirrors : Mirrors netPolicy.uidPolicies policyOf) :
    (netPolicy.uidPolicies.any fun uidPolicy =>
      CommonUtils.strToUint uidPolicy.uid 0 = uid) = true ↔ policyOf uid ≠ 0 := by
  obtain ⟨entries, records, -, members⟩ := mirrors
  rw [records, any_map, any_eq_true]
  constructor
  · rintro ⟨⟨other, policy⟩, member, found⟩
    have same : other = uid := by simpa [recordOf, uidPolicyOf] using found
    subst same
    obtain ⟨notNone, current⟩ := (members other policy).mp member
    rwa [current]
  · intro notNone
    exact ⟨(uid, policyOf uid), (members uid _).mpr ⟨notNone, rfl⟩, by simp [recordOf, uidPolicyOf]⟩

theorem Mirrors.delete (mirrors : Mirrors netPolicy.uidPolicies policyOf) :
    Mirrors (netPolicy.applyUidPolicy uid policy .delete).uidPolicies
      (update policyOf uid 0) := by
  obtain ⟨entries, records, nodup, members⟩ := mirrors
  refine ⟨entries.filter fun entry => entry.1 ≠ uid, ?_, ?_, fun other policy => ?_⟩
  · rw [applyUidPolicy, records]
    exact eraseP_map_recordOf entries nodup
  · exact nodup.sublist (filter_sublist.map _)
  · by_cases same : other = uid
    · subst same
      rw [update_self]
      exact iff_of_false (by simp) fun both => both.1 both.2.symm
    · simp [members, same]

section

variable (mirrors : Mirrors netPolicy.uidPolicies policyOf)

include mirrors

theorem Mirrors.add (absent : policyOf uid = 0) (notNone : policy ≠ 0) :
    Mirrors (netPolicy.applyUidPolicy uid policy .add).uidPolicies
      (update policyOf uid policy) := by
  obtain ⟨entries, records, nodup, members⟩ := mirrors
  have fresh : uid ∉ entries.map Prod.fst := by
    intro member
    obtain ⟨⟨_, old⟩, found, rfl⟩ := mem_map.mp member
    obtain ⟨notZero, current⟩ := (members _ old).mp found
    exact notZero (current.symm.trans absent)
  refine ⟨entries ++ [(uid, policy)], ?_, ?_, fun other otherPolicy => ?_⟩
  · simp [applyUidPolicy, records, recordOf]
  · rw [map_append, nodup_append_comm]
    exact nodup_cons.mpr ⟨by simpa using fresh, by simpa using nodup⟩
  · by_cases same : other = uid
    · subst same
      have old : (other, otherPolicy) ∉ entries := fun member => fresh (mem_map_of_mem member)
      simp only [mem_append, mem_singleton, Prod.mk.injEq, old,
        false_or, true_and, update_self, eq_comm]
      constructor
      · rintro rfl
        exact ⟨notNone, rfl⟩
      · exact fun holds => holds.2
    · simp [members, same]

theorem Mirrors.update (present : policyOf uid ≠ 0) (notNone : policy ≠ 0) :
    Mirrors (netPolicy.applyUidPolicy uid policy .update).uidPolicies
      (update policyOf uid policy) := by
  obtain ⟨entries, records, nodup, members⟩ := mirrors
  refine ⟨entries.map fun entry => if entry.1 = uid then (uid, policy) else entry,
    ?_, ?_, fun other otherPolicy => ?_⟩
  · rw [applyUidPolicy, records]
    exact updateUid_map entries nodup
  · have sameUsers : (entries.map fun entry =>
        if entry.1 = uid then (uid, policy) else entry).map Prod.fst = entries.map Prod.fst := by
      rw [map_map]
      apply map_congr_left
      intro entry _
      by_cases same : entry.1 = uid <;> simp [same]
    rw [sameUsers]
    exact nodup
  · rw [mem_map]
    constructor
    · rintro ⟨⟨user, old⟩, member, written⟩
      split at written
      next same =>
          obtain ⟨rfl, rfl⟩ := Prod.mk.inj written
          exact ⟨notNone, update_self _ _ _⟩
      next different =>
          obtain ⟨rfl, rfl⟩ := Prod.mk.inj written
          rw [update_of_ne different]
          exact (members user old).mp member
    · rintro ⟨notZero, current⟩
      by_cases same : other = uid
      · subst same
        rw [update_self] at current
        exact ⟨(other, policyOf other), (members other _).mpr ⟨present, rfl⟩, by simp [current]⟩
      · rw [update_of_ne same] at current
        exact ⟨(other, otherPolicy), (members other _).mpr ⟨notZero, current⟩, if_neg same⟩

/-- Writing the policy of a user, unless the file takes its number for the old
policy. -/
theorem Mirrors.write (told : uid = policy → policyOf uid = 0 ∨ policyOf uid = policy) :
    Mirrors (netPolicy.applyUidPolicy uid policy
        (netPolicy.arbitrationWritePolicyToFile uid policy)).uidPolicies
      (Function.update policyOf uid policy) := by
  unfold arbitrationWritePolicyToFile
  simp only [mirrors.any_iff]
  split
  next present =>
      by_cases same : uid = policy
      · -- The file does nothing; the policy must be the stored one.
        have current := (told same).resolve_left present
        have unchanged : Function.update policyOf uid policy = policyOf := by
          rw [← current]
          exact Function.update_eq_self uid policyOf
        rw [if_neg fun holds => holds.1 same, if_neg fun holds => holds.1 same, unchanged]
        exact mirrors
      · by_cases none : policy = 0
        · rw [if_pos ⟨same, none⟩, none]
          exact mirrors.delete
        · rw [if_neg fun holds => none holds.2, if_pos ⟨same, none⟩]
          exact mirrors.update present none
  next absent =>
      rw [not_not] at absent
      split
      next none =>
          rw [none, ← absent, Function.update_eq_self]
          exact mirrors
      next notNone => exact mirrors.add absent notNone

end

end Mirrors

/-! ## Quota policies -/

theorem repr_toInt_injective : Function.Injective fun netType : Int32 =>
    netType.toInt.repr := by
  intro first second same
  have read := congrArg (CommonUtils.strToInt · 0) same
  simpa using read

theorem updateQuotaPolicyExist_eq_none
    (written : List NetQuotaPolicy) (fresh : quotaPolicy.network ∉ written.map network) :
    updateQuotaPolicyExist quotaPolicy (written.map toNetPolicyQuota) = none := by
  induction written with
  | nil => rfl
  | cons first written ih =>
    have different : ¬ (quotaPolicy.simId = first.simId ∧
        first.netType.toInt.repr = quotaPolicy.netType.toInt.repr) := by
      rintro ⟨simId, netType⟩
      have sameType := repr_toInt_injective netType
      exact fresh (by simp [network, simId, sameType])
    rw [map_cons, updateQuotaPolicyExist, toNetPolicyQuota, if_neg different,
      ih fun member => fresh (mem_cons_of_mem _ member)]
    rfl

theorem foldl_writeQuotaPolicy (written quotaPolicies : List NetQuotaPolicy)
    (nodup : ((written ++ quotaPolicies).map network).Nodup) :
    quotaPolicies.foldl writeQuotaPolicy (written.map toNetPolicyQuota) =
      (written ++ quotaPolicies).map toNetPolicyQuota := by
  induction quotaPolicies generalizing written with
  | nil => simp
  | cons quotaPolicy quotaPolicies ih =>
    have fresh : quotaPolicy.network ∉ written.map network := by
      rw [map_append, nodup_append] at nodup
      intro member
      exact nodup.2.2 _ member _ mem_cons_self rfl
    rw [foldl_cons, writeQuotaPolicy, updateQuotaPolicyExist_eq_none written fresh]
    have next := ih (written ++ [quotaPolicy]) (by simpa using nodup)
    simpa using next

/-- A record holds everything but the limit action and the warning reminder. -/
theorem toQuotaPolicy_toNetPolicyQuota :
    toQuotaPolicy (toNetPolicyQuota quotaPolicy) =
      { quotaPolicy with
        limitAction := limitActionNone
        lastWarningRemind := remindNever } := by
  simp [toQuotaPolicy, toNetPolicyQuota, limitActionNone, remindNever]

end NetPolicy

end NetManager.Policy
