import NetManager.Policy.Service

/-!
# Policies over a restart

The invariant of a run of permitted calls, and what it gives: the text of the
last write holds the policies of the components.
-/

namespace NetManager.Policy

open List Std NetQuotaPolicy NetPolicy

namespace PolicyService

variable {Byte : Type} {cjson : CJson Byte} {quotaPolicies : List NetQuotaPolicy}

/-! ## Trust lists -/

/-- A list names the users of a set, each once. -/
structure Lists (list : List Uid) (users : ExtTreeSet Uid) : Prop where
  nodup : list.Nodup
  mem_iff : ∀ uid, uid ∈ users ↔ uid ∈ list

theorem Lists.insert (lists : Lists list users) :
    Lists (NetPolicyFirewall.allowUid true list uid) (users.insert uid) := by
  by_cases member : uid ∈ list
  · have unchanged : NetPolicyFirewall.allowUid true list uid = list := by
      simp [NetPolicyFirewall.allowUid, member]
    rw [unchanged]
    refine ⟨lists.nodup, fun other => ?_⟩
    rw [ExtTreeSet.mem_insert, LawfulEqCmp.compare_eq_iff_eq, lists.mem_iff]
    exact or_iff_right_of_imp fun same => same ▸ member
  · have appended : NetPolicyFirewall.allowUid true list uid = list ++ [uid] := by
      simp [NetPolicyFirewall.allowUid, member]
    rw [appended]
    refine ⟨?_, fun other => ?_⟩
    · rw [nodup_append_comm]
      exact nodup_cons.mpr ⟨member, lists.nodup⟩
    · rw [ExtTreeSet.mem_insert, LawfulEqCmp.compare_eq_iff_eq, lists.mem_iff,
        mem_append, mem_singleton, or_comm, eq_comm]

theorem Lists.erase (lists : Lists list users) :
    Lists (NetPolicyFirewall.allowUid false list uid) (users.erase uid) := by
  refine ⟨lists.nodup.erase uid, fun other => ?_⟩
  have inErased : other ∈ NetPolicyFirewall.allowUid false list uid ↔ other ≠ uid ∧ other ∈ list :=
    lists.nodup.mem_erase_iff
  rw [inErased, ExtTreeSet.mem_erase, ← lists.mem_iff, ne_eq,
    LawfulEqCmp.compare_eq_iff_eq, eq_comm]

theorem Lists.update (lists : Lists list users) :
    Lists (uids.foldl (NetPolicyFirewall.allowUid isAllowed) list)
      (NetPolicyFirewall.updateFirewallPolicyList uids isAllowed users) := by
  unfold NetPolicyFirewall.updateFirewallPolicyList
  induction uids generalizing list users with
  | nil => exact lists
  | cons uid uids ih =>
    apply ih
    cases isAllowed with
    | true => exact lists.insert
    | false => exact lists.erase

/-! ## Runs -/

/-- Every stored quota policy is one that the file can hold. -/
structure Plain (quotaPolicies : List NetQuotaPolicy) : Prop where
  networks : (quotaPolicies.map network).Nodup
  fields : ∀ quotaPolicy ∈ quotaPolicies,
    quotaPolicy.limitAction = limitActionNone ∧ quotaPolicy.lastWarningRemind = remindNever

/-- What holds in every state of a permitted run. -/
structure Invariant (cjson : CJson Byte) (service : PolicyService Byte) : Prop where
  holds : service.file.Holds cjson service.rule.getPolicyByUid
    service.rule.backgroundAllow service.quotaPolicies
    ⟨service.firewall.deviceIdleDeniedList, service.firewall.deviceIdleAllowedList⟩
    ⟨service.firewall.powerSaveDeniedList, service.firewall.powerSaveAllowedList⟩
  plain : Plain service.quotaPolicies
  deviceIdle : Lists (service.firewall.uidList .dozable) service.firewall.deviceIdleAllowedList
  powerSave : Lists (service.firewall.uidList .powersaving) service.firewall.powerSaveAllowedList

theorem map_toQuotaPolicy (plain : Plain quotaPolicies) :
    (quotaPolicies.map toNetPolicyQuota).map toQuotaPolicy = quotaPolicies := by
  rw [map_map]
  have each : ∀ quotaPolicy ∈ quotaPolicies,
      (toQuotaPolicy ∘ toNetPolicyQuota) quotaPolicy = id quotaPolicy := by
    intro quotaPolicy member
    obtain ⟨noAction, neverWarned⟩ := plain.fields quotaPolicy member
    rw [Function.comp_apply, toQuotaPolicy_toNetPolicyQuota, ← noAction, ← neverWarned]
    rfl
  rw [map_congr_left each, map_id]

theorem entryOf_recordOf : entryOf (recordOf entry) = entry := by
  simp [entryOf, recordOf, uidPolicyOf]

variable {service : PolicyService Byte}

theorem Invariant.restorable (roundTrips : cjson.RoundTrips) (invariant : service.Invariant cjson) :
    service.Restorable cjson := by
  obtain ⟨written, text, asWritten⟩ := invariant.holds.text
  obtain ⟨read, reads, asRead⟩ := NetPolicyFile.exists_readBack roundTrips written
  have same := asRead.trans asWritten
  refine ⟨read, by rw [text]; exact reads, ?_, ?_, ?_, ?_, ?_,
    invariant.deviceIdle.mem_iff, invariant.powerSave.mem_iff⟩
  · obtain ⟨entries, records, -, members⟩ := invariant.holds.uidPolicies
    have entriesRead : (entries.map recordOf).map entryOf = entries := by
      rw [map_map]
      exact (map_congr_left fun entry _ => entryOf_recordOf).trans (map_id entries)
    rw [same.uidPolicies, records, entriesRead]
    exact members
  · rw [readBackgroundPolicy, same.backgroundPolicyStatus, invariant.holds.background]
    cases service.rule.backgroundAllow <;> rfl
  · rw [readQuotaPolicies, same.netQuotaPolicies, invariant.holds.quota]
    exact map_toQuotaPolicy invariant.plain
  · rw [same.firewallRules, invariant.holds.deviceIdle]
  · rw [same.firewallRules, invariant.holds.powerSave]

section

variable (invariant : service.Invariant cjson)

include invariant

theorem Invariant.storeQuotaPolicies (plain : Plain stored) :
    (service.storeQuotaPolicies cjson stored).Invariant cjson :=
  { invariant with
    holds := invariant.holds.writeQuotaPolicies plain.networks
    plain := plain }

theorem Invariant.updateQuotaPolicies {quotaPolicies : List NetQuotaPolicy}
    (permitted : service.Permitted (.updateQuotaPolicies quotaPolicies)) :
    (service.updateQuotaPolicies cjson quotaPolicies).Invariant cjson := by
  obtain ⟨networks, fields⟩ := permitted
  unfold PolicyService.updateQuotaPolicies
  split
  · exact invariant
  · refine invariant.storeQuotaPolicies ⟨?_, ?_⟩
    · have sameNetworks : network ∘ formalize = network :=
        funext formalize_network
      rw [formalizeQuotaPolicies, map_map, sameNetworks]
      exact networks
    · refine forall_mem_map.mpr fun quotaPolicy valid => ?_
      obtain ⟨given, isValid⟩ := mem_filter.mp valid
      obtain ⟨noAction, known, limited, neverWarned⟩ := fields quotaPolicy given isValid
      exact ⟨formalize_limitAction noAction known limited,
        by rw [formalize_lastWarningRemind, neverWarned]⟩

theorem Invariant.updateRemindPolicy {netType : Int32} {simId : String}
    (permitted : service.Permitted (.updateRemindPolicy netType simId remindType now)) :
    (service.updateRemindPolicy cjson netType simId remindType now).Invariant
      cjson := by
  unfold PolicyService.updateRemindPolicy
  split
  case isFalse => exact invariant
  case isTrue =>
    split
    · exact invariant
    next kind isKind =>
      refine invariant.storeQuotaPolicies ⟨?_, ?_⟩
      · have sameNetworks : network ∘ remind netType simId kind now = network :=
          funext (remind_network netType simId kind now)
        rw [map_map, sameNetworks]
        exact invariant.plain.networks
      · refine forall_mem_map.mpr fun quotaPolicy old => ?_
        have notWarned : kind = .warning → quotaPolicy.network ≠ (simId, netType) := fun warning =>
          permitted (isKind.trans (congrArg some warning)) quotaPolicy old
        rw [remind_limitAction, remind_lastWarningRemind notWarned]
        exact invariant.plain.fields quotaPolicy old

theorem Invariant.setDeviceIdleTrustlist :
    (service.setDeviceIdleTrustlist cjson uids isAllowed).Invariant cjson := by
  unfold PolicyService.setDeviceIdleTrustlist
  split
  · exact invariant
  next fits =>
    rw [NetPolicyFirewall.setDeviceIdleTrustlist, if_neg fits]
    exact
      { invariant with
        holds := invariant.holds.writeDeviceIdleRules _ _
        deviceIdle := invariant.deviceIdle.update }

theorem Invariant.setPowerSaveTrustlist :
    (service.setPowerSaveTrustlist cjson uids isAllowed).Invariant cjson := by
  unfold PolicyService.setPowerSaveTrustlist
  split
  · exact invariant
  next fits =>
    rw [NetPolicyFirewall.setPowerSaveTrustlist, if_neg fits]
    exact
      { invariant with
        holds := invariant.holds.writePowerSaveRules _ _
        powerSave := invariant.powerSave.update }

/-- A user that the sets do not hold is in neither list, so there is nothing to remove. -/
theorem Invariant.removeFromAllowedLists
    (missing : uid ∉ service.firewall.deviceIdleAllowedList ∧
      uid ∉ service.firewall.powerSaveAllowedList) :
    Invariant cjson { service with
      firewall := (service.firewall.removeFromAllowedList .dozable uid).removeFromAllowedList
        .powersaving uid } := by
  rw [invariant.deviceIdle.mem_iff, invariant.powerSave.mem_iff] at missing
  have unchanged : service.firewall.removeFromAllowedList .dozable uid = service.firewall := by
    rw [NetPolicyFirewall.removeFromAllowedList, erase_of_not_mem missing.1,
      Function.update_eq_self]
  rw [unchanged, NetPolicyFirewall.removeFromAllowedList, erase_of_not_mem missing.2,
    Function.update_eq_self]
  exact invariant

theorem Invariant.deleteUid (permitted : service.Permitted (.rule (.uidRemoved uid))) :
    (service.deleteUid cjson uid).Invariant cjson := by
  have both : ((service.setDeviceIdleTrustlist cjson [uid] false).setPowerSaveTrustlist cjson
      [uid] false).Invariant cjson := invariant.setDeviceIdleTrustlist.setPowerSaveTrustlist
  refine both.removeFromAllowedLists ?_
  -- The two calls take the user out of the sets, unless they are refused.
  cases full : service.firewall.overMaxSize with
  | true =>
    simpa [PolicyService.setDeviceIdleTrustlist, PolicyService.setPowerSaveTrustlist, full]
      using permitted full
  | false =>
    rw [NetPolicyFirewall.overMaxSize, decide_eq_false_iff_not] at full
    simp [PolicyService.setDeviceIdleTrustlist, PolicyService.setPowerSaveTrustlist,
      NetPolicyFirewall.setDeviceIdleTrustlist, NetPolicyFirewall.setPowerSaveTrustlist,
      NetPolicyFirewall.overMaxSize, NetPolicyFirewall.setAllowedList,
      NetPolicyFirewall.updateFirewallPolicyList, full]

theorem Invariant.updatePowerSavePolicy :
    Invariant cjson { service with
      firewall := service.firewall.updatePowerSavePolicy enable } := by
  unfold NetPolicyFirewall.updatePowerSavePolicy NetPolicyFirewall.pushAllowedList
  split_ifs <;>
    exact ⟨invariant.holds, invariant.plain, invariant.deviceIdle, invariant.powerSave⟩

theorem Invariant.ruleStep (permitted : service.Permitted (.rule call)) :
    (service.step cjson (.rule call)).Invariant cjson := by
  have handled : (service.firewallEvent cjson call).Invariant cjson := by
    cases call with
    | uidRemoved uid => exact invariant.deleteUid permitted
    | powerSaveModeChanged powerSaveMode => exact invariant.updatePowerSavePolicy
    | _ => exact invariant
  refine { handled with holds := keeps_handle handled.holds ?_ }
  rintro uid policy rfl
  exact permitted

theorem Invariant.step (permitted : service.Permitted call) :
    (service.step cjson call).Invariant cjson := by
  cases call with
  | rule call => exact invariant.ruleStep permitted
  | updateQuotaPolicies quotaPolicies => exact invariant.updateQuotaPolicies permitted
  | updateRemindPolicy netType simId remindType now => exact invariant.updateRemindPolicy permitted
  | setDeviceIdleTrustlist uids isAllowed => exact invariant.setDeviceIdleTrustlist
  | setPowerSaveTrustlist uids isAllowed => exact invariant.setPowerSaveTrustlist

end

theorem invariant_start : (start cjson maxUid).Invariant cjson := by
  have constructed : (NetPolicyFile.write cjson NetPolicyFile.reset).Holds cjson
      (fun _ => 0) true [] ⟨∅, ∅⟩ ⟨∅, ∅⟩ :=
    .of_write NetPolicy.Mirrors.nil rfl rfl rfl rfl
  have plain : Plain [] := ⟨nodup_nil, by simp⟩
  have nobody : Lists [] ∅ := ⟨nodup_nil, by simp⟩
  exact
    { holds :=
        (constructed.writeQuotaPolicies plain.networks).touchFirewallRules.touchFirewallRules
      plain := plain
      deviceIdle := nobody
      powerSave := nobody }

/-- In every state that permitted calls reach from the first start, the policies
survive a restart. -/
theorem restorable_of_reach (roundTrips : cjson.RoundTrips) {maxUid : Uid}
    (reach : Run.Reach (step cjson) Permitted (start cjson maxUid) service) :
    service.Restorable cjson := by
  have invariant : service.Invariant cjson :=
    reach.invariant invariant_start fun _ call holds permitted =>
      holds.step permitted
  exact invariant.restorable roundTrips

theorem restorable_savedPolicies :
    (([.rule (.transPolicyToRule 20000 1), .rule (.setBackgroundPolicy false),
        .updateQuotaPolicies [{ netType := 1, simId := "1", limitBytes := 1000 }],
        .setDeviceIdleTrustlist [20001] true] : List Call).foldl
      (step CJson.symbols) (start CJson.symbols 30000)).Restorable CJson.symbols := by
  refine restorable_of_reach CJson.symbols_roundTrips
    (Run.Reach.start.foldl _ ⟨?_, trivial, ⟨?_, ?_⟩, trivial, trivial⟩)
  · intro same
    exact absurd same (by decide)
  · exact (nodup_singleton _).sublist (filter_sublist.map _)
  · exact forall_mem_singleton.mpr fun _ => by decide

/-- User 2 is given policy 1 and then policy 2. -/
def uidAsPolicy : PolicyService (Option Json) :=
  ([.rule (.transPolicyToRule 2 1), .rule (.transPolicyToRule 2 2)] : List Call).foldl
    (step CJson.symbols) (start CJson.symbols 30000)

/-- The file takes the number of the user for its old policy and keeps 1. -/
theorem not_restorable_uidAsPolicy : ¬ uidAsPolicy.Restorable CJson.symbols := by
  rintro ⟨read, reads, uids, -⟩
  have current : (2, 2) ∈ read.uidPolicies.map entryOf := (uids 2 2).mpr ⟨by decide, by decide⟩
  have stale : (NetPolicyFile.readBack CJson.symbols uidAsPolicy.file.json).map
      (fun read => read.uidPolicies.map entryOf) = some [(2, 1)] := by
    decide
  rw [reads] at stale
  have entries : read.uidPolicies.map entryOf = [(2, 1)] := Option.some.inj stale
  rw [entries] at current
  exact absurd current (by decide)

end PolicyService

end NetManager.Policy
