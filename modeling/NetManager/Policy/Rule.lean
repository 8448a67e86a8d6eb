import NetManager.Library.Run
import NetManager.Policy.FirewallManager

/-!
# Rules of users

`NetPolicyRule` keeps a policy for each user and caches the rule that follows
from it. A condition word collects the policy, the two modes, the two allowed
lists, the background policy and the foreground set; the first entry of a fixed
table whose conditions the word contains gives the rule. The cache is refreshed
by some events and not by others.
-/

namespace NetManager.Policy

open List Std

structure UidPolicyRule where
  policy : BitVec 32
  rule : BitVec 32 := 1#32 <<< 7
  netsys : BitVec 32 := 7
  deriving DecidableEq

structure NetPolicyRule where
  uidPolicyRules : ExtTreeMap Uid UidPolicyRule
  backgroundAllow : Bool
  deviceIdleMode : Bool
  powerSaveMode : Bool
  deviceIdleAllowedList : ExtTreeSet Uid
  powerSaveAllowedList : ExtTreeSet Uid
  foregroundUidList : ExtTreeSet Uid

namespace NetPolicyRule

/-- What the component asks of the others, in the order of the calls. -/
inductive Effect
  | notifyNetUidPolicyChange (uid : Uid) (policy : BitVec 32)
  | notifyNetUidRuleChange (uid : Uid) (rule : BitVec 32)
  | notifyNetBackgroundPolicyChange (allow : Bool)
  | writePolicyByUid (uid : Uid) (policy : BitVec 32)
  | removeInexistentUid (uid : Uid)
  | writeBackgroundPolicy (allow : Bool)
  | bandwidthAddAllowedList (uid : Uid)
  | bandwidthRemoveAllowedList (uid : Uid)
  | bandwidthAddDeniedList (uid : Uid)
  | bandwidthRemoveDeniedList (uid : Uid)
  | powerSaveUpdataAllowedList (uid : Uid) (rule : FirewallRule)
  | bandwidthEnableDataSaver (enable : Bool)
  deriving DecidableEq

/-- What a call leaves behind. -/
structure Reply where
  state : NetPolicyRule
  effects : List Effect := []
  code : Nat := 0

/-! ## The table -/

/-- The conditions of `PolicyTransCondition`. -/
inductive PolicyTransCondition
  | uidPolicyNone
  | allowMeteredBackground
  | rejectMeteredBackground
  | foreground
  | backgroundRestrict
  | idleAllowedlist
  | idleMode
  | powersaveAllowedlist
  | powersaveMode
  | adminRestrict

/-- The place of the bit of a condition. -/
def PolicyTransCondition.place : PolicyTransCondition → Nat
  | uidPolicyNone => 0
  | allowMeteredBackground => 1
  | rejectMeteredBackground => 2
  | foreground => 3
  | backgroundRestrict => 4
  | idleAllowedlist => 5
  | idleMode => 6
  | powersaveAllowedlist => 7
  | powersaveMode => 8
  | adminRestrict => 9

def policyTransMap : List (BitVec 32) :=
  [0b00011000000100000000, 0b10000000000000100010, 0b00010000001000000000,
    0b00000010100000010100, 0b00000011000000001100, 0b00000010010000001100,
    0b01000000001000000000, 0b00000100100000010100, 0b00000100010000100010,
    0b00000000010000000001, 0b00000001000000100010, 0b00000000000000000001]

variable (entry : BitVec 32)

/-- `MoveToConditionBit(entry & POLICY_TRANS_CONDITION_MASK)`. -/
def conditionField : BitVec 32 := (entry &&& 0b11111111110000000000) >>> 10

/-- `MoveToRuleBit(entry & POLICY_TRANS_RULE_MASK)`. -/
def ruleField : BitVec 32 := (entry &&& 0b00000000001111111000) >>> 3

/-- `entry & POLICY_TRANS_NET_CTRL_MASK`. -/
def netCtrlField : BitVec 32 := entry &&& 0b111

/-- The word contains the conditions of an entry. -/
def Contains (policyCondition entry : BitVec 32) : Prop :=
  policyCondition &&& conditionField entry = conditionField entry
deriving Decidable

def getMatchTransCondition (policyCondition : BitVec 32) : BitVec 32 :=
  (policyTransMap.find? fun entry => Contains policyCondition entry).getD
    (policyTransMap.getLastD 0)

/-! ## The condition word -/

def isValidNetPolicy (policy : BitVec 32) : Bool :=
  policy = 0 || policy = 1#32 <<< 0 || policy = 1#32 <<< 1

def changePolicyToPolicyTransitionCondition (policy : BitVec 32) : BitVec 32 :=
  if policy = 0 then 1#32 <<< PolicyTransCondition.uidPolicyNone.place
  else policy <<< 1

variable (condition : PolicyTransCondition)

/-- The bit of a condition when it holds. -/
def flag (holds : Bool) : BitVec 32 := if holds then 1#32 <<< condition.place else 0

variable (state : NetPolicyRule) (uid : Uid)

section

variable (policyRule : UidPolicyRule) (policy : BitVec 32)

/-- `BuildTransCondition`; `IsLimitByAdmin` is constantly false. -/
def buildTransCondition : BitVec 32 :=
  changePolicyToPolicyTransitionCondition policy |||
    flag .idleMode state.deviceIdleMode |||
    flag .idleAllowedlist (state.deviceIdleAllowedList.contains uid) |||
    flag .adminRestrict false |||
    flag .powersaveMode state.powerSaveMode |||
    flag .powersaveAllowedlist (state.powerSaveAllowedList.contains uid) |||
    flag .backgroundRestrict (!state.backgroundAllow) |||
    flag .foreground (state.foregroundUidList.contains uid)

/-- The entry that a user of some policy gets now. -/
def currentEntry : BitVec 32 :=
  getMatchTransCondition (state.buildTransCondition uid policy)

/-! ## Updating rules -/

/-- `NetsysCtrl` with `ProcessCtrlNone` and `ProcessCtrlAddAllowedList`. -/
def netsysCtrl (state : NetPolicyRule) (uid : Uid) (netsysCtrl : BitVec 32) : List Effect :=
  if netsysCtrl = 0b000 then
    if state.powerSaveMode then [.powerSaveUpdataAllowedList uid .deny] else []
  else if netsysCtrl = 0b001 then [.bandwidthRemoveAllowedList uid, .bandwidthRemoveDeniedList uid]
  else if netsysCtrl = 0b010 then [.bandwidthAddDeniedList uid, .bandwidthRemoveAllowedList uid]
  else if netsysCtrl = 0b100 then
    [.bandwidthRemoveDeniedList uid, .bandwidthAddAllowedList uid] ++
      if state.powerSaveMode then [.powerSaveUpdataAllowedList uid .allow] else []
  else []

/-- The entry of the map after `TransConditionToRuleAndNetsys`. -/
def transCondition : UidPolicyRule :=
  let entry := state.currentEntry uid policyRule.policy
  { policyRule with rule := ruleField entry, netsys := netCtrlField entry }

/-- The calls of `TransConditionToRuleAndNetsys`. -/
def transConditionEffects : List Effect :=
  let entry := state.currentEntry uid policyRule.policy
  (if policyRule.netsys ≠ netCtrlField entry then
      state.netsysCtrl uid (netCtrlField entry) else []) ++
    [.writePolicyByUid uid policyRule.policy] ++
    (if policyRule.rule ≠ ruleField entry then
      [.notifyNetUidRuleChange uid (ruleField entry)] else [])

/-- `TransPolicyToRule()`: all users. -/
def transPolicyToRuleAll : Reply where
  state := { state with uidPolicyRules := state.uidPolicyRules.map state.transCondition }
  effects := state.uidPolicyRules.toList.flatMap fun entry =>
    state.transConditionEffects entry.1 entry.2

/-- `TransPolicyToRule(uid)`. -/
def transPolicyToRuleOf : Reply :=
  match state.uidPolicyRules[uid]? with
  | none => { state := state }
  | some policyRule =>
    { state :=
        { state with
          uidPolicyRules := state.uidPolicyRules.insert uid (state.transCondition uid policyRule) }
      effects := state.transConditionEffects uid policyRule }

/-- The entry of the map that `TransPolicyToRule(uid, policy)` translates. -/
def withPolicy : UidPolicyRule :=
  match state.uidPolicyRules[uid]? with
  | none => { policy := policy }
  | some policyRule => { policyRule with policy := policy }

/-- `TransPolicyToRule(uid, policy)`. -/
def transPolicyToRule : Reply :=
  if isValidNetPolicy policy then
    let policyRule := state.withPolicy uid policy
    let changed := (state.uidPolicyRules[uid]?.map UidPolicyRule.policy) ≠ some policy
    { state :=
        { state with
          uidPolicyRules := state.uidPolicyRules.insert uid (state.transCondition uid policyRule) }
      effects :=
        (if changed then [.notifyNetUidPolicyChange uid policy] else []) ++
          state.transConditionEffects uid policyRule }
  else { state := state, code := 2104003 }

end

def setBackgroundPolicy (allow : Bool) : Reply :=
  if state.backgroundAllow ≠ allow then
    let reply := { state with backgroundAllow := allow }.transPolicyToRuleAll
    { reply with
      effects := .notifyNetBackgroundPolicyChange allow :: reply.effects ++
        [.writeBackgroundPolicy allow, .bandwidthEnableDataSaver (!allow)] }
  else { state := state, code := 401 }

def deleteUid : Reply where
  state := { state with uidPolicyRules := state.uidPolicyRules.erase uid }
  effects := [.removeInexistentUid uid, .bandwidthRemoveDeniedList uid,
    .bandwidthRemoveAllowedList uid]

def updateForegroundUidList (isForeground : Bool) : NetPolicyRule :=
  { state with
    foregroundUidList := if isForeground then state.foregroundUidList.insert uid
      else state.foregroundUidList.erase uid }

/-- The calls and the events of `HandleEvent`. -/
inductive Call
  | transPolicyToRule (uid : Uid) (policy : BitVec 32)
  | setBackgroundPolicy (allow : Bool)
  | deviceIdleListUpdated (deviceIdleList : ExtTreeSet Uid)
  | deviceIdleModeChanged (deviceIdleMode : Bool)
  | powerSaveModeChanged (powerSaveMode : Bool)
  | powerSaveListUpdated (powerSaveList : ExtTreeSet Uid)
  | uidRemoved (deletedUid : Uid)
  | uidStateForeground (uid : Uid)
  | uidStateBackground (uid : Uid)

/-- Handle a call or an event. -/
def handle : Call → Reply
  | .transPolicyToRule uid policy => state.transPolicyToRule uid policy
  | .setBackgroundPolicy allow => state.setBackgroundPolicy allow
  | .deviceIdleListUpdated deviceIdleList =>
    { state := { state with deviceIdleAllowedList := deviceIdleList } }
  | .deviceIdleModeChanged deviceIdleMode =>
    { state with deviceIdleMode := deviceIdleMode }.transPolicyToRuleAll
  | .powerSaveModeChanged powerSaveMode =>
    { state with powerSaveMode := powerSaveMode }.transPolicyToRuleAll
  | .powerSaveListUpdated powerSaveList =>
    { state := { state with powerSaveAllowedList := powerSaveList } }
  | .uidRemoved deletedUid => state.deleteUid deletedUid
  | .uidStateForeground uid => (state.updateForegroundUidList uid true).transPolicyToRuleOf uid
  | .uidStateBackground uid => (state.updateForegroundUidList uid false).transPolicyToRuleOf uid

/-- The state after a call. -/
def step (call : Call) : NetPolicyRule := (state.handle call).state

/-- `Init`, with the policies and the background policy of the file. -/
def init (uidsPolicies : List (Uid × BitVec 32)) (backgroundAllow : Bool) : NetPolicyRule :=
  let fresh : NetPolicyRule := ⟨∅, backgroundAllow, false, false, ∅, ∅, ∅⟩
  uidsPolicies.foldl (fun state entry => (state.transPolicyToRule entry.1 entry.2).state) fresh

def getPolicyByUid : BitVec 32 := (state.uidPolicyRules[uid]?.map UidPolicyRule.policy).getD 0

/-- The answer of `IsUidNetAllowed` for a rule. -/
def isNetAllowed (rule : BitVec 32) (backgroundAllow metered : Bool) : Bool :=
  if rule = 1#32 <<< 6 then false
  else if !metered then true
  else if rule = 1#32 <<< 2 then false
  else if rule = 1#32 <<< 1 then true
  else if rule = 1#32 <<< 0 then true
  else backgroundAllow

def isUidNetAllowed (metered : Bool) : Bool :=
  let rule := (state.uidPolicyRules[uid]?.map UidPolicyRule.rule).getD 0
  isNetAllowed rule state.backgroundAllow metered

/-! ## The first match -/

/-- The first entry of the table whose conditions the word contains. -/
def IsFirstMatch (policyCondition entry : BitVec 32) : Prop :=
  ∃ before after, policyTransMap = before ++ entry :: after ∧
    Contains policyCondition entry ∧ ∀ earlier ∈ before, ¬ Contains policyCondition earlier

theorem isFirstMatch_iff :
    IsFirstMatch policyCondition entry ↔
      (policyTransMap.find? fun entry => Contains policyCondition entry) = some entry := by
  simp only [find?_eq_some_iff_append, IsFirstMatch, decide_eq_true_eq]
  constructor
  · rintro ⟨before, after, split, contains, earlier⟩
    exact ⟨contains, before, after, split, by simpa using earlier⟩
  · rintro ⟨contains, before, after, split, earlier⟩
    exact ⟨before, after, split, contains, by simpa using earlier⟩

theorem getMatchTransCondition_isFirstMatch :
    IsFirstMatch policyCondition (getMatchTransCondition policyCondition) := by
  have found : (policyTransMap.find? fun entry =>
      Contains policyCondition entry).isSome := by
    rw [find?_isSome]
    exact ⟨0b00000000000000000001, by decide, decide_eq_true (by simp [Contains, conditionField])⟩
  obtain ⟨entry, isFound⟩ := Option.isSome_iff_exists.mp found
  rw [getMatchTransCondition, isFound, isFirstMatch_iff]
  exact isFound

/-- Words that contain the conditions of the same entries have the same first
match. -/
theorem getMatchTransCondition_congr
    (same : ∀ entry ∈ policyTransMap, Contains first entry ↔ Contains second entry) :
    getMatchTransCondition first = getMatchTransCondition second := by
  have searches : policyTransMap.find? (fun entry => Contains first entry) =
      policyTransMap.find? fun entry => Contains second entry := by
    rw [← head?_filter, ← head?_filter]
    congr 1
    apply filter_congr
    intro entry member
    exact decide_eq_decide.mpr (same entry member)
  rw [getMatchTransCondition, searches, getMatchTransCondition]

theorem contains_iff :
    Contains policyCondition entry ↔ ∀ place, (conditionField entry).getLsbD place = true →
        policyCondition.getLsbD place = true := by
  constructor
  · intro contains place set
    have both := congrArg (BitVec.getLsbD · place) contains
    simpa [set] using both
  · intro contains
    apply BitVec.eq_of_getLsbD_eq
    intro place _
    have set := contains place
    cases inEntry : (conditionField entry).getLsbD place
    · simp [inEntry]
    · simp [inEntry, set inEntry]

/-- The idle list counts for an entry only together with the idle mode. -/
theorem idleMode_of_idleAllowedlist :
    ∀ entry ∈ policyTransMap, (conditionField entry).getLsbD 5 = true →
      (conditionField entry).getLsbD 6 = true := by
  simp [policyTransMap, conditionField]

theorem not_powersaveAllowedlist :
    ∀ entry ∈ policyTransMap, (conditionField entry).getLsbD 7 = false := by
  simp [policyTransMap, conditionField]

theorem getLsbD_flag :
    (flag condition holds).getLsbD place = (holds && place == condition.place) := by
  have small : condition.place < 32 := by cases condition <;> decide
  cases holds with
  | false => simp [flag]
  | true =>
    rw [flag, Bool.eq_iff_iff]
    simp
    omega

section Word

variable {before after : NetPolicyRule} {uid : Uid}

theorem changePolicy_getLsbD_idleMode (valid : isValidNetPolicy policy = true) :
    (changePolicyToPolicyTransitionCondition policy).getLsbD 6 = false := by
  simp only [isValidNetPolicy, Bool.or_eq_true, decide_eq_true_eq] at valid
  rcases valid with (rfl | rfl) | rfl <;> rfl

theorem buildTransCondition_getLsbD_idleMode (state : NetPolicyRule)
    (valid : isValidNetPolicy policy = true) :
    (state.buildTransCondition uid policy).getLsbD 6 = state.deviceIdleMode := by
  simp only [buildTransCondition, BitVec.getLsbD_or, getLsbD_flag,
    changePolicy_getLsbD_idleMode valid, PolicyTransCondition.place]
  simp

/-- Two states with the same inputs of the translation, away from the allowed lists. -/
structure SameInputs (uid : Uid) (before after : NetPolicyRule) : Prop where
  deviceIdleMode : after.deviceIdleMode = before.deviceIdleMode
  powerSaveMode : after.powerSaveMode = before.powerSaveMode
  backgroundAllow : after.backgroundAllow = before.backgroundAllow
  foreground : after.foregroundUidList.contains uid = before.foregroundUidList.contains uid

variable (same : SameInputs uid before after)
include same

theorem buildTransCondition_getLsbD_congr
    (deviceIdleList : place = 5 → after.deviceIdleAllowedList.contains uid =
      before.deviceIdleAllowedList.contains uid) (notPowerSave : place ≠ 7) :
    (after.buildTransCondition uid policy).getLsbD place =
      (before.buildTransCondition uid policy).getLsbD place := by
  have idleBit : (after.deviceIdleAllowedList.contains uid && place == 5) =
      (before.deviceIdleAllowedList.contains uid && place == 5) := by
    by_cases isIdle : place = 5
    · rw [deviceIdleList isIdle]
    · rw [beq_false_of_ne isIdle, Bool.and_false, Bool.and_false]
  simp [buildTransCondition, getLsbD_flag, PolicyTransCondition.place, same.deviceIdleMode,
    same.powerSaveMode, same.backgroundAllow, same.foreground, idleBit, beq_false_of_ne notPowerSave]

/-- The entry depends on the modes, on the background policy and on whether the
user is in the foreground; on the idle list only while idle mode is on. -/
theorem currentEntry_congr (valid : isValidNetPolicy policy = true)
    (deviceIdleList : before.deviceIdleMode = true →
      after.deviceIdleAllowedList.contains uid = before.deviceIdleAllowedList.contains uid) :
    after.currentEntry uid policy = before.currentEntry uid policy := by
  apply getMatchTransCondition_congr
  intro entry member
  rw [contains_iff, contains_iff]
  by_cases asksBoth : before.deviceIdleMode = false ∧ (conditionField entry).getLsbD 5 = true
  · -- The entry asks for idle mode, which is off in both words.
    have off (state : NetPolicyRule) : state.deviceIdleMode = false →
        ¬ ∀ place, (conditionField entry).getLsbD place = true →
          (state.buildTransCondition uid policy).getLsbD place = true := by
      intro isOff contains
      have on := contains 6 (idleMode_of_idleAllowedlist entry member asksBoth.2)
      rw [buildTransCondition_getLsbD_idleMode _ valid, isOff] at on
      cases on
    exact iff_of_false (off after (same.deviceIdleMode.trans asksBoth.1)) (off before asksBoth.1)
  · apply forall_congr'
    intro place
    apply imp_congr_right
    intro asked
    have notPowerSave : place ≠ 7 := by
      rintro rfl
      rw [not_powersaveAllowedlist entry member] at asked
      cases asked
    rw [buildTransCondition_getLsbD_congr same _ notPowerSave]
    rintro rfl
    exact deviceIdleList (by simpa [asked] using asksBoth)

end Word

/-! ## Rules that are up to date -/

/-- The rules and the answers are those of the current state. -/
def UpToDate : Prop :=
  ∀ uid policyRule, state.uidPolicyRules[uid]? = some policyRule →
    ∃ entry, IsFirstMatch (state.buildTransCondition uid policyRule.policy) entry ∧
      policyRule.rule = ruleField entry ∧
        ∀ metered, state.isUidNetAllowed uid metered =
          isNetAllowed (ruleField entry) state.backgroundAllow metered

/-- What a call asks for so that the rules stay up to date: while idle mode is
on, a new idle list has the same users of the map. -/
def Permitted : Call → Prop
  | .deviceIdleListUpdated deviceIdleList =>
    state.deviceIdleMode = true → ∀ uid ∈ state.uidPolicyRules,
      deviceIdleList.contains uid = state.deviceIdleAllowedList.contains uid
  | _ => True

/-- An entry of the map is valid and translated from the current state. -/
structure Current (state : NetPolicyRule) (uid : Uid) (policyRule : UidPolicyRule) : Prop where
  valid : isValidNetPolicy policyRule.policy = true
  rule : policyRule.rule = ruleField (state.currentEntry uid policyRule.policy)

/-- All entries of the map are current. -/
def Invariant : Prop :=
  ∀ uid policyRule, state.uidPolicyRules[uid]? = some policyRule → state.Current uid policyRule

section Invariant

variable {state : NetPolicyRule} {uid : Uid} {policyRule : UidPolicyRule}

theorem Invariant.upToDate (invariant : state.Invariant) : state.UpToDate := by
  intro uid policyRule found
  have current := invariant uid policyRule found
  refine ⟨state.currentEntry uid policyRule.policy,
    getMatchTransCondition_isFirstMatch, current.rule, fun metered => ?_⟩
  simp [isUidNetAllowed, found, current.rule]

theorem current_transCondition (valid : isValidNetPolicy policyRule.policy = true) :
    state.Current uid (state.transCondition uid policyRule) :=
  ⟨valid, rfl⟩

theorem Current.of_map {uidPolicyRules : ExtTreeMap Uid UidPolicyRule}
    (current : state.Current uid policyRule) :
    { state with uidPolicyRules := uidPolicyRules }.Current uid policyRule :=
  ⟨current.valid, current.rule⟩

/-- The inputs of the translation. The idle list counts while idle mode is on,
the power-save list not at all. -/
theorem Current.congr {after : NetPolicyRule} (current : state.Current uid policyRule)
    (same : SameInputs uid state after)
    (deviceIdleList : state.deviceIdleMode = true →
      after.deviceIdleAllowedList.contains uid = state.deviceIdleAllowedList.contains uid) :
    after.Current uid policyRule := by
  refine ⟨current.valid, ?_⟩
  rw [current.rule, currentEntry_congr same current.valid deviceIdleList]

theorem invariant_transPolicyToRuleAll (valid : ∀ (uid : Uid) (policyRule : UidPolicyRule),
      state.uidPolicyRules[uid]? = some policyRule → isValidNetPolicy policyRule.policy = true) :
    state.transPolicyToRuleAll.state.Invariant := by
  intro uid policyRule found
  simp only [transPolicyToRuleAll, ExtTreeMap.getElem?_map, Option.map_eq_some_iff] at found
  obtain ⟨old, wasFound, rfl⟩ := found
  exact (current_transCondition (valid uid old wasFound)).of_map

section

variable (others : ∀ other policyRule, other ≠ uid →
  state.uidPolicyRules[other]? = some policyRule → state.Current other policyRule)

include others

theorem invariant_insert (valid : isValidNetPolicy policyRule.policy = true) :
    { state with
      uidPolicyRules := state.uidPolicyRules.insert uid
        (state.transCondition uid policyRule) }.Invariant := by
  intro other otherRule found
  rw [ExtTreeMap.getElem?_insert] at found
  split at found
  next same =>
      obtain rfl := compare_eq_iff_eq.mp same
      obtain rfl := Option.some.inj found
      exact (current_transCondition valid).of_map
  next different =>
      refine (others other otherRule ?_ found).of_map
      rintro rfl
      simp at different

theorem invariant_transPolicyToRuleOf
    (valid : ∀ policyRule, state.uidPolicyRules[uid]? = some policyRule →
      isValidNetPolicy policyRule.policy = true) :
    (state.transPolicyToRuleOf uid).state.Invariant := by
  unfold transPolicyToRuleOf
  split
  next absent =>
      intro other policyRule found
      refine others other policyRule ?_ found
      rintro rfl
      rw [absent] at found
      cases found
  next policyRule found => exact invariant_insert others (valid _ found)

end

theorem Invariant.transPolicyToRule (invariant : state.Invariant) :
    (state.transPolicyToRule uid policy).state.Invariant := by
  unfold NetPolicyRule.transPolicyToRule
  split
  next valid =>
      refine invariant_insert (fun other policyRule _ found => invariant other policyRule found) ?_
      unfold withPolicy
      split <;> exact valid
  · exact invariant

theorem Invariant.updateForeground (invariant : state.Invariant) :
    ((state.updateForegroundUidList uid isForeground).transPolicyToRuleOf uid).state.Invariant := by
  apply invariant_transPolicyToRuleOf
  · intro other policyRule different found
    refine (invariant other policyRule found).congr ⟨rfl, rfl, rfl, ?_⟩ fun _ => rfl
    cases isForeground <;>
      simp [updateForegroundUidList, ExtTreeSet.contains_insert,
        ExtTreeSet.contains_erase, Ne.symm different]
  · exact fun policyRule found => (invariant uid policyRule found).valid

theorem Invariant.step (invariant : state.Invariant)
    (permitted : state.Permitted call) :
    (state.step call).Invariant := by
  have valid : ∀ (uid : Uid) (policyRule : UidPolicyRule),
      state.uidPolicyRules[uid]? = some policyRule → isValidNetPolicy policyRule.policy = true :=
    fun uid policyRule found => (invariant uid policyRule found).valid
  cases call with
  | transPolicyToRule uid policy => exact invariant.transPolicyToRule
  | setBackgroundPolicy allow =>
    simp only [NetPolicyRule.step, handle, NetPolicyRule.setBackgroundPolicy]
    split
    · exact invariant_transPolicyToRuleAll valid
    · exact invariant
  | deviceIdleListUpdated deviceIdleList =>
    intro uid policyRule found
    refine (invariant uid policyRule found).congr ⟨rfl, rfl, rfl, rfl⟩ fun on => ?_
    refine permitted on uid (ExtTreeMap.mem_iff_isSome_getElem?.mpr ?_)
    exact Option.isSome_of_eq_some found
  | deviceIdleModeChanged deviceIdleMode => exact invariant_transPolicyToRuleAll valid
  | powerSaveModeChanged powerSaveMode => exact invariant_transPolicyToRuleAll valid
  | powerSaveListUpdated powerSaveList =>
    intro uid policyRule found
    exact (invariant uid policyRule found).congr ⟨rfl, rfl, rfl, rfl⟩ fun _ => rfl
  | uidRemoved deletedUid =>
    intro uid policyRule found
    simp only [NetPolicyRule.step, handle, deleteUid, ExtTreeMap.getElem?_erase] at found
    split at found
    · cases found
    · exact (invariant uid policyRule found).of_map
  | uidStateForeground uid => exact invariant.updateForeground
  | uidStateBackground uid => exact invariant.updateForeground

theorem invariant_init (backgroundAllow : Bool) :
    (init uidsPolicies backgroundAllow).Invariant := by
  apply List.foldlRecOn (motive := Invariant)
  · intro uid policyRule found
    simp at found
  · intro state invariant entry _
    exact invariant.transPolicyToRule

end Invariant

/-- After permitted calls every rule is that of the first matching entry. -/
theorem upToDate_of_reach {uidsPolicies : List (Uid × BitVec 32)} {backgroundAllow : Bool}
    {state : NetPolicyRule}
    (reach : Run.Reach step Permitted (init uidsPolicies backgroundAllow) state) :
    state.UpToDate := by
  have invariant := reach.invariant (invariant_init backgroundAllow)
    fun _ call before permitted => before.step permitted
  exact invariant.upToDate

/-- A policy is set, idle mode turned on and off, a user brought to the
foreground. -/
theorem upToDate_idleRun :
    ([.transPolicyToRule 20001 2, .deviceIdleListUpdated {20001},
        .deviceIdleModeChanged true, .uidStateForeground 20001,
        .powerSaveListUpdated {20000},
        .deviceIdleModeChanged false].foldl step
      (init [(20000, 1)] true)).UpToDate :=
  upToDate_of_reach (Run.Reach.start.foldl _
    ⟨trivial, fun on => absurd on (by decide), trivial, trivial, trivial, trivial, trivial⟩)

/-- A user that joins the idle list while idle mode is on stays rejected. -/
theorem not_upToDate_idleListUpdated :
    ¬ ([.transPolicyToRule 20000 0, .deviceIdleModeChanged true,
        .deviceIdleListUpdated {20000}].foldl step
      (init [] true)).UpToDate := by
  intro upToDate
  obtain ⟨entry, first, rule, -⟩ := upToDate 20000 ⟨0, 1#32 <<< 6, 0⟩ (by decide)
  rw [isFirstMatch_iff] at first
  have isFirst : entry = 0b00011000000100000000 := Option.some.inj (first.symm.trans (by decide))
  rw [isFirst] at rule
  revert rule
  decide

end NetPolicyRule

end NetManager.Policy
