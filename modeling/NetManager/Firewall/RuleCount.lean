import NetManager.Firewall.RuleManager

/-!
# Cached numbers of rules

The cached number of rows of a user, where there is one, and the cached number of all
rows, where it is positive, are meant to be those of the table. A deletion that names
another user's rule and an update that moves a rule to another user break this; no other
call does.
-/

namespace NetManager.Firewall

open Std KeyedTable RuleTable

namespace RuleTable

/-! ## Numbers of rows -/

variable {table : RuleTable} {rule : NetFirewallRule} {ruleId : Int}

theorem count_addFirewallRuleRecord
    (added : table.addFirewallRuleRecord rowId rule = some (after, ruleId)) :
    after.queryFirewallRuleAllCount = table.queryFirewallRuleAllCount + 1 ∧
      ∀ userId, after.queryFirewallRuleByUserIdCount userId =
        table.queryFirewallRuleByUserIdCount userId + if rule.userId = userId then 1 else 0 := by
  unfold addFirewallRuleRecord at added
  cases rowId with
  | none => cases added
  | some rowId =>
    dsimp only at added
    split at added
    case isFalse => cases added
    case isTrue =>
      obtain ⟨_, inserted, same⟩ := Option.map_eq_some_iff.mp added
      cases same
      refine ⟨count_insert inserted, fun userId => ?_⟩
      unfold queryFirewallRuleByUserIdCount
      rw [count_insert inserted, FirewallRow.ofRule, FirewallRow.userId_fillValues]
      simp only [decide_eq_true_eq]

theorem count_deleteFirewallRuleRecord (userId : Int) (found : table.find ruleId = some row)
    (condition : FirewallRow → Bool) :
    (table.deleteFirewallRuleRecord userId ruleId).count condition +
      (if condition row && decide (row.userId = userId) then 1 else 0) = table.count condition := by
  have removed := count_and_key found
    fun row => condition row && decide (row.userId = userId)
  have parts := count_delete table condition
    fun row => decide (row.userId = userId) && decide (row.ruleId = ruleId)
  simp only [← Bool.and_assoc] at parts
  rw [removed] at parts
  exact parts

theorem count_deleteFirewallRuleRecordByUserId (table : RuleTable) (userId : Int) :
    (table.deleteFirewallRuleRecordByUserId userId).queryFirewallRuleAllCount +
      table.queryFirewallRuleByUserIdCount userId = table.queryFirewallRuleAllCount := by
  have parts := count_delete table (fun _ => true)
    fun row => decide (row.userId = userId)
  exact parts

theorem count_deleteFirewallRuleRecordByUserId_of_ne (different : userId ≠ other) :
    (table.deleteFirewallRuleRecordByUserId userId).queryFirewallRuleByUserIdCount other =
      table.queryFirewallRuleByUserIdCount other := by
  have parts := count_delete table (fun row => decide (row.userId = other))
    fun row => decide (row.userId = userId)
  have none : table.count (fun row =>
      decide (row.userId = other) && decide (row.userId = userId)) = 0 := by
    refine List.countP_eq_zero.mpr fun row _ both => ?_
    simp only [Bool.and_eq_true, decide_eq_true_eq] at both
    exact different (both.2.symm.trans both.1)
  rw [none] at parts
  exact parts

theorem count_updateFirewallRuleRecord
    (sameUser : ∀ row, table.find rule.ruleId = some row → row.userId = rule.userId) :
    (table.updateFirewallRuleRecord rule).queryFirewallRuleAllCount =
        table.queryFirewallRuleAllCount ∧
      ∀ userId, (table.updateFirewallRuleRecord rule).queryFirewallRuleByUserIdCount userId =
        table.queryFirewallRuleByUserIdCount userId := by
  refine ⟨count_update _ fun _ _ => rfl, fun userId => ?_⟩
  refine count_update _ fun row found => ?_
  rw [FirewallRow.userId_fillValues, sameUser row found]

end RuleTable

namespace NetFirewallRuleManager

/-! ## Coherence -/

/-- The cached numbers are those of the table. -/
structure Coherent (manager : NetFirewallRuleManager) : Prop where
  user : ∀ userId (size : Int), manager.userRuleSize[userId]? = some size →
    size = manager.table.queryFirewallRuleByUserIdCount userId
  all : 0 < manager.allUserRule → manager.allUserRule = manager.table.queryFirewallRuleAllCount

variable {manager : NetFirewallRuleManager}

theorem getElem?_updateUserRuleSize :
    (manager.updateUserRuleSize userId isInc).userRuleSize[other]? =
      if userId = other then
        manager.userRuleSize[other]?.map fun old => if isInc then old + 1 else old - 1
      else manager.userRuleSize[other]? := by
  unfold updateUserRuleSize
  by_cases here : userId = other
  · subst here
    cases cached : manager.userRuleSize[userId]? <;> simp [cached]
  · cases manager.userRuleSize[userId]? <;> simp [ExtTreeMap.getElem?_insert, here]

@[simp] theorem table_updateUserRuleSize :
    (manager.updateUserRuleSize userId isInc).table = manager.table := by
  unfold updateUserRuleSize
  split <;> rfl

@[simp] theorem allUserRule_updateUserRuleSize :
    (manager.updateUserRuleSize userId isInc).allUserRule = manager.allUserRule := by
  unfold updateUserRuleSize
  split <;> rfl

theorem Coherent.getAllRuleConstraint (coherent : manager.Coherent) :
    (manager.getAllRuleConstraint userId).Coherent ∧
      (manager.getAllRuleConstraint userId).allUserRule =
        manager.table.queryFirewallRuleAllCount := by
  have exact : (manager.getAllRuleConstraint userId).allUserRule =
      manager.table.queryFirewallRuleAllCount := by
    unfold NetFirewallRuleManager.getAllRuleConstraint
    split
    · rfl
    next positive => exact coherent.all (by omega)
  refine ⟨⟨fun other size cached => ?_, fun _ => exact⟩, exact⟩
  unfold NetFirewallRuleManager.getAllRuleConstraint at cached
  dsimp only at cached
  split at cached
  · exact coherent.user other size cached
  · rw [ExtTreeMap.getElem?_insert] at cached
    simp only [LawfulEqCmp.compare_eq_iff_eq] at cached
    split at cached
    next here =>
      subst here
      exact (Option.some.inj cached).symm
    · exact coherent.user other size cached

theorem table_checkRuleConstraint (userExists : Bool) (rule : NetFirewallRule) :
    (manager.checkRuleConstraint userExists rule).1.table = manager.table := by
  unfold checkRuleConstraint
  split <;> rfl

section

variable (coherent : manager.Coherent)

include coherent

/-- A check keeps the numbers, and where it lets the rule pass the number of all rows has
been fetched. -/
theorem Coherent.checkRuleConstraint :
    (manager.checkRuleConstraint userExists rule).1.Coherent ∧
      ((manager.checkRuleConstraint userExists rule).2 = none →
        (manager.checkRuleConstraint userExists rule).1.allUserRule =
          manager.table.queryFirewallRuleAllCount) := by
  obtain ⟨fetched, exact⟩ := coherent.getAllRuleConstraint
  unfold NetFirewallRuleManager.checkRuleConstraint
  split
  · exact ⟨coherent, fun passed => by cases passed⟩
  · exact ⟨fetched, fun _ => exact⟩

theorem Coherent.addRule : (manager.addRule userExists rowId rule).1.Coherent := by
  obtain ⟨checked, exactWhenPassed⟩ := coherent.checkRuleConstraint
  have sameTable := manager.table_checkRuleConstraint userExists rule
  unfold NetFirewallRuleManager.addRule
  generalize manager.checkRuleConstraint userExists rule = result at *
  obtain ⟨after, _ | error⟩ := result
  case some => exact checked
  case none =>
    dsimp only at checked exactWhenPassed sameTable ⊢
    cases added : after.table.addFirewallRuleRecord rowId rule with
    | none => exact checked
    | some result =>
      obtain ⟨allRows, userRows⟩ := count_addFirewallRuleRecord added
      constructor
      · intro userId size cached
        rw [getElem?_updateUserRuleSize] at cached
        rw [table_updateUserRuleSize, userRows]
        split at cached
        next here =>
          obtain ⟨old, oldCached, rfl⟩ := Option.map_eq_some_iff.mp cached
          have old_eq := checked.user userId old oldCached
          rw [if_pos here, old_eq]
          rfl
        next elsewhere =>
          rw [if_neg elsewhere]
          exact checked.user userId size cached
      · intro _
        rw [table_updateUserRuleSize, allUserRule_updateUserRuleSize, allRows]
        rw [exactWhenPassed rfl, sameTable]
        rfl

theorem Coherent.updateNetFirewallRule
    (sameUser : ∀ row, manager.table.find rule.ruleId = some row → row.userId = rule.userId) :
    (manager.updateNetFirewallRule userExists updated (some rule)).1.Coherent := by
  obtain ⟨checked, _⟩ := coherent.checkRuleConstraint
  have sameTable := manager.table_checkRuleConstraint userExists rule
  unfold NetFirewallRuleManager.updateNetFirewallRule
  dsimp only
  generalize manager.checkRuleConstraint userExists rule = result at *
  obtain ⟨after, _ | error⟩ := result
  case some => exact checked
  case none =>
    dsimp only at checked sameTable ⊢
    split
    · exact checked
    · split
      case isFalse => exact checked
      case isTrue =>
        rw [← sameTable] at sameUser
        obtain ⟨allRows, userRows⟩ := count_updateFirewallRuleRecord sameUser
        constructor
        · intro userId size cached
          rw [userRows]
          exact checked.user userId size cached
        · intro positive
          rw [allRows]
          exact checked.all positive

/-- A deletion that finds the rule of its own user keeps the numbers. For another
user's rule it counts one row too few, which shows where the user's number or a number of
all rows above 1 is cached. -/
theorem Coherent.deleteNetFirewallRule
    (owned : (∀ row, manager.table.find ruleId = some row → row.userId = userId) ∨
      manager.userRuleSize[userId]? = none ∧ manager.allUserRule ≤ 1) :
    (manager.deleteNetFirewallRule userExists deleted userId ruleId).1.Coherent := by
  unfold NetFirewallRuleManager.deleteNetFirewallRule
  split
  · exact coherent
  · cases present : manager.table.isFirewallRuleExist ruleId with
    | none => exact coherent
    | some oldRule =>
      obtain ⟨positive, found⟩ : 0 < ruleId ∧ manager.table.find ruleId = some oldRule := by
        unfold isFirewallRuleExist at present
        split at present
        next positive => exact ⟨positive, present⟩
        · cases present
      obtain ⟨_, sameId⟩ := find_eq_some_iff.mp found
      have rows := count_deleteFirewallRuleRecord userId found
      have mine (counted : manager.userRuleSize[userId]? ≠ none ∨ 1 < manager.allUserRule) :
          oldRule.userId = userId := by
        rcases owned with owner | ⟨absent, small⟩
        · exact owner oldRule found
        · exact absurd small (Int.not_le.mpr (counted.resolve_left (not_not.mpr absent)))
      dsimp only
      split
      · exact coherent
      · rw [if_pos (by omega)]
        constructor
        · intro other size cached
          have otherRows := rows fun row => decide (row.userId = other)
          rw [getElem?_updateUserRuleSize] at cached
          rw [table_updateUserRuleSize]
          split at cached
          next here =>
            subst here
            obtain ⟨old, oldCached, rfl⟩ := Option.map_eq_some_iff.mp cached
            have before := coherent.user userId old oldCached
            simp only [mine (.inl (by simp [oldCached])), decide_true, Bool.and_self, if_true] at otherRows
            unfold queryFirewallRuleByUserIdCount at before ⊢
            simp only [Bool.false_eq_true, if_false]
            omega
          next elsewhere =>
            have before := coherent.user other size cached
            have notBoth : ¬((decide (oldRule.userId = other) &&
                decide (oldRule.userId = userId)) = true) := by
              simp only [Bool.and_eq_true, decide_eq_true_eq]
              rintro ⟨isOther, isUser⟩
              exact elsewhere (isUser.symm.trans isOther)
            rw [if_neg notBoth] at otherRows
            unfold queryFirewallRuleByUserIdCount at before ⊢
            rw [before, ← otherRows]
            rfl
        · intro above
          rw [allUserRule_updateUserRuleSize] at above ⊢
          rw [table_updateUserRuleSize]
          dsimp only at above ⊢
          have allRows := rows fun _ => true
          have before := coherent.all (by omega)
          simp only [mine (.inr (by omega)), decide_true, Bool.and_self, if_true] at allRows
          unfold queryFirewallRuleAllCount at before ⊢
          omega

theorem Coherent.deleteNetFirewallRuleByUserId :
    (manager.deleteNetFirewallRuleByUserId deleted userId).1.Coherent := by
  unfold NetFirewallRuleManager.deleteNetFirewallRuleByUserId
  split
  · exact coherent
  · unfold deleteUserRuleSize
    constructor
    · intro other size cached
      rw [ExtTreeMap.getElem?_erase] at cached
      simp only [LawfulEqCmp.compare_eq_iff_eq] at cached
      split at cached
      · cases cached
      next different =>
        rw [count_deleteFirewallRuleRecordByUserId_of_ne different]
        exact coherent.user other size cached
    · intro above
      have rows := count_deleteFirewallRuleRecordByUserId manager.table userId
      cases cached : manager.userRuleSize[userId]? with
      | none =>
        rw [cached] at above
        exact absurd above (Int.lt_irrefl 0)
      | some size =>
        rw [cached] at above
        dsimp only at above ⊢
        have before := coherent.user userId size cached
        have allBefore := coherent.all (by omega)
        omega

theorem Coherent.deleteNetFirewallRuleByAppId :
    (manager.deleteNetFirewallRuleByAppId deleted currentAccountId appUid).1.Coherent := by
  unfold NetFirewallRuleManager.deleteNetFirewallRuleByAppId
  split
  · exact coherent
  · split
    · exact coherent
    · constructor
      · intro userId size cached
        cases cached
      · intro positive
        exact absurd positive (Int.lt_irrefl 0)

end

/-! ## Runs -/

/-- The calls, each with what the account service and the database answer. -/
inductive RuleCall
  | add (userExists : Bool) (rowId : Option Int) (rule : Option NetFirewallRule)
  | update (userExists updated : Bool) (rule : Option NetFirewallRule)
  | delete (userExists deleted : Bool) (userId ruleId : Int)
  | deleteByUserId (deleted : Bool) (userId : Int)
  | deleteByAppId (deleted : Bool) (currentAccountId appUid : Int)

/-- One call. -/
def step (manager : NetFirewallRuleManager) : RuleCall → NetFirewallRuleManager
  | .add userExists rowId rule => (manager.addNetFirewallRule userExists rowId rule).1
  | .update userExists updated rule => (manager.updateNetFirewallRule userExists updated rule).1
  | .delete userExists deleted userId ruleId =>
    (manager.deleteNetFirewallRule userExists deleted userId ruleId).1
  | .deleteByUserId deleted userId => (manager.deleteNetFirewallRuleByUserId deleted userId).1
  | .deleteByAppId deleted currentAccountId appUid =>
    (manager.deleteNetFirewallRuleByAppId deleted currentAccountId appUid).1

/-- Updates keep the user of their rule, and deletions name rules of their user, unless
the number of this user is not cached and that of all users is at most 1. -/
def KeepsOwner (manager : NetFirewallRuleManager) : RuleCall → Prop
  | .update _ _ (some rule) => ∀ row ∈ manager.table.find rule.ruleId, row.userId = rule.userId
  | .delete _ _ userId ruleId =>
    (∀ row ∈ manager.table.find ruleId, row.userId = userId) ∨
      manager.userRuleSize[userId]? = none ∧ manager.allUserRule ≤ 1
  | _ => True

instance (manager : NetFirewallRuleManager) (call : RuleCall) :
    Decidable (manager.KeepsOwner call) := by
  unfold KeepsOwner
  split <;> infer_instance

theorem Coherent.step (coherent : manager.Coherent) (keeps : manager.KeepsOwner call) :
    (manager.step call).Coherent := by
  cases call with
  | add userExists rowId rule =>
    cases rule with
    | none => exact coherent
    | some rule => exact coherent.addRule
  | update userExists updated rule =>
    cases rule with
    | none => exact coherent
    | some rule => exact coherent.updateNetFirewallRule keeps
  | delete userExists deleted userId ruleId =>
    exact coherent.deleteNetFirewallRule keeps
  | deleteByUserId deleted userId => exact coherent.deleteNetFirewallRuleByUserId
  | deleteByAppId deleted currentAccountId appUid =>
    exact coherent.deleteNetFirewallRuleByAppId

variable (table : RuleTable) (maxDefaultRuleSize : Int)

/-- The manager after a start: nothing is cached. -/
def started : NetFirewallRuleManager where
  table := table
  maxDefaultRuleSize := maxDefaultRuleSize

theorem Coherent.started : (started table maxDefaultRuleSize).Coherent where
  user userId size cached := by
    cases cached
  all positive := absurd positive (Int.lt_irrefl 0)

/-- From any table, calls that keep owners keep the cached numbers those of the table. -/
theorem coherent_of_reach {manager : NetFirewallRuleManager}
    (reach : Run.Reach step KeepsOwner (started table maxDefaultRuleSize) manager) :
    manager.Coherent := by
  refine reach.invariant (Coherent.started table maxDefaultRuleSize) ?_
  intro manager call coherent keeps
  exact coherent.step keeps

/-- A rule of a user. -/
def userRule (userId ruleId : Int) : NetFirewallRule where
  ruleId := ruleId
  userId := userId
  ruleType := .ruleIp
  isEnabled := true

/-- User 100 adds two rules, changes one and deletes the other. -/
def ownCalls : List RuleCall :=
  [.add true (some 1) (some (userRule 100 0)), .add true (some 2) (some (userRule 100 0)),
    .update true true (some (userRule 100 2)), .delete true true 100 1]

theorem coherent_ownCalls : (ownCalls.foldl step (started {} 0)).Coherent :=
  coherent_of_reach {} 0 (Run.Reach.start.foldl ownCalls (by decide))

/-- After a deletion that names another user's rule and after an update that moves a rule
to another user the cached numbers are wrong. -/
theorem not_coherent :
    ¬([.add true (some 1) (some (userRule 100 0)), .add true (some 2) (some (userRule 101 0)),
      .delete true true 101 1].foldl step (started {} 0)).Coherent ∧
    ¬([.add true (some 1) (some (userRule 100 0)),
      .update true true (some (userRule 101 1))].foldl step (started {} 0)).Coherent := by
  constructor
  · intro coherent
    have all := coherent.all (by decide)
    revert all
    decide
  · intro coherent
    have user := coherent.user 101 0 (by decide)
    revert user
    decide

/-! ## Checks -/

theorem Coherent.getD_getAllRuleConstraint (coherent : manager.Coherent) (userId : Int) :
    (manager.getAllRuleConstraint userId).userRuleSize.getD userId 0 =
      manager.table.queryFirewallRuleByUserIdCount userId := by
  have cached : userId ∈ (manager.getAllRuleConstraint userId).userRuleSize := by
    unfold NetFirewallRuleManager.getAllRuleConstraint
    grind
  have lookup := ExtTreeMap.getElem?_eq_some_getElem cached
  rw [ExtTreeMap.getD_eq_getD_getElem?, lookup]
  exact coherent.getAllRuleConstraint.1.user userId _ lookup

/-- In every run that keeps owners, the cached numbers make no difference: a rule is let pass
or refused as by a manager that has just been started. -/
theorem checkRuleConstraint_of_reach {manager : NetFirewallRuleManager}
    (reach : Run.Reach step KeepsOwner (started table maxDefaultRuleSize) manager)
    (userExists : Bool) (rule : NetFirewallRule) :
    (manager.checkRuleConstraint userExists rule).2 =
      ((started manager.table manager.maxDefaultRuleSize).checkRuleConstraint
        userExists rule).2 := by
  have fresh := Coherent.started manager.table manager.maxDefaultRuleSize
  have coherent : manager.Coherent :=
    reach.invariant (Coherent.started table maxDefaultRuleSize) fun _ _ holds keeps =>
      holds.step keeps
  unfold checkRuleConstraint
  split
  · rfl
  · dsimp only
    unfold checkLimits
    rw [coherent.getD_getAllRuleConstraint, fresh.getD_getAllRuleConstraint,
      coherent.getAllRuleConstraint.2, fresh.getAllRuleConstraint.2]
    rfl

theorem checkRuleConstraint_ownCalls :
    let manager := ownCalls.foldl step (started {} 0)
    (manager.checkRuleConstraint true (userRule 100 0)).2 =
      ((started manager.table manager.maxDefaultRuleSize).checkRuleConstraint
        true (userRule 100 0)).2 :=
  checkRuleConstraint_of_reach {} 0 (Run.Reach.start.foldl ownCalls (by decide)) true _

end NetFirewallRuleManager

end NetManager.Firewall
