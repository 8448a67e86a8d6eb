import NetManager.Firewall.Domain
import NetManager.Library.KeyedTable
import NetManager.Library.Run

/-!
# The rule manager

`NetFirewallRuleManager` keeps the rules of all users in a table of a database. It
caches the number of rows of each user and of all users, and the limits are checked
against the cached numbers. A statement on the table may fail, and it then changes
nothing.
-/

namespace NetManager.Firewall

open Std

/-! ## Rules and rows -/

/-- `NetFirewallRuleType`, again any integer. -/
structure NetFirewallRuleType where
  value : Int
  deriving DecidableEq

def NetFirewallRuleType.ruleIp : NetFirewallRuleType := ⟨1⟩
def NetFirewallRuleType.ruleDomain : NetFirewallRuleType := ⟨2⟩
def NetFirewallRuleType.ruleDns : NetFirewallRuleType := ⟨3⟩

structure NetFirewallDnsParam where
  primaryDns : List Byte := []
  standbyDns : List Byte := []
  deriving DecidableEq

/-- `NetFirewallRule`, less the fields that only the native side reads. -/
structure NetFirewallRule where
  ruleId : Int := 0
  userId : Int
  ruleType : NetFirewallRuleType
  isEnabled : Bool
  appUid : Int := 0
  domains : List NetFirewallDomainParam := []
  dns : NetFirewallDnsParam := {}

/-- A row of the table `firewallRule`. A column that was never written is null. -/
structure FirewallRow where
  /-- `ruleId`, the primary key. -/
  ruleId : Int
  userId : Int
  ruleType : NetFirewallRuleType
  isEnabled : Bool
  appUid : Int
  /-- `domainNum`; null counts as 0 in a sum. -/
  domainNum : Nat := 0
  /-- `fuzzyDomainNum`; null counts as 0 in a sum. -/
  fuzzyNum : Nat := 0
  primaryDns : Option (List Byte) := none
  standbyDns : Option (List Byte) := none

/-- The table `firewallRule`. -/
abbrev RuleTable := KeyedTable FirewallRow.ruleId

/-- The domains of a rule with a wildcard. -/
def NetFirewallRule.fuzzySize (rule : NetFirewallRule) : Nat := rule.domains.countP (·.isWildcard)

variable (row : FirewallRow) (rule : NetFirewallRule)

/-- `FillValuesOfFirewallRule`: the columns of a row that a rule writes. Columns of the
other types of rules keep what they had. -/
def FirewallRow.fillValues : FirewallRow :=
  let row := { row with
    userId := rule.userId
    ruleType := rule.ruleType
    isEnabled := rule.isEnabled
    appUid := rule.appUid }
  if rule.ruleType = .ruleDns then
    { row with primaryDns := rule.dns.primaryDns, standbyDns := rule.dns.standbyDns }
  else if rule.ruleType = .ruleDomain then
    { row with domainNum := rule.domains.length, fuzzyNum := rule.fuzzySize }
  else row

theorem FirewallRow.ruleId_fillValues : (row.fillValues rule).ruleId = row.ruleId := by
  unfold FirewallRow.fillValues
  split
  · rfl
  · split <;> rfl

theorem FirewallRow.userId_fillValues : (row.fillValues rule).userId = rule.userId := by
  unfold FirewallRow.fillValues
  split
  · rfl
  · split <;> rfl

/-- A new row with the columns of a rule. -/
def FirewallRow.ofRule (ruleId : Int) (rule : NetFirewallRule) : FirewallRow :=
  FirewallRow.fillValues
    { ruleId := ruleId
      userId := rule.userId
      ruleType := rule.ruleType
      isEnabled := rule.isEnabled
      appUid := rule.appUid } rule

namespace RuleTable

variable (table : RuleTable)

/-- `AddFirewallRuleRecord`: the database gives the row an unused positive id, or fails. -/
def addFirewallRuleRecord (rowId : Option Int)
    (rule : NetFirewallRule) : Option (RuleTable × Int) :=
  match rowId with
  | none => none
  | some ruleId =>
    if 0 < ruleId then
      (table.insert (FirewallRow.ofRule ruleId rule)).map fun table => (table, ruleId)
    else none

def updateFirewallRuleRecord (rule : NetFirewallRule) : RuleTable :=
  table.update rule.ruleId (·.fillValues rule) (·.ruleId_fillValues rule)

def deleteFirewallRuleRecord (userId ruleId : Int) : RuleTable :=
  table.delete fun row => decide (row.userId = userId) && decide (row.ruleId = ruleId)

def deleteFirewallRuleRecordByUserId (userId : Int) : RuleTable :=
  table.delete fun row => row.userId = userId

def deleteFirewallRuleRecordByAppId (appUid : Int) : RuleTable :=
  table.delete fun row => row.appUid = appUid

/-- `IsFirewallRuleExist`: the row with an id, which only counts if it is positive. -/
def isFirewallRuleExist (ruleId : Int) : Option FirewallRow :=
  if 0 < ruleId then table.find ruleId else none

def queryFirewallRuleAllCount : Nat := table.count fun _ => true

def queryFirewallRuleByUserIdCount (userId : Int) : Nat :=
  table.count fun row => row.userId = userId

def queryFirewallRuleAllDomainCount : Nat := (table.rows.map (·.domainNum)).sum

def queryFirewallRuleAllFuzzyDomainCount : Nat := (table.rows.map (·.fuzzyNum)).sum

def queryFirewallRuleDomainByUserIdCount (userId : Int) : Nat :=
  ((table.rows.filter (·.userId = userId)).map (·.domainNum)).sum

/-- `QueryEnabledFirewallRules`, which leaves out ids that are not positive. -/
def queryEnabledFirewallRules (userId appUid : Int) : List FirewallRow :=
  table.rows.filter fun row =>
    row.userId = userId && row.isEnabled && row.appUid = appUid && 0 < row.ruleId

def isDnsRuleExist (rule : NetFirewallRule) : Bool :=
  rule.ruleType = .ruleDns && table.rows.any fun row =>
      row.userId = rule.userId && row.ruleType = rule.ruleType &&
        row.appUid = rule.appUid &&
        (row.primaryDns = some rule.dns.primaryDns || row.standbyDns = some rule.dns.standbyDns)

end RuleTable

/-! ## Limits -/

def firewallUserMaxRule : Int := 1000
def firewallAllUserMaxRule : Int := 2000
def firewallSingleUserMaxDomain : Int := 1000
def firewallAllUserMaxDomain : Int := 2000
def firewallAllUserMaxFuzzyDomain : Int := 100

/-- What the functions return, less `FIREWALL_SUCCESS`. -/
inductive FirewallErr
  | parameterError
  | internal
  | noUser
  | exceedMaxRule
  | exceedMaxDomain
  | exceedAllMaxDomain
  | noRule
  | dnsRuleDuplication
  | rdbExecuteFailture
  deriving DecidableEq

/-- `NetFirewallRuleManager`, with the table it works on. -/
structure NetFirewallRuleManager where
  table : RuleTable := {}
  allUserRule : Int := 0
  allUserDomain : Int := 0
  maxDefaultRuleSize : Int := 0
  userRuleSize : ExtTreeMap Int Int := ∅

namespace NetFirewallRuleManager

variable (manager : NetFirewallRuleManager)

def getAllRuleConstraint (userId : Int) : NetFirewallRuleManager :=
  { manager with
    allUserRule :=
      if manager.allUserRule ≤ 0 then manager.table.queryFirewallRuleAllCount
      else manager.allUserRule
    userRuleSize :=
      if manager.userRuleSize.contains userId then manager.userRuleSize
      else manager.userRuleSize.insert userId (manager.table.queryFirewallRuleByUserIdCount userId)
    allUserDomain := manager.table.queryFirewallRuleAllDomainCount }

/-- The checks of `CheckRuleConstraint` behind `GetAllRuleConstraint`. -/
def checkLimits (rule : NetFirewallRule) : Option FirewallErr :=
  let userSize := manager.userRuleSize.getD rule.userId 0
  let size : Int := rule.domains.length
  if userSize < manager.maxDefaultRuleSize then none
  else if manager.allUserRule + 1 > firewallAllUserMaxRule ∨
      userSize + 1 > firewallUserMaxRule then some .exceedMaxRule
  else if manager.table.queryFirewallRuleDomainByUserIdCount rule.userId + size >
      firewallSingleUserMaxDomain then some .exceedMaxDomain
  else if manager.allUserDomain + size > firewallAllUserMaxDomain ∨
      (manager.table.queryFirewallRuleAllFuzzyDomainCount : Int) + rule.fuzzySize >
        firewallAllUserMaxFuzzyDomain then some .exceedAllMaxDomain
  else if manager.table.isDnsRuleExist rule then some .dnsRuleDuplication
  else none

variable (userExists : Bool)

/-- `CheckRuleConstraint`; `userExists` is whether the account is found. -/
def checkRuleConstraint (rule : NetFirewallRule) : NetFirewallRuleManager × Option FirewallErr :=
  if !userExists then (manager, some .noUser)
  else
    let manager := manager.getAllRuleConstraint rule.userId
    (manager, manager.checkLimits rule)

def updateUserRuleSize (userId : Int) (isInc : Bool) : NetFirewallRuleManager :=
  match manager.userRuleSize[userId]? with
  | none => manager
  | some old =>
    { manager with
      userRuleSize := manager.userRuleSize.insert userId (if isInc then old + 1 else old - 1) }

def deleteUserRuleSize (userId : Int) : NetFirewallRuleManager :=
  { manager with userRuleSize := manager.userRuleSize.erase userId }

/-! ## Calls -/

/-- `AddNetFirewallRule` with a rule that is not null: the id of the new row. -/
def addRule (rowId : Option Int)
    (rule : NetFirewallRule) : NetFirewallRuleManager × Except FirewallErr Int :=
  match manager.checkRuleConstraint userExists rule with
  | (manager, some error) => (manager, .error error)
  | (manager, none) =>
    match manager.table.addFirewallRuleRecord rowId rule with
    | none => (manager, .error .internal)
    | some (table, ruleId) =>
      (({ manager with
        table := table
        allUserRule := manager.allUserRule + 1 }).updateUserRuleSize rule.userId true,
        .ok ruleId)

def addNetFirewallRule (rowId : Option Int)
    (rule : Option NetFirewallRule) : NetFirewallRuleManager × Except FirewallErr Int :=
  match rule with
  | none => (manager, .error .parameterError)
  | some rule => manager.addRule userExists rowId rule

/-- `UpdateNetFirewallRule`; `updated` is whether the statement succeeds. -/
def updateNetFirewallRule (userExists updated : Bool)
    (rule : Option NetFirewallRule) : NetFirewallRuleManager × Option FirewallErr :=
  match rule with
  | none => (manager, some .parameterError)
  | some rule =>
    match manager.checkRuleConstraint userExists rule with
    | (manager, some error) => (manager, some error)
    | (manager, none) =>
      match manager.table.isFirewallRuleExist rule.ruleId with
      | none => (manager, some .noRule)
      | some _ =>
        if updated then
          ({ manager with table := manager.table.updateFirewallRuleRecord rule }, none)
        else (manager, some .rdbExecuteFailture)

/-- `DeleteNetFirewallRule`; `deleted` is whether the statement succeeds. -/
def deleteNetFirewallRule (userExists deleted : Bool)
    (userId ruleId : Int) : NetFirewallRuleManager × Option FirewallErr :=
  if !userExists then (manager, some .noUser)
  else
    match manager.table.isFirewallRuleExist ruleId with
    | none => (manager, some .noRule)
    | some oldRule =>
      if !deleted then (manager, some .internal)
      else
        let manager := { manager with
          table := manager.table.deleteFirewallRuleRecord userId ruleId
          allUserRule := manager.allUserRule - 1 }
        (if 0 < oldRule.ruleId then manager.updateUserRuleSize userId false else manager, none)

def deleteNetFirewallRuleByUserId (deleted : Bool)
    (userId : Int) : NetFirewallRuleManager × Option FirewallErr :=
  if !deleted then (manager, some .internal)
  else
    (({ manager with
      table := manager.table.deleteFirewallRuleRecordByUserId userId
      allUserRule :=
        match manager.userRuleSize[userId]? with
        | none => 0
        | some size => manager.allUserRule - size }).deleteUserRuleSize userId, none)

/-- `DeleteNetFirewallRuleByAppId`; `currentAccountId` is what `GetCurrentAccountId`
returns. -/
def deleteNetFirewallRuleByAppId (deleted : Bool)
    (currentAccountId appUid : Int) : NetFirewallRuleManager × Option FirewallErr :=
  if (manager.table.queryEnabledFirewallRules currentAccountId appUid).isEmpty then (manager, none)
  else if !deleted then (manager, some .internal)
  else
    ({ manager with
      table := manager.table.deleteFirewallRuleRecordByAppId appUid
      allUserRule := 0
      userRuleSize := ∅ }, none)

end NetFirewallRuleManager

end NetManager.Firewall
