import NetManager.Common.Utils

/-!
# Quota policies

`NetPolicyTraffic` keeps a list of quota policies. A new list is cleaned up
before it is stored; a reminder stamps the policies of one network.
-/

namespace NetManager.Policy

structure NetQuotaPolicy where
  /-- `networkmatchrule.netType`, by default `BEARER_DEFAULT`. -/
  netType : Int32 := 6
  simId : String := ""
  ident : String := ""
  periodStartTime : Int64 := -1
  periodDuration : String := "M1"
  warningBytes : Int64 := -1
  limitBytes : Int64 := -1
  lastWarningRemind : Int64 := -1
  lastLimitRemind : Int64 := -1
  metered : Bool := false
  limitAction : Int32 := -1
  deriving DecidableEq

namespace NetQuotaPolicy

def dataUsageUnknown : Int64 := -1
def dataUsageUnlimited : Int64 := Int64.maxValue
def remindNever : Int64 := -1
def limitActionNone : Int32 := -1
def limitActionAlertOnly : Int32 := 1

/-- `IsValidNetType`: from `BEARER_CELLULAR` to `BEARER_WIFI_AWARE`. -/
def isValidNetType (netType : Int32) : Bool :=
  netType = 0 || netType = 1 || netType = 2 || netType = 3 || netType = 4 || netType = 5

/-- `IsValidPeriodDuration`: a day, a month or a year with its start. -/
def isValidPeriodDuration (periodDuration : String) : Bool :=
  match periodDuration.toList with
  | [] => false
  | [_] => false
  | cycle :: rest =>
    let start := CommonUtils.strToInt (String.ofList rest) (-1)
    cycle = 'D' && 1 ≤ start && start ≤ 31 ||
      cycle = 'M' && 1 ≤ start && start ≤ 12 ||
      cycle = 'Y' && 1 ≤ start && start ≤ 366

section

variable (quotaPolicy : NetQuotaPolicy)

def isValidQuotaPolicy : Bool :=
  isValidNetType quotaPolicy.netType && isValidPeriodDuration quotaPolicy.periodDuration

/-- What `FormalizeQuotaPolicies` makes of the bytes and the action first. -/
def fillIn : NetQuotaPolicy :=
  if quotaPolicy.limitBytes = dataUsageUnknown then
    { quotaPolicy with limitAction := limitActionAlertOnly }
  else if quotaPolicy.warningBytes = dataUsageUnknown then
    { quotaPolicy with warningBytes := quotaPolicy.limitBytes * 90 / 100 }
  else quotaPolicy

/-- An action that only alerts takes the limit away. -/
def dropLimit : NetQuotaPolicy :=
  if quotaPolicy.limitAction = limitActionAlertOnly then
    { quotaPolicy with limitBytes := dataUsageUnlimited }
  else quotaPolicy

/-- A warning above the limit is dropped. -/
def dropWarning : NetQuotaPolicy :=
  if quotaPolicy.warningBytes > quotaPolicy.limitBytes then
    { quotaPolicy with warningBytes := dataUsageUnlimited }
  else quotaPolicy

/-- Without a limit there is only an alert. -/
def alertOnly : NetQuotaPolicy :=
  if quotaPolicy.limitBytes = dataUsageUnlimited then
    { quotaPolicy with limitAction := limitActionAlertOnly }
  else quotaPolicy

/-- The body of the loop of `FormalizeQuotaPolicies`. -/
def formalize : NetQuotaPolicy :=
  quotaPolicy.fillIn.dropLimit.dropWarning.alertOnly

/-- `FormalizeQuotaPolicies`: the list that is stored. -/
def formalizeQuotaPolicies (quotaPolicies : List NetQuotaPolicy) : List NetQuotaPolicy :=
  (quotaPolicies.filter isValidQuotaPolicy).map formalize

inductive RemindType
  | warning
  | limit
  deriving DecidableEq

/-- `IsValidNetRemindType`. -/
def remindTypeOf (remindType : BitVec 32) : Option RemindType :=
  if remindType = 1 then some .warning
  else if remindType = 2 then some .limit
  else none

/-- The stamp of `UpdateRemindPolicy` on one policy. -/
def remind (netType : Int32) (simId : String) (remindType : RemindType) (now : Int64)
    (quotaPolicy : NetQuotaPolicy) : NetQuotaPolicy :=
  if quotaPolicy.netType = netType ∧ quotaPolicy.simId = simId then
    match remindType with
    | .warning => { quotaPolicy with lastWarningRemind := now }
    | .limit => { quotaPolicy with lastLimitRemind := now }
  else quotaPolicy

/-! ## What cleaning up keeps -/

/-- The network that a policy is for. -/
def network : String × Int32 :=
  (quotaPolicy.simId, quotaPolicy.netType)

end

/-- The policies differ in the bytes and the action only. -/
def DiffersInLimits (quotaPolicy changed : NetQuotaPolicy) : Prop :=
  ∃ warningBytes limitBytes limitAction,
    changed =
      { quotaPolicy with
        warningBytes := warningBytes
        limitBytes := limitBytes
        limitAction := limitAction }

theorem DiffersInLimits.trans {first second third : NetQuotaPolicy}
    (left : first.DiffersInLimits second) (right : second.DiffersInLimits third) :
    first.DiffersInLimits third := by
  obtain ⟨_, _, _, rfl⟩ := left
  obtain ⟨_, _, _, rfl⟩ := right
  exact ⟨_, _, _, rfl⟩

section

variable (quotaPolicy : NetQuotaPolicy)

include quotaPolicy

theorem differsInLimits_fillIn : quotaPolicy.DiffersInLimits quotaPolicy.fillIn := by
  unfold fillIn
  split_ifs <;> exact ⟨_, _, _, rfl⟩

theorem differsInLimits_dropLimit : quotaPolicy.DiffersInLimits quotaPolicy.dropLimit := by
  unfold dropLimit
  split <;> exact ⟨_, _, _, rfl⟩

theorem differsInLimits_dropWarning : quotaPolicy.DiffersInLimits quotaPolicy.dropWarning := by
  unfold dropWarning
  split <;> exact ⟨_, _, _, rfl⟩

theorem differsInLimits_alertOnly : quotaPolicy.DiffersInLimits quotaPolicy.alertOnly := by
  unfold alertOnly
  split <;> exact ⟨_, _, _, rfl⟩

theorem differsInLimits_formalize : quotaPolicy.DiffersInLimits quotaPolicy.formalize :=
  (((differsInLimits_fillIn _).trans (differsInLimits_dropLimit _)).trans
    (differsInLimits_dropWarning _)).trans (differsInLimits_alertOnly _)

@[simp] theorem formalize_network : quotaPolicy.formalize.network = quotaPolicy.network := by
  obtain ⟨_, _, _, equal⟩ := quotaPolicy.differsInLimits_formalize
  rw [equal]
  rfl

@[simp] theorem formalize_lastWarningRemind :
    quotaPolicy.formalize.lastWarningRemind = quotaPolicy.lastWarningRemind := by
  obtain ⟨_, _, _, equal⟩ := quotaPolicy.differsInLimits_formalize
  rw [equal]

end

variable (netType : Int32) (simId : String) (remindType : RemindType) (now : Int64)

section

variable (quotaPolicy : NetQuotaPolicy)

theorem remind_eq :
    ∃ lastWarningRemind lastLimitRemind,
      remind netType simId remindType now quotaPolicy =
        { quotaPolicy with
          lastWarningRemind := lastWarningRemind
          lastLimitRemind := lastLimitRemind } := by
  unfold remind
  split
  · cases remindType <;> exact ⟨_, _, rfl⟩
  · exact ⟨_, _, rfl⟩

@[simp] theorem remind_network :
    (remind netType simId remindType now quotaPolicy).network = quotaPolicy.network := by
  obtain ⟨_, _, equal⟩ := remind_eq netType simId remindType now quotaPolicy
  rw [equal]
  rfl

@[simp] theorem remind_limitAction :
    (remind netType simId remindType now quotaPolicy).limitAction = quotaPolicy.limitAction := by
  obtain ⟨_, _, equal⟩ := remind_eq netType simId remindType now quotaPolicy
  rw [equal]

end

variable {quotaPolicy : NetQuotaPolicy}

/-- Only a warning for the network of the policy changes the time of it. -/
theorem remind_lastWarningRemind {netType : Int32} {simId : String} {remindType : RemindType}
    (notWarned : remindType = .warning → quotaPolicy.network ≠ (simId, netType)) (now : Int64) :
    (remind netType simId remindType now quotaPolicy).lastWarningRemind =
      quotaPolicy.lastWarningRemind := by
  unfold remind
  split
  case isFalse => rfl
  case isTrue isFor =>
    cases remindType with
    | limit => rfl
    | warning => exact absurd (Prod.ext isFor.2 isFor.1) (notWarned rfl)

theorem fillIn_of_known (known : quotaPolicy.limitBytes ≠ dataUsageUnknown) :
    quotaPolicy.fillIn.limitAction = quotaPolicy.limitAction ∧
      quotaPolicy.fillIn.limitBytes = quotaPolicy.limitBytes := by
  rw [fillIn, if_neg known]
  split <;> exact ⟨rfl, rfl⟩

theorem dropWarning_limit (quotaPolicy : NetQuotaPolicy) :
    quotaPolicy.dropWarning.limitAction = quotaPolicy.limitAction ∧
      quotaPolicy.dropWarning.limitBytes = quotaPolicy.limitBytes := by
  unfold dropWarning
  split <;> exact ⟨rfl, rfl⟩

theorem formalize_limitAction (noAction : quotaPolicy.limitAction = limitActionNone)
    (known : quotaPolicy.limitBytes ≠ dataUsageUnknown)
    (limited : quotaPolicy.limitBytes ≠ dataUsageUnlimited) :
    quotaPolicy.formalize.limitAction = limitActionNone := by
  obtain ⟨action, bytes⟩ := fillIn_of_known known
  have kept : quotaPolicy.fillIn.dropLimit = quotaPolicy.fillIn := by
    rw [dropLimit, action, noAction]
    exact if_neg (by decide)
  obtain ⟨sameAction, sameBytes⟩ := quotaPolicy.fillIn.dropWarning_limit
  have stillLimited : quotaPolicy.fillIn.dropWarning.limitBytes ≠ dataUsageUnlimited := by
    rwa [sameBytes, bytes]
  rw [formalize, kept, alertOnly, if_neg stillLimited, sameAction, action, noAction]

end NetQuotaPolicy

end NetManager.Policy
