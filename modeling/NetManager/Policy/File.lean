import NetManager.Policy.FirewallManager
import NetManager.Policy.Traffic

/-!
# The policy file

`NetPolicyFile` mirrors the policies as texts and writes them as a JSON
document. Each kind of policy has its own incremental update; records are
compared and merged by some of their texts. cJSON itself is a parameter: a
printer and a parser.
-/

namespace NetManager.Policy

open List Std CommonUtils

/-! ## Documents -/

/-- The values that the file is made of. -/
inductive Json
  | string (value : String)
  | array (items : List Json)
  | object (items : List (String × Json))

namespace Json

/-- `cJSON_GetObjectItem`. -/
def getObjectItem (name : String) : Json → Option Json
  | object items => items.lookup name
  | _ => none

/-- The items that `cJSON_GetArraySize` counts; a missing value has none. -/
def items : Option Json → List Json
  | some (array items) => items
  | some (object items) => items.map Prod.snd
  | _ => []

/-- `cJSON_GetStringValue`; `none` is the null pointer. -/
def getStringValue : Option Json → Option String
  | some (string value) => some value
  | _ => none

end Json

/-- cJSON, on texts made of `Byte`s. -/
structure CJson (Byte : Type) where
  print : Json → List Byte
  parse : List Byte → Option Json

/-- Printed documents are read back, and nothing is no document. -/
structure CJson.RoundTrips {Byte : Type} (cjson : CJson Byte) : Prop where
  parse_print : ∀ document, cjson.parse (cjson.print document) = some document
  parse_nil : cjson.parse [] = none

/-- A part of a printed object is no document: its last brace is missing. -/
def CJson.RejectsParts {Byte : Type} (cjson : CJson Byte) : Prop :=
  ∀ items text, text <+: cjson.print (.object items) →
    text ≠ cjson.print (.object items) → cjson.parse text = none

/-- Documents as symbols, closed by an end mark. -/
def CJson.symbols : CJson (Option Json) where
  print document := [some document, none]
  parse
    | [some document, none] => some document
    | _ => none

theorem CJson.symbols_roundTrips : CJson.symbols.RoundTrips := ⟨fun _ => rfl, rfl⟩

theorem CJson.symbols_rejectsParts : CJson.symbols.RejectsParts := by
  intro items text part isPart
  rcases prefix_cons_iff.mp part with rfl | ⟨rest, rfl, restPart⟩
  · rfl
  · rcases prefix_cons_iff.mp restPart with rfl | ⟨last, rfl, lastPart⟩
    · rfl
    · rw [prefix_nil.mp lastPart] at isPart
      exact absurd rfl isPart

/-! ## The mirrored policies -/

structure UidPolicy where
  uid : String
  policy : String
  deriving DecidableEq

structure NetPolicyQuota where
  netType : String
  simId : String
  periodStartTime : String
  periodDuration : String
  warningBytes : String
  limitBytes : String
  lastLimitSnooze : String
  metered : String
  ident : String
  deriving DecidableEq

structure NetFirewallRuleList where
  deniedList : ExtTreeSet Uid
  allowedList : ExtTreeSet Uid

namespace NetFirewallRuleList

/-- The two lists of a chain. -/
inductive Kind
  | denied
  | allowed
  deriving DecidableEq

/-- The list of a kind. -/
def list (rules : NetFirewallRuleList) : Kind → ExtTreeSet Uid
  | .denied => rules.deniedList
  | .allowed => rules.allowedList

/-- Insert a user into the list of a kind. -/
def insertUid (rules : NetFirewallRuleList) (uid : Uid) : Kind → NetFirewallRuleList
  | .denied => { rules with deniedList := rules.deniedList.insert uid }
  | .allowed => { rules with allowedList := rules.allowedList.insert uid }

end NetFirewallRuleList

structure NetPolicy where
  hosVersion : String
  uidPolicies : List UidPolicy
  backgroundPolicyStatus : String
  netQuotaPolicies : List NetPolicyQuota
  netFirewallRules : ExtTreeMap (BitVec 32) NetFirewallRuleList

namespace NetPolicy

/-! ## Writing the document -/

/-- `AddUidPolicy`, one record. -/
def uidPolicyItem (uidPolicy : UidPolicy) : Json :=
  .object [("uid", .string uidPolicy.uid), ("policy", .string uidPolicy.policy)]

/-- `AddQuotaPolicy`, one record. -/
def quotaPolicyItem (quotaPolicy : NetPolicyQuota) : Json :=
  .object [("netType", .string quotaPolicy.netType),
    ("simId", .string quotaPolicy.simId),
    ("periodStartTime", .string quotaPolicy.periodStartTime),
    ("periodDuration", .string quotaPolicy.periodDuration),
    ("warningBytes", .string quotaPolicy.warningBytes),
    ("limitBytes", .string quotaPolicy.limitBytes),
    ("lastLimitSnooze", .string quotaPolicy.lastLimitSnooze),
    ("metered", .string quotaPolicy.metered),
    ("ident", .string quotaPolicy.ident)]

/-- A set of users as an array of numerals. -/
def uidArray (uids : ExtTreeSet Uid) : Json :=
  .array (uids.toList.map fun uid => .string uid.toNat.repr)

/-- `AddFirewallRule`, one chain. -/
def firewallRuleItem (rule : BitVec 32 × NetFirewallRuleList) : String × Json :=
  (rule.1.toNat.repr,
    .object [("deniedList", uidArray rule.2.deniedList),
      ("allowedList", uidArray rule.2.allowedList)])

variable (netPolicy : NetPolicy)

/-- The defaults that `Obj2Json` and `AddBackgroundPolicy` fill in. -/
def withDefaults : NetPolicy :=
  { netPolicy with
    hosVersion := if netPolicy.hosVersion = "" then "1.0" else netPolicy.hosVersion
    backgroundPolicyStatus := if netPolicy.backgroundPolicyStatus = "" then "allow"
      else netPolicy.backgroundPolicyStatus }

/-- The document of `Obj2Json`. -/
def obj2Json : Json :=
  .object [("hosVersion", .string netPolicy.hosVersion),
    ("uidPolicy", .array (netPolicy.uidPolicies.map uidPolicyItem)),
    ("backgroundPolicy", .object [("status", .string netPolicy.backgroundPolicyStatus)]),
    ("quotaPolicy", .array (netPolicy.netQuotaPolicies.map quotaPolicyItem)),
    ("firewallList", .object (netPolicy.netFirewallRules.toList.map firewallRuleItem))]

/-! ## Reading the document

A `none` stands for a null pointer that the code would dereference. -/

variable (item : Json)

/-- A text field of a record. -/
def textField (name : String) : Option String := Json.getStringValue (item.getObjectItem name)

/-- `ParseUidPolicy`, one record. -/
def readUidPolicy : Option UidPolicy := do
  let uid ← textField item "uid"
  let policy ← textField item "policy"
  return ⟨uid, policy⟩

/-- `ParseQuotaPolicy`, one record. -/
def readQuotaPolicy : Option NetPolicyQuota := do
  let netType ← textField item "netType"
  let simId ← textField item "simId"
  let periodStartTime ← textField item "periodStartTime"
  let periodDuration ← textField item "periodDuration"
  let warningBytes ← textField item "warningBytes"
  let limitBytes ← textField item "limitBytes"
  let lastLimitSnooze ← textField item "lastLimitSnooze"
  let metered ← textField item "metered"
  let ident ← textField item "ident"
  return ⟨netType, simId, periodStartTime, periodDuration, warningBytes,
    limitBytes, lastLimitSnooze, metered, ident⟩

variable (root : Json)

def parseUidPolicy (netPolicy : NetPolicy) : Option NetPolicy := do
  let records ← (Json.items (root.getObjectItem "uidPolicy")).mapM readUidPolicy
  return { netPolicy with uidPolicies := netPolicy.uidPolicies ++ records }

def parseBackgroundPolicy (netPolicy : NetPolicy) : Option NetPolicy :=
  match root.getObjectItem "backgroundPolicy" with
  | none => some netPolicy
  | some backgroundPolicy => do
      let status ← textField backgroundPolicy "status"
      return { netPolicy with backgroundPolicyStatus := status }

def parseQuotaPolicy (netPolicy : NetPolicy) : Option NetPolicy := do
  let records ← (Json.items (root.getObjectItem "quotaPolicy")).mapM readQuotaPolicy
  return { netPolicy with netQuotaPolicies := netPolicy.netQuotaPolicies ++ records }

variable (netFirewallRules : ExtTreeMap (BitVec 32) NetFirewallRuleList) (chainType : BitVec 32)

/-- The lists of a chain, `operator[]`. -/
def rulesOf : NetFirewallRuleList := netFirewallRules[chainType]?.getD ⟨∅, ∅⟩

/-- A user of an array of numerals. -/
def readUid : Option Uid := do
  let text ← Json.getStringValue (some item)
  return strToUint text 0

/-- A loop of `ParseFirewallRule` over the users of a chain. -/
def insertUids (kind : NetFirewallRuleList.Kind)
    (netFirewallRules : ExtTreeMap (BitVec 32) NetFirewallRuleList) (uids : List Uid) :
    ExtTreeMap (BitVec 32) NetFirewallRuleList :=
  uids.foldl
    (fun rules uid => rules.insert chainType ((rulesOf rules chainType).insertUid uid kind))
    netFirewallRules

/-- `ParseFirewallRule`, one chain. -/
def parseChain (rule : String × Json) : Option (ExtTreeMap (BitVec 32) NetFirewallRuleList) := do
  let chainType := strToUint rule.1 0
  let denied ← (Json.items (rule.2.getObjectItem "deniedList")).mapM readUid
  let allowed ← (Json.items (rule.2.getObjectItem "allowedList")).mapM readUid
  let afterDenied := insertUids chainType .denied netFirewallRules denied
  return insertUids chainType .allowed afterDenied allowed

def parseFirewallRule (netPolicy : NetPolicy) : Option NetPolicy :=
  match root.getObjectItem "firewallList" with
  | some (.object rules) => do
      let netFirewallRules ← rules.foldlM parseChain netPolicy.netFirewallRules
      return { netPolicy with netFirewallRules := netFirewallRules }
  | some (.array (_ :: _)) => none
  | _ => some netPolicy

/-- `Json2Obj` on a parsed document. -/
def json2Obj (netPolicy : NetPolicy) : Option NetPolicy := do
  let hosVersion ← match root.getObjectItem "hosVersion" with
    | none => some "1.0"
    | some version => Json.getStringValue (some version)
  let withVersion := { netPolicy with hosVersion := hosVersion }
  let withUids ← parseUidPolicy root withVersion
  let withBackground ← parseBackgroundPolicy root withUids
  let withQuota ← parseQuotaPolicy root withBackground
  parseFirewallRule root withQuota

/-! ## The readers -/

def readBackgroundPolicy : Bool := netPolicy.backgroundPolicyStatus = "allow"

/-- `ToQuotaPolicy`. The limit action and the warning reminder are not in the
record and keep their defaults. -/
def toQuotaPolicy (quotaPolicy : NetPolicyQuota) : NetQuotaPolicy where
  lastLimitRemind := strToLong quotaPolicy.lastLimitSnooze (-1)
  limitBytes := strToLong quotaPolicy.limitBytes (-1)
  metered := strToBool quotaPolicy.metered false
  netType := strToInt quotaPolicy.netType 6
  periodDuration := quotaPolicy.periodDuration
  periodStartTime := strToLong quotaPolicy.periodStartTime (-1)
  simId := quotaPolicy.simId
  warningBytes := strToLong quotaPolicy.warningBytes (-1)
  ident := quotaPolicy.ident

def readQuotaPolicies : List NetQuotaPolicy := netPolicy.netQuotaPolicies.map toQuotaPolicy

/-- The lists that `ReadFirewallRules` returns. -/
def readFirewallRules : NetFirewallRuleList := rulesOf netPolicy.netFirewallRules chainType

/-- The entry that `ReadFirewallRules` leaves for a chain without one. -/
def touchFirewallRules : NetPolicy :=
  { netPolicy with
    netFirewallRules := netPolicy.netFirewallRules.insertIfNew chainType ⟨∅, ∅⟩ }

/-! ## The updates -/

def resetPolicies : NetPolicy :=
  { netPolicy with
    uidPolicies := []
    backgroundPolicyStatus := "allow"
    netQuotaPolicies := []
    netFirewallRules := ∅ }

inductive NetUidPolicyOpType
  | doNothing
  | add
  | delete
  | update
  deriving DecidableEq

/-- `ArbitrationWritePolicyToFile`. The old policy is taken from the user
number. -/
def arbitrationWritePolicyToFile (uid : Uid) (policy : BitVec 32) : NetUidPolicyOpType :=
  let haveUidAndPolicy := netPolicy.uidPolicies.any fun uidPolicy =>
    strToUint uidPolicy.uid 0 = uid
  if haveUidAndPolicy then
    let oldPolicy := uid
    if oldPolicy ≠ policy ∧ policy = 0 then .delete
    else if oldPolicy ≠ policy ∧ policy ≠ 0 then .update
    else .doNothing
  else if policy = 0 then .doNothing
  else .add

/-- The record of a user. -/
def uidPolicyOf (uid : Uid) (policy : BitVec 32) : UidPolicy := ⟨uid.toNat.repr, policy.toNat.repr⟩

/-- Set the policy of the first record of a user. -/
def updateUid (uid : Uid) (policy : BitVec 32) : List UidPolicy → List UidPolicy
  | [] => []
  | record :: records =>
    if record.uid = uid.toNat.repr then { record with policy := policy.toNat.repr } :: records
    else record :: updateUid uid policy records

/-- `WritePolicyByUid(netUidPolicyOpType, uid, policy)`, the update. -/
def applyUidPolicy (uid : Uid)
    (policy : BitVec 32) : NetUidPolicyOpType → NetPolicy
  | .update => { netPolicy with uidPolicies := updateUid uid policy netPolicy.uidPolicies }
  | .delete =>
    { netPolicy with
      uidPolicies := netPolicy.uidPolicies.eraseP fun record => record.uid = uid.toNat.repr }
  | .add =>
    { netPolicy with
      uidPolicies := netPolicy.uidPolicies ++ [uidPolicyOf uid policy] }
  | .doNothing => netPolicy

/-- The record of a quota policy. -/
def toNetPolicyQuota (quotaPolicy : NetQuotaPolicy) : NetPolicyQuota where
  lastLimitSnooze := quotaPolicy.lastLimitRemind.toInt.repr
  limitBytes := quotaPolicy.limitBytes.toInt.repr
  metered := quotaPolicy.metered.toNat.repr
  netType := quotaPolicy.netType.toInt.repr
  periodDuration := quotaPolicy.periodDuration
  periodStartTime := quotaPolicy.periodStartTime.toInt.repr
  ident := quotaPolicy.ident
  simId := quotaPolicy.simId
  warningBytes := quotaPolicy.warningBytes.toInt.repr

/-- `UpdateQuotaPolicyExist`: overwrite the first record of the same network. -/
def updateQuotaPolicyExist (quotaPolicy : NetQuotaPolicy) :
    List NetPolicyQuota → Option (List NetPolicyQuota)
  | [] => none
  | record :: records =>
    if quotaPolicy.simId = record.simId ∧
        record.netType = quotaPolicy.netType.toInt.repr then
      some (toNetPolicyQuota quotaPolicy :: records)
    else (updateQuotaPolicyExist quotaPolicy records).map (record :: ·)

/-- One turn of `WriteQuotaPolicies`. -/
def writeQuotaPolicy (records : List NetPolicyQuota) (quotaPolicy : NetQuotaPolicy) :
    List NetPolicyQuota :=
  (updateQuotaPolicyExist quotaPolicy records).getD (records ++ [toNetPolicyQuota quotaPolicy])

/-- `WriteQuotaPolicies`, the update. -/
def writeQuotaPolicies (quotaPolicies : List NetQuotaPolicy) : NetPolicy :=
  { netPolicy with netQuotaPolicies := quotaPolicies.foldl writeQuotaPolicy [] }

/-- `WriteFirewallRules`, the update. -/
def writeFirewallRules (allowedList deniedList : ExtTreeSet Uid) : NetPolicy :=
  { netPolicy with
    netFirewallRules := netPolicy.netFirewallRules.insert chainType ⟨deniedList, allowedList⟩ }

/-- `WriteBackgroundPolicy`, the update. -/
def writeBackgroundPolicy (backgroundPolicy : Bool) : NetPolicy :=
  { netPolicy with
    backgroundPolicyStatus := if backgroundPolicy then "allow" else "reject" }

end NetPolicy

/-- `NetPolicyFile` with the text of the last `WriteFile`. -/
structure NetPolicyFile (Byte : Type) where
  netPolicy : NetPolicy
  /-- The text given to the event handler. -/
  json : List Byte

namespace NetPolicyFile

variable {Byte : Type} (cjson : CJson Byte)

/-- An update followed by `WriteFile`. -/
def write (netPolicy : NetPolicy) : NetPolicyFile Byte where
  netPolicy := netPolicy.withDefaults
  json := cjson.print netPolicy.withDefaults.obj2Json

variable (file : NetPolicyFile Byte)

def writePolicyByUid (uid : Uid) (policy : BitVec 32) : NetPolicyFile Byte :=
  write cjson (file.netPolicy.applyUidPolicy uid policy
    (file.netPolicy.arbitrationWritePolicyToFile uid policy))

def removeInexistentUid (uid : Uid) : NetPolicyFile Byte :=
  write cjson (file.netPolicy.applyUidPolicy uid 0 .delete)

def writeQuotaPolicies (quotaPolicies : List NetQuotaPolicy) : NetPolicyFile Byte :=
  write cjson (file.netPolicy.writeQuotaPolicies quotaPolicies)

def writeFirewallRules (chainType : BitVec 32)
    (allowedList deniedList : ExtTreeSet Uid) : NetPolicyFile Byte :=
  write cjson (file.netPolicy.writeFirewallRules chainType allowedList deniedList)

def writeBackgroundPolicy (backgroundPolicy : Bool) : NetPolicyFile Byte :=
  write cjson (file.netPolicy.writeBackgroundPolicy backgroundPolicy)

/-- `netPolicy_` of a new object after `ResetPolicies`. -/
def reset : NetPolicy := (NetPolicy.resetPolicies ⟨"", [], "", [], ∅⟩).withDefaults

/-- `Json2Obj` on a text, for a new object. -/
def readBack (text : List Byte) : Option NetPolicy :=
  if text.isEmpty then none
  else (cjson.parse text).bind fun root => NetPolicy.json2Obj root reset

end NetPolicyFile

end NetManager.Policy
