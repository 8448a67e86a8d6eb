import NetManager.Library.Run
import NetManager.Policy.FirewallManager

/-!
# Firewall modes

`NetPolicyFirewall` has three modes. Device-idle and power-save let only the
users of a list through, idle-deny stops the users of a list. The lists live in
`FirewallRule` objects and are pushed to the chains of the daemon on some calls
only; the states in which the chains enforce the modes are described by an
invariant, and the calls that keep it by a condition on each call.
-/

namespace NetManager.Policy

open List FirewallManager Std

/-- `NetPolicyFirewall` with its three `FirewallRule` objects and the daemon. -/
structure NetPolicyFirewall where
  /-- `deviceIdleMode_`, `powerSaveMode_` and `idleDenyMode_`. -/
  mode : ChainType → Bool
  /-- `allowedList_` of the device-idle and the power-save rule, `deniedList_`
  of the idle-deny rule. -/
  uidList : ChainType → List Uid
  deviceIdleAllowedList : ExtTreeSet Uid
  deviceIdleDeniedList : ExtTreeSet Uid
  powerSaveAllowedList : ExtTreeSet Uid
  powerSaveDeniedList : ExtTreeSet Uid
  /-- The daemon. -/
  manager : FirewallManager

namespace NetPolicyFirewall

def maxListSize : Nat := 1000
/-- `UIDS_LIST_MAX_SIZE` of the proxy. -/
def uidsListMaxSize : Nat := 1024

/-! ## The rule objects -/

variable (state : NetPolicyFirewall) (chain : ChainType)

/-- `FirewallSetUidsAllowedListChain`; the proxy refuses long lists. -/
def pushAllowedList : NetPolicyFirewall :=
  if uidsListMaxSize < (state.uidList chain).length then state
  else
    { state with
      manager := state.manager.setUidsAllowedListChain chain (state.uidList chain) }

/-- `FirewallSetUidsDeniedListChain`; the proxy refuses long lists. -/
def pushDeniedList : NetPolicyFirewall :=
  if uidsListMaxSize < (state.uidList chain).length then state
  else
    { state with
      manager := state.manager.setUidsDeniedListChain chain (state.uidList chain) }

/-- `SetAllowedList` of one user. -/
def allowUid (isAllowed : Bool) (list : List Uid) (uid : Uid) : List Uid :=
  if isAllowed then if list.contains uid then list else list ++ [uid]
  else list.erase uid

/-- The rule that a call asks for. -/
def ruleOf (isAllowed : Bool) : FirewallRule := if isAllowed then .allow else .deny

/-- `SetAllowedList` of a vector of users. -/
def setAllowedList (uids : List Uid) (isAllowed : Bool) : NetPolicyFirewall :=
  { state with
    uidList := Function.update state.uidList chain
      (uids.foldl (allowUid isAllowed) (state.uidList chain))
    manager := uids.foldl
      (fun manager uid => manager.setUidRule chain uid (ruleOf isAllowed))
      state.manager }

/-- `RemoveFromAllowedList`. The daemon is not told. -/
def removeFromAllowedList (uid : Uid) : NetPolicyFirewall :=
  { state with
    uidList := Function.update state.uidList chain ((state.uidList chain).erase uid) }

/-- One turn of `SetDeniedList`: a user that is there already is removed even
when it is to be denied. -/
def denyUid (isAdd : Bool) (list : List Uid) (uid : Uid) : List Uid :=
  if isAdd && !list.contains uid then list ++ [uid]
  else list.filter fun other => other ≠ uid

variable (uids : List Uid)

/-- `SetDeniedList` of a vector of users, without the push. -/
def setDeniedList (isAdd : Bool) : NetPolicyFirewall :=
  { state with
    uidList := Function.update state.uidList .undozable
      (uids.foldl (denyUid isAdd) (state.uidList .undozable)) }

section

variable (isAllowed : Bool) (enable : Bool)

/-- `EnableFirewall` of a rule, with the mode that is set after it. -/
def enableFirewall : NetPolicyFirewall :=
  { state with
    manager := state.manager.enableChain chain enable
    mode := Function.update state.mode chain enable }

/-! ## The calls -/

/-- `UpdateFirewallPolicyList` on the set that it updates. -/
def updateFirewallPolicyList (list : ExtTreeSet Uid) : ExtTreeSet Uid :=
  uids.foldl (fun list uid => if isAllowed then list.insert uid else list.erase uid) list

/-- The check of both trust-list calls; the set is the power-save one in both. -/
def overMaxSize : Bool := maxListSize < state.powerSaveAllowedList.size

def setDeviceIdleTrustlist : NetPolicyFirewall :=
  if state.overMaxSize then state
  else
    { state with
      deviceIdleAllowedList := updateFirewallPolicyList uids isAllowed
        state.deviceIdleAllowedList }.setAllowedList .dozable uids isAllowed

def setPowerSaveTrustlist : NetPolicyFirewall :=
  if state.overMaxSize then state
  else
    { state with
      powerSaveAllowedList := updateFirewallPolicyList uids isAllowed
        state.powerSaveAllowedList }.setAllowedList .powersaving uids isAllowed

def setUidsDeniedListChain (isAdd : Bool) : NetPolicyFirewall :=
  if maxListSize < uids.length then state
  else (state.setDeniedList uids isAdd).pushDeniedList .undozable

def updateDeviceIdlePolicy : NetPolicyFirewall :=
  if state.mode .dozable = enable then state
  else if enable then (state.pushAllowedList .dozable).enableFirewall .dozable true
  else state.enableFirewall .dozable false

/-- `UpdatePowerSavePolicy`. Turning the mode off clears all chains. -/
def updatePowerSavePolicy : NetPolicyFirewall :=
  if state.mode .powersaving = enable then state
  else if enable then (state.pushAllowedList .powersaving).enableFirewall .powersaving true
  else
    { state with manager := state.manager.clearAllRules }.enableFirewall
      .powersaving false

def updateIdleDenyPolicy : NetPolicyFirewall :=
  if state.mode .undozable = enable then state
  else state.enableFirewall .undozable enable

end

/-- The calls. -/
inductive Call
  | setDeviceIdleTrustlist (uids : List Uid) (isAllowed : Bool)
  | setPowerSaveTrustlist (uids : List Uid) (isAllowed : Bool)
  | setUidsDeniedListChain (uids : List Uid) (isAdd : Bool)
  | updateDeviceIdlePolicy (enable : Bool)
  | updatePowerSavePolicy (enable : Bool)
  | updateIdleDenyPolicy (enable : Bool)

/-- Make a call. -/
def step : Call → NetPolicyFirewall
  | .setDeviceIdleTrustlist uids isAllowed => state.setDeviceIdleTrustlist uids isAllowed
  | .setPowerSaveTrustlist uids isAllowed => state.setPowerSaveTrustlist uids isAllowed
  | .setUidsDeniedListChain uids isAdd => state.setUidsDeniedListChain uids isAdd
  | .updateDeviceIdlePolicy enable => state.updateDeviceIdlePolicy enable
  | .updatePowerSavePolicy enable => state.updatePowerSavePolicy enable
  | .updateIdleDenyPolicy enable => state.updateIdleDenyPolicy enable

/-- `Init`, with the sets read from the policy file and a fresh daemon. -/
def init (maxUid : Uid) (deviceIdleAllowed deviceIdleDenied : ExtTreeSet Uid)
    (powerSaveAllowed powerSaveDenied : ExtTreeSet Uid) : NetPolicyFirewall :=
  let fresh : FirewallManager := ⟨fun _ => false, fun _ => [], [], fun _ => [], [], maxUid⟩
  let read : NetPolicyFirewall :=
    { mode := fun _ => false
      uidList := fun
        | .dozable => deviceIdleAllowed.toList.foldl (allowUid true) []
        | .powersaving => powerSaveAllowed.toList.foldl (allowUid true) []
        | .undozable => []
      deviceIdleAllowedList := deviceIdleAllowed
      deviceIdleDeniedList := deviceIdleDenied
      powerSaveAllowedList := powerSaveAllowed
      powerSaveDeniedList := powerSaveDenied
      manager := fresh }
  (read.pushAllowedList .dozable).pushAllowedList .powersaving

/-! ## Enforcement -/

/-- The chains drop ordinary packets of the users that the modes are to stop. -/
def Enforced : Prop :=
  ∀ uid, systemUidRange < uid → uid ≤ state.manager.maxUid →
    (state.manager.verdict (Packet.ordinary uid) = some .drop ↔
      state.mode .dozable = true ∧ uid ∉ state.uidList .dozable ∨
        state.mode .powersaving = true ∧ uid ∉ state.uidList .powersaving ∨
          state.mode .undozable = true ∧ uid ∈ state.uidList .undozable)

/-- What a call asks for so that the chains still enforce the modes after it. -/
def Permitted : Call → Prop
  | .setDeviceIdleTrustlist _ _ => True
  | .setPowerSaveTrustlist _ _ => True
  | .setUidsDeniedListChain uids isAdd =>
    state.mode .undozable = true → uids.length ≤ maxListSize →
      (uids.foldl (denyUid isAdd) (state.uidList .undozable)).length ≤ uidsListMaxSize
  | .updateDeviceIdlePolicy enable =>
    enable = true → state.mode .dozable = false → (state.uidList .dozable).length ≤ uidsListMaxSize
  | .updatePowerSavePolicy enable =>
    if enable then
      state.mode .powersaving = false → (state.uidList .powersaving).length ≤ uidsListMaxSize
    else
      state.mode .powersaving = true → state.mode .dozable = false ∧ state.mode .undozable = false
  | .updateIdleDenyPolicy enable =>
    enable = true → state.mode .undozable = false →
      ∀ uid, ownerRule .drop uid ∈ state.manager.chains .undozable ↔ uid ∈ state.uidList .undozable

/-- What holds after permitted calls. -/
structure Invariant (state : NetPolicyFirewall) : Prop where
  enable : state.manager.enable = state.mode
  output_nodup : state.manager.output.Nodup
  mem_output : ∀ chain, chain ∈ state.manager.output ↔ state.mode chain = true
  allowedListBox : state.manager.allowedListBox = []
  denied : DeniedListRules (state.manager.chains .undozable)
  holds : ∀ chain, state.mode chain = true → state.manager.Holds chain (state.uidList chain)

namespace Invariant

variable {state : NetPolicyFirewall}

theorem enforced (invariant : state.Invariant) : state.Enforced := by
  intro uid above known
  have enabled : ∀ chain ∈ state.manager.output,
      state.manager.Holds chain (state.uidList chain) := by
    intro chain member
    exact invariant.holds chain ((invariant.mem_output chain).mp member)
  rw [verdict_eq_drop_iff invariant.allowedListBox enabled above known]
  simp only [invariant.mem_output]
  constructor
  · rintro ⟨chain, on, blocks⟩
    cases chain with
    | dozable => exact .inl ⟨on, blocks⟩
    | powersaving => exact .inr (.inl ⟨on, blocks⟩)
    | undozable => exact .inr (.inr ⟨on, blocks⟩)
  · rintro (⟨on, blocks⟩ | ⟨on, blocks⟩ | ⟨on, blocks⟩)
    · exact ⟨.dozable, on, blocks⟩
    · exact ⟨.powersaving, on, blocks⟩
    · exact ⟨.undozable, on, blocks⟩

variable {after : NetPolicyFirewall}

theorem congr (invariant : state.Invariant)
    (mode : after.mode = state.mode) (uidList : after.uidList = state.uidList)
    (manager : after.manager = state.manager) :
    after.Invariant := by
  obtain ⟨enable, outputNodup, memOutput, allowedListBox, denied, holds⟩ := invariant
  rw [← mode, ← manager] at enable
  rw [← mode, ← manager, ← uidList] at holds
  rw [← manager] at outputNodup memOutput allowedListBox denied
  rw [← mode] at memOutput
  exact ⟨enable, outputNodup, memOutput, allowedListBox, denied, holds⟩

variable {chain : ChainType}

section

variable (invariant : state.Invariant)

include invariant

/-- A write to one chain keeps the invariant when the chain holds its new list
afterwards. -/
theorem of_writesOnly
    (writes : WritesOnly chain state.manager after.manager) (mode : after.mode = state.mode)
    (lists : ∀ other, other ≠ chain → after.uidList other = state.uidList other)
    (denied : chain = .undozable → DeniedListRules (after.manager.chains .undozable))
    (holds : state.mode chain = true → after.manager.Holds chain (after.uidList chain)) :
    after.Invariant where
  enable := by rw [writes.enable, mode, invariant.enable]
  output_nodup := by
    rw [writes.output]
    exact invariant.output_nodup
  mem_output := by
    rw [writes.output, mode]
    exact invariant.mem_output
  allowedListBox := writes.allowedListBox.trans invariant.allowedListBox
  denied := by
    by_cases same : chain = .undozable
    · exact denied same
    · rw [writes.chains _ (Ne.symm same)]
      exact invariant.denied
  holds := by
    intro other on
    rw [mode] at on
    by_cases same : other = chain
    · subst same
      exact holds on
    · rw [lists other same]
      exact (invariant.holds other on).congr (writes.chains other same)
        (writes.uids other same) writes.maxUid

theorem turnOn (off : state.mode chain = false)
    (holds : state.manager.Holds chain (state.uidList chain)) :
    (state.enableFirewall chain true).Invariant := by
  have disabled : state.manager.enable chain = false := by
    rw [invariant.enable, off]
  have absent : chain ∉ state.manager.output := by
    rw [invariant.mem_output, off]
    exact Bool.false_ne_true
  have manager : state.manager.enableChain chain true =
      { state.manager with
        output := state.manager.output ++ [chain]
        enable := Function.update state.manager.enable chain true } := by
    simp [FirewallManager.enableChain, disabled]
  simp only [enableFirewall, manager]
  refine ⟨by simp [invariant.enable], ?_, fun other => ?_,
    invariant.allowedListBox, invariant.denied, fun other on => ?_⟩
  · refine nodup_append.mpr ⟨invariant.output_nodup, by simp, ?_⟩
    intro other member last single
    rw [mem_singleton.mp single]
    rintro rfl
    exact absent member
  · by_cases same : other = chain <;> simp [same, invariant.mem_output]
  · by_cases same : other = chain
    · subst same
      exact holds.congr rfl rfl rfl
    · exact (invariant.holds other (by simpa [same] using on)).congr rfl rfl rfl

theorem turnOff (chain : ChainType) : (state.enableFirewall chain false).Invariant := by
  simp only [enableFirewall, FirewallManager.enableChain, Bool.false_and,
    Bool.false_eq_true, if_false, Bool.not_false, if_true]
  refine ⟨by simp [invariant.enable], invariant.output_nodup.erase chain,
    fun other => ?_, invariant.allowedListBox, ?_, fun other on => ?_⟩
  · rw [invariant.output_nodup.mem_erase_iff]
    by_cases same : other = chain <;> simp [same, invariant.mem_output]
  · by_cases same : ChainType.undozable = chain
    · simp [← same, DeniedListRules]
    · simpa [same] using invariant.denied
  · have different : other ≠ chain := by
      rintro rfl
      simp at on
    exact (invariant.holds other (by simpa [different] using on)).congr
      (by simp [different]) (by simp [different]) rfl

theorem clearAllRules (off : ∀ chain, state.mode chain = false) :
    { state with manager := state.manager.clearAllRules }.Invariant where
  enable := invariant.enable
  output_nodup := nodup_nil
  mem_output chain := by simp [FirewallManager.clearAllRules, off]
  allowedListBox := rfl
  denied := by simp [FirewallManager.clearAllRules, DeniedListRules]
  holds chain on := by simp [off] at on

end

end Invariant

/-! ## The calls keep the invariant -/

section Calls

variable {state : NetPolicyFirewall} {chain : ChainType}

theorem Invariant.pushAllowedList (invariant : state.Invariant)
    (type : fetchChainType chain = .allowedList) :
    (state.pushAllowedList chain).Invariant := by
  unfold NetPolicyFirewall.pushAllowedList
  split
  · exact invariant
  · refine invariant.of_writesOnly (writesOnly_setUidsAllowedListChain _) rfl
      (fun _ _ => rfl) ?_ fun _ => holds_setUidsAllowedListChain type _
    rintro rfl
    cases type

theorem holds_pushAllowedList (type : fetchChainType chain = .allowedList)
    (short : (state.uidList chain).length ≤ uidsListMaxSize) :
    (state.pushAllowedList chain).manager.Holds chain
      ((state.pushAllowedList chain).uidList chain) := by
  rw [pushAllowedList, if_neg (Nat.not_lt.mpr short)]
  exact holds_setUidsAllowedListChain type _

@[simp] theorem pushAllowedList_mode : (state.pushAllowedList chain).mode = state.mode := by
  unfold pushAllowedList
  split <;> rfl

variable {manager : FirewallManager} {list : List Uid}

/-- One turn of the trust-list loops keeps the chain of a mode that is on in
step with the list. -/
theorem letsThrough_allowUid
    (holds : manager.LetsThrough chain list) (type : fetchChainType chain = .allowedList)
    (enabled : manager.enable chain = true) :
    (manager.setUidRule chain uid (ruleOf isAllowed)).LetsThrough chain
      (NetPolicyFirewall.allowUid isAllowed list uid) := by
  cases isAllowed with
  | false => exact holds.setUidRule_deny type enabled uid
  | true => simpa [allowUid, ruleOf] using holds.setUidRule_allow type enabled uid

theorem writesOnly_setUidRules (manager : FirewallManager) (uids : List Uid) :
    WritesOnly chain manager
      (uids.foldl (fun manager uid => manager.setUidRule chain uid rule) manager) := by
  induction uids generalizing manager with
  | nil => exact WritesOnly.refl
  | cons uid uids ih => exact writesOnly_setUidRule.trans (ih _)

theorem letsThrough_setUidRules
    (holds : manager.LetsThrough chain list) (type : fetchChainType chain = .allowedList)
    (enabled : manager.enable chain = true) (uids : List Uid) :
    (uids.foldl
        (fun manager uid => manager.setUidRule chain uid (ruleOf isAllowed))
        manager).LetsThrough chain
      (uids.foldl (allowUid isAllowed) list) := by
  induction uids generalizing manager list with
  | nil => exact holds
  | cons uid uids ih =>
    apply ih (letsThrough_allowUid holds type enabled)
    rw [writesOnly_setUidRule.enable, enabled]

theorem Invariant.setAllowedList (invariant : state.Invariant)
    (type : fetchChainType chain = .allowedList) (uids : List Uid) (isAllowed : Bool) :
    (state.setAllowedList chain uids isAllowed).Invariant := by
  refine invariant.of_writesOnly (writesOnly_setUidRules _ _) rfl
    (fun other different => Function.update_of_ne different _ _) ?_ fun on => ?_
  · rintro rfl
    cases type
  · have before := invariant.holds chain on
    have enabled : state.manager.enable chain = true := by
      rw [invariant.enable, on]
    simp only [Holds, type, NetPolicyFirewall.setAllowedList, Function.update_self] at before ⊢
    exact letsThrough_setUidRules before type enabled uids

theorem Invariant.setDeniedList (invariant : state.Invariant) (uids : List Uid)
    (short : state.mode .undozable = true →
      (uids.foldl (denyUid isAdd) (state.uidList .undozable)).length ≤ uidsListMaxSize) :
    ((state.setDeniedList uids isAdd).pushDeniedList .undozable).Invariant := by
  have lists : ∀ other, other ≠ ChainType.undozable →
      (state.setDeniedList uids isAdd).uidList other = state.uidList other :=
    fun other different => Function.update_of_ne different _ _
  have pushed := stops_setUidsDeniedListChain state.manager
    ((state.setDeniedList uids isAdd).uidList .undozable)
  unfold pushDeniedList
  split
  case isTrue long =>
      -- The proxy refuses the list, so the mode must be off.
      refine invariant.of_writesOnly WritesOnly.refl rfl lists
        (fun _ => invariant.denied) fun on => absurd (short on) ?_
      simpa [NetPolicyFirewall.setDeniedList] using long
  case isFalse =>
      exact invariant.of_writesOnly (writesOnly_setUidsDeniedListChain _) rfl
        lists (fun _ => pushed.denied) fun _ => pushed

end Calls

theorem Invariant.step {state : NetPolicyFirewall} (invariant : state.Invariant)
    (permitted : state.Permitted call) :
    (state.step call).Invariant := by
  cases call with
  | setDeviceIdleTrustlist uids isAllowed =>
    simp only [NetPolicyFirewall.step, setDeviceIdleTrustlist]
    split
    · exact invariant
    · refine Invariant.setAllowedList ?_ rfl uids isAllowed
      exact invariant.congr rfl rfl rfl
  | setPowerSaveTrustlist uids isAllowed =>
    simp only [NetPolicyFirewall.step, setPowerSaveTrustlist]
    split
    · exact invariant
    · refine Invariant.setAllowedList ?_ rfl uids isAllowed
      exact invariant.congr rfl rfl rfl
  | setUidsDeniedListChain uids isAdd =>
    simp only [NetPolicyFirewall.step, NetPolicyFirewall.setUidsDeniedListChain]
    split
    · exact invariant
    next few =>
        exact invariant.setDeniedList uids fun on => permitted on (Nat.not_lt.mp few)
  | updateDeviceIdlePolicy enable =>
    simp only [NetPolicyFirewall.step, updateDeviceIdlePolicy]
    split
    · exact invariant
    next changes =>
        cases enable with
        | false => exact invariant.turnOff .dozable
        | true =>
          have off : state.mode .dozable = false := by simpa using changes
          exact (invariant.pushAllowedList rfl).turnOn (by simpa using off)
            (holds_pushAllowedList rfl (permitted rfl off))
  | updatePowerSavePolicy enable =>
    simp only [NetPolicyFirewall.step, updatePowerSavePolicy]
    split
    · exact invariant
    next changes =>
        cases enable with
        | false =>
          have on : state.mode .powersaving = true := by simpa using changes
          obtain ⟨idleOff, denyOff⟩ := permitted on
          have off := (invariant.turnOff .powersaving).clearAllRules fun
            | .dozable => by simpa [enableFirewall] using idleOff
            | .powersaving => by simp [enableFirewall]
            | .undozable => by simpa [enableFirewall] using denyOff
          simpa [enableFirewall, enableChain_clearAllRules] using off
        | true =>
          have off : state.mode .powersaving = false := by simpa using changes
          exact (invariant.pushAllowedList rfl).turnOn (by simpa using off)
            (holds_pushAllowedList rfl (permitted off))
  | updateIdleDenyPolicy enable =>
    simp only [NetPolicyFirewall.step, updateIdleDenyPolicy]
    split
    · exact invariant
    next changes =>
        cases enable with
        | false => exact invariant.turnOff .undozable
        | true =>
          have off : state.mode .undozable = false := by simpa using changes
          exact invariant.turnOn off ⟨invariant.denied, permitted rfl off⟩

theorem invariant_init (maxUid : Uid) :
    (init maxUid deviceIdleAllowed deviceIdleDenied powerSaveAllowed
      powerSaveDenied).Invariant := by
  refine Invariant.pushAllowedList (Invariant.pushAllowedList ?_ rfl) rfl
  exact ⟨rfl, nodup_nil, by simp, rfl, by simp [DeniedListRules], by simp⟩

/-- After permitted calls the chains enforce the three modes independently. -/
theorem enforced_of_reach {maxUid : Uid} {deviceIdleAllowed deviceIdleDenied : ExtTreeSet Uid}
    {powerSaveAllowed powerSaveDenied : ExtTreeSet Uid} {state : NetPolicyFirewall}
    (reach : Run.Reach step Permitted
      (init maxUid deviceIdleAllowed deviceIdleDenied powerSaveAllowed powerSaveDenied) state) :
    state.Enforced := by
  have invariant := reach.invariant (invariant_init _)
    fun _ call before permitted => before.step permitted
  exact invariant.enforced

/-- Device-idle and idle-deny on with a user each, and power-save off and on. -/
theorem enforced_idleAndDeny :
    ([.setPowerSaveTrustlist [20000] true, .updatePowerSavePolicy true,
        .updatePowerSavePolicy false, .setDeviceIdleTrustlist [20001] true,
        .updateDeviceIdlePolicy true, .setUidsDeniedListChain [20002] true,
        .updateIdleDenyPolicy true, .updatePowerSavePolicy true].foldl step
      (init 4294967295 {20000} ∅ ∅ ∅)).Enforced := by
  refine enforced_of_reach (Run.Reach.start.foldl _ ?_)
  refine ⟨trivial, fun _ => by decide, fun _ => by decide, trivial,
    fun _ _ => by decide, fun _ _ => by decide, fun _ _ uid => ?_,
    fun _ => by decide, trivial⟩
  exact (stops_setUidsDeniedListChain _ [20002]).rules uid

/-- Turning power-save off while device-idle is on leaves `ohfw_OUTPUT` empty:
a user that device-idle is to stop gets through. -/
theorem not_enforced_powerSaveOff :
    ¬ ([.updateDeviceIdlePolicy true, .updatePowerSavePolicy true,
        .updatePowerSavePolicy false].foldl step
      (init 4294967295 ∅ ∅ ∅ ∅)).Enforced := by
  intro enforced
  have dropped := (enforced 20000 (by decide) (by decide)).mpr (.inl ⟨by decide, by decide⟩)
  revert dropped
  decide

end NetPolicyFirewall

end NetManager.Policy
