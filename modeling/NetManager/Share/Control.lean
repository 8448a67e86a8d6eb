import Mathlib.Data.List.Nodup
import NetManager.Share.MainStateMachine

/-!
# What the machines of network sharing decide on

The control part of the system: the states of the machines, their lists, and whether
IP forwarding is requested. Most of what a handler does leaves it as it is; it is
settled when the lists hold the sub machines that share and the main machine is alive
exactly while there is one.
-/

namespace NetManager.Share

open List Std

/-! ## Downstreams -/

/-- What a machine is created with. -/
def SubStateMachine.settings (machine : SubStateMachine) :
    String × SharingIfaceType × NetworkShareConfiguration :=
  (machine.ifaceName, machine.netShareType, machine.configuration)

/-- Two downstreams of one machine, in the same state, with the same requests for
forwarding. -/
structure Downstream.Alike (before after : Downstream) : Prop where
  curState : after.machine.curState = before.machine.curState
  settings : after.machine.settings = before.machine.settings
  forwardingRequested : after.netsys.forwardingRequested = before.netsys.forwardingRequested

namespace Downstream

variable {env : Environment} {first second third downstream : Downstream}

theorem Alike.refl : Alike downstream downstream := ⟨rfl, rfl, rfl⟩

theorem Alike.trans (left : Alike first second) (right : Alike second third) : Alike first third :=
  ⟨right.curState.trans left.curState, right.settings.trans left.settings,
    right.forwardingRequested.trans left.forwardingRequested⟩

end Downstream

namespace Netsys

variable (env : Environment) (netsys : Netsys) (iface other : String)

@[simp] theorem forwardingRequested_next :
    netsys.next.forwardingRequested = netsys.forwardingRequested :=
  rfl

@[simp] theorem forwardingRequested_ipfwdAddInterfaceForward :
    (netsys.ipfwdAddInterfaceForward env iface other).1.forwardingRequested =
      netsys.forwardingRequested := by
  unfold ipfwdAddInterfaceForward
  split <;> rfl

@[simp] theorem forwardingRequested_ipfwdRemoveInterfaceForward :
    (netsys.ipfwdRemoveInterfaceForward env iface other).forwardingRequested =
      netsys.forwardingRequested := by
  unfold ipfwdRemoveInterfaceForward
  split <;> rfl

@[simp] theorem forwardingRequested_networkAddRoute :
    (netsys.networkAddRoute env iface other).1.forwardingRequested =
      netsys.forwardingRequested := by
  unfold networkAddRoute
  split <;> rfl

@[simp] theorem forwardingRequested_networkRemoveRoute :
    (netsys.networkRemoveRoute env iface other).1.forwardingRequested =
      netsys.forwardingRequested := by
  unfold networkRemoveRoute
  split <;> rfl

@[simp] theorem forwardingRequested_startDhcpServer :
    (netsys.startDhcpServer env iface).1.forwardingRequested = netsys.forwardingRequested := by
  unfold startDhcpServer
  split <;> rfl

@[simp] theorem forwardingRequested_stopDhcpServer :
    (netsys.stopDhcpServer env iface).1.forwardingRequested = netsys.forwardingRequested := by
  unfold stopDhcpServer
  split <;> rfl

@[simp] theorem forwardingRequested_ask :
    (netsys.ask env request).1.forwardingRequested = netsys.forwardingRequested :=
  rfl

end Netsys

namespace Downstream

variable (env : Environment) (downstream : Downstream)

theorem alike_removeRoutesToLocalNetwork :
    Alike downstream (downstream.removeRoutesToLocalNetwork env) := by
  unfold removeRoutesToLocalNetwork
  split
  · exact .refl
  · dsimp only
    split <;> exact ⟨rfl, rfl, by simp⟩

theorem alike_addRoutesToLocalNetwork :
    Alike downstream (downstream.addRoutesToLocalNetwork env) := by
  unfold addRoutesToLocalNetwork
  split
  · exact .refl
  · split
    · exact .refl
    · dsimp only
      split <;> exact ⟨rfl, rfl, by simp⟩

theorem alike_cleanupUpstreamInterface :
    Alike downstream (downstream.cleanupUpstreamInterface env) := by
  have removed := downstream.alike_removeRoutesToLocalNetwork env
  unfold cleanupUpstreamInterface
  dsimp only
  split <;> exact removed.trans ⟨rfl, rfl, by simp⟩

theorem alike_renamed (iface : String) :
    Alike downstream ((downstream.cleanupUpstreamInterface env).setUpstreamIfaceName iface) :=
  (downstream.alike_cleanupUpstreamInterface env).trans ⟨rfl, rfl, rfl⟩

theorem alike_startDhcp : Alike downstream (downstream.startDhcp env) := by
  unfold startDhcp
  split
  · exact .refl
  · split
    · exact .refl
    · dsimp only
      split <;> exact ⟨rfl, rfl, by simp⟩

theorem alike_stopDhcp : Alike downstream (downstream.stopDhcp env) := by
  unfold stopDhcp
  split
  · exact .refl
  · exact ⟨rfl, rfl, by simp⟩

theorem alike_configureShareDhcp (enabled : Bool) :
    Alike downstream (downstream.configureShareDhcp env enabled) := by
  unfold configureShareDhcp
  split
  · split
    · exact .refl
    · split
      · exact .refl
      · exact downstream.alike_startDhcp env
  · exact downstream.alike_stopDhcp env

theorem alike_configureShareIpv4 (link : NetLinkInfo) :
    Alike downstream (downstream.configureShareIpv4 env link) := by
  unfold configureShareIpv4
  split
  · exact (downstream.alike_addRoutesToLocalNetwork env).trans (alike_configureShareDhcp env _ true)
  · exact .refl

theorem forwardingRequested_addIpv6Addrs (netsys : Netsys) :
    (addIpv6Addrs env iface netsys prefixes).1.forwardingRequested =
      netsys.forwardingRequested := by
  induction prefixes generalizing netsys with
  | nil => rfl
  | cons inetAddr rest ih =>
    unfold addIpv6Addrs
    dsimp only
    split
    · rfl
    · rw [ih]
      simp

theorem alike_addIpv6InfoToLocalNetwork (prefixes : List INetAddr) :
    Alike downstream (downstream.addIpv6InfoToLocalNetwork env prefixes) := by
  unfold addIpv6InfoToLocalNetwork
  dsimp only
  split
  · exact ⟨rfl, rfl, rfl⟩
  · split <;> exact ⟨rfl, rfl, by simp [forwardingRequested_addIpv6Addrs]⟩

theorem alike_startIpv6 : Alike downstream (downstream.startIpv6 env) := by
  unfold startIpv6
  dsimp only
  split
  · exact ⟨rfl, rfl, rfl⟩
  · split <;> exact ⟨rfl, rfl, rfl⟩

theorem alike_configureShareIpv6 (link : NetLinkInfo) :
    Alike downstream (downstream.configureShareIpv6 env link) := by
  unfold configureShareIpv6
  dsimp only
  split
  · exact .refl
  · split
    · exact .refl
    · exact (downstream.alike_addIpv6InfoToLocalNetwork env _).trans (alike_startIpv6 env _)

theorem alike_stopIpv6 : Alike downstream downstream.stopIpv6 := ⟨rfl, rfl, rfl⟩

theorem alike_sharedStateExit : Alike downstream (downstream.sharedStateExit env) := by
  have cleaned := downstream.alike_cleanupUpstreamInterface env
  have stopped := alike_configureShareDhcp env (downstream.cleanupUpstreamInterface env) false
  exact (cleaned.trans stopped).trans (alike_stopIpv6 _)

theorem lastError_removeRoutesToLocalNetwork :
    (downstream.removeRoutesToLocalNetwork env).machine.lastError =
      downstream.machine.lastError := by
  unfold removeRoutesToLocalNetwork
  split
  · rfl
  · dsimp only
    split <;> rfl

theorem lastError_cleanupUpstreamInterface :
    (downstream.cleanupUpstreamInterface env).machine.lastError = downstream.machine.lastError := by
  have removed := downstream.lastError_removeRoutesToLocalNetwork env
  unfold cleanupUpstreamInterface
  dsimp only
  split <;> exact removed

theorem lastError_stopDhcp :
    (downstream.stopDhcp env).machine.lastError = downstream.machine.lastError := by
  unfold stopDhcp
  split <;> rfl

/-- The error that a sub machine reports is set before it leaves the shared state. -/
theorem lastError_sharedStateExit :
    (downstream.sharedStateExit env).machine.lastError = downstream.machine.lastError := by
  have stopped := lastError_stopDhcp env (downstream.cleanupUpstreamInterface env)
  rw [lastError_cleanupUpstreamInterface] at stopped
  unfold sharedStateExit stopIpv6 configureShareDhcp
  exact stopped

theorem forwardingRequested_addTunv4Forward (netsys : Netsys) :
    (addTunv4Forward env iface tunv4 netsys).1.forwardingRequested =
      netsys.forwardingRequested := by
  unfold addTunv4Forward
  split
  · rfl
  · dsimp only
    split <;> simp

theorem alike_handleConnection : Alike downstream (downstream.handleConnection env).1 := by
  unfold handleConnection
  dsimp only
  split
  · split
    · exact ⟨rfl, rfl, by simp [forwardingRequested_addTunv4Forward]⟩
    · refine ⟨rfl, rfl, ?_⟩
      unfold removeForwards
      split <;> simp [forwardingRequested_addTunv4Forward]
  · exact ⟨rfl, rfl, by simp⟩

end Downstream

/-! ## The control part -/

/-- What the machines decide on. -/
@[ext]
structure Control where
  mainState : MainState
  hasSetForward : Bool
  subMachineList : List Nat
  sharedSubSM : List Nat
  /-- `netsharing_requester` holds IP forwarding. -/
  forwardingRequested : Bool
  states : Nat → SubState
  /-- How many sub machines were created. -/
  created : Nat
  /-- The sub machines that the tracker knows by name. -/
  machines : String → Option Nat

/-- The control part of the system. -/
def System.control (system : System) : Control where
  mainState := system.main.curState
  hasSetForward := system.main.hasSetForward
  subMachineList := system.main.subMachineList
  sharedSubSM := system.sharedSubSM
  forwardingRequested := system.netsys.forwardingRequested
  states id := (system.subs id).curState
  created := system.created
  machines name := (system.subStateMachineMap[name]?).map NetSharingSubSmState.subStateMachine

namespace Control

section

variable (control : Control) (id : Nat)

/-- A sub machine goes to another state. -/
def setState (state : SubState) : Control :=
  { control with states := Function.update control.states id state }

/-- The main machine turns forwarding off. -/
def off : Control :=
  { control with
    mainState := .init
    hasSetForward := false
    forwardingRequested := false }

/-- A sub machine is put into both lists. -/
def add : Control :=
  { control with
    subMachineList := control.subMachineList ++ [id]
    sharedSubSM := control.sharedSubSM ++ [id] }

/-- The main machine has turned forwarding on. -/
def on : Control :=
  { control with
    mainState := .alive
    hasSetForward := true
    forwardingRequested := true }

/-- A sub machine is taken from both lists. -/
def erase : Control :=
  { control with
    subMachineList := control.subMachineList.filter (· ≠ id)
    sharedSubSM := control.sharedSubSM.erase id }

end

/-- The main machine follows the lists: it is idle without sub machines and alive with
one. -/
structure Follows (control : Control) : Prop where
  same : control.sharedSubSM = control.subMachineList
  nodup : control.subMachineList.Nodup
  idle : control.subMachineList = [] →
    control.mainState = .init ∧ control.hasSetForward = false ∧ control.forwardingRequested = false
  active : control.subMachineList ≠ [] → control.mainState = .alive ∧ control.hasSetForward = true
  known : ∀ name id, control.machines name = some id → id < control.created
  fresh : ∀ id, control.created ≤ id → control.states id ≠ .shared

/-- Between events, the lists hold the sub machines that share. -/
structure Settled (control : Control) : Prop extends Follows control where
  mem_iff : ∀ id, id ∈ control.subMachineList ↔ control.states id = .shared

/-- A sub machine does not share any more, or never did, and may still be listed. -/
structure Leaving (control : Control) (id : Nat) : Prop extends Follows control where
  notShared : control.states id ≠ .shared
  others : ∀ other, other ≠ id → (other ∈ control.subMachineList ↔ control.states other = .shared)

/-- A sub machine shares and is not yet listed. -/
structure Joining (control : Control) (id : Nat) : Prop extends Follows control where
  shared : control.states id = .shared
  notListed : id ∉ control.subMachineList
  others : ∀ other, other ≠ id → (other ∈ control.subMachineList ↔ control.states other = .shared)

variable {control : Control} {id : Nat} {state : SubState}

@[simp] theorem states_setState_self : (control.setState id state).states id = state := by
  simp [setState]

variable {other : Nat}

theorem states_setState_of_ne (different : other ≠ id) :
    (control.setState id state).states other = control.states other := by
  simp only [setState, Function.update_of_ne different]

theorem Follows.mainState_ne_error (follows : control.Follows) : control.mainState ≠ .error := by
  by_cases empty : control.subMachineList = []
  · rw [(follows.idle empty).1]
    simp
  · rw [(follows.active empty).1]
    simp

theorem Follows.fresh_setState (follows : control.Follows) (notShared : state ≠ .shared)
    (other : Nat) (isFresh : control.created ≤ other) :
    (control.setState id state).states other ≠ .shared := by
  by_cases same : other = id
  · rw [same, states_setState_self]
    exact notShared
  · rw [states_setState_of_ne same]
    exact follows.fresh other isFresh

theorem Settled.leaving (settled : control.Settled) (notShared : state ≠ .shared) :
    (control.setState id state).Leaving id :=
  { settled.toFollows with
    fresh := settled.fresh_setState notShared
    notShared := by
      rw [states_setState_self]
      exact notShared
    others := by
      intro other different
      rw [states_setState_of_ne different]
      exact settled.mem_iff other }

theorem Settled.joining (settled : control.Settled) (isKnown : id < control.created)
    (notShared : control.states id ≠ .shared) :
    (control.setState id .shared).Joining id :=
  { settled.toFollows with
    fresh := by
      intro other isFresh
      have different : other ≠ id := by
        rintro rfl
        exact absurd isKnown (Nat.not_lt.mpr isFresh)
      rw [states_setState_of_ne different]
      exact settled.fresh other isFresh
    shared := states_setState_self
    notListed := fun member => notShared ((settled.mem_iff id).mp member)
    others := by
      intro other different
      rw [states_setState_of_ne different]
      exact settled.mem_iff other }

variable {machines : String → Option Nat}

theorem Settled.create (settled : control.Settled)
    (known : ∀ name id, machines name = some id → id < control.created + 1) :
    Settled { control.setState control.created .init with
      created := control.created + 1
      machines } :=
  { settled.toFollows with
    known := known
    fresh := fun other isFresh => settled.fresh_setState (by simp) other (Nat.le_of_succ_le isFresh)
    mem_iff := by
      intro other
      change other ∈ control.subMachineList ↔
        (control.setState control.created .init).states other = .shared
      by_cases same : other = control.created
      · rw [same, states_setState_self, settled.mem_iff]
        exact iff_of_false (settled.fresh _ (Nat.le_refl _)) (by simp)
      · rw [states_setState_of_ne same]
        exact settled.mem_iff other }

theorem Settled.forget (settled : control.Settled)
    (fewer : ∀ name id, machines name = some id → control.machines name = some id) :
    Settled { control with machines } :=
  { settled with known := fun name id found => settled.known name id (fewer name id found) }

theorem mem_erase_iff :
    other ∈ (control.erase id).subMachineList ↔ other ∈ control.subMachineList ∧ other ≠ id := by
  simp [erase]

section

variable (leaving : control.Leaving id)

include leaving

theorem Leaving.mem_erase_iff (other : Nat) :
    other ∈ (control.erase id).subMachineList ↔ control.states other = .shared := by
  rw [Control.mem_erase_iff]
  by_cases same : other = id
  · subst same
    simp [leaving.notShared]
  · rw [and_iff_left same]
    exact leaving.others other same

theorem Leaving.erase_same :
    (control.erase id).sharedSubSM = (control.erase id).subMachineList := by
  change control.sharedSubSM.erase id = control.subMachineList.filter (· ≠ id)
  rw [leaving.same, leaving.nodup.erase_eq_filter]
  refine filter_congr fun other _ => ?_
  by_cases same : other = id <;> simp [same]

theorem Leaving.settled_of_idle (empty : control.subMachineList = []) :
    (control.erase id).Settled :=
  { leaving.toFollows with
    same := leaving.erase_same
    nodup := leaving.nodup.filter _
    idle := fun _ => leaving.idle empty
    active := fun listed => absurd (by simp [erase, empty]) listed
    mem_iff := leaving.mem_erase_iff }

theorem Leaving.settled_of_active (listed : (control.erase id).subMachineList ≠ []) :
    (control.erase id).Settled :=
  { leaving.toFollows with
    same := leaving.erase_same
    nodup := leaving.nodup.filter _
    idle := fun empty => absurd empty listed
    active := fun _ => leaving.active fun empty => listed (by simp [erase, empty])
    mem_iff := leaving.mem_erase_iff }

theorem Leaving.settled_off (empty : (control.erase id).subMachineList = []) :
    (control.erase id).off.Settled :=
  { leaving.toFollows with
    same := leaving.erase_same
    nodup := leaving.nodup.filter _
    idle := fun _ => ⟨rfl, rfl, rfl⟩
    active := fun listed => absurd empty listed
    mem_iff := leaving.mem_erase_iff }

end

section

variable (joining : control.Joining id)

include joining

theorem Joining.nodup_add : (control.add id).subMachineList.Nodup := by
  refine nodup_append.mpr ⟨joining.nodup, nodup_singleton id, ?_⟩
  intro other listed last isLast same
  rw [same, mem_singleton.mp isLast] at listed
  exact joining.notListed listed

theorem Joining.mem_add_iff (other : Nat) :
    other ∈ (control.add id).subMachineList ↔ control.states other = .shared := by
  change other ∈ control.subMachineList ++ [id] ↔ _
  rw [mem_append, mem_singleton]
  by_cases same : other = id
  · subst same
    simp [joining.shared]
  · simp [same, joining.others other same]

theorem Joining.add_same : (control.add id).sharedSubSM = (control.add id).subMachineList := by
  change control.sharedSubSM ++ [id] = control.subMachineList ++ [id]
  rw [joining.same]

theorem Joining.settled_of_active (listed : control.subMachineList ≠ []) :
    (control.add id).Settled :=
  { joining.toFollows with
    same := joining.add_same
    nodup := joining.nodup_add
    idle := fun empty => absurd empty (by simp [add])
    active := fun _ => joining.active listed
    mem_iff := joining.mem_add_iff }

theorem Joining.settled_on : (control.add id).on.Settled :=
  { joining.toFollows with
    same := joining.add_same
    nodup := joining.nodup_add
    idle := fun empty => absurd empty (by simp [add, on])
    active := fun _ => ⟨rfl, rfl⟩
    mem_iff := joining.mem_add_iff }

theorem Joining.erase_add (empty : control.subMachineList = []) :
    ({ (control.add id).setState id state with mainState := .init }).erase id =
      control.setState id state := by
  ext1
  case mainState => exact (joining.idle empty).1.symm
  case subMachineList =>
    change (control.subMachineList ++ [id]).filter (· ≠ id) = control.subMachineList
    simp [empty]
  case sharedSubSM =>
    change (control.sharedSubSM ++ [id]).erase id = control.sharedSubSM
    simp [joining.same, empty]
  all_goals rfl

/-- The first one does not share any more, and forwarding was not turned on. -/
theorem Joining.settled_refused (notShared : state ≠ .shared) :
    (control.setState id state).Settled :=
  { joining.toFollows with
    fresh := joining.fresh_setState notShared
    mem_iff := by
      intro other
      by_cases same : other = id
      · rw [same, states_setState_self]
        exact iff_of_false joining.notListed notShared
      · rw [states_setState_of_ne same]
        exact joining.others other same }

end

end Control

namespace System

variable {system : System} {id : Nat}

theorem states_update :
    (fun other => (Function.update system.subs id machine other).curState) =
      Function.update system.control.states id machine.curState :=
  funext (Function.apply_update (fun _ => SubStateMachine.curState) system.subs id machine)

/-- Most changes of a sub machine and of what is installed are of no concern. -/
theorem control_put {downstream : Downstream}
    (alike : Downstream.Alike (system.downstream id) downstream) :
    (system.put id downstream).control = system.control := by
  ext1
  case states =>
    refine states_update.trans ?_
    rw [alike.curState]
    exact Function.update_eq_self id _
  case forwardingRequested => exact alike.forwardingRequested
  all_goals rfl

theorem control_modifySub (keeps : (change (system.subs id)).curState = (system.subs id).curState) :
    (system.modifySub id change).control = system.control := by
  ext1
  case states =>
    refine states_update.trans ?_
    rw [keeps]
    exact Function.update_eq_self id _
  all_goals rfl

theorem control_modifySub_curState :
    (system.modifySub id fun machine => { machine with curState := state }).control =
      system.control.setState id state := by
  ext1
  case states => exact states_update
  all_goals rfl

variable {callback : Nat → SubSmState → ShareError → System → Option System} {event : SubEvent}

theorem subSmEventHandleWith_eq
    (next : event.nextState (system.subs id).curState = some (some newState))
    (action : subSmAction env callback id event system = some acted) :
    subSmEventHandleWith env callback id event system =
      subSmStateSwitch env callback id newState acted := by
  unfold subSmEventHandleWith
  rw [next, action]
  rfl

theorem subSmEventHandleWith_of_none (next : event.nextState (system.subs id).curState = none) :
    subSmEventHandleWith env callback id event system = some system := by
  unfold subSmEventHandleWith
  rw [next]

end System

end NetManager.Share
