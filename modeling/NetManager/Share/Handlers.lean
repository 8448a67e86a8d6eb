import NetManager.Library.Ends
import NetManager.Share.Control

/-!
# How the handlers end

Each handler of the main machine and of the tracker keeps the control part settled, as
long as the DNS forwarders can be set and a failed request for IP forwarding is not
recorded. Events nest at most twice: a handler that is run for a sub machine either
leaves the control part as it is or takes that sub machine out of the shared state,
and with the last one nobody is left to be notified.
-/

namespace NetManager.Share

open Std Ends Downstream

/-- `IpDisableForwarding` succeeds. -/
def Environment.DisablesForwarding (env : Environment) : Prop :=
  ∀ request, env.succeeds request .ipDisableForwarding = true

/-- The DNS forwarders can be set, and `IpEnableForwarding` does not fail after it has
recorded its requester. -/
structure Environment.Reliable (env : Environment) : Prop where
  startDnsProxyListen : ∀ request, env.succeeds request .startDnsProxyListen = true
  shareDnsSet : ∀ request netId, env.succeeds request (.shareDnsSet netId) = true
  netId : ∀ request netId link, env.goodUpstream request = some (some netId, link) → 0 ≤ netId
  recorded : ∀ request, env.succeeds request .ipEnableForwarding = false →
    env.recorded request = false

/-- How the tracker is told of a state of a sub machine. -/
def SubState.reported : SubState → SubSmState
  | .init => .available
  | .shared => .shared
  | .unavailable => .unavailable

namespace System

/-! ## Loops -/

variable {system : System}

theorem ends_forEach
    (preserved : ∀ id system, invariant system → Ends.Within (body id system) invariant)
    (remaining index : Nat) (holds : invariant system) :
    Ends.Within (forEach list body remaining index system) invariant := by
  induction remaining generalizing index system with
  | zero => exact done holds
  | succ remaining ih =>
    unfold forEach
    split
    · exact ih (index + 1) holds
    next id _ =>
      exact (preserved id system holds).bind fun _ holdsNext => ih (index + 1) holdsNext

theorem ends_forEach_singleton {id : Nat} (only : list system = [id])
    (once : Ends.Within (body id system) property) :
    Ends.Within (forEach list body 1 0 system) property := by
  unfold forEach
  rw [only]
  exact once.bind fun _ holds => done holds

section Handlers

variable (env : Environment) (sub : Nat → SubEvent → System → Option System)
variable {system : System} {id : Nat} {control : Control}

/-! ## The last sub machine -/

theorem ends_notifyDownstreams_of_nil (is : system.control = control)
    (empty : control.sharedSubSM = []) (upstream : Option UpstreamNetworkInfo) :
    Ends.Within (notifyDownstreams sub upstream system) (·.control = control) := by
  subst is
  have none : system.sharedSubSM.length = 0 := congrArg List.length empty
  unfold notifyDownstreams
  rw [none]
  exact done rfl

theorem control_stopDnsProxy : (system.stopDnsProxy env).control = system.control := by
  unfold stopDnsProxy
  split
  · dsimp only
    split <;> rfl
  · rfl

theorem ends_disableForward_of_nil (is : system.control = control)
    (empty : control.sharedSubSM = []) :
    Ends.Within (disableForward env sub system) (·.control = control) := by
  refine (Ends.Within.bind ?_ fun result notified =>
    ends_notifyDownstreams_of_nil sub notified empty none).bind fun result notified => done notified
  exact done ((control_stopDnsProxy env).trans is)

theorem ends_leaveState_of_nil (is : system.control = control) (empty : control.sharedSubSM = []) :
    Ends.Within (leaveState sub newState system)
      (·.control = { control with mainState := newState }) := by
  subst is
  unfold leaveState
  dsimp only
  split
  · refine ends_notifyDownstreams_of_nil sub ?_ ?_ none
    · rfl
    · exact empty
  · exact done rfl

theorem ends_turnOff_of_nil (disables : env.DisablesForwarding) (is : system.control = control)
    (empty : control.sharedSubSM = []) :
    Ends.Within (turnOffMainShareSettings env sub system) (·.control = control.off) := by
  subst is
  have disabled : system.netsys.ipDisableForwarding env =
      ({ system.netsys.next with forwardingRequested := false }, true) :=
    if_pos (disables _)
  unfold turnOffMainShareSettings switchToInit
  simp only [disabled, Bool.not_true, Bool.false_eq_true, if_false]
  have released : ({ system with
      netsys := { system.netsys.next with forwardingRequested := false } } :
        System).control = { system.control with forwardingRequested := false } := rfl
  refine (ends_leaveState_of_nil sub released empty).bind fun result left => ?_
  refine done ?_
  exact congrArg (fun control : Control => { control with hasSetForward := false }) left

theorem control_eraseSharedSubSM : (eraseSharedSubSM id system).control = system.control.erase id :=
  rfl

theorem ends_inactive (disables : env.DisablesForwarding) (leaving : system.control.Leaving id) :
    Ends.Within (mainSmEventHandle env sub (.ifaceSmStateInactive id) system)
      (·.control.Settled) := by
  by_cases empty : system.control.subMachineList = []
  · have isInit : system.main.curState = .init := (leaving.idle empty).1
    unfold mainSmEventHandle
    simp only [isInit]
    exact done (leaving.settled_of_idle empty)
  · have isAlive : system.main.curState = .alive := (leaving.active empty).1
    unfold mainSmEventHandle handleAliveInterfaceStateInactive
    simp only [isAlive]
    split
    next isEmpty =>
      have last : (system.control.erase id).subMachineList = [] := List.isEmpty_iff.mp isEmpty
      have nobody : (system.control.erase id).sharedSubSM = [] := leaving.erase_same.trans last
      refine (ends_disableForward_of_nil env sub
        control_eraseSharedSubSM nobody).bind fun result disabled => ?_
      refine (ends_turnOff_of_nil env sub disables disabled nobody).mono fun result turnedOff => ?_
      rw [turnedOff]
      exact leaving.settled_off last
    next stillListed =>
      refine done ?_
      refine leaving.settled_of_active fun last => stillListed ?_
      exact List.isEmpty_iff.mpr last

theorem mainSmEventHandle_clearError (noError : system.main.curState ≠ .error) :
    mainSmEventHandle env sub .clearError system = some system := by
  unfold mainSmEventHandle
  cases state : system.main.curState with
  | init => rfl
  | alive => rfl
  | error => exact absurd state noError

theorem control_noteState (system : System) (id : Nat) (state : SubSmState)
    (lastError : ShareError) :
    (noteState id state lastError system).control = system.control := by
  unfold noteState
  dsimp only
  split
  · rfl
  next shareState found =>
    ext1
    case machines =>
      funext name
      simp only [System.control, ExtTreeMap.getElem?_insert]
      split
      next same =>
        rw [← LawfulEqCmp.compare_eq_iff_eq.mp same, found]
        rfl
      · rfl
    all_goals rfl

/-- Outside the error state the main machine only hears of the state. -/
theorem ends_updateInterfaceState (noError : system.control.mainState ≠ .error)
    (told : ∀ noted : System, noted.control = system.control →
      Ends.Within (mainSmEventHandle env sub (reportedEvent id state) noted) property) :
    Ends.Within (handleSubSmUpdateInterfaceState env sub id state lastError system)
      property := by
  have same := control_noteState system id state lastError
  have notedNoError : (noteState id state lastError system).main.curState ≠ .error := by
    rw [← same] at noError
    exact noError
  unfold handleSubSmUpdateInterfaceState
  dsimp only
  rw [mainSmEventHandle_clearError env sub notedNoError, ite_self]
  exact told _ same

/-! ## A sub machine leaves the shared state -/

theorem control_exitSubState (id : Nat) (newState : SubState) (system : System) :
    (exitSubState env id newState system).control = system.control.setState id newState := by
  unfold exitSubState
  split
  · exact (control_put (alike_sharedStateExit env _)).trans control_modifySub_curState
  · exact control_modifySub_curState

theorem lastError_exitSubState (id : Nat) (newState : SubState) (system : System) :
    ((exitSubState env id newState system).subs id).lastError = (system.subs id).lastError := by
  unfold exitSubState
  split
  · simp [put, lastError_sharedStateExit, downstream, modifySub]
  · simp [modifySub]

theorem exists_subSmStateSwitch_eq (id : Nat)
    (system : System) :
    ∃ lastError switched,
      subSmStateSwitch env callback id newState system =
        callback id newState.reported lastError switched ∧
      switched.control = system.control.setState id newState ∧
      (newState = .init → lastError = (system.subs id).lastError) := by
  have entered := control_exitSubState env id newState system
  have error := lastError_exitSubState env id newState system
  cases newState with
  | init => exact ⟨_, _, rfl, entered, fun _ => error⟩
  | shared => exact ⟨_, _, rfl, entered, by simp⟩
  | unavailable => exact ⟨_, _, rfl, (control_modifySub (by rfl)).trans entered, by simp⟩

theorem ends_subSmStateSwitch (disables : env.DisablesForwarding) (settled : system.control.Settled)
    (notShared : newState ≠ .shared) :
    Ends.Within
      (subSmStateSwitch env (handleSubSmUpdateInterfaceState env sub) id newState system)
      (·.control.Settled) := by
  obtain ⟨lastError, switched, equation, same, _⟩ := exists_subSmStateSwitch_eq env id system
  have leaving : switched.control.Leaving id := by
    rw [same]
    exact settled.leaving notShared
  have inactive : reportedEvent id newState.reported = .ifaceSmStateInactive id := by
    cases newState with
    | init => rfl
    | shared => exact absurd rfl notShared
    | unavailable => rfl
  rw [equation]
  refine ends_updateInterfaceState env sub leaving.mainState_ne_error
    fun noted notedSame => ?_
  rw [inactive]
  rw [← notedSame] at leaving
  exact ends_inactive env sub disables leaving

/-! ## Another upstream -/

section

variable (disables : env.DisablesForwarding)

include disables

/-- A sub machine hears of another upstream interface; where it cannot connect, it
leaves the shared state. -/
theorem ends_changeUpstreamIface (settled : system.control.Settled) :
    Ends.Within
      (changeUpstreamIface env (handleSubSmUpdateInterfaceState env sub) id upstreamIface system)
      (·.control.Settled) := by
  have renamed := alike_renamed env (system.downstream id) upstreamIface
  have connected := renamed.trans (alike_handleConnection env _)
  unfold changeUpstreamIface
  split
  case isFalse => exact done settled
  case isTrue =>
    dsimp only
    split
    · refine done ?_
      rw [control_put renamed]
      exact settled
    · rw [← control_put connected] at settled
      split
      · exact done settled
      · exact ends_subSmStateSwitch env sub disables settled (by simp)

theorem ends_handleConnectionChanged (settled : system.control.Settled) :
    Ends.Within
      (handleConnectionChanged env (handleSubSmUpdateInterfaceState env sub) id link system)
      (·.control.Settled) := by
  refine (ends_changeUpstreamIface env sub disables settled).bind
    fun changed settledNow => ?_
  have configured :=
    (alike_configureShareIpv4 env (changed.downstream id) link).trans
      (alike_configureShareIpv6 env _ link)
  refine done ?_
  rw [control_put configured]
  exact settledNow

end

theorem nextState_connectionChanged
    (is : (SubEvent.connectionChanged upstream).nextState state = some next) :
    next = none := by
  cases state <;> simp_all [SubEvent.nextState]

section

variable (disables : env.DisablesForwarding)

include disables

theorem ends_connectionChanged (settled : system.control.Settled) :
    Ends.Within (subSmEventHandle env (depth + 1) id (.connectionChanged upstream) system)
      (·.control.Settled) := by
  unfold subSmEventHandle subSmEventHandleWith
  split
  · exact done settled
  next nextState next =>
    obtain rfl := nextState_connectionChanged next
    refine Ends.Within.bind ?_ fun result settledNow => done settledNow
    match upstream with
    | none =>
      refine done ?_
      rw [control_put (alike_renamed env (system.downstream id) "")]
      exact settled
    | some ⟨_, none⟩ => exact done settled
    | some ⟨_, some link⟩ => exact ends_handleConnectionChanged env _ disables settled

theorem ends_notifyDownstreams (settled : system.control.Settled) :
    Ends.Within (notifyDownstreams (subSmEventHandle env (depth + 1)) upstream system)
      (·.control.Settled) := by
  refine ends_forEach (fun id result settledNow => ?_) _ 0 settled
  exact ends_connectionChanged env disables settledNow

end

theorem startDnsProxy_spec (reliable : env.Reliable) (system : System) :
    (system.startDnsProxy env).1.control = system.control ∧
      (system.startDnsProxy env).2 = true := by
  unfold startDnsProxy
  split
  · exact ⟨rfl, rfl⟩
  · exact ⟨rfl, reliable.startDnsProxyListen _⟩

theorem ends_setDnsForwarders (reliable : env.Reliable) (valid : 0 ≤ netId) :
    Ends.Within (setDnsForwarders env sub netId system) (·.control = system.control) := by
  obtain ⟨same, started⟩ := startDnsProxy_spec env reliable system
  have set : ((system.startDnsProxy env).1.ask env (.shareDnsSet netId)).2 = true :=
    reliable.shareDnsSet _ netId
  unfold setDnsForwarders
  simp only [started, set, Bool.not_true, Bool.false_eq_true, if_false,
    if_neg (Int.not_lt.mpr valid)]
  exact done same

section

variable (disables : env.DisablesForwarding) (reliable : env.Reliable) (depth : Nat)

include disables reliable depth

theorem ends_setUpstreamNetHandle
    (valid : ∀ netId, upstream.bind UpstreamNetworkInfo.netHandle = some netId → 0 ≤ netId)
    (settled : system.control.Settled) :
    Ends.Within
      (setUpstreamNetHandle env (subSmEventHandle env (depth + 1)) upstream system)
      (·.control.Settled) := by
  unfold setUpstreamNetHandle
  split
  next netId found =>
    refine (ends_setDnsForwarders env _ reliable (valid netId found)).bind
      fun result same => ?_
    exact ends_notifyDownstreams env disables (by rwa [same])
  · refine ends_notifyDownstreams env disables ?_
    rw [control_stopDnsProxy]
    exact settled

theorem ends_chooseUpstreamNetwork (settled : system.control.Settled) :
    Ends.Within (chooseUpstreamNetwork env (subSmEventHandle env (depth + 1)) system)
      (·.control.Settled) := by
  unfold chooseUpstreamNetwork
  split
  · exact done settled
  next netHandle link good =>
    refine ends_setUpstreamNetHandle env disables reliable depth ?_ settled
    intro netId found
    have handle : netHandle = some netId := found
    rw [handle] at good
    exact reliable.netId _ netId link good

theorem ends_disableForward (settled : system.control.Settled) :
    Ends.Within (disableForward env (subSmEventHandle env (depth + 1)) system)
      (·.control.Settled) := by
  exact (ends_setUpstreamNetHandle env disables reliable depth (by simp)
    settled).bind fun result settledNow => done settledNow

end

/-! ## A sub machine enters the shared state -/

theorem control_addSharedSubSM (joining : system.control.Joining id) :
    (addSharedSubSM id system).control = system.control.add id := by
  have notListed : system.main.subMachineList.contains id = false :=
    Bool.eq_false_iff.mpr fun listed => joining.notListed (List.contains_iff_mem.mp listed)
  have same : system.sharedSubSM = system.main.subMachineList := joining.same
  unfold addSharedSubSM modifySharedSubStateMachineList
  simp only [notListed, modifyMain, same, if_true, Bool.false_eq_true, if_false]
  ext1
  case sharedSubSM =>
    change system.main.subMachineList ++ [id] = system.sharedSubSM ++ [id]
    rw [same]
  all_goals rfl

variable (depth : Nat)

theorem ends_connectionChanged_none :
    Ends.Within (subSmEventHandle env (depth + 1) id (.connectionChanged none) system)
      (fun result => result.control = system.control ∧ result.main = system.main) := by
  unfold subSmEventHandle subSmEventHandleWith
  split
  · exact done ⟨rfl, rfl⟩
  next nextState next =>
    obtain rfl := nextState_connectionChanged next
    refine done ⟨?_, rfl⟩
    exact control_put (alike_renamed env (system.downstream id) "")

theorem ends_leaveState_error :
    Ends.Within (leaveState (subSmEventHandle env (depth + 1)) .error system)
      (fun result => result.control = { system.control with mainState := .error } ∧
        result.main.errorType = system.main.errorType) := by
  unfold leaveState notifyDownstreams
  dsimp only
  split
  case isFalse => exact done ⟨rfl, rfl⟩
  case isTrue =>
    refine ends_forEach (fun id result same => ?_) _ 0 ⟨rfl, rfl⟩
    refine (ends_connectionChanged_none env depth).mono fun next nextSame => ?_
    rw [nextSame.1, nextSame.2]
    exact same

theorem ends_clearError (isError : system.main.curState = .error) :
    Ends.Within (mainSmEventHandle env sub .clearError system)
      (·.control = { system.control with mainState := .init }) := by
  have notAlive : (system.modifyMain fun main =>
      { main with errorType := .noError }).main.curState ≠ .alive := by
    change system.main.curState ≠ .alive
    rw [isError]
    simp
  unfold mainSmEventHandle
  simp only [isError]
  unfold switchToInit leaveState
  rw [if_neg notAlive]
  exact done rfl

/-- A sub machine leaves for an error: the main machine clears the error and takes the
sub machine from the lists, without turning anything off. -/
theorem ends_updateInterfaceState_error (isError : system.control.mainState = .error) :
    Ends.Within
      (handleSubSmUpdateInterfaceState env sub id .available .internalError system)
      (·.control = { system.control with mainState := .init }.erase id) := by
  have same := control_noteState system id .available .internalError
  rw [← same] at isError ⊢
  unfold handleSubSmUpdateInterfaceState
  refine (ends_clearError env sub isError).bind fun result cleared => ?_
  have isInit : result.main.curState = .init := congrArg Control.mainState cleared
  unfold mainSmEventHandle reportedEvent
  simp only [isInit]
  refine done ?_
  rw [control_eraseSharedSubSM, cleared]

theorem ends_errorEvent (id : Nat) (isError : system.control.mainState = .error)
    (shared : system.control.states id = .shared) :
    Ends.Within
      (subSmEventHandle env (depth + 1) id .ipForwardingEnableError system)
      (·.control = { system.control.setState id .init with mainState := .init }.erase id) := by
  have state : (system.subs id).curState = .shared := shared
  have next : SubEvent.ipForwardingEnableError.nextState (system.subs id).curState =
      some (some .init) := by
    rw [state]
    rfl
  unfold subSmEventHandle
  rw [subSmEventHandleWith_eq next rfl]
  obtain ⟨lastError, switched, equation, same, error⟩ :=
    exists_subSmStateSwitch_eq env id
      (system.modifySub id fun machine => { machine with lastError := .internalError })
  rw [control_modifySub (by rfl)] at same
  have internal : lastError = .internalError := by
    rw [error rfl]
    simp [modifySub]
  rw [equation, internal]
  refine (ends_updateInterfaceState_error env _ ?_).mono fun final is => ?_
  · rw [same]
    exact isError
  · rw [is, same]

theorem ends_switcheToErrorState (joining : control.Joining id)
    (empty : control.subMachineList = [])
    (is : system.control = { control.add id with mainState := .alive }) :
    Ends.Within
      (switcheToErrorState (subSmEventHandle env (depth + 1)) .ipForwardingEnableError system)
      (·.control.Settled) := by
  refine (ends_leaveState_error env depth).bind fun result left => ?_
  have isError : result.control = { control.add id with mainState := .error } := by
    rw [left.1]
    change { system.control with mainState := .error } = _
    rw [is]
  have listed : result.main.subMachineList = [id] := by
    change result.control.subMachineList = [id]
    rw [isError]
    simp [Control.add, empty]
  have type : result.main.errorType = .ipForwardingEnableError := left.2
  have once := ends_errorEvent env depth id (congrArg Control.mainState isError)
    ((congrArg (fun control : Control => control.states id) isError).trans joining.shared)
  unfold errorStateEnter
  rw [listed]
  refine ends_forEach_singleton listed ?_
  rw [type]
  refine once.mono fun final settled => ?_
  rw [settled, isError]
  exact joining.erase_add empty ▸ joining.settled_refused (by simp)

theorem ipEnableForwarding_cases (reliable : env.Reliable) (netsys : Netsys) :
    ((netsys.ipEnableForwarding env).2 = true ∧
      (netsys.ipEnableForwarding env).1.forwardingRequested = true) ∨
    ((netsys.ipEnableForwarding env).2 = false ∧
      (netsys.ipEnableForwarding env).1.forwardingRequested = netsys.forwardingRequested) := by
  unfold Netsys.ipEnableForwarding
  split
  · exact .inl ⟨rfl, rfl⟩
  next refused =>
    refine .inr ⟨rfl, ?_⟩
    have notRecorded := reliable.recorded netsys.requests (Bool.eq_false_iff.mpr refused)
    simp [notRecorded]

section

variable (disables : env.DisablesForwarding) (reliable : env.Reliable)

include disables reliable

theorem ends_aliveStateEnter (joining : control.Joining id) (empty : control.subMachineList = [])
    (is : system.control = { control.add id with mainState := .alive }) :
    Ends.Within (aliveStateEnter env (subSmEventHandle env (depth + 1)) system)
      (·.control.Settled) := by
  have notSet : system.main.hasSetForward = false := by
    change system.control.hasSetForward = false
    rw [is]
    exact (joining.idle empty).2.1
  have listed : system.sharedSubSM.isEmpty = false := by
    change system.control.sharedSubSM.isEmpty = false
    rw [is]
    simp [Control.add]
  unfold aliveStateEnter
  simp only [notSet, Bool.false_eq_true, if_false]
  obtain ⟨enabled, requested⟩ | ⟨refused, notRequested⟩ :=
    ipEnableForwarding_cases env reliable system.netsys
  · simp only [enabled, Bool.not_true, Bool.false_eq_true, if_false, modifyMain, listed]
    refine ends_chooseUpstreamNetwork env disables reliable depth ?_
    change Control.Settled { system.control with
      hasSetForward := true
      forwardingRequested := (system.netsys.ipEnableForwarding env).1.forwardingRequested }
    rw [requested, is]
    exact joining.settled_on
  · simp only [refused, Bool.not_false, if_true]
    refine ends_switcheToErrorState env depth joining empty ?_
    change { system.control with
      forwardingRequested := (system.netsys.ipEnableForwarding env).1.forwardingRequested } = _
    rw [notRequested, ← is]
    rfl

theorem ends_switchToAlive (joining : control.Joining id) (empty : control.subMachineList = [])
    (is : system.control = control.add id) :
    Ends.Within (switchToAlive env (subSmEventHandle env (depth + 1)) system)
      (·.control.Settled) := by
  have notAlive : system.main.curState ≠ .alive := by
    change system.control.mainState ≠ .alive
    rw [is]
    change control.mainState ≠ .alive
    rw [(joining.idle empty).1]
    simp
  unfold switchToAlive leaveState
  rw [if_neg notAlive]
  refine ends_aliveStateEnter env depth disables reliable joining empty ?_
  rw [← is]
  rfl

theorem ends_active (joining : system.control.Joining id) :
    Ends.Within
      (mainSmEventHandle env (subSmEventHandle env (depth + 1)) (.ifaceSmStateActive id) system)
      (·.control.Settled) := by
  have added := control_addSharedSubSM joining
  unfold mainSmEventHandle
  by_cases empty : system.control.subMachineList = []
  · have isInit : system.main.curState = .init := (joining.idle empty).1
    simp only [isInit]
    exact ends_switchToAlive env depth disables reliable joining empty added
  · have isAlive : system.main.curState = .alive := (joining.active empty).1
    simp only [isAlive]
    refine ends_connectionChanged env disables ?_
    rw [added]
    exact joining.settled_of_active empty

end

end Handlers

end System

end NetManager.Share
