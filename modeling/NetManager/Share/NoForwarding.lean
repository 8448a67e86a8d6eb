import NetManager.Share.Handlers

/-!
# No sharing, no forwarding

Every event of the tracker keeps the control part settled: between events, the main
machine lists exactly the sub machines that share, and IP forwarding is not requested
when there is none. It fails where the main machine is sent to its error state: the
way back to its first state releases nothing.
-/

namespace NetManager.Share

open Std Ends

namespace System

section Events

variable (env : Environment)
variable {system : System} {id : Nat}

/-! ## Events of the machines -/

section

variable (disables : env.DisablesForwarding)
include disables

theorem ends_requested (reliable : env.Reliable) (settled : system.control.Settled)
    (isKnown : id < system.created) :
    Ends.Within (subSmEventHandle env (depth + 2) id .requested system) (·.control.Settled) := by
  unfold subSmEventHandle
  cases state : (system.subs id).curState with
  | shared =>
    rw [subSmEventHandleWith_of_none (by rw [state]; rfl)]
    exact done settled
  | unavailable =>
    rw [subSmEventHandleWith_of_none (by rw [state]; rfl)]
    exact done settled
  | init =>
    rw [subSmEventHandleWith_eq (by rw [state]; rfl) rfl]
    obtain ⟨lastError, switched, equation, same, _⟩ := exists_subSmStateSwitch_eq env id
      (system.modifySub id fun machine => { machine with lastError := .success })
    rw [control_modifySub (by rfl)] at same
    have joining : switched.control.Joining id := by
      rw [same]
      refine settled.joining isKnown ?_
      change (system.subs id).curState ≠ .shared
      rw [state]
      simp
    rw [equation]
    refine ends_updateInterfaceState env _ joining.mainState_ne_error
      fun noted notedSame => ?_
    rw [← notedSame] at joining
    exact ends_active env depth disables reliable joining

theorem ends_unrequested (settled : system.control.Settled) :
    Ends.Within (subSmEventHandle env (depth + 1) id .unrequested system) (·.control.Settled) := by
  unfold subSmEventHandle
  cases state : (system.subs id).curState with
  | unavailable =>
    rw [subSmEventHandleWith_of_none (by rw [state]; rfl)]
    exact done settled
  | shared =>
    rw [subSmEventHandleWith_eq (by rw [state]; rfl) rfl]
    exact ends_subSmStateSwitch env _ disables settled (by simp)
  | init =>
    rw [subSmEventHandleWith_eq (by rw [state]; rfl) rfl]
    exact ends_subSmStateSwitch env _ disables settled (by simp)

theorem ends_upstreamCallback (reliable : env.Reliable)
    (settled : system.control.Settled) :
    Ends.Within
      (mainSmEventHandle env (subSmEventHandle env (depth + 1)) (.upstreamCallback callback) system)
      (·.control.Settled) := by
  unfold mainSmEventHandle
  cases state : system.main.curState with
  | init => exact done settled
  | error => exact done settled
  | alive =>
    dsimp only
    unfold handleAliveUpstreamMonitorCallback
    split
    · exact done settled
    · cases callback with
      | onLinkProperties => exact ends_chooseUpstreamNetwork env disables reliable depth settled
      | onLost => exact ends_disableForward env disables reliable depth settled
      | onCapabilities => exact done settled
      | defaultSwitched =>
        exact (ends_disableForward env disables reliable depth settled).bind
          fun result settledNow => ends_chooseUpstreamNetwork env disables reliable depth settledNow
      | other => exact done settled

end

/-! ## Events of the tracker -/

variable (configuration : NetworkShareConfiguration)

theorem settled_createSubStateMachine (settled : system.control.Settled) :
    (createSubStateMachine configuration iface interfaceType system).control.Settled := by
  unfold createSubStateMachine
  split
  · exact settled
  · have known (name : String) (id : Nat) :
        ((system.subStateMachineMap.insert iface
          { subStateMachine := system.created })[name]?).map
            NetSharingSubSmState.subStateMachine = some id → id < system.created + 1 := by
      intro found
      rw [ExtTreeMap.getElem?_insert] at found
      split at found
      · rw [← Option.some.inj found]
        exact Nat.lt_succ_self _
      · exact Nat.lt_succ_of_lt (settled.known name id found)
    convert settled.create known using 1
    ext1
    case states =>
      funext id
      by_cases same : id = system.created
      · simp [System.control, Control.setState, same]
      · simp only [System.control, Control.setState, Function.update_of_ne same]
    all_goals rfl

theorem settled_eraseEntry (settled : system.control.Settled) :
    ({ system with
      subStateMachineMap := system.subStateMachineMap.erase iface } : System).control.Settled := by
  refine settled.forget fun name id found => ?_
  rw [ExtTreeMap.getElem?_erase] at found
  split at found
  · simp at found
  · exact found

theorem ends_handle (disables : env.DisablesForwarding)
    (reliable : env.Reliable) (settled : system.control.Settled) :
    Ends.Within (handle configuration (depth + 2) env event system) (·.control.Settled) := by
  cases event with
  | createSubStateMachine iface interfaceType =>
    exact done (settled_createSubStateMachine configuration settled)
  | sharing iface =>
    unfold handle
    dsimp only
    split
    · exact done settled
    next shareState found =>
      split
      · exact done settled
      · have isKnown : shareState.subStateMachine < system.created := by
          refine settled.known iface _ ?_
          simp [System.control, found]
        exact ends_requested env disables reliable settled isKnown
  | stopSubStateMachine iface interfaceType =>
    unfold handle
    dsimp only
    split
    · exact done settled
    next findKey id _ =>
      exact (ends_unrequested env disables settled).bind
        fun result settledNow => done (settled_eraseEntry settledNow)
  | upstreamCallback callback =>
    exact ends_upstreamCallback env disables reliable settled

end Events

/-! ## Runs -/

variable (configuration : NetworkShareConfiguration)

/-- The tracker before the first event. -/
def initial : System where
  subs _ := { ifaceName := "", netShareType := .wifi, configuration }
  created := 0
  subStateMachineMap := ∅
  sharedSubSM := []
  upstreamInfo := none
  isStartDnsProxy := false
  main := {}
  netsys := {}

/-- Events are handled one at a time, each with its own answers from outside. -/
def run (depth : Nat) (inputs : List (Environment × Event)) : Option System :=
  inputs.foldlM (fun system input => handle configuration depth input.1 input.2 system)
    (initial configuration)

/-- The main machine lists the sub machines that share, and forwarding is not requested
when there is none. -/
def NoSharingNoForwarding (system : System) : Prop :=
  (∀ id, id ∈ system.main.subMachineList ↔ (system.subs id).curState = .shared) ∧
    ((∀ id, (system.subs id).curState ≠ .shared) → system.netsys.forwardingRequested = false)

theorem settled_initial : (initial configuration).control.Settled where
  same := rfl
  nodup := List.nodup_nil
  idle := fun _ => ⟨rfl, rfl, rfl⟩
  active := fun listed => absurd rfl listed
  known := by
    intro name id found
    simp [System.control, initial] at found
  fresh := by
    intro id _
    simp [System.control, initial]
  mem_iff := by
    intro id
    simp [System.control, initial]

variable {system : System}

theorem noSharingNoForwarding_of_settled (settled : system.control.Settled) :
    NoSharingNoForwarding system := by
  refine ⟨settled.mem_iff, fun nobody => ?_⟩
  have empty : system.control.subMachineList = [] :=
    List.eq_nil_iff_forall_not_mem.mpr fun id listed => nobody id ((settled.mem_iff id).mp listed)
  exact (settled.idle empty).2.2

/-- While the DNS forwarders can be set and a refused request for forwarding is not
recorded, every run ends, and ends with nothing forwarded for nobody. -/
theorem run_noSharingNoForwarding (configuration : NetworkShareConfiguration) (depth : Nat)
    (deep : 2 ≤ depth) (inputs : List (Environment × Event))
    (disables : ∀ input ∈ inputs, input.1.DisablesForwarding)
    (reliable : ∀ input ∈ inputs, input.1.Reliable) :
    ∃ system, run configuration depth inputs = some system ∧ NoSharingNoForwarding system := by
  obtain ⟨rest, rfl⟩ := Nat.exists_eq_add_of_le' deep
  have step (system : System) (input : Environment × Event) :
      system.control.Settled → (input.1.DisablesForwarding ∧ input.1.Reliable) →
      Ends.Within (handle configuration (rest + 2) input.1 input.2 system) (·.control.Settled) := by
    intro settled permitted
    exact ends_handle input.1 configuration permitted.1 permitted.2 settled
  have ends : Ends.Within (run configuration (rest + 2) inputs) (·.control.Settled) :=
    foldlM step (settled_initial configuration) inputs fun input member =>
      ⟨disables input member, reliable input member⟩
  exact ends.mono fun _ settled => noSharingNoForwarding_of_settled settled

/-! ## Where it fails -/

/-- A USB interface is shared and nothing is stopped. -/
def shareUsb (env : Environment) : List (Environment × Event) :=
  [(env, .createSubStateMachine "usb0" .usb), (env, .sharing "usb0")]

/-- The USB interface is shared and stopped, and everything succeeds. -/
theorem run_noSharingNoForwarding_usb :
    ∃ system, run sampleConfiguration 2
      (shareUsb (answersBut fun _ => false) ++
        [(answersBut fun _ => false, .stopSubStateMachine "usb0" .usb)]) = some system ∧
      NoSharingNoForwarding system := by
  have disables : (answersBut fun _ => false).DisablesForwarding := fun _ => rfl
  have reliable : (answersBut fun _ => false).Reliable := by
    refine ⟨fun _ => rfl, fun _ _ => rfl, ?_, by simp [answersBut]⟩
    intro request netId link good
    obtain ⟨rfl, rfl⟩ : 100 = netId ∧ _ = link := by
      simpa [answersBut] using good
    decide
  refine run_noSharingNoForwarding sampleConfiguration 2 (Nat.le_refl 2) _ ?_ ?_
  · simp [shareUsb, disables]
  · simp [shareUsb, reliable]

theorem not_noSharingNoForwarding_of (first : (system.subs 0).curState ≠ .shared)
    (others : ∀ id, (system.subs (id + 1)).curState ≠ .shared)
    (requested : system.netsys.forwardingRequested = true) :
    ¬NoSharingNoForwarding system := by
  intro holds
  have nobody : ∀ id, (system.subs id).curState ≠ .shared
    | 0 => first
    | id + 1 => others id
  rw [holds.2 nobody] at requested
  exact Bool.false_ne_true requested

/-- The DNS proxy does not start, or forwarding is refused after the requester has been
recorded: nobody shares and forwarding is still requested. -/
theorem not_noSharingNoForwarding :
    ((answersBut (· = .startDnsProxyListen)).DisablesForwarding ∧
      ∃ system, run sampleConfiguration 2
        (shareUsb (answersBut (· = .startDnsProxyListen))) = some system ∧
        ¬NoSharingNoForwarding system) ∧
    ((answersBut (· = .ipEnableForwarding)).DisablesForwarding ∧
      ∃ system, run sampleConfiguration 2
        (shareUsb (answersBut (· = .ipEnableForwarding))) = some system ∧
        ¬NoSharingNoForwarding system) := by
  refine ⟨⟨fun _ => rfl, _, (Option.some_get (by decide)).symm, ?_⟩,
    ⟨fun _ => rfl, _, (Option.some_get (by decide)).symm, ?_⟩⟩
  · exact not_noSharingNoForwarding_of (by decide) (fun _ => by rintro ⟨⟩) (by decide)
  · exact not_noSharingNoForwarding_of (by decide) (fun _ => by rintro ⟨⟩) (by decide)

end System

end NetManager.Share
