import NetManager.Library.Ends
import NetManager.Library.Run
import NetManager.Share.Installed

/-!
# A downstream leaves nothing behind

One sub machine is given events. Outside the shared state nothing is installed for its
interface, and a new upstream is the one that it forwards to. The tracker hears of a
state at the end of a transition, so the events that it answers with are the next ones
of the sequence.
-/

namespace NetManager.Share

open Std Downstream Ends

namespace Downstream

variable {env : Environment} {downstream : Downstream}

/-- What is installed for a machine goes with its state. -/
structure Tidy (downstream : Downstream) : Prop where
  installed : downstream.machine.curState = .shared → downstream.Installed
  clean : downstream.machine.curState ≠ .shared → downstream.Bare ∧ downstream.NoServer

theorem tidy_of_installed (installed : downstream.Installed)
    (shared : downstream.machine.curState = .shared) :
    downstream.Tidy :=
  ⟨fun _ => installed, fun notShared => absurd shared notShared⟩

theorem tidy_of_bare (bare : downstream.Bare) (noServer : downstream.NoServer) : downstream.Tidy :=
  ⟨fun _ => bare.installed, fun _ => ⟨bare, noServer⟩⟩

theorem Tidy.setLastError (tidy : downstream.Tidy) :
    Tidy ⟨{ downstream.machine with lastError := error }, downstream.netsys⟩ where
  installed := by
    intro shared
    have installed := tidy.installed shared
    exact ⟨installed.tunv4Name, installed.targets, installed.routes⟩
  clean := by
    intro notShared
    obtain ⟨bare, noServer⟩ := tidy.clean notShared
    exact ⟨⟨bare.tunv4Name, bare.targets, bare.routes⟩, noServer⟩

/-- A machine, with another state. -/
def setState (downstream : Downstream) (state : SubState) : Downstream :=
  ⟨{ downstream.machine with curState := state }, downstream.netsys⟩

theorem Tidy.exitShared (removes : env.Removes) (tidy : downstream.Tidy)
    (shared : downstream.machine.curState = .shared) :
    ((downstream.setState state).sharedStateExit env).Tidy := by
  have installed := tidy.installed shared
  have still : (downstream.setState state).Installed :=
    ⟨installed.tunv4Name, installed.targets, installed.routes⟩
  obtain ⟨bare, noServer⟩ := still.sharedStateExit removes
  exact tidy_of_bare bare noServer

theorem Tidy.exitOther (tidy : downstream.Tidy)
    (notShared : downstream.machine.curState ≠ .shared) :
    (downstream.setState state).Tidy := by
  obtain ⟨bare, noServer⟩ := tidy.clean notShared
  exact tidy_of_bare ⟨bare.tunv4Name, bare.targets, bare.routes⟩ noServer

end Downstream

namespace System

/-- A tracker that hears of the states and does nothing. -/
def alone (_ : Nat) (_ : SubSmState) (_ : ShareError) (system : System) : Option System :=
  some system

section Machine

variable {env : Environment} {id : Nat} {system : System}

@[simp] theorem downstream_put (downstream : Downstream) :
    (system.put id downstream).downstream id = downstream := by
  simp [System.downstream, put]

@[simp] theorem downstream_modifySub :
    (system.modifySub id change).downstream id = ⟨change (system.subs id), system.netsys⟩ := by
  simp [System.downstream, modifySub]

section

variable (removes : env.Removes) (tidy : (system.downstream id).Tidy) (newState : SubState)
include removes tidy

theorem exitSubState_tidy :
    ((exitSubState env id newState system).downstream id).Tidy ∧
      ((exitSubState env id newState system).downstream id).machine.curState = newState := by
  have entered : (system.modifySub id fun machine =>
      { machine with curState := newState }).downstream id =
        (system.downstream id).setState newState :=
    downstream_modifySub
  unfold exitSubState
  split
  next shared =>
    rw [downstream_put, entered]
    exact ⟨tidy.exitShared removes shared, (alike_sharedStateExit env _).curState⟩
  next notShared =>
    rw [entered]
    exact ⟨tidy.exitOther notShared, rfl⟩

theorem ends_subSmStateSwitch_alone :
    Ends.Within (subSmStateSwitch env alone id newState system) (fun after =>
      (after.downstream id).Tidy ∧ (after.downstream id).machine.curState = newState) := by
  have left := exitSubState_tidy removes tidy newState
  cases newState with
  | init => exact done left
  | shared => exact done left
  | unavailable =>
    refine done ?_
    rw [downstream_modifySub]
    exact ⟨left.1.setLastError, left.2⟩

end

/-- The interface can be forwarded to the upstream and put into the local network. -/
def Connects (env : Environment) (iface upstream : String) : Prop :=
  ∀ request, env.succeeds request (.ipfwdAddInterfaceForward iface upstream) = true ∧
    env.succeeds request (.networkAddInterface iface) = true

/-- A machine that shares forwards to the upstream. -/
def Forwarded (id : Nat) (upstream : String) (system : System) : Prop :=
  (system.downstream id).machine.curState = .shared →
    (system.downstream id).machine.upstreamIfaceName = upstream ∧
      upstream ∈ (system.downstream id).targets

theorem handleConnection_of_connects {downstream : Downstream}
    (connects : Connects env downstream.machine.ifaceName downstream.machine.upstreamIfaceName) :
    (downstream.handleConnection env).2 = true := by
  have added : (downstream.netsys.ipfwdAddInterfaceForward env
      downstream.machine.ifaceName downstream.machine.upstreamIfaceName).2 = true := by
    unfold Netsys.ipfwdAddInterfaceForward Netsys.answer
    rw [if_pos (connects _).1]
  have attached : ∀ netsys : Netsys,
      (netsys.ask env (.networkAddInterface downstream.machine.ifaceName)).2 = true :=
    fun netsys => (connects netsys.requests).2
  unfold handleConnection
  simp [added, attached]

theorem upstreamIfaceName_handleConnection (downstream : Downstream) :
    (downstream.handleConnection env).1.machine.upstreamIfaceName =
      downstream.machine.upstreamIfaceName := by
  unfold handleConnection
  dsimp only
  split
  · split <;> rfl
  · rfl

theorem hasChangeUpstreamIfaceSet_iff (machine : SubStateMachine) :
    machine.hasChangeUpstreamIfaceSet upstream = true ↔ machine.upstreamIfaceName ≠ upstream := by
  unfold SubStateMachine.hasChangeUpstreamIfaceSet
  by_cases first : machine.upstreamIfaceName = "" <;> by_cases second : upstream = ""
  · simp [first, second]
  · simp [first, second, Ne.symm second]
  · simp [first, second]
  · simp [first, second]

/-- Another upstream interface: the machine forwards to it, or does not share any
more. -/
theorem ends_changeUpstreamIface_alone (removes : env.Removes)
    (notLocalOnly : ∀ request, env.localOnly request = false) (tidy : (system.downstream id).Tidy)
    (shared : (system.downstream id).machine.curState = .shared) {upstream : String}
    (current : (system.downstream id).machine.upstreamIfaceName = upstream →
      upstream ∈ (system.downstream id).targets) :
    Ends.Within (changeUpstreamIface env alone id upstream system) (fun after =>
      (after.downstream id).Tidy ∧ after.Forwarded id upstream ∧
        (Connects env (system.downstream id).machine.ifaceName upstream →
          (after.downstream id).machine.curState = .shared)) := by
  unfold changeUpstreamIface
  split
  case isFalse unchanged =>
    have same : (system.downstream id).machine.upstreamIfaceName = upstream := by
      by_contra different
      exact unchanged ((hasChangeUpstreamIfaceSet_iff _).mpr different)
    exact done ⟨tidy, fun _ => ⟨same, current same⟩, fun _ => shared⟩
  case isTrue =>
    have alike := alike_renamed env (system.downstream id) upstream
    have bare := ((tidy.installed shared).cleanupUpstreamInterface
      removes).setUpstreamIfaceName upstream
    have connected := alike_handleConnection env
      (((system.downstream id).cleanupUpstreamInterface env).setUpstreamIfaceName upstream)
    have contract := bare.handleConnection removes
    have still := (alike.trans connected).curState.trans shared
    dsimp only
    rw [notLocalOnly, if_neg (by simp)]
    split
    next ok =>
      obtain ⟨installed, member⟩ := contract.1 ok
      rw [upstreamIfaceName_handleConnection] at member
      refine done ?_
      unfold Forwarded
      rw [downstream_put]
      exact ⟨tidy_of_installed installed still,
        fun _ => ⟨upstreamIfaceName_handleConnection _, member⟩, fun _ => still⟩
    next refused =>
      have bareAgain := contract.2 (Bool.eq_false_iff.mpr refused)
      refine (ends_subSmStateSwitch_alone removes ?_ .init).mono fun after left => ?_
      · rw [downstream_put]
        exact tidy_of_installed bareAgain.installed still
      · refine ⟨left.1, fun isShared => ?_, fun connects => ?_⟩
        · rw [left.2] at isShared
          cases isShared
        · refine absurd (handleConnection_of_connects ?_) refused
          have iface := congrArg Prod.fst alike.settings
          rw [show SubStateMachine.ifaceName _ = _ from iface]
          exact connects

/-- The link has an address of a family. -/
def hasFamily (link : NetLinkInfo) (family : Nat) : Bool := link.netAddrList.any (·.family = family)

theorem ends_handleConnectionChanged_alone (removes : env.Removes)
    (notLocalOnly : ∀ request, env.localOnly request = false) (tidy : (system.downstream id).Tidy)
    (shared : (system.downstream id).machine.curState = .shared)
    (current : (system.downstream id).machine.upstreamIfaceName = link.ifaceName →
      link.ifaceName ∈ (system.downstream id).targets)
    (noIpv6 : hasFamily link netFamilyIpv6 = false)
    (connects : hasFamily link netFamilyIpv4 = true →
      Connects env (system.downstream id).machine.ifaceName link.ifaceName) :
    Ends.Within (handleConnectionChanged env alone id link system) (fun after =>
      (after.downstream id).Tidy ∧ after.Forwarded id link.ifaceName) := by
  refine (ends_changeUpstreamIface_alone removes notLocalOnly tidy shared current).bind
    fun changed holds => ?_
  obtain ⟨changedTidy, forwarded, stays⟩ := holds
  refine done ?_
  unfold Forwarded
  rw [downstream_put, configureShareIpv6_of_none noIpv6]
  have alike := alike_configureShareIpv4 env (changed.downstream id) link
  by_cases still : (changed.downstream id).machine.curState = .shared
  · obtain ⟨installed, targets, upstream⟩ :=
      (changedTidy.installed still).configureShareIpv4 env
    rw [targets, upstream]
    exact ⟨tidy_of_installed installed (alike.curState.trans still), fun _ => forwarded still⟩
  · -- The machine has left the shared state, so the link has nothing to configure.
    have noIpv4 : hasFamily link netFamilyIpv4 = false :=
      Bool.eq_false_iff.mpr fun has => still (stays (connects has))
    rw [configureShareIpv4_of_none noIpv4]
    exact ⟨changedTidy, fun isShared => absurd isShared still⟩

end Machine

/-! ## Events of one sub machine -/

/-- The answers from outside that are considered: removals succeed, and the hotspot is
not in local-only mode. -/
structure InScope (env : Environment) : Prop where
  removes : env.Removes
  notLocalOnly : ∀ request, env.localOnly request = false

/-- A new upstream, for a machine that shares, has no IPv6 address; it can be connected
if it has an IPv4 address; and the machine forwards to it if it is the one that the
machine remembers. -/
def Undisturbed (id : Nat) (system : System) (env : Environment) (event : SubEvent) : Prop :=
  match event with
  | .connectionChanged (some ⟨_, some link⟩) =>
    (system.subs id).curState = .shared → hasFamily link netFamilyIpv6 = false ∧
      (hasFamily link netFamilyIpv4 = true →
        Connects env (system.subs id).ifaceName link.ifaceName) ∧
      ((system.subs id).upstreamIfaceName = link.ifaceName →
        ((system.subs id).ifaceName, link.ifaceName) ∈ system.netsys.forwards)
  | _ => True

section Event

variable {env : Environment} {id : Nat} {system : System}

theorem ends_connectionChanged_alone (scope : InScope env) (tidy : (system.downstream id).Tidy)
    (undisturbed : system.Undisturbed id env (.connectionChanged upstream)) :
    Ends.Within
      (subSmEventHandleWith env alone id (.connectionChanged upstream) system)
      (fun after => (after.downstream id).Tidy ∧
        ∀ netHandle link, upstream = some ⟨netHandle, some link⟩ →
          after.Forwarded id link.ifaceName) := by
  by_cases shared : (system.subs id).curState = .shared
  case neg =>
    have next : (SubEvent.connectionChanged upstream).nextState
        (system.subs id).curState = none := by
      cases state : (system.subs id).curState with
      | init => rfl
      | shared => exact absurd state shared
      | unavailable => rfl
    rw [subSmEventHandleWith_of_none next]
    exact done ⟨tidy, fun _ _ _ isShared => absurd isShared shared⟩
  case pos =>
    unfold subSmEventHandleWith
    simp only [shared, SubEvent.nextState]
    refine Ends.Within.bind ?_ fun _ holds => done holds
    match upstream with
    | none =>
      have bare := ((tidy.installed shared).cleanupUpstreamInterface
        scope.removes).setUpstreamIfaceName ""
      have alike := alike_renamed env (system.downstream id) ""
      refine done ⟨?_, by simp⟩
      rw [downstream_put]
      exact tidy_of_installed bare.installed (alike.curState.trans shared)
    | some ⟨_, none⟩ => exact done ⟨tidy, by simp⟩
    | some ⟨netHandle, some link⟩ =>
      obtain ⟨noIpv6, connects, current⟩ := undisturbed shared
      refine (ends_handleConnectionChanged_alone scope.removes scope.notLocalOnly tidy
        shared (fun same => ?_) noIpv6 connects).mono fun after holds => ?_
      · exact Netsys.mem_targets.mpr (current same)
      · refine ⟨holds.1, fun otherHandle otherLink same => ?_⟩
        cases same
        exact holds.2

variable {event : SubEvent}

/-- The other events: the function of the table, then a switch of states. -/
theorem ends_transition_alone (scope : InScope env) (tidy : (system.downstream id).Tidy)
    (next : event.nextState (system.subs id).curState = some (some newState)) :
    Ends.Within (subSmEventHandleWith env alone id event system)
      (fun after => (after.downstream id).Tidy) := by
  have acted : ∃ acted, subSmAction env alone id event system = some acted ∧
      (acted.downstream id).Tidy := by
    have marked error : ((system.modifySub id fun machine =>
        { machine with lastError := error }).downstream id).Tidy := by
      rw [downstream_modifySub]
      exact tidy.setLastError
    cases event with
    | requested => exact ⟨_, rfl, marked .success⟩
    | unrequested => exact ⟨_, rfl, tidy⟩
    | interfaceDown => exact ⟨_, rfl, tidy⟩
    | unmatched => exact ⟨_, rfl, tidy⟩
    | connectionChanged upstream =>
      cases state : (system.subs id).curState <;> simp [SubEvent.nextState, state] at next
    | ipForwardingEnableError => exact ⟨_, rfl, marked .internalError⟩
    | ipForwardingDisableError => exact ⟨_, rfl, marked .internalError⟩
    | startSharingError => exact ⟨_, rfl, marked .internalError⟩
    | stopSharingError => exact ⟨_, rfl, marked .internalError⟩
    | setDnsForwardersError => exact ⟨_, rfl, marked .internalError⟩
  obtain ⟨acted, action, actedTidy⟩ := acted
  rw [subSmEventHandleWith_eq next action]
  exact (ends_subSmStateSwitch_alone scope.removes actedTidy newState).mono fun _ holds => holds.1

theorem ends_event_alone (scope : InScope env) (tidy : (system.downstream id).Tidy)
    (undisturbed : system.Undisturbed id env event) :
    Ends.Within (subSmEventHandleWith env alone id event system)
      (fun after => (after.downstream id).Tidy ∧
        ∀ netHandle link, event = .connectionChanged (some ⟨netHandle, some link⟩) →
          after.Forwarded id link.ifaceName) := by
  by_cases connection : ∃ upstream, event = .connectionChanged upstream
  · obtain ⟨upstream, rfl⟩ := connection
    refine (ends_connectionChanged_alone scope tidy undisturbed).mono
      fun after holds => ⟨holds.1, fun netHandle link same => ?_⟩
    exact holds.2 netHandle link (SubEvent.connectionChanged.inj same)
  · have other : ∀ netHandle link {system : System},
        event = .connectionChanged (some ⟨netHandle, some link⟩) →
          system.Forwarded id link.ifaceName :=
      fun _ _ _ same => absurd ⟨_, same⟩ connection
    match next : event.nextState (system.subs id).curState with
    | none =>
      rw [subSmEventHandleWith_of_none next]
      exact done ⟨tidy, fun netHandle link same => other netHandle link same⟩
    | some (some newState) =>
      exact (ends_transition_alone scope tidy next).mono fun _ holds =>
        ⟨holds, fun netHandle link same => other netHandle link same⟩
    | some none =>
      exfalso
      cases state : (system.subs id).curState <;> cases event <;>
        simp [SubEvent.nextState, state] at next connection

end Event

/-! ## Runs of one sub machine -/

/-- Nothing is left for a machine that does not share. -/
def NothingLeft (id : Nat) (system : System) : Prop :=
  (system.subs id).curState ≠ .shared →
    (∀ target, ((system.subs id).ifaceName, target) ∉ system.netsys.forwards) ∧
    (∀ destination, ((system.subs id).ifaceName, destination) ∉ system.netsys.localRoutes) ∧
    ((system.subs id).netShareType ≠ .wifi → (system.subs id).ifaceName ∉ system.netsys.dhcpServers)

/-- The machine forwards to the upstream once, and else only to the interface that CLAT
adds to it. -/
def ForwardsOnlyTo (id : Nat) (upstream : String) (system : System) : Prop :=
  system.netsys.forwards.count ((system.subs id).ifaceName, upstream) = 1 ∧
    ∀ target, ((system.subs id).ifaceName, target) ∈ system.netsys.forwards →
      target = upstream ∨ target = "tunv4-" ++ upstream

/-- A machine before its first event, with nothing installed for its interface. -/
structure Fresh (id : Nat) (system : System) : Prop where
  machine : system.subs id =
    { ifaceName := (system.subs id).ifaceName
      netShareType := (system.subs id).netShareType
      configuration := (system.subs id).configuration }
  forwards : ∀ target, ((system.subs id).ifaceName, target) ∉ system.netsys.forwards
  routes : ∀ destination, ((system.subs id).ifaceName, destination) ∉ system.netsys.localRoutes
  dhcp : (system.subs id).ifaceName ∉ system.netsys.dhcpServers

/-- One event of the machine. -/
def giveEvent (id : Nat) (system : System) (input : Environment × SubEvent) : System :=
  (subSmEventHandleWith input.1 alone id input.2 system).getD system

section Runs

variable {id : Nat} {system : System}

theorem Fresh.tidy (fresh : system.Fresh id) : (system.downstream id).Tidy := by
  have noTarget : (system.downstream id).targets = [] :=
    List.eq_nil_iff_forall_not_mem.mpr fun target member =>
      fresh.forwards target (Netsys.mem_targets.mp member)
  refine tidy_of_bare ⟨?_, noTarget, fresh.routes⟩ fun _ => fresh.dhcp
  exact congrArg SubStateMachine.tunv4UpstreamIfaceName fresh.machine

theorem nothingLeft_of_tidy (tidy : (system.downstream id).Tidy) : system.NothingLeft id := by
  intro notShared
  obtain ⟨bare, noServer⟩ := tidy.clean notShared
  refine ⟨fun target member => ?_, bare.routes, noServer⟩
  have listed : target ∈ (system.downstream id).targets := Netsys.mem_targets.mpr member
  rw [bare.targets] at listed
  cases listed

theorem forwardsOnlyTo_of_tidy (tidy : (system.downstream id).Tidy)
    (shared : (system.subs id).curState = .shared) (forwarded : system.Forwarded id upstream) :
    system.ForwardsOnlyTo id upstream := by
  obtain ⟨same, member⟩ := forwarded shared
  have different : upstream ≠ tunv4 upstream := tunv4_ne_self.symm
  have shape := (tidy.installed shared).targets
  rw [same] at shape
  have exactly : (system.downstream id).targets.count upstream = 1 ∧
      ∀ target ∈ (system.downstream id).targets, target = upstream ∨ target = tunv4 upstream := by
    obtain none | one | ⟨both, _⟩ := shape
    · rw [none] at member
      cases member
    · simp [one]
    · simp [both, different.symm]
  refine ⟨Netsys.count_targets.symm.trans exactly.1, fun target listed => ?_⟩
  exact exactly.2 target (Netsys.mem_targets.mpr listed)

/-- In every run of undisturbed events, a machine that does not share has nothing
installed, and one that shares forwards to the upstream it was last given. -/
theorem leavesNothing_of_reach {start : System} (fresh : start.Fresh id)
    (reach : Run.Reach (giveEvent id)
      (fun system input => InScope input.1 ∧ system.Undisturbed id input.1 input.2)
      start system)
    (env : Environment)
    (event : SubEvent)
    (scope : InScope env)
    (undisturbed : system.Undisturbed id env event) :
    ∃ after, subSmEventHandleWith env alone id event system = some after ∧ after.NothingLeft id ∧
      ∀ netHandle link, event = .connectionChanged (some ⟨netHandle, some link⟩) →
        (after.subs id).curState = .shared → after.ForwardsOnlyTo id link.ifaceName := by
  have step (before : System) (input : Environment × SubEvent) : (before.downstream id).Tidy →
      (InScope input.1 ∧ before.Undisturbed id input.1 input.2) →
      ((before.giveEvent id input).downstream id).Tidy := by
    intro beforeTidy permitted
    obtain ⟨after, equation, afterTidy, _⟩ := ends_event_alone permitted.1 beforeTidy permitted.2
    unfold giveEvent
    rw [equation]
    exact afterTidy
  have tidy : (system.downstream id).Tidy := reach.invariant fresh.tidy step
  obtain ⟨after, equation, afterTidy, forwarded⟩ := ends_event_alone scope tidy undisturbed
  refine ⟨after, equation, nothingLeft_of_tidy afterTidy, fun netHandle link same shared => ?_⟩
  exact forwardsOnlyTo_of_tidy afterTidy shared (forwarded netHandle link same)

end Runs

/-! ## Three ways to leave something behind -/

/-- A USB machine before its first event. -/
def usbMachine : System where
  subs _ := { ifaceName := "usb0", netShareType := .usb, configuration := sampleConfiguration }
  created := 1
  subStateMachineMap := ∅
  sharedSubSM := []
  upstreamInfo := none
  isStartDnsProxy := false
  main := {}
  netsys := {}

/-- An upstream with one address. -/
def upstreamWith (address : INetAddr) : SubEvent :=
  .connectionChanged (some ⟨some 100, some ⟨"rmnet0", [address]⟩⟩)

/-- An IPv4 address. -/
def ipv4Address : INetAddr := ⟨netFamilyIpv4, "10.0.0.2"⟩

/-- An IPv6 address. -/
def ipv6Address : INetAddr := ⟨netFamilyIpv6, "2001:db8::2"⟩

/-- Every request succeeds. -/
def allSucceed : Environment := answersBut fun _ => false

/-- The pair for the upstream cannot be added. -/
def noForward : Environment := answersBut (· = .ipfwdAddInterfaceForward "usb0" "rmnet0")

/-- The machine shares and is given an upstream. -/
def shareWith (env : Environment) (address : INetAddr) : List (Environment × SubEvent) :=
  [(env, .requested), (env, upstreamWith address)]

/-- The machine shares and is given the same upstream twice. -/
theorem leavesNothing_usb :
    ∃ after, subSmEventHandleWith allSucceed alone 0 (upstreamWith ipv4Address)
      ((shareWith allSucceed ipv4Address).foldl (giveEvent 0) usbMachine) = some after ∧
      after.NothingLeft 0 ∧
      ((after.subs 0).curState = .shared → after.ForwardsOnlyTo 0 "rmnet0") := by
  have scope : InScope allSucceed :=
    ⟨⟨fun _ _ _ => rfl, fun _ _ _ => rfl, fun _ _ => rfl⟩, fun _ => rfl⟩
  have connects : Connects allSucceed "usb0" "rmnet0" := fun _ => ⟨rfl, rfl⟩
  have fresh : usbMachine.Fresh 0 :=
    ⟨rfl, by simp [usbMachine], by simp [usbMachine], by simp [usbMachine]⟩
  obtain ⟨after, equation, nothing, forwards⟩ := leavesNothing_of_reach fresh
    (Run.Reach.foldl .start (shareWith allSucceed ipv4Address)
      ⟨⟨scope, trivial⟩, ⟨scope, fun _ => ⟨rfl, fun _ => connects, by decide⟩⟩, trivial⟩)
    allSucceed (upstreamWith ipv4Address) scope
    (fun _ => ⟨rfl, fun _ => connects, by decide⟩)
  exact ⟨after, equation, nothing, forwards _ _ rfl⟩

/-- The machine leaves the shared state from inside the handler, which then still adds
the route and starts the DHCP server; the routes for IPv6 are never removed; and a
machine that shares again with the upstream it remembers does not forward to it. -/
theorem not_leavesNothing :
    ¬NothingLeft 0 ((shareWith noForward ipv4Address).foldl (giveEvent 0) usbMachine) ∧
    ¬NothingLeft 0 ((shareWith allSucceed ipv6Address ++
      [(allSucceed, SubEvent.unrequested)]).foldl (giveEvent 0) usbMachine) ∧
    ¬ForwardsOnlyTo 0 "rmnet0" ((shareWith allSucceed ipv4Address ++
      [(allSucceed, SubEvent.unrequested)] ++ shareWith allSucceed ipv4Address).foldl
        (giveEvent 0) usbMachine) := by
  refine ⟨fun nothing => ?_, fun nothing => ?_, fun forwards => ?_⟩
  · refine (nothing (by decide)).2.1 "192.168.45.0/24" ?_
    decide
  · refine (nothing (by decide)).2.1 "fe80::/64" ?_
    decide
  · exact absurd forwards.1 (by decide)

end System

end NetManager.Share
