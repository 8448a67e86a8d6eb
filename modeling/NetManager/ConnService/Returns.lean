import Mathlib.Logic.Function.Iterate
import NetManager.ConnService.Announced

/-!
# Updates that return

`RemoveRouteByFamily` looks again and again at a route whose address is too long, under the
lock of the link information. Such a route is skipped when it is added, and remembered. An
update returns if and only if it removes no such route by its family.
-/

namespace NetManager.ConnService.Network

open List Option

variable (getAddrFamily : String → AddrFamily) (network : Network)

/-- `UpdateNetLinkInfo` with what `IsIfaceNameInUse` says. -/
def update (call : Bool × NetLinkInfo) : Option Network :=
  updateNetLinkInfo getAddrFamily call.1 network call.2

/-- Where addresses are updated, the remembered routes of a family that keeps no address have
addresses that are not too long. -/
def Removable (call : Bool × NetLinkInfo) : Prop :=
  (!call.1 || network.isSupportInternet) = true → ∀ route ∈ network.netLinkInfo.routeList,
    drops getAddrFamily network.netLinkInfo call.2 route = true → isAddressValid route = true

/-- The removal of a family returns if and only if none of its routes is too long, and
leaves the other routes. -/
theorem map_removeRouteByFamily (netId : Int) (addrFamily : UInt8) (routes : List Route)
    (store : RouteStore) :
    (removeRouteByFamily netId addrFamily routes store).map Prod.fst =
      if ∀ route ∈ routes, route.destination.type = addrFamily → isAddressValid route = true then
        some (routes.filter fun route => route.destination.type ≠ addrFamily)
      else none := by
  induction routes generalizing store with
  | nil => rfl
  | cons route routes ih =>
    unfold removeRouteByFamily
    by_cases other : route.destination.type = addrFamily
    · cases valid : isAddressValid route with
      | false => simp [other, valid]
      | true => simpa [other, valid] using ih _
    · have rest := ih store
      cases result : removeRouteByFamily netId addrFamily routes store <;> rw [result] at rest <;>
        simp_all

theorem map_removeRoutes (addrFamily : UInt8) (same : Bool) :
    (if same then some network else network.removeRoutes addrFamily).map
        (·.netLinkInfo.routeList) =
      if ∀ route ∈ network.netLinkInfo.routeList,
        (route.destination.type = addrFamily && !same) = true → isAddressValid route = true then
        some (network.netLinkInfo.routeList.filter fun route =>
          !(route.destination.type = addrFamily && !same))
      else none := by
  cases same with
  | true => simp
  | false =>
    have removed := map_removeRouteByFamily network.netId addrFamily
      network.netLinkInfo.routeList network.store
    unfold removeRoutes
    cases result : removeRouteByFamily network.netId addrFamily network.netLinkInfo.routeList
      network.store <;> rw [result] at removed <;> simpa using removed

theorem isSome_updateIpAddrs_iff :
    (updateIpAddrs getAddrFamily network new).isSome ↔
      ∀ route ∈ network.netLinkInfo.routeList,
        drops getAddrFamily network.netLinkInfo new route = true → isAddressValid route = true := by
  unfold updateIpAddrs drops
  dsimp only
  generalize hasSameAddr getAddrFamily network.netLinkInfo new .inet = same4
  generalize hasSameAddr getAddrFamily network.netLinkInfo new .inet6 = same6
  have first := map_removeRoutes network INetAddr.ipv4 same4
  cases result : (if same4 then some network else network.removeRoutes INetAddr.ipv4) with
  | none =>
    have some4 : ¬ ∀ route ∈ network.netLinkInfo.routeList,
        (route.destination.type = INetAddr.ipv4 && !same4) = true → isAddressValid route = true :=
      fun valid => by rw [result, if_pos valid] at first; cases first
    refine iff_of_false nofun fun valid => some4 fun route member ipv4 => ?_
    exact valid route member (Bool.or_eq_true_iff.mpr (.inl ipv4))
  | some between =>
    rw [result, map_some, eq_comm, ite_none_right_eq_some] at first
    obtain ⟨valid4, isLeft⟩ := first
    have second := map_removeRoutes between INetAddr.ipv6 same6
    rw [← some.inj isLeft] at second
    rw [← isSome_map, second, isSome_ite]
    simp only [mem_filter, Bool.or_eq_true_iff]
    refine ⟨fun valid6 route member dropped => ?_, fun valid route member ipv6 => ?_⟩
    · obtain ipv4 | ipv6 := dropped
      · exact valid4 route member ipv4
      · have notIpv4 : route.destination.type ≠ INetAddr.ipv4 := by
          rw [of_decide_eq_true (Bool.and_eq_true_iff.mp ipv6).1]
          decide
        exact valid6 route ⟨member, by simp [notIpv4]⟩ ipv6
    · exact valid route member.1 (.inr ipv6)

theorem isSome_update_iff :
    (update getAddrFamily network call).isSome ↔ Removable getAddrFamily network call := by
  unfold update updateNetLinkInfo Removable
  rw [← isSome_updateIpAddrs_iff]
  split_ifs with updates
  · simp only [updates, true_imp_iff]
    cases updateIpAddrs getAddrFamily network call.2 <;> rfl
  · simp [updates]

/-- All calls of a sequence return if and only if each is removable where it is made. -/
theorem isSome_updates_iff (calls : List (Bool × NetLinkInfo)) :
    (calls.foldlM (update getAddrFamily) network).isSome ↔
      Run.PermittedAll (fun network call => (update getAddrFamily network call).getD network)
        (Removable getAddrFamily) network calls := by
  induction calls generalizing network with
  | nil => exact ⟨fun _ => trivial, fun _ => rfl⟩
  | cons call calls ih =>
    rw [foldlM_cons, Run.PermittedAll, ← isSome_update_iff]
    cases update getAddrFamily network call with
    | none => simp
    | some after => simpa using ih after

/-- A route with an address of 8192 bytes is remembered, and the next update does not
return. -/
theorem updates_eq_none :
    let address := (fun text : String => text ++ text)^[13] "1"
    [(false, linkInfo [] [address]), (false, linkInfo [] [])].foldlM
      (update fun _ => .unspecified) (created 100) = none := by
  intro address
  obtain ⟨after, isAfter, remembered⟩ : ∃ after, update (fun _ => .unspecified) (created 100)
      (false, linkInfo [] [address]) = some after ∧
        after.netLinkInfo = linkInfo [] [address] := ⟨_, rfl, rfl⟩
  rw [foldlM_cons, isAfter]
  have hangs : update (fun _ => .unspecified) after (false, linkInfo [] []) = none := by
    rw [← not_isSome_iff_eq_none, isSome_update_iff]
    intro removable
    have short := removable rfl (linkRoute address) (remembered ▸ mem_cons_self) (remembered ▸ rfl)
    have size : address.utf8ByteSize = 8192 := by
      simp only [address, Function.iterate_succ_apply', Function.iterate_zero_apply,
        String.utf8ByteSize_append]
      rfl
    exact absurd (size ▸ of_decide_eq_true short) (by decide)
  simp [hangs]

end NetManager.ConnService.Network
