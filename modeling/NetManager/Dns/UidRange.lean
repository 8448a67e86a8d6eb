import NetManager.Library.Run

/-!
# Ranges of uids that use a VPN

`DnsParamCache` keeps the ranges of all VPNs in one sorted vector. It merges the ranges of a
network into it, and takes them out as a difference of sorted sequences. `operator<`, which
both go by, does not look at the network.
-/

namespace NetManager.Dns

open List

structure UidRange where
  begin_ : Int := -1
  end_ : Int := -1
  priorityId : Nat := 0
  netId : Nat := 0
deriving DecidableEq

namespace UidRange

/-- `operator<`. -/
def less (lhs rhs : UidRange) : Bool :=
  if lhs.priorityId = rhs.priorityId then
    if lhs.begin_ ≠ rhs.begin_ then lhs.begin_ < rhs.begin_ else lhs.end_ < rhs.end_
  else lhs.priorityId > rhs.priorityId

def le (lhs rhs : UidRange) : Bool := !less rhs lhs

def Sorted (ranges : List UidRange) : Prop := ranges.Pairwise fun lhs rhs => le lhs rhs = true
deriving Decidable

/-- `std::set_difference` of sorted sequences. -/
def setDifference : List UidRange → List UidRange → List UidRange
  | [], _ => []
  | ranges, [] => ranges
  | lhs :: ranges, rhs :: others =>
    if less lhs rhs then lhs :: setDifference ranges (rhs :: others)
    else if less rhs lhs then setDifference (lhs :: ranges) others
    else setDifference ranges others
  termination_by ranges others => ranges.length + others.length

end UidRange

open UidRange

/-- The part of `DnsParamCache` about VPNs. -/
structure VpnRanges where
  vpnNetId : List Nat := []
  vpnUidRanges : List UidRange := []
deriving DecidableEq

inductive VpnRanges.Call where
  | addUidRange (netId : Nat) (uidRanges : List UidRange)
  | delUidRange (netId : Nat) (uidRanges : List UidRange)

namespace VpnRanges

variable (cache : VpnRanges)

/-- `AddUidRange`. Sequences that are not sorted cannot be merged: there is no result. -/
def addUidRange (netId : Nat) (uidRanges : List UidRange) : Option VpnRanges :=
  let vpnNetId := if netId ∈ cache.vpnNetId then cache.vpnNetId else cache.vpnNetId ++ [netId]
  let ranges := cache.vpnUidRanges.filter (·.netId ≠ netId)
  if uidRanges = [] then some ⟨vpnNetId, ranges⟩
  else if Sorted ranges ∧ Sorted uidRanges then some ⟨vpnNetId, ranges.merge uidRanges le⟩
  else none

def delUidRange (netId : Nat) (uidRanges : List UidRange) : Option VpnRanges :=
  if Sorted cache.vpnUidRanges ∧ Sorted uidRanges then
    some ⟨cache.vpnNetId.erase netId, setDifference cache.vpnUidRanges uidRanges⟩
  else none

def run : Call → Option VpnRanges
  | .addUidRange netId uidRanges => cache.addUidRange netId uidRanges
  | .delUidRange netId uidRanges => cache.delUidRange netId uidRanges

def step (call : Call) : VpnRanges := (cache.run call).getD cache

/-- A call changes the ranges of its network as it should, and no others. -/
def Exact (before after : VpnRanges) : Call → Prop
  | .addUidRange netId uidRanges =>
    after.vpnUidRanges.Perm (before.vpnUidRanges.filter (·.netId ≠ netId) ++ uidRanges)
  | .delUidRange netId uidRanges => after.vpnUidRanges =
    before.vpnUidRanges.filter fun range => ¬ (range.netId = netId ∧ range ∈ uidRanges)

/-- The ranges of a call are sorted and those of its network. What is deleted is not stored
more often, and another network has no such range. -/
def Permitted : Call → Prop
  | .addUidRange netId uidRanges => (∀ range ∈ uidRanges, range.netId = netId) ∧ Sorted uidRanges
  | .delUidRange netId uidRanges =>
    (∀ range ∈ uidRanges, range.netId = netId) ∧ Sorted uidRanges ∧
      (∀ stored ∈ cache.vpnUidRanges, ∀ range ∈ uidRanges,
        less stored range = false → less range stored = false → stored.netId = netId) ∧
      ∀ range ∈ uidRanges, cache.vpnUidRanges.count range ≤ uidRanges.count range

instance (cache : VpnRanges) : (call : Call) → Decidable (cache.Permitted call)
  | .addUidRange .. => inferInstanceAs (Decidable (_ ∧ _))
  | .delUidRange .. => inferInstanceAs (Decidable (_ ∧ _ ∧ _ ∧ _))

end VpnRanges

namespace UidRange

theorem le_trans (first second third : UidRange) (before : le first second = true)
    (after : le second third = true) : le first third = true := by
  unfold le less at *
  grind

theorem le_total (lhs rhs : UidRange) : (le lhs rhs || le rhs lhs) = true := by
  unfold le less
  grind

theorem notMem_of_less {range other : UidRange} (sorted : Sorted (other :: others))
    (before : less range other = true) :
    range ∉ other :: others := by
  intro member
  have least : le other range = true := by
    rcases mem_cons.mp member with rfl | later
    · simpa using le_total range range
    · exact rel_of_pairwise_cons sorted later
  rw [le, before] at least
  cases least

/-- A difference takes out the ranges that are in the other sequence, where those are not
stored more often. -/
theorem setDifference_eq {ranges others : List UidRange} (sorted : Sorted ranges)
    (otherSorted : Sorted others)
    (same : ∀ range ∈ ranges, ∀ other ∈ others,
      less range other = false → less other range = false → range = other)
    (counts : ∀ other ∈ others, ranges.count other ≤ others.count other) :
    setDifference ranges others = ranges.filter fun range => range ∉ others := by
  induction ranges, others using setDifference.induct with
  | case1 others => rw [setDifference, filter_nil]
  | case2 ranges notNil => simp [setDifference]
  | case3 range ranges other others before ih =>
    have notIn := notMem_of_less otherSorted before
    rw [setDifference, if_pos before, ih sorted.tail otherSorted
      (forall_mem_cons.mp same).2 fun other member =>
        Nat.le_trans count_le_count_cons (counts other member)]
    exact (filter_cons_of_pos (p := fun range => range ∉ other :: others)
      (decide_eq_true notIn)).symm
  | case4 range ranges other others notBefore after ih =>
    have notIn := notMem_of_less sorted after
    rw [setDifference, if_neg notBefore, if_pos after, ih sorted otherSorted.tail
      (fun range member other isOther => same range member other (mem_cons_of_mem _ isOther))]
    · refine filter_congr fun range member => ?_
      have differs : range ≠ other := fun is => notIn (is ▸ member)
      simp [differs]
    · intro element member
      have count := counts element (mem_cons_of_mem _ member)
      by_cases is : element = other
      · rw [is, count_eq_zero_of_not_mem notIn]
        exact Nat.zero_le _
      · rwa [count_cons_of_ne (Ne.symm is)] at count
  | case5 range ranges other others notBefore notAfter ih =>
    obtain rfl := same range mem_cons_self other mem_cons_self
      (Bool.not_eq_true _ ▸ notBefore) (Bool.not_eq_true _ ▸ notAfter)
    have fewer element : element ∈ range :: others →
        ranges.count element ≤ others.count element := by
      intro member
      have count := counts element member
      rw [count_cons, count_cons] at count
      exact Nat.le_of_add_le_add_right count
    rw [setDifference, if_neg notBefore, if_neg notAfter, ih sorted.tail otherSorted.tail
      (fun range member other isOther =>
        same range (mem_cons_of_mem _ member) other (mem_cons_of_mem _ isOther))
      (forall_mem_cons.mp fewer).2,
      filter_cons_of_neg (by simp)]
    refine filter_congr fun element member => ?_
    have again : element = range → element ∈ others := by
      rintro rfl
      exact count_pos_iff.mp (Nat.lt_of_lt_of_le (count_pos_iff.mpr member)
        (fewer element mem_cons_self))
    rw [decide_eq_decide, mem_cons, not_iff_not]
    exact ⟨.inr, fun either => either.elim again id⟩

end UidRange

namespace VpnRanges

variable {cache : VpnRanges}

theorem run_exact (sorted : Sorted cache.vpnUidRanges) (permitted : cache.Permitted call) :
    ∃ after, cache.run call = some after ∧ Sorted after.vpnUidRanges ∧ Exact cache after call := by
  cases call with
  | addUidRange netId uidRanges =>
    obtain ⟨-, isSorted⟩ := permitted
    have kept : Sorted (cache.vpnUidRanges.filter (·.netId ≠ netId)) := List.Pairwise.filter _ sorted
    rw [run, addUidRange]
    split
    next empty => exact ⟨_, rfl, kept, by rw [Exact, empty, append_nil]⟩
    · rw [if_pos ⟨kept, isSorted⟩]
      exact ⟨_, rfl, pairwise_merge le_trans le_total _ _ kept isSorted, merge_perm_append ..⟩
  | delUidRange netId uidRanges =>
    obtain ⟨ofNetwork, isSorted, apart, counts⟩ := permitted
    rw [run, delUidRange, if_pos ⟨sorted, isSorted⟩]
    have difference : setDifference cache.vpnUidRanges uidRanges =
        cache.vpnUidRanges.filter fun range => range ∉ uidRanges := by
      refine setDifference_eq sorted isSorted (fun stored member range isRange least most => ?_) counts
      have network := (apart stored member range isRange least most).trans
        (ofNetwork range isRange).symm
      obtain ⟨begin_, end_, priorityId, netId⟩ := stored
      obtain ⟨begin', end', priorityId', netId'⟩ := range
      unfold less at least most
      grind
    refine ⟨_, rfl, ?_, ?_⟩
    · rw [difference]
      exact List.Pairwise.filter _ sorted
    · refine difference.trans (filter_congr fun range _ => ?_)
      rw [decide_eq_decide, not_iff_not]
      exact ⟨fun isIn => ⟨ofNetwork range isIn, isIn⟩, And.right⟩

/-- In each state the ranges are sorted, and a call that is permitted does what it should. -/
theorem exact_of_reach (reach : Run.Reach step Permitted {} cache) :
    Sorted cache.vpnUidRanges ∧ ∀ call, cache.Permitted call →
      ∃ after, cache.run call = some after ∧ Sorted after.vpnUidRanges ∧
        Exact cache after call := by
  have sorted : Sorted cache.vpnUidRanges := by
    induction reach with
    | start => exact List.Pairwise.nil
    | step _ permitted ih =>
      obtain ⟨after, is, isSorted, -⟩ := run_exact ih permitted
      rwa [step, is]
  exact ⟨sorted, fun call permitted => run_exact sorted permitted⟩

/-- The same range for any VPN. -/
def range (netId : Nat) : UidRange := { begin_ := 100, end_ := 200, netId }

def bothAdded : VpnRanges := [.addUidRange 1 [range 1], .addUidRange 2 [range 2]].foldl step {}

theorem exact_bothAdded : Sorted bothAdded.vpnUidRanges ∧ ∀ call, bothAdded.Permitted call →
    ∃ after, bothAdded.run call = some after ∧ Sorted after.vpnUidRanges ∧
      Exact bothAdded after call :=
  exact_of_reach (Run.Reach.start.foldl _ ⟨by decide, by decide, trivial⟩)

theorem bothAdded_eq : bothAdded = ⟨[1, 2], [range 1, range 2]⟩ := by
  simp [bothAdded, step, run, addUidRange, Sorted, range, le, less]

/-- The range of the other VPN is deleted. -/
theorem not_exact_sameRange : ∃ after, bothAdded.run (.delUidRange 2 [range 2]) = some after ∧
    ¬ Exact bothAdded after (.delUidRange 2 [range 2]) := by
  rw [bothAdded_eq]
  refine ⟨⟨[1], [range 2]⟩, ?_, ?_⟩
  · simp [run, delUidRange, Sorted, range, setDifference, le, less]
  · simp [Exact, range]

end VpnRanges

end NetManager.Dns
