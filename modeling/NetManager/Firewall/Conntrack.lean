import NetManager.Library.Run

/-!
# Connection tracking

The kernel program keeps one entry of `CT_MAP` for each tuple. A packet that the rules
let through creates it, and every later packet records its TCP flags in it, one byte for
each direction. A FIN or RST closes a direction, and an entry that is closed in both is
deleted. The host is little-endian.
-/

namespace NetManager.Firewall.Conntrack

/-! ## Flags -/

/-- `__constant_cpu_to_be32` on a little-endian host. -/
def cpuToBe32 (number : BitVec 32) : BitVec 32 :=
  number.extractLsb' 0 8 ++ number.extractLsb' 8 8 ++ number.extractLsb' 16 8 ++
    number.extractLsb' 24 8

def tcpFlagFin : BitVec 32 := cpuToBe32 0x00010000
def tcpFlagSyn : BitVec 32 := cpuToBe32 0x00020000
def tcpFlagRst : BitVec 32 := cpuToBe32 0x00040000

/-- `union tcp_flags`, as its number. -/
structure TcpFlags where
  value : BitVec 32 := 0
  deriving DecidableEq

namespace TcpFlags

/-- `lower_bits`, the second byte in memory. -/
def lowerBits (flags : TcpFlags) : BitVec 8 := flags.value.extractLsb' 8 8

/-- `load_tcp_flags`: the two bytes of the TCP header from offset 12 on. -/
def load (upperBits lowerBits : BitVec 8) : TcpFlags where
  value := lowerBits.setWidth 32 <<< 8 ||| upperBits.setWidth 32

/-- The packet has the flag FIN. -/
def fin (flags : TcpFlags) : Bool := flags.lowerBits.getLsbD 0
/-- The packet has the flag SYN. -/
def syn (flags : TcpFlags) : Bool := flags.lowerBits.getLsbD 1
/-- The packet has the flag RST. -/
def rst (flags : TcpFlags) : Bool := flags.lowerBits.getLsbD 2

end TcpFlags

theorem and_ne_zero_iff (inside : position < 32) :
    value &&& BitVec.twoPow 32 position ≠ 0 ↔ value.getLsbD position = true := by
  rw [BitVec.and_twoPow]
  split
  next set =>
    refine iff_of_true (fun zero => ?_) set
    have bit := congrArg (BitVec.getLsbD · position) zero
    simp [inside] at bit
  next unset => exact iff_of_false (fun nonzero => nonzero rfl) unset

variable (flags : TcpFlags)

theorem and_flag_ne_zero_iff (inside : position < 8) :
    flags.value &&& BitVec.twoPow 32 (8 + position) ≠ 0 ↔
      flags.lowerBits.getLsbD position = true := by
  rw [and_ne_zero_iff (by omega), TcpFlags.lowerBits]
  simp [inside]

theorem and_tcpFlagFin : flags.value &&& tcpFlagFin ≠ 0 ↔ flags.fin = true :=
  and_flag_ne_zero_iff flags (show 0 < 8 by decide)

theorem and_tcpFlagSyn : flags.value &&& tcpFlagSyn ≠ 0 ↔ flags.syn = true :=
  and_flag_ne_zero_iff flags (show 1 < 8 by decide)

theorem and_tcpFlagRst : flags.value &&& tcpFlagRst ≠ 0 ↔ flags.rst = true :=
  and_flag_ne_zero_iff flags (show 2 < 8 by decide)

/-! ## Entries -/

inductive CtDir
  | egress
  | ingress
  deriving DecidableEq

/-- The other direction. -/
def CtDir.other : CtDir → CtDir
  | egress => ingress
  | ingress => egress

structure CtEntry where
  lifetime : BitVec 32 := 0
  rxClosingFlag : Bool := false
  txClosingFlag : Bool := false
  seenNonSyn : Bool := false
  txSeenFlag : BitVec 8 := 0
  rxSeenFlag : BitVec 8 := 0
  lastTxReport : BitVec 32 := 0
  lastRxReport : BitVec 32 := 0
  deriving DecidableEq

inductive CtStatus
  | ctNew
  | ctEstablished
  | ctReopened
  | ctRelated
  deriving DecidableEq

inductive CtAction
  | unspec
  | create
  | close
  deriving DecidableEq

def tcpConnTimeoutSec : BitVec 32 := 21600
def nontcpConnTimeoutSec : BitVec 32 := 60
def tcpSynTimeoutSec : BitVec 32 := 60
def reportIntervalSec : BitVec 32 := 5
def reportFlags : BitVec 8 := 0xff

namespace CtEntry

section

variable (now : BitVec 32) (entry : CtEntry)

/-- The flags that were seen in one direction. -/
def seenFlag : CtDir → BitVec 8
  | .ingress => entry.rxSeenFlag
  | .egress => entry.txSeenFlag

/-- The time of the last report for one direction. -/
def lastReport : CtDir → BitVec 32
  | .ingress => entry.lastRxReport
  | .egress => entry.lastTxReport

/-- The closing flag of one direction. -/
def closingFlag : CtDir → Bool
  | .ingress => entry.rxClosingFlag
  | .egress => entry.txClosingFlag

def resetSeenFlags : CtEntry := { entry with rxSeenFlag := 0, txSeenFlag := 0 }

def resetClosingFlags : CtEntry :=
  { entry with rxClosingFlag := false, txClosingFlag := false }

def isConnAlive : Bool := !entry.rxClosingFlag || !entry.txClosingFlag

def isConnClosing : Bool := entry.txClosingFlag || entry.rxClosingFlag

/-- `is_seen_both_syns`: a byte is compared with a number of 32 bits. -/
def isSeenBothSyns : Bool :=
  let rxSyn := entry.rxSeenFlag.setWidth 32 &&& tcpFlagSyn ≠ 0
  let txSyn := entry.txSeenFlag.setWidth 32 &&& tcpFlagSyn ≠ 0
  rxSyn && txSyn

/-- `update_timeout_inner` at the second `now`. -/
def updateTimeoutInner (lifetime : BitVec 32) (dir : CtDir) (flags : TcpFlags) : CtEntry × Bool :=
  let lastSeenFlags := entry.seenFlag dir
  let lastReport := entry.lastReport dir
  let seenFlags := (flags.lowerBits &&& reportFlags) ||| lastSeenFlags
  let entry := { entry with lifetime := now + lifetime }
  if lastReport + reportIntervalSec < now ∨ lastSeenFlags ≠ seenFlags then
    match dir with
    | .ingress => ({ entry with rxSeenFlag := seenFlags, lastRxReport := now }, true)
    | .egress => ({ entry with txSeenFlag := seenFlags, lastTxReport := now }, true)
  else (entry, false)

def ctUpdateTimeout (tcp : Bool) (dir : CtDir) (seenFlags : TcpFlags) : CtEntry × Bool :=
  let syn : Bool := seenFlags.value &&& tcpFlagSyn ≠ 0
  let entry := if tcp then { entry with seenNonSyn := entry.seenNonSyn || !syn } else entry
  let timeout :=
    if tcp then if entry.seenNonSyn then tcpConnTimeoutSec else tcpSynTimeoutSec
    else nontcpConnTimeoutSec
  entry.updateTimeoutInner now timeout dir seenFlags

/-- The closing flags that a packet with FIN or RST sets. -/
def close (dir : CtDir) (seenFlags : TcpFlags) : CtEntry :=
  if !entry.isSeenBothSyns && (seenFlags.value &&& tcpFlagRst ≠ 0 : Bool) then
    { entry with rxClosingFlag := true, txClosingFlag := true }
  else
    match dir with
    | .ingress => { entry with rxClosingFlag := true }
    | .egress => { entry with txClosingFlag := true }

end

end CtEntry

def getTcpConnAction : CtAction :=
  if flags.value &&& (tcpFlagRst ||| tcpFlagFin) ≠ 0 then .close
  else if flags.value &&& tcpFlagSyn ≠ 0 then .create
  else .unspec

/-- What the functions read of a packet. -/
structure Skb where
  isTcp : Bool
  /-- The two bytes that hold the flags, unless they cannot be loaded. -/
  flagBytes : Option (BitVec 8 × BitVec 8)
  deriving DecidableEq

/-- The flags of a packet, unless they cannot be loaded. -/
def Skb.seenFlags (skb : Skb) : Option TcpFlags :=
  if skb.isTcp then skb.flagBytes.map fun (upperBits, lowerBits) =>
    TcpFlags.load upperBits lowerBits
  else some {}

variable (now : BitVec 32)

/-- `ct_create_entry` for one tuple: `updated` is whether `bpf_map_update_elem`
succeeds. -/
def ctCreateEntry (isTcp : Bool) (dir : CtDir) (updated : Bool)
    (slot : Option CtEntry) : Option CtEntry × Bool :=
  let seenFlags : TcpFlags := { value := 0 ||| if isTcp then tcpFlagSyn else 0 }
  let entry := (CtEntry.ctUpdateTimeout now {} isTcp dir seenFlags).1
  if updated then (some entry, true) else (slot, false)

/-- The part of `ct_lookup_entry` behind the flags, for an entry that was found. -/
def updateEntry (isTcp : Bool) (dir : CtDir) (seenFlags : TcpFlags)
    (entry : CtEntry) : Option CtEntry × CtStatus :=
  let entry :=
    if entry.isConnAlive then (entry.ctUpdateTimeout now isTcp dir seenFlags).1 else entry
  match getTcpConnAction seenFlags with
  | .create =>
    if entry.isConnClosing then
      let reopened := { entry.resetClosingFlags.resetSeenFlags with seenNonSyn := false }
      (some (reopened.ctUpdateTimeout now isTcp dir seenFlags).1, .ctReopened)
    else (some entry, .ctEstablished)
  | .close =>
    let closed := entry.close dir seenFlags
    if closed.isConnAlive then (some closed, .ctEstablished) else (none, .ctEstablished)
  | .unspec => (some entry, .ctEstablished)

/-- `ct_lookup_entry` for one tuple. -/
def ctLookupEntry (dir : CtDir) (skb : Skb) (slot : Option CtEntry) : Option CtEntry × CtStatus :=
  match slot with
  | none => (none, .ctNew)
  | some entry =>
    match skb.seenFlags with
    | none => (some entry, .ctRelated)
    | some seenFlags => updateEntry now skb.isTcp dir seenFlags entry

/-! ## What the functions do to an entry -/

/-- The test for both SYN flags is never true: the byte has no bit in common with the
number. -/
theorem isSeenBothSyns_eq_false (entry : CtEntry) : entry.isSeenBothSyns = false := by
  have disjoint : ∀ byte : BitVec 8, byte.setWidth 32 &&& tcpFlagSyn = 0 := by decide
  simp [CtEntry.isSeenBothSyns, disjoint]

theorem getTcpConnAction_eq :
    getTcpConnAction flags =
      if flags.rst || flags.fin then .close else if flags.syn then .create else .unspec := by
  have either : flags.value &&& (tcpFlagRst ||| tcpFlagFin) ≠ 0 ↔
      (flags.rst || flags.fin) = true := by
    rw [BitVec.and_or_distrib_left, Bool.or_eq_true, ← and_tcpFlagRst, ← and_tcpFlagFin]
    exact (not_congr BitVec.or_eq_zero_iff).trans not_and_or
  unfold getTcpConnAction
  simp only [either, and_tcpFlagSyn]

section Update

variable
    (now lifetime : BitVec 32)
    (entry : CtEntry)
    (tcp : Bool)
    (dir : CtDir)
    (flags : TcpFlags)

theorem closingFlag_updateTimeoutInner :
    (entry.updateTimeoutInner now lifetime dir flags).1.closingFlag = entry.closingFlag := by
  unfold CtEntry.updateTimeoutInner
  funext direction
  dsimp only
  split
  · cases dir <;> cases direction <;> rfl
  · cases direction <;> rfl

theorem closingFlag_ctUpdateTimeout :
    (entry.ctUpdateTimeout now tcp dir flags).1.closingFlag = entry.closingFlag := by
  unfold CtEntry.ctUpdateTimeout
  rw [closingFlag_updateTimeoutInner]
  funext direction
  cases tcp <;> cases direction <;> rfl

theorem closingFlag_close :
    (entry.close dir flags).closingFlag direction =
      (flags.rst || decide (direction = dir) || entry.closingFlag direction) := by
  have reset : (decide (flags.value &&& tcpFlagRst ≠ 0)) = flags.rst :=
    Bool.eq_iff_iff.mpr (decide_eq_true_iff.trans (and_tcpFlagRst flags))
  unfold CtEntry.close
  rw [isSeenBothSyns_eq_false, reset]
  cases flags.rst <;> cases dir <;> cases direction <;> rfl

end Update

theorem isConnAlive_eq_false_iff (entry : CtEntry) :
    entry.isConnAlive = false ↔ ∀ dir, entry.closingFlag dir = true := by
  unfold CtEntry.isConnAlive
  rw [Bool.or_eq_false_iff, Bool.not_eq_false', Bool.not_eq_false']
  constructor
  · rintro ⟨ingress, egress⟩ dir
    cases dir with
    | ingress => exact ingress
    | egress => exact egress
  · intro closed
    exact ⟨closed .ingress, closed .egress⟩

variable {entry : CtEntry}

theorem isConnAlive_of_not_closing (opened : entry.closingFlag dir = false) :
    entry.isConnAlive = true := by
  by_contra dead
  have closed := (isConnAlive_eq_false_iff entry).mp (Bool.eq_false_iff.mpr dead) dir
  rw [opened] at closed
  cases closed

theorem isConnAlive_congr {first second : CtEntry} (same : first.closingFlag = second.closingFlag) :
    first.isConnAlive = second.isConnAlive := by
  change (!first.closingFlag .ingress || !first.closingFlag .egress) = _
  rw [same]
  rfl

/-- A packet reopens an entry, leaves its closing flags alone or closes it. -/
theorem updateEntry_cases (flags : TcpFlags)
    (alive : entry.isConnAlive = true) :
    ((flags.rst || flags.fin) = false ∧
      ∃ after, updateEntry now isTcp dir flags entry = (some after, .ctReopened) ∧
        ∀ direction, after.closingFlag direction = false) ∨
    ((flags.rst || flags.fin) = false ∧
      ∃ after, updateEntry now isTcp dir flags entry = (some after, .ctEstablished) ∧
        after.closingFlag = entry.closingFlag) ∨
    ((flags.rst || flags.fin) = true ∧
      ∃ after, updateEntry now isTcp dir flags entry =
          (if after.isConnAlive then some after else none, .ctEstablished) ∧
        ∀ direction, after.closingFlag direction =
          (flags.rst || decide (direction = dir) || entry.closingFlag direction)) := by
  have kept := closingFlag_ctUpdateTimeout now entry isTcp dir flags
  unfold updateEntry
  rw [if_pos alive, getTcpConnAction_eq]
  cases closes : flags.rst || flags.fin with
  | true =>
    refine .inr (.inr ⟨rfl, (entry.ctUpdateTimeout now isTcp dir flags).1.close dir flags,
      ?_, fun direction => ?_⟩)
    · simp only [if_true]
      split <;> rfl
    · rw [closingFlag_close, kept]
  | false =>
    cases flags.syn with
    | false => exact .inr (.inl ⟨rfl, _, rfl, kept⟩)
    | true =>
      simp only [Bool.false_eq_true, if_false, if_true]
      split
      · refine .inl ⟨trivial, _, rfl, fun direction => ?_⟩
        rw [closingFlag_ctUpdateTimeout]
        cases direction <;> rfl
      · exact .inr (.inl ⟨trivial, _, rfl, kept⟩)

/-! ## Runs -/

/-- What happens to the entry of a tuple. -/
inductive CtEvent
  | create (now : BitVec 32) (isTcp : Bool) (dir : CtDir) (updated : Bool)
  | lookup (now : BitVec 32) (dir : CtDir) (skb : Skb)

/-- The entry of a tuple, and the directions in which a FIN or RST was seen since the
entry was created or reopened. -/
structure Tracking where
  /-- The entry in `CT_MAP`. -/
  slot : Option CtEntry := none
  /-- A FIN or RST was seen. -/
  closeSeen : CtDir → Bool := fun _ => false

namespace Tracking

section

variable (entry : CtEntry) (tracking : Tracking) (event : CtEvent)

/-- The directions in which a FIN or RST was seen, behind a lookup that found the
entry. -/
def closeSeenAfter (dir : CtDir) (seenFlags : Option TcpFlags) (status : CtStatus)
    (direction : CtDir) : Bool :=
  if status = .ctReopened then false
  else tracking.closeSeen direction ||
    (decide (direction = dir) && seenFlags.any fun flags => flags.rst || flags.fin)

/-- One event. -/
def step : CtEvent → Tracking
  | .create now isTcp dir updated =>
    { slot := (ctCreateEntry now isTcp dir updated tracking.slot).1
      closeSeen := if updated then fun _ => false else tracking.closeSeen }
  | .lookup now dir skb =>
    let (slot, status) := ctLookupEntry now dir skb tracking.slot
    { slot := slot
      closeSeen :=
        if tracking.slot.isSome then tracking.closeSeenAfter dir skb.seenFlags status
        else tracking.closeSeen }

/-- A SYN is recorded in a direction, by earlier packets or by this one. -/
def synRecorded (direction : CtDir) : Bool :=
  (entry.seenFlag direction).getLsbD 1 || match event with
    | .create .. => false
    | .lookup _ dir skb => decide (direction = dir) && skb.seenFlags.any TcpFlags.syn

/-- An entry with a SYN in both directions is removed only if a FIN or RST was seen in
both. -/
def RemovedAfterClose : Prop :=
  ∀ entry, tracking.slot = some entry → (∀ direction, synRecorded entry event direction = true) →
    (tracking.step event).slot = none →
    ∀ direction, (tracking.step event).closeSeen direction = true

/-- A RST for an entry with a SYN in both directions comes only when the other direction
is closing. -/
def ResetComesLast : Prop :=
  match event with
  | .create .. => True
  | .lookup _ dir skb =>
    ∀ entry ∈ tracking.slot, (∀ direction, synRecorded entry event direction = true) →
      skb.seenFlags.any TcpFlags.rst = true → entry.closingFlag dir.other = true

end

/-- A stored entry is alive, and its closing flags are the directions in which a FIN or
RST was seen. -/
structure Consistent (tracking : Tracking) : Prop where
  alive : ∀ entry ∈ tracking.slot, entry.isConnAlive = true
  closing : ∀ entry ∈ tracking.slot, entry.closingFlag = tracking.closeSeen

theorem Consistent.initial : Consistent {} := ⟨by simp, by simp⟩

variable {tracking : Tracking} {entry : CtEntry}

theorem step_lookup_some (found : tracking.slot = some entry) (now : BitVec 32) :
    tracking.step (.lookup now dir skb) =
      { slot := (ctLookupEntry now dir skb (some entry)).1
        closeSeen := tracking.closeSeenAfter dir skb.seenFlags
          (ctLookupEntry now dir skb (some entry)).2 } := by
  cases tracking
  cases found
  rfl

/-- A lookup that finds a consistent entry keeps one without a RST in the packet, or
removes it. -/
theorem step_lookup_cases (consistent : tracking.Consistent)
    (found : tracking.slot = some entry) (now : BitVec 32) (dir : CtDir) (skb : Skb) :
    (skb.seenFlags.any TcpFlags.rst = false ∧
      ∃ after, (tracking.step (.lookup now dir skb)).slot = some after ∧ after.isConnAlive = true ∧
        after.closingFlag = (tracking.step (.lookup now dir skb)).closeSeen) ∨
    ((skb.seenFlags.any TcpFlags.rst = true ∨ entry.closingFlag dir.other = true) ∧
      (tracking.step (.lookup now dir skb)).slot = none ∧
        ∀ direction, (tracking.step (.lookup now dir skb)).closeSeen direction =
          (decide (direction = dir) || entry.closingFlag direction)) := by
  have alive := consistent.alive entry found
  have closing := consistent.closing entry found
  rw [step_lookup_some found, ctLookupEntry]
  cases skb.seenFlags with
  | none =>
    refine .inl ⟨rfl, entry, rfl, alive, ?_⟩
    funext direction
    simp [closeSeenAfter, closing]
  | some flags =>
    dsimp only
    rcases updateEntry_cases now flags alive with
      ⟨opens, after, is, flagsAfter⟩ | ⟨opens, after, is, flagsAfter⟩ |
      ⟨closes, after, is, flagsAfter⟩
    case inl =>
      have noReset : flags.rst = false := (Bool.or_eq_false_iff.mp opens).1
      refine .inl ⟨noReset, after, by rw [is], isConnAlive_of_not_closing (flagsAfter dir), ?_⟩
      funext direction
      rw [is, flagsAfter]
      rfl
    case inr.inl =>
      have noReset : flags.rst = false := (Bool.or_eq_false_iff.mp opens).1
      refine .inl ⟨noReset, after, by rw [is], (isConnAlive_congr flagsAfter).trans alive, ?_⟩
      funext direction
      rw [is, flagsAfter, closing]
      simp [closeSeenAfter, opens]
    case inr.inr =>
      have seen direction :
          tracking.closeSeenAfter dir (some flags) .ctEstablished direction =
            (decide (direction = dir) || entry.closingFlag direction) := by
        rw [closing, closeSeenAfter, Option.any_some, closes, Bool.and_true, Bool.or_comm]
        rfl
      rw [is]
      cases aliveAfter : after.isConnAlive with
      | true =>
        -- Some direction stays open, so the packet has no RST.
        have noReset : flags.rst = false := by
          by_contra reset
          have dead := (isConnAlive_eq_false_iff after).mpr fun direction => by
            rw [flagsAfter, Bool.of_not_eq_false reset]
            rfl
          rw [aliveAfter] at dead
          cases dead
        refine .inl ⟨noReset, after, rfl, aliveAfter, ?_⟩
        funext direction
        rw [seen, flagsAfter, noReset, Bool.false_or]
      | false =>
        have dead := (isConnAlive_eq_false_iff after).mp aliveAfter dir.other
        have different : dir.other ≠ dir := by cases dir <;> decide
        rw [flagsAfter, decide_eq_false different, Bool.or_false, Bool.or_eq_true_iff] at dead
        exact .inr ⟨dead, rfl, seen⟩

theorem Consistent.step (consistent : tracking.Consistent) :
    (tracking.step event).Consistent := by
  cases event with
  | create now isTcp dir updated =>
    cases updated with
    | false => exact consistent
    | true =>
      have fresh := closingFlag_ctUpdateTimeout now {} isTcp dir
        { value := 0 ||| if isTcp then tcpFlagSyn else 0 }
      have opened direction : CtEntry.closingFlag {} direction = false := by
        cases direction <;> rfl
      constructor
      · rintro entry ⟨⟩
        exact isConnAlive_of_not_closing ((congrFun fresh dir).trans (opened dir))
      · rintro entry ⟨⟩
        exact fresh.trans (funext opened)
  | lookup now dir skb =>
    cases found : tracking.slot with
    | none =>
      cases tracking
      cases found
      exact consistent
    | some entry =>
      rcases step_lookup_cases consistent found now dir skb with
        ⟨_, after, is, alive, closing⟩ | ⟨_, removed, _⟩
      · exact ⟨by simp [is, alive], by simp [is, closing]⟩
      · exact ⟨by simp [removed], by simp [removed]⟩

/-- In a consistent state, an event removes an entry as it should exactly when it is no
early RST. -/
theorem removedAfterClose_iff (consistent : tracking.Consistent) :
    tracking.RemovedAfterClose event ↔ tracking.ResetComesLast event := by
  cases event with
  | create now isTcp dir updated =>
    refine iff_of_true (fun entry found _ removed => ?_) trivial
    cases updated with
    | false => cases found.symm.trans removed
    | true => cases removed
  | lookup now dir skb =>
    cases found : tracking.slot with
    | none =>
      refine iff_of_true (fun entry here => ?_) fun entry here => ?_
      · cases found.symm.trans here
      · cases found.symm.trans here
    | some entry =>
      have onlyEntry stored (here : tracking.slot = some stored) : stored = entry :=
        Option.some.inj (here.symm.trans found)
      rcases step_lookup_cases consistent found now dir skb with
        ⟨noReset, after, is, _⟩ | ⟨reason, removed, seen⟩
      · refine iff_of_true (fun _ _ _ removed => ?_) fun _ _ _ reset => ?_
        · cases is.symm.trans removed
        · cases noReset.symm.trans reset
      · constructor
        · intro justified stored here recorded _
          obtain rfl := onlyEntry stored here
          have different : dir.other ≠ dir := by cases dir <;> decide
          have closed := justified stored here recorded removed dir.other
          rwa [seen, decide_eq_false different, Bool.false_or] at closed
        · intro comesLast stored here recorded _ direction
          obtain rfl := onlyEntry stored here
          have closed : stored.closingFlag dir.other = true :=
            reason.elim (comesLast stored here recorded) id
          rw [seen]
          by_cases own : direction = dir
          · rw [decide_eq_true own, Bool.true_or]
          · have otherOne : direction = dir.other := by
              cases dir <;> cases direction <;> simp_all [CtDir.other]
            rw [otherOne, closed, Bool.or_true]

/-- The events of a run, from a map without the tuple, remove an entry with a SYN in both
directions only after a FIN or RST in both, if and only if each RST for such an entry
comes when the other direction is closing. No stored entry has both closing flags. -/
theorem permittedAll_removedAfterClose_iff (events : List CtEvent) :
    (Run.PermittedAll step RemovedAfterClose {} events ↔
      Run.PermittedAll step ResetComesLast {} events) ∧
    ∀ entry ∈ (events.foldl step {}).slot, entry.isConnAlive = true := by
  suffices ∀ tracking : Tracking, tracking.Consistent →
      (Run.PermittedAll step RemovedAfterClose tracking events ↔
        Run.PermittedAll step ResetComesLast tracking events) ∧
      (events.foldl step tracking).Consistent by
    obtain ⟨same, consistent⟩ := this {} Consistent.initial
    exact ⟨same, consistent.alive⟩
  induction events with
  | nil => exact fun _ consistent => ⟨Iff.rfl, consistent⟩
  | cons event events ih =>
    intro tracking consistent
    obtain ⟨later, consistentLater⟩ := ih _ consistent.step
    exact ⟨and_congr (removedAfterClose_iff consistent) later, consistentLater⟩

/-- A handshake and a RST of the server. -/
def handshakeAndReset : List CtEvent :=
  [.create 1 true .egress true, .lookup 1 .ingress ⟨true, some (0x50, 0x12)⟩,
    .lookup 1 .egress ⟨true, some (0x50, 0x10)⟩,
    .lookup 2 .ingress ⟨true, some (0x50, 0x04)⟩]

/-- The RST of one side removes the entry, although the other side has sent neither FIN
nor RST. -/
theorem not_removedAfterClose : ¬Run.PermittedAll step RemovedAfterClose {} handshakeAndReset := by
  rintro ⟨_, _, _, justified, _⟩
  have closed := justified _ rfl (fun direction => by cases direction <;> rfl) rfl .egress
  cases closed

end Tracking

end NetManager.Firewall.Conntrack
