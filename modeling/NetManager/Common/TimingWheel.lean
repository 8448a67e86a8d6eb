import NetManager.Common.DelayedQueue
import Mathlib.Data.List.Dedup
import Mathlib.Data.Set.Basic

/-!
# The wheel of the delayed queue

`DelayedQueue` with its slots and `indexMap_` apart. The worker takes the lock twice in a
second, to go on to the next slot and to go through it, and `Put` may come in between. An
element that is put runs at the tick that its delay says, whatever else is put.
-/

namespace NetManager.Common

open DelayedQueue Option

/-- `DelayedQueue`. While `advanced` holds the slot of `index_` is still to be gone through.
The list of a slot stands for a set, and `ran` counts the calls of `Execute`. -/
structure TimingWheel (τ : Type) (arraySize delayedCount : Nat) where
  index : Nat := 0
  advanced : Bool := true
  elems : Nat → List τ := fun _ => []
  indexMap : τ → Option ElemParam := fun _ => none
  ran : τ → Nat := fun _ => 0

namespace TimingWheel

variable {τ : Type} [DecidableEq τ] {arraySize delayedCount : Nat}

inductive Event (τ : Type) where
  | put (elem : τ) (delayTime : Nat)
  /-- The worker takes the lock, and `GetUpdateTime` gives these times. -/
  | work (getUpdateTime : τ → Nat)

section Wheel

variable (wheel : TimingWheel τ arraySize delayedCount)

/-- `UpdateDelayTime`. -/
def update (delayTime : Nat) (elem : τ) : TimingWheel τ arraySize delayedCount :=
  let newParam := updateDelayTime arraySize delayedCount wheel.index delayTime
  { wheel with
    elems := Function.update wheel.elems newParam.index (elem :: wheel.elems newParam.index)
    indexMap := Function.update wheel.indexMap elem (some newParam) }

/-- `Put` takes an element out of its old slot. -/
def takeOut (elem : τ) : TimingWheel τ arraySize delayedCount :=
  match wheel.indexMap elem with
  | none => wheel
  | some oldParam =>
    if oldParam.index < arraySize + delayedCount then
      { wheel with
        elems := Function.update wheel.elems oldParam.index
          ((wheel.elems oldParam.index).filter (· ≠ elem)) }
    else wheel

def put (elem : τ) (delayTime : Nat) : TimingWheel τ arraySize delayedCount :=
  if delayTime = 0 then wheel else (wheel.takeOut elem).update delayTime elem

def executeElem (getUpdateTime : τ → Nat) (elem : τ) : TimingWheel τ arraySize delayedCount :=
  let oldParam := (wheel.indexMap elem).getD ⟨0, 0⟩
  if oldParam.delayTime ≠ 0 then wheel.update oldParam.delayTime elem
  else
    let wheel := { wheel with ran := Function.update wheel.ran elem (wheel.ran elem + 1) }
    if getUpdateTime elem > 0 then wheel.update (getUpdateTime elem) elem
    else { wheel with indexMap := Function.update wheel.indexMap elem none }

/-- The worker goes through its slot, or on to the next one. -/
def work (getUpdateTime : τ → Nat) : TimingWheel τ arraySize delayedCount :=
  if wheel.advanced then
    let after := (wheel.elems wheel.index).dedup.foldl (executeElem · getUpdateTime) wheel
    { after with elems := Function.update after.elems after.index [], advanced := false }
  else { wheel with index := (wheel.index + 1) % (arraySize + delayedCount), advanced := true }

def step : Event τ → TimingWheel τ arraySize delayedCount
  | .put elem delayTime => wheel.put elem delayTime
  | .work getUpdateTime => wheel.work getUpdateTime

end Wheel

/-! ## The schedule -/

/-- What the wheel is for: the tick at which each element is due. -/
structure Schedule (τ : Type) where
  now : Nat := 0
  advanced : Bool := true
  due : τ → Option Nat := fun _ => none
  ran : τ → Nat := fun _ => 0

namespace Schedule

/-- An element that is due runs. It is then due again after its update time, or forgotten. -/
def serve (schedule : Schedule τ) (getUpdateTime : τ → Nat) : Schedule τ where
  now := schedule.now
  advanced := false
  due elem :=
    if schedule.due elem = some schedule.now then
      if getUpdateTime elem > 0 then some (schedule.now + getUpdateTime elem) else none
    else schedule.due elem
  ran elem :=
    if schedule.due elem = some schedule.now then schedule.ran elem + 1 else schedule.ran elem

def step (schedule : Schedule τ) : Event τ → Schedule τ
  | .put elem delayTime =>
    if delayTime = 0 then schedule
    else { schedule with due := Function.update schedule.due elem (some (schedule.now + delayTime)) }
  | .work getUpdateTime =>
    if schedule.advanced then schedule.serve getUpdateTime
    else { schedule with now := schedule.now + 1, advanced := true }

end Schedule

/-! ## One element -/

/-- What the wheel has of an element. -/
@[ext]
structure View (arraySize delayedCount : Nat) where
  index : Nat
  param : Option ElemParam
  slots : Set Nat
  ran : Nat

def view (wheel : TimingWheel τ arraySize delayedCount) (elem : τ) : View arraySize delayedCount where
  index := wheel.index
  param := wheel.indexMap elem
  slots := {slot | elem ∈ wheel.elems slot}
  ran := wheel.ran elem

/-- Among some slots, an element is in the one that is as far ahead as it is due. -/
structure View.Fits (view : View arraySize delayedCount) (served : Bool) (among : Set Nat)
    (schedule : Schedule τ) (elem : τ) : Prop where
  slots : ∀ slot ∈ among, slot ∈ view.slots ↔ ∃ param ∈ view.param, param.index = slot
  inside : ∀ param ∈ view.param, param.index < arraySize + delayedCount
  ahead : served = true → ∀ param ∈ view.param, param.index ≠ view.index
  due : schedule.due elem = view.param.map (schedule.now + left arraySize delayedCount view.index ·)
  ran : view.ran = schedule.ran elem

variable {wheel : TimingWheel τ arraySize delayedCount} {schedule : Schedule τ} {elem other : τ}

section Others

variable (different : other ≠ elem)

include different

theorem view_update : (wheel.update delayTime elem).view other = wheel.view other := by
  ext slot
  · rfl
  · simp [view, update, different]
  · simp only [view, update, Function.update_apply, Set.mem_ofPred_eq]
    split <;> simp_all
  · rfl

theorem view_takeOut : (wheel.takeOut elem).view other = wheel.view other := by
  unfold takeOut
  split
  · rfl
  · split
    · ext slot
      · rfl
      · rfl
      · simp only [view, Function.update_apply, Set.mem_ofPred_eq]
        split <;> simp_all
      · rfl
    · rfl

theorem view_executeElem :
    (wheel.executeElem getUpdateTime elem).view other = wheel.view other := by
  simp only [executeElem]
  split
  · exact view_update different
  · have ranOther : { wheel with
        ran := Function.update wheel.ran elem (wheel.ran elem + 1) }.view other = wheel.view other := by
      simp [view, different]
    split
    · rw [view_update different, ranOther]
    · simp [view, different]

omit different in
theorem index_executeElem : (wheel.executeElem getUpdateTime elem).index = wheel.index := by
  simp only [executeElem]
  split
  · rfl
  · split <;> rfl

end Others

section Served

variable (arrayPos : 0 < arraySize) (countPos : 0 < delayedCount)
  (inside : wheel.index < arraySize + delayedCount)

include inside

omit [DecidableEq τ] in
theorem fits_serve_of_not_mem
    (fits : (wheel.view elem).Fits false .univ schedule elem) (elsewhere : elem ∉ wheel.elems wheel.index) :
    (wheel.view elem).Fits true {slot | slot ≠ wheel.index} (schedule.serve getUpdateTime) elem := by
  have notHere : ∀ param ∈ wheel.indexMap elem, param.index ≠ wheel.index := fun param has here =>
    elsewhere ((fits.slots wheel.index trivial).mpr ⟨param, has, here⟩)
  have later : schedule.due elem ≠ some schedule.now := by
    rw [fits.due]
    intro isNow
    obtain ⟨param, has, soon⟩ := map_eq_some_iff.mp isNow
    have zero : ahead arraySize delayedCount wheel.index param.index = 0 := by
      exact Nat.eq_zero_of_add_eq_zero_right (Nat.add_eq_left.mp soon)
    exact notHere param has ((ahead_eq_zero_iff inside _).mp zero)
  refine ⟨fun slot _ => fits.slots slot trivial, fits.inside, fun _ => notHere, ?_, ?_⟩
  · exact (if_neg later).trans fits.due
  · exact fits.ran.trans (if_neg later).symm

include arrayPos countPos

theorem fits_update (positive : 0 < delayTime)
    (noSlot : ∀ slot ∈ among, elem ∉ wheel.elems slot)
    (due : schedule.due elem = some (schedule.now + delayTime))
    (ran : wheel.ran elem = schedule.ran elem) :
    ((wheel.update delayTime elem).view elem).Fits served among schedule elem := by
  obtain ⟨slotInside, notHere, isLeft⟩ := left_updateDelayTime arrayPos countPos inside positive
  refine ⟨fun slot member => ?_, ?_, ?_, ?_, ran⟩
  · rcases eq_or_ne slot (updateDelayTime arraySize delayedCount wheel.index delayTime).index with
      rfl | elsewhere
    · simp [view, update]
    · simp [view, update, Function.update_of_ne elsewhere, noSlot slot member, elsewhere.symm]
  · simpa [view, update] using slotInside
  · simpa [view, update] using fun _ => notHere
  · simpa [view, update, due] using isLeft.symm

theorem fits_executeElem (fits : (wheel.view elem).Fits false .univ schedule elem)
    (here : elem ∈ wheel.elems wheel.index) :
    ((wheel.executeElem getUpdateTime elem).view elem).Fits true {slot | slot ≠ wheel.index}
      (schedule.serve getUpdateTime) elem := by
  obtain ⟨param, has, atIndex⟩ := (fits.slots wheel.index trivial).mp here
  have isParam : wheel.indexMap elem = some param := has
  have noSlot : ∀ slot ∈ {slot | slot ≠ wheel.index}, elem ∉ wheel.elems slot := by
    intro slot elsewhere there
    obtain ⟨same, hasSame, atSlot⟩ := (fits.slots slot trivial).mp there
    exact elsewhere (atSlot ▸ mem_unique has hasSame ▸ atIndex)
  have isDue : schedule.due elem = some (schedule.now + param.delayTime) := by
    have zero := (ahead_eq_zero_iff inside param.index).mpr atIndex
    simp [fits.due, view, isParam, left, zero]
  simp only [executeElem, isParam, getD_some]
  by_cases rest : param.delayTime = 0
  · rw [if_neg (not_not.mpr rest)]
    rw [rest] at isDue
    have ranOnce : wheel.ran elem + 1 = (schedule.serve getUpdateTime).ran elem := by
      simp [Schedule.serve, isDue, ← fits.ran, view]
    split
    next again =>
      refine fits_update arrayPos countPos (by exact inside) again noSlot ?_ ?_
      · simp [Schedule.serve, isDue, again]
      · simpa using ranOnce
    next done =>
      exact ⟨fun slot member => by simpa [view] using noSlot slot member, by simp [view],
        by simp [view], by simp [view, Schedule.serve, isDue, done], by simpa [view] using ranOnce⟩
  · rw [if_pos rest]
    have later : schedule.due elem ≠ some schedule.now := by
      simpa [isDue] using rest
    refine fits_update arrayPos countPos inside (Nat.pos_of_ne_zero rest) noSlot ?_ ?_
    · exact (if_neg later).trans isDue
    · exact fits.ran.trans (if_neg later).symm

omit inside in
/-- The loop over a slot: each element of the rest of the slot still waits, and the others are
served. -/
theorem fits_foldl {index : Nat} (inside : index < arraySize + delayedCount) {elems : List τ}
    (nodup : elems.Nodup) (atIndex : wheel.index = index)
    (waiting : ∀ elem ∈ elems, index ∈ (wheel.view elem).slots ∧
      (wheel.view elem).Fits false .univ schedule elem) (others : ∀ elem ∉ elems,
      (wheel.view elem).Fits true {slot | slot ≠ index} (schedule.serve getUpdateTime) elem) :
    let after := elems.foldl (executeElem · getUpdateTime) wheel
    after.index = index ∧ ∀ elem, (after.view elem).Fits true {slot | slot ≠ index}
      (schedule.serve getUpdateTime) elem := by
  induction elems generalizing wheel with
  | nil => exact ⟨atIndex, fun elem => others elem List.not_mem_nil⟩
  | cons first rest ih =>
      obtain ⟨notAgain, nodup⟩ := List.nodup_cons.mp nodup
      refine ih nodup (index_executeElem.trans atIndex)
        (fun elem member => ?_) fun elem notRest => ?_
      · have different : elem ≠ first := fun same => notAgain (same ▸ member)
        rw [view_executeElem different]
        exact waiting elem (List.mem_cons_of_mem _ member)
      · rcases eq_or_ne elem first with rfl | different
        · obtain ⟨here, fits⟩ := waiting elem List.mem_cons_self
          subst atIndex
          exact fits_executeElem arrayPos countPos inside fits here
        · rw [view_executeElem different]
          exact others elem (List.not_mem_cons_of_ne_of_not_mem different notRest)

end Served

/-! ## Runs -/

/-- The wheel has each element as the schedule has it. -/
structure Represents (wheel : TimingWheel τ arraySize delayedCount) (schedule : Schedule τ) :
    Prop where
  index_lt : wheel.index < arraySize + delayedCount
  advanced : wheel.advanced = schedule.advanced
  fits : ∀ elem, (wheel.view elem).Fits (!wheel.advanced) .univ schedule elem

namespace Represents

variable (represents : wheel.Represents schedule) (arrayPos : 0 < arraySize)
  (countPos : 0 < delayedCount)

include represents

theorem takeOut : let after := wheel.takeOut elem
    (after.index = wheel.index ∧ after.advanced = wheel.advanced ∧ after.ran = wheel.ran) ∧
      ∀ slot, elem ∉ after.elems slot := by
  have fits := represents.fits elem
  unfold TimingWheel.takeOut
  split
  next isNone =>
    refine ⟨⟨rfl, rfl, rfl⟩, fun slot => ?_⟩
    simpa [view, isNone] using fits.slots slot trivial
  next param isParam =>
    rw [if_pos (fits.inside param isParam)]
    refine ⟨⟨rfl, rfl, rfl⟩, fun slot => ?_⟩
    have only := fits.slots slot trivial
    simp only [view, isParam, Set.mem_ofPred_eq] at only
    rcases eq_or_ne slot param.index with rfl | elsewhere
    · simp
    · simp [Function.update_of_ne elsewhere, only, elsewhere.symm]

include arrayPos countPos

theorem put : (wheel.put elem delayTime).Represents (schedule.step (.put elem delayTime)) := by
  unfold TimingWheel.put Schedule.step
  by_cases noDelay : delayTime = 0
  · simpa only [if_pos noDelay] using represents
  · simp only [if_neg noDelay]
    obtain ⟨⟨sameIndex, sameAdvanced, sameRan⟩, noSlot⟩ := represents.takeOut
    have inside : (wheel.takeOut elem).index < arraySize + delayedCount :=
      sameIndex ▸ represents.index_lt
    refine ⟨inside, sameAdvanced.trans represents.advanced, fun other => ?_⟩
    rcases eq_or_ne other elem with rfl | different
    · refine fits_update arrayPos countPos inside (Nat.pos_of_ne_zero noDelay)
        (fun slot _ => noSlot slot) (Function.update_self ..) ?_
      rw [sameRan]
      exact (represents.fits other).ran
    · rw [view_update different, view_takeOut different,
        show ((wheel.takeOut elem).update delayTime elem).advanced = _ from sameAdvanced]
      exact { represents.fits other with
        due := (Function.update_of_ne different ..).trans (represents.fits other).due }

theorem work : (wheel.work getUpdateTime).Represents (schedule.step (.work getUpdateTime)) := by
  unfold TimingWheel.work Schedule.step
  have fits := represents.fits
  cases isAdvanced : wheel.advanced with
  | false =>
      simp only [← represents.advanced, isAdvanced, Bool.false_eq_true, if_false]
      refine ⟨Nat.mod_lt _ (Nat.add_pos_left arrayPos _), rfl, fun elem => ?_⟩
      refine ⟨(fits elem).slots, (fits elem).inside, nofun, ?_, (fits elem).ran⟩
      refine (fits elem).due.trans (map_congr fun param has => ?_)
      have closer := ahead_succ represents.index_lt ((fits elem).inside param has)
        ((fits elem).ahead (by rw [isAdvanced]; rfl) param has)
      dsimp only [left, view] at closer ⊢
      omega
  | true =>
      simp only [← represents.advanced, isAdvanced, if_true]
      rw [isAdvanced] at fits
      obtain ⟨sameIndex, served⟩ := fits_foldl arrayPos countPos represents.index_lt
        (List.nodup_dedup (wheel.elems wheel.index)) rfl
        (fun elem member => ⟨List.mem_dedup.mp member, fits elem⟩) fun elem elsewhere =>
          fits_serve_of_not_mem represents.index_lt (fits elem)
            (mt List.mem_dedup.mpr elsewhere)
      refine ⟨lt_of_eq_of_lt sameIndex represents.index_lt, rfl, fun elem => ?_⟩
      refine { served elem with slots := fun slot _ => ?_ }
      have atIndex := (served elem).ahead rfl
      rcases eq_or_ne slot wheel.index with rfl | elsewhere
      · simpa [view, sameIndex] using atIndex
      · simpa [view, sameIndex, Function.update_of_ne elsewhere] using
          (served elem).slots slot elsewhere

theorem run (events : List (Event τ)) :
    (events.foldl step wheel).Represents (events.foldl Schedule.step schedule) := by
  induction events generalizing wheel schedule with
  | nil => exact represents
  | cons event rest ih =>
      cases event with
      | put elem delayTime => exact ih (represents.put arrayPos countPos)
      | work getUpdateTime => exact ih (represents.work arrayPos countPos)

end Represents

/-- In every run an element is executed at the ticks at which it is due and at no others, is in
one slot while it is due, and in none and forgotten when it is not. -/
theorem executed_when_due (arrayPos : 0 < arraySize) (countPos : 0 < delayedCount)
    (events : List (Event τ)) (elem : τ) :
    let wheel := events.foldl step ({} : TimingWheel τ arraySize delayedCount)
    let schedule := events.foldl Schedule.step {}
    wheel.ran elem = schedule.ran elem ∧
      (∀ first second, elem ∈ wheel.elems first → elem ∈ wheel.elems second → first = second) ∧
      (schedule.due elem = none ↔ wheel.indexMap elem = none) ∧
      (wheel.indexMap elem = none ↔ ∀ slot, elem ∉ wheel.elems slot) := by
  intro wheel schedule
  have start : ({} : TimingWheel τ arraySize delayedCount).Represents {} :=
    ⟨Nat.add_pos_left arrayPos _, rfl, fun _ => ⟨by simp [view], nofun, nofun, rfl, rfl⟩⟩
  have fits := (start.run arrayPos countPos events).fits elem
  have slots : ∀ slot, elem ∈ wheel.elems slot ↔
      ∃ param ∈ wheel.indexMap elem, param.index = slot := fun slot => fits.slots slot trivial
  refine ⟨fits.ran, fun first second here there => ?_, ?_, ?_⟩
  · obtain ⟨param, has, rfl⟩ := (slots first).mp here
    obtain ⟨same, hasSame, rfl⟩ := (slots second).mp there
    rw [mem_unique has hasSame]
  · rw [show schedule.due elem = _ from fits.due, map_eq_none_iff]
    rfl
  · simp only [slots]
    cases wheel.indexMap elem <;> simp

theorem executed_when_due_put : let events : List (Event Nat) := [.put 7 3, .work fun _ => 0]
    let wheel := events.foldl step ({} : TimingWheel Nat 4 2)
    let schedule := events.foldl Schedule.step {}
    wheel.ran 7 = schedule.ran 7 ∧
      (∀ first second, 7 ∈ wheel.elems first → 7 ∈ wheel.elems second → first = second) ∧
      (schedule.due 7 = none ↔ wheel.indexMap 7 = none) ∧
      (wheel.indexMap 7 = none ↔ ∀ slot, 7 ∉ wheel.elems slot) :=
  executed_when_due (by decide) (by decide) _ 7

end TimingWheel

end NetManager.Common
