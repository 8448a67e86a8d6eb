import NetManager.Library.Countdown

/-!
# The delayed queue

`DelayedQueue` is a timing wheel with `ARRAY_SIZE + DELAYED_COUNT` slots. A delay of more
than `DELAYED_COUNT` ticks is served in rounds: the element goes `DELAYED_COUNT` slots
ahead and keeps the rest of its delay. Seen from outside the wheel is a list of countdown
timers.
-/

namespace NetManager.Common

open List Countdown

structure ElemParam where
  index : Nat
  delayTime : Nat

/-- `DelayedQueue`. Each element is in one slot, the one that `indexMap_` has for it. -/
structure DelayedQueue (τ : Type) where
  index : Nat := 0
  /-- `elems_` and `indexMap_`. -/
  elems : List (τ × ElemParam) := []

/-- The order in which a slot is gone through, which is that of addresses. -/
structure Arrangement (β : Type) where
  /-- The elements in order. -/
  arrange : List β → List β
  /-- They are the elements of the slot. -/
  perm : ∀ elems, (arrange elems).Perm elems

namespace DelayedQueue

variable {τ σ : Type}

section Wheel

variable (arraySize delayedCount : Nat)

/-- `UpdateDelayTime`, from the slot `index`. -/
def updateDelayTime (index delayTime : Nat) : ElemParam :=
  if delayTime > delayedCount then
    { index := (index + delayedCount) % (arraySize + delayedCount)
      delayTime := delayTime - delayedCount }
  else
    { index := (index + delayTime) % (arraySize + delayedCount)
      delayTime := 0 }

variable (queue : DelayedQueue τ)

/-- `Put` of an element that is not in the queue. -/
def put (elem : τ) (delayTime : Nat) : DelayedQueue τ :=
  if delayTime = 0 then queue
  else
    { queue with
      elems :=
        queue.elems ++ [(elem, updateDelayTime arraySize delayedCount queue.index delayTime)] }

variable (run : τ → σ → τ × σ × Nat)

/-- `ExecuteElem`: `run` is `Execute` and then `GetUpdateTime`. The element stays in the
queue unless it is done. -/
def executeElem (index : Nat) (elem : τ × ElemParam) (state : σ) : List (τ × ElemParam) × σ :=
  if elem.2.delayTime ≠ 0 then
    ([(elem.1, updateDelayTime arraySize delayedCount index elem.2.delayTime)], state)
  else
    let (task, state, updateTime) := run elem.1 state
    if updateTime > 0 then
      ([(task, updateDelayTime arraySize delayedCount index updateTime)], state)
    else ([], state)

/-- The loop over a slot. -/
def executeElems (run : τ → σ → τ × σ × Nat) (index : Nat) :
    List (τ × ElemParam) → σ → List (τ × ElemParam) × σ
  | [], state => ([], state)
  | elem :: elems, state =>
    let (kept, state) := executeElem arraySize delayedCount run index elem state
    let (others, state) := executeElems run index elems state
    (kept ++ others, state)

/-- A second of the worker: the next slot is gone through and emptied. -/
def tick (run : τ → σ → τ × σ × Nat) (order : Arrangement (τ × ElemParam))
    (state : σ) : DelayedQueue τ × σ :=
  let index := (queue.index + 1) % (arraySize + delayedCount)
  let (kept, state) := executeElems arraySize delayedCount run index
    (order.arrange (queue.elems.filter (·.2.index = index))) state
  ({ index := index, elems := queue.elems.filter (·.2.index ≠ index) ++ kept }, state)

/-! ## Countdown timers -/

/-- The number of ticks until a slot is gone through. -/
def ahead (index slot : Nat) : Nat :=
  if index ≤ slot then slot - index else slot + (arraySize + delayedCount) - index

/-- The number of ticks until an element runs. -/
def left (index : Nat) (param : ElemParam) : Nat :=
  ahead arraySize delayedCount index param.index + param.delayTime

/-- The queue as a list of countdown timers. -/
def timers : List (τ × Nat) :=
  queue.elems.map fun elem => (elem.1, left arraySize delayedCount queue.index elem.2)

/-- Between two ticks the slot that was gone through last is empty. -/
structure Armed (queue : DelayedQueue τ) : Prop where
  index_lt : queue.index < arraySize + delayedCount
  slot_lt : ∀ elem ∈ queue.elems, elem.2.index < arraySize + delayedCount
  ahead_pos : ∀ elem ∈ queue.elems, elem.2.index ≠ queue.index

variable {arraySize delayedCount}

theorem add_mod_eq {size index offset : Nat} (inside : index < size) (small : offset < size) :
    (index + offset) % size =
      if index + offset < size then index + offset else index + offset - size := by
  split
  next fits => exact Nat.mod_eq_of_lt fits
  next beyond =>
    rw [Nat.mod_eq_sub_mod (Nat.le_of_not_lt beyond), Nat.mod_eq_of_lt (by omega)]

theorem ahead_add_mod {index offset : Nat} (inside : index < arraySize + delayedCount)
    (positive : 0 < offset) (small : offset < arraySize + delayedCount) :
    let slot := (index + offset) % (arraySize + delayedCount)
    slot < arraySize + delayedCount ∧ slot ≠ index ∧
      ahead arraySize delayedCount index slot = offset := by
  intro slot
  have is : slot = if index + offset < arraySize + delayedCount then index + offset
      else index + offset - (arraySize + delayedCount) := add_mod_eq inside small
  unfold ahead
  split at is
  · exact ⟨by omega, by omega, by rw [if_pos (by omega)]; omega⟩
  · exact ⟨by omega, by omega, by rw [if_neg (by omega)]; omega⟩

theorem left_updateDelayTime (arrayPos : 0 < arraySize) (countPos : 0 < delayedCount)
    {index delayTime : Nat} (inside : index < arraySize + delayedCount) (positive : 0 < delayTime) :
    let param := updateDelayTime arraySize delayedCount index delayTime
    param.index < arraySize + delayedCount ∧ param.index ≠ index ∧
      left arraySize delayedCount index param = delayTime := by
  intro param
  by_cases long : delayTime > delayedCount
  · have is : param = ⟨(index + delayedCount) % (arraySize + delayedCount),
        delayTime - delayedCount⟩ := if_pos long
    obtain ⟨slotInside, notLast, distance⟩ := ahead_add_mod inside countPos (by omega)
    rw [is, left]
    exact ⟨slotInside, notLast, by rw [distance]; exact Nat.add_sub_cancel' (Nat.le_of_lt long)⟩
  · have is : param = ⟨(index + delayTime) % (arraySize + delayedCount), 0⟩ := if_neg long
    obtain ⟨slotInside, notLast, distance⟩ := ahead_add_mod inside positive (by omega)
    rw [is, left]
    exact ⟨slotInside, notLast, distance⟩

theorem ahead_succ {index slot : Nat} (inside : index < arraySize + delayedCount)
    (slotInside : slot < arraySize + delayedCount) (notLast : slot ≠ index) :
    ahead arraySize delayedCount index slot =
      ahead arraySize delayedCount ((index + 1) % (arraySize + delayedCount)) slot + 1 := by
  rw [add_mod_eq inside (by omega)]
  unfold ahead
  split <;> split <;> split <;> omega

end Wheel

section Tick

variable {arraySize delayedCount : Nat} {queue : DelayedQueue τ}

theorem ahead_eq_zero_iff {index : Nat} (inside : index < arraySize + delayedCount) (slot : Nat) :
    ahead arraySize delayedCount index slot = 0 ↔ slot = index := by
  unfold ahead
  split <;> omega

section

variable (armed : Armed arraySize delayedCount queue)

include armed

theorem left_succ (elem : τ × ElemParam) (member : elem ∈ queue.elems) :
    left arraySize delayedCount queue.index elem.2 =
      left arraySize delayedCount ((queue.index + 1) % (arraySize + delayedCount)) elem.2 + 1 := by
  unfold left
  rw [ahead_succ armed.index_lt (armed.slot_lt elem member) (armed.ahead_pos elem member)]
  omega

theorem timers_pos : ∀ timer ∈ timers arraySize delayedCount queue, 0 < timer.2 := by
  refine forall_mem_map.mpr fun elem elemMember => ?_
  rw [left_succ armed elem elemMember]
  exact Nat.succ_pos _

/-- The tasks that are due are those of the next slot without a rest of their delay. -/
theorem due_timers : due (timers arraySize delayedCount queue) = ((queue.elems.filter (·.2.index =
        (queue.index + 1) % (arraySize + delayedCount))).filter
          (·.2.delayTime = 0)).map Prod.fst := by
  have inside : (queue.index + 1) % (arraySize + delayedCount) < arraySize + delayedCount :=
    Nat.mod_lt _ (Nat.zero_lt_of_lt armed.index_lt)
  unfold due timers
  rw [filter_map, map_map, filter_filter]
  congr 1
  refine filter_congr fun elem member => ?_
  have distance := left_succ armed elem member
  have here := ahead_eq_zero_iff inside elem.2.index
  unfold left at distance
  rw [Bool.eq_iff_iff]
  simp only [Function.comp_apply, left, Bool.and_eq_true, decide_eq_true_eq, ← here]
  omega

/-- The tasks that wait are those of other slots, and those of the next slot with a rest
of their delay. -/
theorem waiting_timers :
    (waiting (timers arraySize delayedCount queue)).Perm
      ((queue.elems.filter (·.2.index ≠
          (queue.index + 1) % (arraySize + delayedCount))).map
          (fun elem => (elem.1, left arraySize delayedCount
            ((queue.index + 1) % (arraySize + delayedCount)) elem.2)) ++
        ((queue.elems.filter (·.2.index =
          (queue.index + 1) % (arraySize + delayedCount))).filter
            (·.2.delayTime ≠ 0)).map fun elem => (elem.1, elem.2.delayTime)) := by
  have inside : (queue.index + 1) % (arraySize + delayedCount) < arraySize + delayedCount :=
    Nat.mod_lt _ (Nat.zero_lt_of_lt armed.index_lt)
  have distance := left_succ armed
  generalize (queue.index + 1) % (arraySize + delayedCount) = next at *
  have here := ahead_eq_zero_iff inside
  unfold waiting timers
  rw [filterMap_map]
  refine ((filter_append_perm (·.2.index ≠ next) queue.elems).symm.filterMap _).trans ?_
  rw [filterMap_append]
  refine .of_eq (congr (congrArg _ ?_) ?_)
  · -- Elements of other slots come one closer.
    rw [← filterMap_eq_map]
    refine filterMap_congr fun elem member => ?_
    obtain ⟨elemMember, other⟩ := mem_filter.mp member
    have notHere : ahead arraySize delayedCount next elem.2.index ≠ 0 := by
      rw [ne_eq, here]
      exact of_decide_eq_true other
    have closer := distance elem elemMember
    have positive : left arraySize delayedCount next elem.2 ≠ 0 := by
      unfold left
      omega
    rw [Function.comp_apply, if_neg (by dsimp only; omega), closer]
    rfl
  · -- Elements of the next slot wait for the rest of their delay.
    have sameSlot : queue.elems.filter (fun elem => !decide (elem.2.index ≠ next)) =
        queue.elems.filter (·.2.index = next) := by simp
    have members : ∀ elem ∈ queue.elems.filter (·.2.index = next),
        elem ∈ queue.elems ∧ elem.2.index = next := by
      intro elem member
      simpa using mem_filter.mp member
    rw [sameSlot, ← filterMap_eq_map]
    generalize queue.elems.filter (·.2.index = next) = slotElems at *
    rw [filterMap_filter]
    refine filterMap_congr fun elem member => ?_
    obtain ⟨elemMember, slot⟩ := members elem member
    have atNext := (here elem.2.index).mpr slot
    have closer := distance elem elemMember
    rw [left, left, atNext] at closer
    rw [Function.comp_apply, left]
    by_cases rest : elem.2.delayTime = 0
    · rw [if_pos (by dsimp only; omega), if_neg (by simpa using rest)]
    · rw [if_neg (by dsimp only; omega), if_pos (by simpa using rest), closer]
      simp

end

end Tick

section Refinement

variable
    {arraySize delayedCount : Nat}
    (arrayPos : 0 < arraySize)
    (countPos : 0 < delayedCount)
    (run : τ → σ → τ × σ × Nat)

include arrayPos countPos

variable {index : Nat} {elem : τ × ElemParam}

section

variable (inside : index < arraySize + delayedCount)

include inside

/-- What `ExecuteElem` leaves of a task waits for the time of its next run. -/
theorem kept_spec (task : τ) :
    let kept := if 0 < time then [(task, updateDelayTime arraySize delayedCount index time)] else []
    kept.map (fun elem => (elem.1, left arraySize delayedCount index elem.2)) = rearmed task time ∧
      ∀ elem ∈ kept, elem.2.index < arraySize + delayedCount ∧ elem.2.index ≠ index := by
  unfold rearmed
  split
  next positive =>
    obtain ⟨slotInside, notLast, waits⟩ := left_updateDelayTime arrayPos countPos inside positive
    exact ⟨by rw [map_singleton, waits], forall_mem_singleton.mpr ⟨slotInside, notLast⟩⟩
  · exact ⟨rfl, by simp⟩

/-- The loop over a slot runs the elements without a rest of their delay, and the others
wait for the rest. -/
theorem executeElems_eq (elems : List (τ × ElemParam)) (state : σ) :
    let fired := fire run ((elems.filter (·.2.delayTime = 0)).map Prod.fst) state
    let after := executeElems arraySize delayedCount run index elems state
    after.2 = fired.2 ∧
      (after.1.map fun elem => (elem.1, left arraySize delayedCount index elem.2)).Perm
        ((elems.filter (·.2.delayTime ≠ 0)).map (fun elem => (elem.1, elem.2.delayTime)) ++
          fired.1) ∧
      ∀ elem ∈ after.1, elem.2.index < arraySize + delayedCount ∧ elem.2.index ≠ index := by
  induction elems generalizing state with
  | nil => exact ⟨rfl, .refl _, by simp [executeElems]⟩
  | cons elem elems ih =>
    by_cases rest : elem.2.delayTime = 0
    · obtain ⟨sameState, perm, slots⟩ := ih (run elem.1 state).2.1
      obtain ⟨timers, kept⟩ :=
        kept_spec arrayPos countPos inside (run elem.1 state).1
      have executed : executeElem arraySize delayedCount run index elem state =
          (if 0 < (run elem.1 state).2.2 then [((run elem.1 state).1,
            updateDelayTime arraySize delayedCount index (run elem.1 state).2.2)] else [],
            (run elem.1 state).2.1) := by
        rw [executeElem, if_neg (not_not.mpr rest)]
        dsimp only
        split <;> rfl
      rw [filter_cons_of_pos (by simpa), filter_cons_of_neg (by simpa), executeElems, executed]
      refine ⟨sameState, ?_, forall_mem_append.mpr ⟨kept, slots⟩⟩
      rw [map_append, timers]
      exact (perm.append_left _).trans (perm_append_comm_assoc _ _ _)
    · obtain ⟨sameState, perm, slots⟩ := ih state
      obtain ⟨timers, kept⟩ := kept_spec arrayPos countPos inside elem.1
      have positive := Nat.pos_of_ne_zero rest
      rw [if_pos positive] at timers kept
      rw [filter_cons_of_neg (by simpa), filter_cons_of_pos (by simpa), executeElems, executeElem,
        if_pos rest]
      refine ⟨sameState, ?_, forall_mem_append.mpr ⟨kept, slots⟩⟩
      rw [map_append, timers, rearmed, if_pos positive]
      exact perm.append_left _

end

omit run in

theorem put_eq (armed : Armed arraySize delayedCount queue) (elem : τ) :
    Armed arraySize delayedCount (queue.put arraySize delayedCount elem delayTime) ∧
      timers arraySize delayedCount (queue.put arraySize delayedCount elem delayTime) =
        timers arraySize delayedCount queue ++ rearmed elem delayTime := by
  unfold put rearmed
  split
  next zero =>
    rw [if_neg (by omega), append_nil]
    exact ⟨armed, rfl⟩
  next positive =>
    obtain ⟨slotInside, notLast, waits⟩ :=
      left_updateDelayTime arrayPos countPos armed.index_lt (Nat.pos_of_ne_zero positive)
    rw [if_pos (Nat.pos_of_ne_zero positive)]
    refine ⟨⟨armed.index_lt, ?_, ?_⟩, ?_⟩
    · exact forall_mem_append.mpr ⟨armed.slot_lt, by simpa using slotInside⟩
    · exact forall_mem_append.mpr ⟨armed.ahead_pos, by simpa using notLast⟩
    · rw [timers, map_append, map_singleton, waits]
      rfl

/-- A tick of the wheel is a tick of the countdown timers, in some order of the tasks
that are due. -/
theorem tick_eq (armed : Armed arraySize delayedCount queue) :
    let after := queue.tick arraySize delayedCount run order state
    Armed arraySize delayedCount after.1 ∧
      ∃ tasks, tasks.Perm (due (timers arraySize delayedCount queue)) ∧
        after.2 = (fire run tasks state).2 ∧
        (timers arraySize delayedCount after.1).Perm
          (waiting (timers arraySize delayedCount queue) ++ (fire run tasks state).1) := by
  intro after
  obtain ⟨sameState, perm, slots⟩ := executeElems_eq arrayPos countPos run
    (Nat.mod_lt (queue.index + 1) (by omega))
    (order.arrange (queue.elems.filter (·.2.index =
      (queue.index + 1) % (arraySize + delayedCount)))) state
  have arranged := order.perm (queue.elems.filter (·.2.index =
    (queue.index + 1) % (arraySize + delayedCount)))
  refine ⟨?_, _, ?_, sameState, ?_⟩
  · constructor
    · exact Nat.mod_lt _ (by omega)
    · exact forall_mem_append.mpr ⟨fun elem kept => armed.slot_lt elem (mem_of_mem_filter kept),
        fun elem executed => (slots elem executed).1⟩
    · exact forall_mem_append.mpr ⟨fun elem kept => of_decide_eq_true (mem_filter.mp kept).2,
        fun elem executed => (slots elem executed).2⟩
  · rw [due_timers armed]
    exact (arranged.filter _).map _
  · refine .trans ?_ ((waiting_timers armed).symm.append_right _)
    have kept_append : timers arraySize delayedCount after.1 = _ := map_append
    rw [kept_append, append_assoc]
    refine .append_left _ (perm.trans ?_)
    exact ((arranged.filter _).map _).append_right _

end Refinement

end DelayedQueue

end NetManager.Common
