import NetManager.Dns.ResolvConfig
import NetManager.Library.Run

/-!
# How long answers are kept

Each answer of a host is watched by a task of the host: the ticks until the task runs and
what it leaves of the answer's time end before the answer does. Tasks of the same host
take time off the answers of each other, which only shortens them.
-/

namespace NetManager.Dns

open List Common Countdown LruCache DelayedQueue

variable {α : Type}

/-! ## Tasks -/

namespace DelayedTaskWrapper

variable {cache : LruCache (AddrInfoWithTtl α)} {host : String} {info : AddrInfoWithTtl α}

/-- The answers behind the loop of `Execute` were there before, or are what is left of
one. -/
theorem mem_values_putAll {remainTime : Nat} {hostName : String}
    (member : info ∈ (putAll remainTime hostName infos cache).values host) :
    info ∈ cache.values host ∨ hostName = host ∧ ∃ before ∈ infos, before.ttl > remainTime ∧
        info = { before with ttl := before.ttl - remainTime } := by
  induction infos generalizing cache with
  | nil => exact .inl member
  | cons first infos ih =>
    unfold putAll at member
    split at member
    case isFalse =>
      refine (ih member).imp_right ?_
      rintro ⟨here, before, beforeMember, rest⟩
      exact ⟨here, before, mem_cons_of_mem _ beforeMember, rest⟩
    case isTrue longer =>
      rcases ih member with put | ⟨here, before, beforeMember, rest⟩
      · refine (mem_values_put put).imp_right ?_
        rintro ⟨here, is⟩
        exact ⟨here, first, mem_cons_self, longer, is⟩
      · exact .inr ⟨here, before, mem_cons_of_mem _ beforeMember, rest⟩

variable (task : DelayedTaskWrapper)

theorem execute_eq :
    task.execute cache =
      putAll task.remainTime task.hostName (cache.values task.hostName)
        ((cache.get task.hostName).2.delete task.hostName) := by
  rw [← get_fst]
  rfl

theorem mem_values_execute (member : info ∈ (task.execute cache).values host) :
    task.hostName ≠ host ∧ info ∈ cache.values host ∨
      task.hostName = host ∧ ∃ before ∈ cache.values host, before.ttl > task.remainTime ∧
          info = { before with ttl := before.ttl - task.remainTime } := by
  rw [execute_eq] at member
  rcases mem_values_putAll member with old | ⟨here, before, beforeMember, rest⟩
  · obtain ⟨different, kept⟩ := mem_values_delete old
    rw [values_get] at kept
    exact .inl ⟨different, kept⟩
  · rw [here] at beforeMember
    exact .inr ⟨here, before, beforeMember, rest⟩

theorem foldl_least (infos : List (AddrInfoWithTtl α)) (start : Nat) :
    let least := infos.foldl
      (fun remainTime info => if remainTime < info.ttl then remainTime else info.ttl) start
    least ≤ start ∧ (∀ info ∈ infos, least ≤ info.ttl) ∧
      (0 < start → (∀ info ∈ infos, 0 < info.ttl) → 0 < least) := by
  induction infos generalizing start with
  | nil => exact ⟨Nat.le_refl _, by simp, fun positive _ => positive⟩
  | cons first infos ih =>
    obtain ⟨atMost, below, positive⟩ := ih (if start < first.ttl then start else first.ttl)
    have bounds : (if start < first.ttl then start else first.ttl) ≤ start ∧
        (if start < first.ttl then start else first.ttl) ≤ first.ttl := by
      split <;> omega
    refine ⟨Nat.le_trans atMost bounds.1, ?_, fun startPos allPos => positive ?_ ?_⟩
    · exact forall_mem_cons.mpr ⟨Nat.le_trans atMost bounds.2, below⟩
    · have firstPos := allPos first mem_cons_self
      split <;> omega
    · exact (forall_mem_cons.mp allPos).2

theorem getUpdateTime_eq :
    (task.getUpdateTime cache).1.hostName = task.hostName ∧
      (task.getUpdateTime cache).2.1 = (cache.get task.hostName).2 := by
  unfold getUpdateTime
  split
  next is => exact ⟨rfl, by rw [is]⟩
  next is => exact ⟨rfl, by rw [is]⟩

theorem getUpdateTime_le (positive : ∀ info ∈ cache.values task.hostName, 0 < info.ttl)
    (member : info ∈ cache.values task.hostName) :
    (task.getUpdateTime cache).2.2 = (task.getUpdateTime cache).1.remainTime ∧
      (task.getUpdateTime cache).2.2 ≤ info.ttl ∧ 0 < (task.getUpdateTime cache).2.2 := by
  rw [← get_fst] at positive member
  unfold getUpdateTime
  split
  next is =>
    rw [is] at member
    cases member
  next first infos _ is =>
    rw [is] at positive member
    obtain ⟨_, below, pos⟩ := foldl_least (first :: infos) first.ttl
    exact ⟨rfl, below info member, pos (positive first mem_cons_self) positive⟩

end DelayedTaskWrapper

/-! ## Answers are watched -/

/-- A `SetDnsCache` that stored an answer, and the tick it came at. -/
structure Store (α : Type) where
  hostName : String
  info : AddrInfoWithTtl α
  /-- The number of ticks before it. -/
  tick : Nat
  deriving DecidableEq

/-- The last tick at which an answer may be used. -/
def Store.deadline (store : Store α) : Nat := store.tick + max store.info.ttl defaultDelayedCount

/-- A task of the host ends the answer in time: what it leaves of the answer's time comes
behind the ticks until it runs. -/
def Watched (timers : List (DelayedTaskWrapper × Nat)) (now : Nat) (host : String)
    (ttl deadline : Nat) : Prop :=
  ∃ timer ∈ timers, timer.1.hostName = host ∧ now + timer.2 + (ttl - timer.1.remainTime) ≤ deadline

/-- Each answer was stored and is watched, or its host waits for `SetCacheDelayed`. -/
structure AllWatched (now : Nat) (stores : List (Store α)) (waitingHosts : List String)
    (timers : List (DelayedTaskWrapper × Nat))
    (cache : LruCache (AddrInfoWithTtl α)) : Prop where
  positive : ∀ host, ∀ info ∈ cache.values host, 0 < info.ttl
  watched : ∀ host, ∀ info ∈ cache.values host, ∃ store ∈ stores,
    store.hostName = host ∧ store.info.addrInfo = info.addrInfo ∧
      (Watched timers now host info.ttl store.deadline ∨
        host ∈ waitingHosts ∧ now + info.ttl ≤ store.deadline)

namespace AllWatched

variable
    {now : Nat}
    {stores : List (Store α)}
    {waitingHosts : List String}
    {timers after : List (DelayedTaskWrapper × Nat)}
    {cache : LruCache (AddrInfoWithTtl α)}

theorem mono (allWatched : AllWatched now stores waitingHosts timers cache)
    (fewer : ∀ host, ∀ info ∈ other.values host, info ∈ cache.values host)
    (more : ∀ timer ∈ timers, timer ∈ after) :
    AllWatched now stores waitingHosts after other where
  positive host info member := allWatched.positive host info (fewer host info member)
  watched host info member := by
    obtain ⟨store, storeMember, sameHost, sameAddr, reason⟩ :=
      allWatched.watched host info (fewer host info member)
    refine ⟨store, storeMember, sameHost, sameAddr, reason.imp_left ?_⟩
    rintro ⟨timer, timerMember, rest⟩
    exact ⟨timer, more timer timerMember, rest⟩

/-- A task that is due runs: what it watched and has not dropped, it watches again. -/
theorem run (allWatched : AllWatched now stores [] timers cache) (task : DelayedTaskWrapper)
    (kept : ∀ timer ∈ timers, timer = (task, 0) ∨ timer ∈ after)
    (new : ∀ timer ∈ rearmed (task.run cache).1 (task.run cache).2.2, timer ∈ after) :
    AllWatched now stores [] after (task.run cache).2.1 := by
  obtain ⟨sameHost, sameCache⟩ := DelayedTaskWrapper.getUpdateTime_eq task
  have values : ∀ host, (task.run cache).2.1.values host = (task.execute cache).values host :=
    fun host => by rw [DelayedTaskWrapper.run, sameCache, values_get]
  have positive host : ∀ info ∈ (task.execute cache).values host, 0 < info.ttl := by
    intro info member
    rcases task.mem_values_execute member with ⟨_, old⟩ | ⟨_, before, _, longer, rfl⟩
    · exact allWatched.positive host info old
    · exact Nat.sub_pos_of_lt longer
  refine ⟨fun host info member => positive host info (values host ▸ member), ?_⟩
  intro host info member
  rw [values] at member
  rcases task.mem_values_execute member with
    ⟨different, old⟩ | ⟨rfl, before, beforeMember, longer, rfl⟩
  · obtain ⟨store, storeMember, storeHost, storeAddr, reason⟩ := allWatched.watched host info old
    refine ⟨store, storeMember, storeHost, storeAddr, .inl ?_⟩
    obtain ⟨timer, timerMember, timerHost, inTime⟩ :=
      reason.resolve_right fun waits => absurd waits.1 not_mem_nil
    refine ⟨timer, (kept timer timerMember).resolve_left ?_, timerHost, inTime⟩
    rintro rfl
    exact different timerHost
  · obtain ⟨store, storeMember, storeHost, storeAddr, reason⟩ :=
      allWatched.watched task.hostName before beforeMember
    refine ⟨store, storeMember, storeHost, storeAddr, .inl ?_⟩
    obtain ⟨timer, timerMember, timerHost, inTime⟩ :=
      reason.resolve_right fun waits => absurd waits.1 not_mem_nil
    rcases kept timer timerMember with rfl | stays
    · -- The task itself: it runs again before what is left of the answer ends.
      obtain ⟨sameTime, inside, later⟩ := task.getUpdateTime_le (positive task.hostName) member
      refine ⟨_, new _ (mem_rearmed later), sameHost, ?_⟩
      rw [DelayedTaskWrapper.run]
      dsimp only at inTime inside ⊢
      omega
    · exact ⟨timer, stays, timerHost, by dsimp only; omega⟩

variable {tasks : List DelayedTaskWrapper}

/-- The time goes on, and the timers that are due are about to run. -/
theorem advance (allWatched : AllWatched now stores [] timers cache)
    (positive : ∀ timer ∈ timers, 0 < timer.2) (perm : tasks.Perm (due timers)) :
    AllWatched (now + 1) stores [] (waiting timers ++ tasks.map (·, 0)) cache := by
  refine ⟨allWatched.positive, fun host info member => ?_⟩
  obtain ⟨store, storeMember, storeHost, storeAddr, reason⟩ := allWatched.watched host info member
  refine ⟨store, storeMember, storeHost, storeAddr, .inl ?_⟩
  obtain ⟨timer, timerMember, timerHost, inTime⟩ :=
    reason.resolve_right fun waits => absurd waits.1 not_mem_nil
  have ahead := positive timer timerMember
  rcases mem_waiting_or_mem_due timerMember with ⟨left, is, waits⟩ | ⟨soon, isDue⟩
  · exact ⟨_, mem_append_left _ waits, timerHost, by dsimp only; omega⟩
  · refine ⟨(timer.1, 0), mem_append_right _ ?_, timerHost, by dsimp only; omega⟩
    exact mem_map_of_mem (perm.mem_iff.mpr isDue)

theorem fire (allWatched : AllWatched now stores [] (timers ++ tasks.map (·, 0)) cache) :
    AllWatched now stores []
      (timers ++ (Countdown.fire DelayedTaskWrapper.run tasks cache).1)
      (Countdown.fire DelayedTaskWrapper.run tasks cache).2 := by
  have fired := fire_invariant
    (fun timers tasks cache => AllWatched now stores [] (timers ++ tasks.map (·, 0)) cache)
    (fun timers task tasks cache before => before.run task ?_ ?_) allWatched
  · rw [map_nil, append_nil] at fired
    exact fired
  · intro timer member
    simp only [map_cons, mem_append, mem_cons] at member ⊢
    tauto
  · intro timer member
    exact mem_append_left _ (mem_append_right _ member)

section

variable (allWatched : AllWatched now stores waitingHosts timers cache) (host : String)
include allWatched host

theorem put (positive : info.ttl ≠ 0) :
    AllWatched now ({ hostName := host, info := info, tick := now } :: stores)
      (host :: waitingHosts) timers
      (cache.put host { info with ttl := max info.ttl defaultDelayedCount }) where
  positive other answer member := by
    rcases mem_values_put member with old | ⟨_, rfl⟩
    · exact allWatched.positive other answer old
    · exact Nat.lt_of_lt_of_le (Nat.pos_of_ne_zero positive) (Nat.le_max_left _ _)
  watched other answer member := by
    rcases mem_values_put member with old | ⟨rfl, rfl⟩
    · obtain ⟨store, storeMember, storeHost, storeAddr, reason⟩ :=
        allWatched.watched other answer old
      exact ⟨store, mem_cons_of_mem _ storeMember, storeHost, storeAddr,
        reason.imp_right (.imp_left (mem_cons_of_mem _))⟩
    · exact ⟨_, mem_cons_self, rfl, rfl, .inr ⟨mem_cons_self, Nat.le_refl _⟩⟩

theorem getUpdateTime : let update := DelayedTaskWrapper.getUpdateTime { hostName := host } cache
    AllWatched now stores (waitingHosts.filter (· ≠ host))
      (timers ++ rearmed update.1 update.2.2) update.2.1 := by
  intro update
  obtain ⟨sameHost, sameCache⟩ := DelayedTaskWrapper.getUpdateTime_eq { hostName := host }
  have values : ∀ other, update.2.1.values other = cache.values other :=
    fun other => by rw [sameCache, values_get]
  refine ⟨fun other info member => allWatched.positive other info (values other ▸ member), ?_⟩
  intro other info member
  rw [values] at member
  obtain ⟨store, storeMember, storeHost, storeAddr, reason⟩ := allWatched.watched other info member
  refine ⟨store, storeMember, storeHost, storeAddr, ?_⟩
  rcases reason with ⟨timer, timerMember, rest⟩ | ⟨waits, inTime⟩
  · exact .inl ⟨timer, mem_append_left _ timerMember, rest⟩
  · by_cases here : other = host
    · subst here
      obtain ⟨sameTime, inside, later⟩ :=
        DelayedTaskWrapper.getUpdateTime_le { hostName := other } (allWatched.positive other) member
      refine .inl ⟨_, mem_append_right _ (mem_rearmed later), sameHost, ?_⟩
      dsimp only [update]
      omega
    · exact .inr ⟨mem_filter.mpr ⟨waits, decide_eq_true here⟩, inTime⟩

end

end AllWatched

/-! ## Runs -/

/-- What happens to the cache of a network. -/
inductive Event (α : Type) where
  | setDnsCache (hostName : String) (info : AddrInfoWithTtl α)
  | setCacheDelayed (hostName : String)
  | getDnsCache (hostName : String)
  /-- The answers of a host are removed. -/
  | evict (hostName : String)
  | clear
  /-- A second of the worker. -/
  | tick (order : Arrangement (DelayedTaskWrapper × ElemParam))

/-- A cache with what happened to it. -/
structure History (α : Type) where
  /-- The number of ticks. -/
  now : Nat := 0
  /-- The cache and its queue. -/
  config : DnsResolvConfig α := {}
  /-- The calls of `SetDnsCache` that stored an answer, the last in front. -/
  stores : List (Store α) := []
  /-- The hosts of such calls since which there was no `SetCacheDelayed`. -/
  waitingHosts : List String := []

namespace History

/-- One event. An answer without time to live is not stored. -/
def step (history : History α) : Event α → History α
  | .setDnsCache hostName info =>
    { now := history.now
      config := history.config.setDnsCache hostName info
      stores := if info.ttl = 0 then history.stores
        else { hostName := hostName, info := info, tick := history.now } :: history.stores
      waitingHosts := hostName :: history.waitingHosts }
  | .setCacheDelayed hostName =>
    { history with
      config := history.config.setCacheDelayed hostName
      waitingHosts := history.waitingHosts.filter (· ≠ hostName) }
  | .getDnsCache hostName => { history with config := (history.config.getDnsCache hostName).2 }
  | .evict hostName =>
    { history with
      config := { history.config with cache := history.config.cache.delete hostName } }
  | .clear => { history with config := history.config.clearCache }
  | .tick order => { history with now := history.now + 1, config := history.config.tick order }

/-- Between `SetDnsCache` and `SetCacheDelayed` there is no tick. -/
def permitted (history : History α) : Event α → Bool
  | .tick _ => history.waitingHosts.isEmpty
  | _ => true

/-- The queue is in order and the answers are watched. -/
structure Kept (history : History α) : Prop where
  armed : DelayedQueue.Armed defaultCapability defaultDelayedCount history.config.delayedQueue
  allWatched : AllWatched history.now history.stores history.waitingHosts
    (timers defaultCapability defaultDelayedCount history.config.delayedQueue)
    history.config.cache

theorem kept_start : Kept ({} : History α) where
  armed := ⟨Nat.succ_pos _, nofun, nofun⟩
  allWatched := ⟨nofun, nofun⟩

namespace Kept

theorem setDnsCache (kept : Kept history) :
    Kept (history.step (.setDnsCache hostName info)) := by
  unfold step DnsResolvConfig.setDnsCache
  dsimp only
  split
  · refine ⟨kept.armed, kept.allWatched.positive, fun host answer member => ?_⟩
    obtain ⟨store, storeMember, storeHost, storeAddr, reason⟩ :=
      kept.allWatched.watched host answer member
    exact ⟨store, storeMember, storeHost, storeAddr,
      reason.imp_right (.imp_left (mem_cons_of_mem _))⟩
  next positive =>
    have longer : (if info.ttl > defaultDelayedCount then info.ttl else defaultDelayedCount) =
        max info.ttl defaultDelayedCount := by
      split <;> omega
    rw [longer]
    exact ⟨kept.armed, kept.allWatched.put hostName positive⟩

theorem setCacheDelayed (kept : Kept history) :
    Kept (history.step (.setCacheDelayed hostName)) := by
  have watched := kept.allWatched.getUpdateTime hostName
  obtain ⟨armed, timers⟩ := put_eq (by decide) (by decide) kept.armed
    (DelayedTaskWrapper.getUpdateTime { hostName := hostName } history.config.cache).1
  unfold step DnsResolvConfig.setCacheDelayed
  dsimp only
  split
  next zero =>
    dsimp only at watched
    rw [rearmed, if_neg (Nat.not_lt.mpr (Nat.le_of_eq zero)), append_nil] at watched
    exact ⟨kept.armed, watched⟩
  · exact ⟨armed, by rw [timers]; exact watched⟩

theorem tick (kept : Kept history)
    (noneWaits : history.waitingHosts = []) :
    Kept (history.step (.tick order)) := by
  obtain ⟨armed, tasks, perm, sameCache, timers⟩ :=
    tick_eq (by decide) (by decide) DelayedTaskWrapper.run kept.armed
  have watched := kept.allWatched
  rw [noneWaits] at watched
  have fired := (watched.advance (timers_pos kept.armed) perm).fire
  refine ⟨armed, ?_⟩
  dsimp only [step]
  rw [noneWaits, DnsResolvConfig.tick]
  dsimp only
  rw [sameCache]
  exact fired.mono (fun _ _ member => member) fun timer member => timers.mem_iff.mpr member

theorem step (kept : Kept history) (allowed : history.permitted event) :
    Kept (history.step event) := by
  cases event with
  | setDnsCache hostName info => exact kept.setDnsCache
  | setCacheDelayed hostName => exact kept.setCacheDelayed
  | getDnsCache hostName =>
    refine ⟨kept.armed, kept.allWatched.mono (fun host info member => ?_) fun _ => id⟩
    rwa [← values_get]
  | evict hostName =>
    exact ⟨kept.armed, kept.allWatched.mono
      (fun _ _ member => (mem_values_delete member).2) fun _ => id⟩
  | clear =>
    exact ⟨kept.armed, kept.allWatched.mono nofun fun _ => id⟩
  | tick order => exact kept.tick (List.isEmpty_iff.mp allowed)

end Kept

/-! ## Ticks at which nothing is due -/

/-- The time goes on and the queue moves. -/
def wait (history : History α) (count : Nat) : History α :=
  { history with
    now := history.now + count
    config :=
      { history.config with
        delayedQueue :=
          { history.config.delayedQueue with
            index := history.config.delayedQueue.index + count } } }

variable {history : History α} (order : Arrangement (DelayedTaskWrapper × ElemParam))

theorem step_tick
    (inside : history.config.delayedQueue.index + 1 < defaultCapability + defaultDelayedCount)
    (later : ∀ elem ∈ history.config.delayedQueue.elems,
      history.config.delayedQueue.index + 1 < elem.2.index) :
    history.step (.tick order) = history.wait 1 := by
  have none : history.config.delayedQueue.elems.filter
      (·.2.index = history.config.delayedQueue.index + 1) = [] :=
    filter_eq_nil_iff.mpr fun elem member is =>
      Nat.ne_of_gt (later elem member) (of_decide_eq_true is)
  have all : history.config.delayedQueue.elems.filter
      (·.2.index ≠ history.config.delayedQueue.index + 1) = history.config.delayedQueue.elems :=
    filter_eq_self.mpr fun elem member => decide_eq_true (Nat.ne_of_gt (later elem member))
  rw [step, DnsResolvConfig.tick, tick, Nat.mod_eq_of_lt inside, none, all,
    (order.perm []).eq_nil]
  simp [executeElems, wait]

theorem foldl_tick (count : Nat)
    (inside : history.config.delayedQueue.index + count < defaultCapability + defaultDelayedCount)
    (later : ∀ elem ∈ history.config.delayedQueue.elems,
      history.config.delayedQueue.index + count < elem.2.index) :
    (List.replicate count (.tick order)).foldl step history = history.wait count := by
  induction count generalizing history with
  | zero => rfl
  | succ count ih =>
    rw [replicate_succ, foldl_cons,
      step_tick order (by omega) fun elem member => by have := later elem member; omega]
    rw [ih]
    · simp only [wait, Nat.add_assoc, Nat.add_comm 1 count]
    · dsimp only [wait]
      omega
    · intro elem member
      have := later elem member
      dsimp only [wait]
      omega

/-! ## The bound -/

/-- Each answer that a lookup gives was stored by a `SetDnsCache` whose time is not over. -/
def InTime (history : History α) : Prop :=
  ∀ hostName, ∀ addrInfo ∈ (history.config.getDnsCache hostName).1,
    ∃ store ∈ history.stores, store.hostName = hostName ∧ store.info.addrInfo = addrInfo ∧
      history.now ≤ store.deadline

/-- The last `SetDnsCache` that stored an address for a host. -/
def lastStore [DecidableEq α] (history : History α) (hostName : String) (addrInfo : α) :
    Option (Store α) :=
  history.stores.find? fun store => store.hostName = hostName ∧ store.info.addrInfo = addrInfo

/-- An answer that a lookup gives is not older than the last `SetDnsCache` that stored it
allows. -/
def LastInTime [DecidableEq α] (history : History α) : Prop :=
  ∀ hostName, ∀ addrInfo ∈ (history.config.getDnsCache hostName).1,
    ∀ store ∈ history.lastStore hostName addrInfo, history.now ≤ store.deadline

/-- No answer is given behind the time of the `SetDnsCache` that stored it. -/
theorem inTime_of_reach {history : History α}
    (reach : Run.Reach step (fun history event => history.permitted event) {} history) :
    InTime history := by
  have kept : Kept history :=
    reach.invariant kept_start fun _ event kept allowed => kept.step allowed
  intro hostName addrInfo member
  rw [DnsResolvConfig.getDnsCache] at member
  obtain ⟨info, infoMember, rfl⟩ := mem_map.mp member
  rw [get_fst] at infoMember
  obtain ⟨store, storeMember, storeHost, storeAddr, reason⟩ :=
    kept.allWatched.watched hostName info infoMember
  refine ⟨store, storeMember, storeHost, storeAddr, ?_⟩
  rcases reason with ⟨timer, _, _, inTime⟩ | ⟨_, inTime⟩
  · omega
  · omega

/-- Slots are gone through as they were filled. -/
def inOrder : Arrangement (DelayedTaskWrapper × ElemParam) := ⟨id, fun _ => .refl _⟩

/-- An answer is stored for two times, the longer first. -/
def storedTwice : List (Event Nat) :=
  [.setDnsCache "host" ⟨1, 1200⟩, .setCacheDelayed "host",
    .setDnsCache "host" ⟨1, 600⟩, .setCacheDelayed "host"]

/-- The shorter time goes by. -/
def outlived : List (Event Nat) :=
  storedTwice ++ List.replicate 599 (.tick inOrder) ++ [.tick inOrder, .tick inOrder]

theorem inTime_outlived : InTime (outlived.foldl step {}) :=
  inTime_of_reach (Run.Reach.start.foldl outlived (by decide +kernel))

theorem foldl_outlived :
    outlived.foldl step {} =
      [Event.tick inOrder, .tick inOrder].foldl step ((storedTwice.foldl step {}).wait 599) := by
  rw [outlived, foldl_append, foldl_append,
    foldl_tick inOrder 599 (by decide +kernel) (by decide +kernel)]

/-- Both answers are kept, and the one with the longer time outlives the last
`SetDnsCache`. -/
theorem not_lastInTime :
    ¬ ∀ history : History Nat,
      Run.Reach step (fun history event => history.permitted event) {} history →
        LastInTime history := by
  intro always
  have late := always _ (Run.Reach.start.foldl outlived (by decide +kernel))
  rw [foldl_outlived] at late
  exact absurd (late "host" 1 (by decide +kernel) ⟨"host", ⟨1, 600⟩, 0⟩ (by decide +kernel))
    (by decide +kernel)

end History

end NetManager.Dns
