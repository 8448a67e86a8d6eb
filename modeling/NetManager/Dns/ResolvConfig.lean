import NetManager.Common.DelayedQueue
import NetManager.Common.LruCache

/-!
# The cache of a resolver

`DnsResolvConfig` keeps the answers of a network, each with the time it may still be
used. `SetCacheDelayed` starts a task for a host that runs after the shortest of these
times; it takes the time off all answers of the host, drops those that are used up and
starts over.
-/

namespace NetManager.Dns

open Common

def defaultDelayedCount : Nat := 60 * 10

/-- `AddrInfoWithTtl`, for any type of addresses. -/
structure AddrInfoWithTtl (α : Type) where
  addrInfo : α
  ttl : Nat
  deriving DecidableEq

structure DelayedTaskWrapper where
  hostName : String
  remainTime : Nat := 0

variable {α : Type}

namespace DelayedTaskWrapper

/-- The loop of `Execute` over the answers. -/
def putAll (remainTime : Nat) (hostName : String) :
    List (AddrInfoWithTtl α) → LruCache (AddrInfoWithTtl α) → LruCache (AddrInfoWithTtl α)
  | [], cache => cache
  | info :: infos, cache =>
    if info.ttl > remainTime then
      putAll remainTime hostName infos
        (cache.put hostName { info with ttl := info.ttl - remainTime })
    else putAll remainTime hostName infos cache

variable (task : DelayedTaskWrapper) (cache : LruCache (AddrInfoWithTtl α))

def execute : LruCache (AddrInfoWithTtl α) :=
  let (infos, cache) := cache.get task.hostName
  putAll task.remainTime task.hostName infos (cache.delete task.hostName)

/-- `GetUpdateTime`: the shortest time, or 0 if there is none. -/
def getUpdateTime : DelayedTaskWrapper × LruCache (AddrInfoWithTtl α) × Nat :=
  match cache.get task.hostName with
  | ([], cache) => (task, cache, 0)
  | (first :: infos, cache) =>
    let remainTime := (first :: infos).foldl
      (fun remainTime info => if remainTime < info.ttl then remainTime else info.ttl)
      first.ttl
    ({ task with remainTime := remainTime }, cache, remainTime)

/-- `Execute` and then `GetUpdateTime`. -/
def run : DelayedTaskWrapper × LruCache (AddrInfoWithTtl α) × Nat :=
  task.getUpdateTime (task.execute cache)

end DelayedTaskWrapper

/-- `DnsResolvConfig`, less what has nothing to do with the cache. -/
structure DnsResolvConfig (α : Type) where
  cache : LruCache (AddrInfoWithTtl α) := {}
  delayedQueue : DelayedQueue DelayedTaskWrapper := {}

namespace DnsResolvConfig

variable (config : DnsResolvConfig α) (hostName : String)

/-- `SetDnsCache` of an answer with a time to live. -/
def setDnsCache (info : AddrInfoWithTtl α) : DnsResolvConfig α :=
  if info.ttl = 0 then config
  else
    let ttl := if info.ttl > defaultDelayedCount then info.ttl else defaultDelayedCount
    { config with cache := config.cache.put hostName { info with ttl := ttl } }

def getDnsCache : List α × DnsResolvConfig α :=
  let (infos, cache) := config.cache.get hostName
  (infos.map (·.addrInfo), { config with cache := cache })

def setCacheDelayed : DnsResolvConfig α :=
  let (wrapper, cache, time) :=
    DelayedTaskWrapper.getUpdateTime { hostName := hostName } config.cache
  if time = 0 then { config with cache := cache }
  else
    { cache := cache
      delayedQueue := config.delayedQueue.put defaultCapability defaultDelayedCount wrapper time }

/-- `GetCache().Clear()`. -/
def clearCache : DnsResolvConfig α := { config with cache := config.cache.clear }

/-- A second of the worker of the queue. -/
def tick (order : Arrangement (DelayedTaskWrapper × ElemParam)) : DnsResolvConfig α :=
  let (delayedQueue, cache) := config.delayedQueue.tick defaultCapability defaultDelayedCount
    DelayedTaskWrapper.run order config.cache
  { cache := cache, delayedQueue := delayedQueue }

end DnsResolvConfig

end NetManager.Dns
