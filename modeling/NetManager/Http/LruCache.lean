import NetManager.Library.Numeral
import NetManager.Library.Wire
import Std.Data.ExtTreeMap

/-!
# The cache of HTTP responses in memory

`LRUCache` has a list of nodes, the most recently used one first, and a map from keys to
places in the list. A place is the number of its node here: nodes get a new number each
time they are put to the list, as `std::list` gives a new iterator.
-/

namespace NetManager.Http

open Wire

/-- What goes wrong in a call. -/
inductive Fault where
  /-- A loop that does not end. -/
  | endless
  /-- An iterator of a node that is not there. -/
  | dangling
  /-- A `std::string` of a null pointer. -/
  | nullString
  deriving DecidableEq

/-- `std::unordered_map<std::string, std::string>`. -/
abbrev Value := Std.ExtTreeMap Bytes Bytes

def maxSize : Nat := 1024 * 1024

def invalidSize : Nat := 18446744073709551615

/-- The loop of `GetMapValueSize`. -/
def addSizes : List (Bytes × Bytes) → Nat → Option Nat
  | [], size => some size
  | entry :: entries, size =>
    if maxSize < entry.2.length then none
    else if maxSize < size + entry.2.length then none
    else addSizes entries (size + entry.2.length)

def getMapValueSize (value : Value) : Nat :=
  match addSizes value.toList 0 with
  | none => invalidSize
  | some size => if maxSize < size ∨ size = 0 then invalidSize else size

structure Node where
  key : Bytes
  value : Value

structure LruCache where
  cache : Std.ExtTreeMap Bytes Nat := ∅
  nodeList : List (Nat × Node) := []
  capacity : Nat := maxSize
  size : Nat := 0
  /-- The next place in the list. -/
  nextPlace : Nat := 0

namespace LruCache

/-- `LRUCache(capacity)`. -/
def new (capacity : Nat) : LruCache := { capacity := min maxSize capacity }

variable (cache : LruCache)

/-- `nodeList_.emplace_front` and the map's new iterator. -/
def emplaceFront (node : Node) : LruCache :=
  { cache with
    nodeList := (cache.nextPlace, node) :: cache.nodeList
    cache := cache.cache.insert node.key cache.nextPlace
    nextPlace := cache.nextPlace + 1 }

def addNode (node : Node) : LruCache :=
  let cache := cache.emplaceFront node
  { cache with size := cache.size + getMapValueSize node.value }

variable (place : Nat)

/-- `nodeList_.erase`. -/
def eraseAt : LruCache := { cache with nodeList := cache.nodeList.filter (·.1 ≠ place) }

/-- The node at a place. -/
def nodeAt : Except Fault Node :=
  match cache.nodeList.lookup place with
  | none => throw .dangling
  | some node => return node

def moveNodeToHead : Except Fault LruCache := do
  let node ← cache.nodeAt place
  return (cache.eraseAt place).emplaceFront node

def eraseTailNode : LruCache :=
  match cache.nodeList.getLast? with
  | none => cache
  | some (_, node) =>
    if getMapValueSize node.value = invalidSize then cache
    else
      { cache with
        nodeList := cache.nodeList.dropLast
        cache := cache.cache.erase node.key
        size :=
          if getMapValueSize node.value ≤ cache.size then cache.size - getMapValueSize node.value
          else 0 }

/-- `while (size_ > capacity_) EraseTailNode()`, with as many rounds as there are nodes: when
they are over, or when a round does nothing, no later round does anything. -/
def eraseTails : Nat → LruCache → Except Fault LruCache
  | 0, cache => if cache.capacity < cache.size then throw .endless else return cache
  | rounds + 1, cache =>
    if cache.capacity < cache.size then eraseTails rounds cache.eraseTailNode else return cache

def get (key : Bytes) : Except Fault (Value × LruCache) :=
  match cache.cache[key]? with
  | none => return (∅, cache)
  | some place => do
      let node ← cache.nodeAt place
      let cache ← cache.moveNodeToHead place
      return (node.value, cache)

/-- `it->value = value`. -/
def setValueAt (value : Value) : LruCache :=
  { cache with
    nodeList := cache.nodeList.map fun entry =>
      if entry.1 = place then (entry.1, { entry.2 with value := value }) else entry }

def put (key : Bytes) (value : Value) : Except Fault LruCache :=
  if getMapValueSize value = invalidSize then return cache
  else
    match cache.cache[key]? with
    | none =>
      let cache := cache.addNode ⟨key, value⟩
      eraseTails cache.nodeList.length cache
    | some place => do
        let node ← cache.nodeAt place
        let cache := { cache with size := cache.size - getMapValueSize node.value }
        let cache := cache.setValueAt place value
        let cache := { cache with size := cache.size + getMapValueSize value }
        let cache ← cache.moveNodeToHead place
        eraseTails cache.nodeList.length cache

/-- Nodes are put in turn. -/
def putNodes : List Node → LruCache → Except Fault LruCache
  | [], cache => return cache
  | node :: nodes, cache => do
      let cache ← cache.put node.key node.value
      putNodes nodes cache

/-- `MergeOtherCache` with another cache. -/
def mergeOtherCache (cache other : LruCache) : Except Fault LruCache :=
  if other.nodeList.isEmpty then return cache
  else putNodes (other.nodeList.reverse.map Prod.snd) cache

/-- `Clear`, which leaves `size_` as it is. -/
def clear : LruCache := { cache with cache := ∅, nodeList := [] }

end LruCache

/-! ## JSON -/

/-- A value of cJSON. -/
inductive Json where
  | null
  | bool (value : Bool)
  | number (text : Bytes)
  | string (text : Bytes)
  | array (items : List Json)
  | object (members : List (Bytes × Json))

/-- The children of a value, with their names. -/
def Json.children : Json → List (Option Bytes × Json)
  | .array items => items.map (none, ·)
  | .object members => members.map fun member => (some member.1, member.2)
  | _ => []

/-- `LRU_INDEX`, which is `LRUIndex`. -/
def lruIndex : Bytes := [76, 82, 85, 73, 110, 100, 101, 120]

/-- The texts of an object. -/
def readTexts : List (Bytes × Json) → Value → Value
  | [], value => value
  | (name, .string text) :: members, value => readTexts members (value.insert name text)
  | _ :: members, value => readTexts members value

/-- The nodes of a value, in the order in which they stand there. -/
def readNodes : List (Option Bytes × Json) → Except Fault (List Node)
  | [] => return []
  | (none, .object _) :: _ => throw .nullString
  | (some key, .object members) :: children => do
      let nodes ← readNodes children
      let value := readTexts members ∅
      return if value.contains lruIndex then ⟨key, value⟩ :: nodes else nodes
  | _ :: children => readNodes children

/-- `std::strtol` of the index with base 10, as far as a `long` reaches. -/
def indexOf (node : Node) : Int :=
  let text := ((node.value.getD lruIndex []).map fun byte => Char.ofNat byte.toNat).dropWhile
    Numeral.isSpace
  let magnitude (digits : List Char) : Int := (Numeral.readDigits 10 digits).getD 0
  match text with
  | '-' :: digits => max (-9223372036854775808) (-magnitude digits)
  | '+' :: digits => min 9223372036854775807 (magnitude digits)
  | digits => min 9223372036854775807 (magnitude digits)

/-- `std::sort` of nodes by their indices, the greatest one first. -/
structure SortNodes where
  /-- The nodes in their order. -/
  sort : List Node → List Node
  /-- They are the same ones. -/
  perm : ∀ nodes, (sort nodes).Perm nodes
  /-- They are in their order. -/
  sorted : ∀ nodes, (sort nodes).Pairwise fun first second => indexOf second ≤ indexOf first

/-- The nodes that are put, without their indices. -/
def withoutIndices (nodes : List Node) : List Node :=
  (nodes.map fun node => { node with value := node.value.erase lruIndex }).filter
    fun node => !node.value.isEmpty

/-- `ReadCacheFromJsonValue`. A null pointer has no children. -/
def LruCache.readCacheFromJsonValue (sortNodes : SortNodes) (cache : LruCache)
    (root : Option Json) : Except Fault LruCache := do
  let nodes ← readNodes ((root.map Json.children).getD [])
  putNodes (withoutIndices (sortNodes.sort nodes)) cache

end NetManager.Http
