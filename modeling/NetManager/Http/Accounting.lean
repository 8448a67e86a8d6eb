import NetManager.Library.Lru
import NetManager.Library.Run
import NetManager.Http.LruCache

/-!
# The account of the cache

The list and the map of an `LRUCache` are an abstract cache of recently used entries with
the lengths of their texts as weights, and `size_` is the weight of all entries and what
`Clear` has left there.
-/

namespace NetManager.Http

open List Wire

/-! ## Sizes -/

/-- The size of a value: the lengths of its texts. -/
def valueSize (value : Value) : Nat := (value.toList.map fun entry => entry.2.length).sum

/-- A value that is put: its size is not 0 and not more than `MAX_SIZE`. -/
def Valid (value : Value) : Prop := getMapValueSize value ≠ invalidSize
deriving Decidable

theorem addSizes_eq_some (is : addSizes entries size = some result) :
    result = size + (entries.map fun entry => entry.2.length).sum := by
  induction entries generalizing size with
  | nil => exact (Option.some_inj.mp is).symm
  | cons entry entries ih =>
    unfold addSizes at is
    split at is
    · cases is
    · split at is
      · cases is
      · rw [ih is, map_cons, sum_cons]
        omega

theorem getMapValueSize_eq (valid : Valid value) :
    getMapValueSize value = valueSize value := by
  unfold Valid getMapValueSize at valid
  unfold getMapValueSize
  split at valid
  · exact absurd rfl valid
  next size isSize =>
    split at valid
    · exact absurd rfl valid
    next inside =>
      rw [if_neg inside, addSizes_eq_some isSize, Nat.zero_add]
      rfl

namespace LruCache

variable {stale : Nat} {cache : LruCache}

/-! ## The map and the list -/

/-- The entries of the cache. -/
def contents (cache : LruCache) : List (Bytes × Value) :=
  cache.nodeList.map fun entry => (entry.2.key, entry.2.value)

/-- The map leads to the nodes of all keys but one, which has no node. -/
structure LinkedBut (key : Bytes) (cache : LruCache) : Prop where
  places : (cache.nodeList.map Prod.fst).Nodup
  fresh : ∀ entry ∈ cache.nodeList, entry.1 < cache.nextPlace
  linked : ∀ other ≠ key, ∀ place,
    cache.cache[other]? = some place ↔ ∃ value, (place, ⟨other, value⟩) ∈ cache.nodeList
  absent : ∀ entry ∈ cache.nodeList, entry.2.key ≠ key

/-- The map leads to all nodes. -/
structure Linked (cache : LruCache) : Prop where
  places : (cache.nodeList.map Prod.fst).Nodup
  fresh : ∀ entry ∈ cache.nodeList, entry.1 < cache.nextPlace
  linked : ∀ key place,
    cache.cache[key]? = some place ↔ ∃ value, (place, ⟨key, value⟩) ∈ cache.nodeList

theorem Linked.but (linked : Linked cache) (new : cache.cache[key]? = none) :
    LinkedBut key cache := by
  refine ⟨linked.places, linked.fresh, fun other _ => linked.linked other, ?_⟩
  rintro ⟨place, node⟩ member rfl
  cases new.symm.trans ((linked.linked node.key place).mpr ⟨node.value, member⟩)

variable {node : Node}

theorem LinkedBut.emplaceFront (linked : LinkedBut node.key cache) :
    Linked (cache.emplaceFront node) := by
  constructor
  case places =>
    refine nodup_cons.mpr ⟨fun member => ?_, linked.places⟩
    obtain ⟨entry, inList, is⟩ := mem_map.mp member
    exact Nat.lt_irrefl _ (is ▸ linked.fresh entry inList)
  case fresh =>
    exact forall_mem_cons.mpr ⟨Nat.lt_succ_self _,
      fun entry inList => Nat.lt_succ_of_lt (linked.fresh entry inList)⟩
  case linked =>
    intro key place
    dsimp only [LruCache.emplaceFront]
    rw [Std.ExtTreeMap.getElem?_insert]
    split
    next same =>
      obtain rfl := Std.LawfulEqCmp.eq_of_compare same
      constructor
      · intro is
        obtain rfl := Option.some_inj.mp is
        exact ⟨node.value, mem_cons_self⟩
      · rintro ⟨value, member⟩
        rcases mem_cons.mp member with is | inList
        · rw [(Prod.mk.inj is).1]
        · exact absurd rfl (linked.absent _ inList)
    next different =>
      have other : key ≠ node.key := by
        rintro rfl
        exact different Std.ReflCmp.compare_self
      rw [linked.linked key other]
      refine exists_congr fun value => ?_
      rw [mem_cons]
      refine (or_iff_right ?_).symm
      intro is
      exact other (congrArg Node.key (Prod.mk.inj is).2)

section Linked

variable (linked : Linked cache)
include linked

theorem Linked.eq_of_place (firstMember : first ∈ cache.nodeList)
    (secondMember : second ∈ cache.nodeList) (same : first.1 = second.1) :
    first = second :=
  inj_on_of_nodup_map linked.places firstMember secondMember same

theorem Linked.place_eq_iff (firstMember : first ∈ cache.nodeList)
    (secondMember : second ∈ cache.nodeList) :
    first.1 = second.1 ↔ first.2.key = second.2.key := by
  constructor
  · intro same
    rw [linked.eq_of_place firstMember secondMember same]
  · intro same
    have isFirst := (linked.linked first.2.key first.1).mpr ⟨first.2.value, firstMember⟩
    have isSecond := (linked.linked second.2.key second.1).mpr ⟨second.2.value, secondMember⟩
    rw [same] at isFirst
    exact Option.some_inj.mp (isFirst.symm.trans isSecond)

theorem Linked.distinct : Lru.Distinct cache.contents := by
  unfold Lru.Distinct contents
  rw [map_map]
  refine List.Nodup.map_on ?_ linked.places.of_map
  intro first firstMember second secondMember same
  exact linked.eq_of_place firstMember secondMember
    ((linked.place_eq_iff firstMember secondMember).mpr same)

theorem Linked.exists_node (is : cache.cache[key]? = some place) :
    ∃ value, (place, ⟨key, value⟩) ∈ cache.nodeList ∧ cache.nodeAt place = .ok ⟨key, value⟩ := by
  obtain ⟨value, member⟩ := (linked.linked key place).mp is
  refine ⟨value, member, ?_⟩
  unfold nodeAt
  rw [Lru.Distinct.lookup_eq_some_iff linked.places |>.mpr member]
  rfl

theorem Linked.contents_eraseAt (member : entry ∈ cache.nodeList) :
    (cache.eraseAt entry.1).contents = Lru.remove entry.2.key cache.contents := by
  unfold contents eraseAt Lru.remove
  rw [filter_map]
  refine congrArg _ (filter_congr fun other otherMember => ?_)
  exact decide_eq_decide.mpr (not_congr (linked.place_eq_iff otherMember member))

theorem Linked.eraseAt (member : entry ∈ cache.nodeList) :
    LinkedBut entry.2.key (cache.eraseAt entry.1) := by
  constructor
  case places => exact linked.places.sublist (filter_sublist.map Prod.fst)
  case fresh =>
    intro other otherMember
    exact linked.fresh other (mem_filter.mp otherMember).1
  case linked =>
    intro key other place
    rw [LruCache.eraseAt, linked.linked key place]
    refine exists_congr fun value => ?_
    rw [mem_filter]
    refine (and_iff_left_of_imp fun otherMember => ?_).symm
    rw [decide_eq_true_eq]
    exact fun same => other ((linked.place_eq_iff otherMember member).mp same)
  case absent =>
    intro other otherMember same
    obtain ⟨inList, different⟩ := mem_filter.mp otherMember
    exact of_decide_eq_true different ((linked.place_eq_iff inList member).mpr same)

end Linked

/-! ## The account -/

/-- The map and the list belong together, all values are valid, and `size_` is the weight of
the entries and what a `Clear` has left. -/
structure Sound (stale : Nat) (cache : LruCache) : Prop where
  linked : Linked cache
  valid : ∀ entry ∈ cache.contents, Valid entry.2
  size : cache.size = stale + Lru.total valueSize cache.contents

/-- What a call does: the capacity stays, and the entries are other ones. -/
structure Becomes (stale : Nat) (cache : LruCache) (entries : List (Bytes × Value))
    (after : LruCache) : Prop where
  sound : Sound stale after
  capacity : after.capacity = cache.capacity
  contents : after.contents = entries

theorem Linked.dropLast (linked : Linked cache)
    (is : cache.nodeList = front ++ [(place, node)]) (size : Nat) :
    Linked { cache with
      nodeList := front
      cache := cache.cache.erase node.key
      size := size } := by
  have inFront : ∀ entry ∈ front, entry ∈ cache.nodeList := fun entry member =>
    is ▸ mem_append_left _ member
  have isLast : (place, node) ∈ cache.nodeList := is ▸ mem_append_right _ mem_cons_self
  have places := linked.places
  rw [is, map_append, nodup_append] at places
  constructor
  case places => exact places.1
  case fresh => exact fun entry member => linked.fresh entry (inFront entry member)
  case linked =>
    intro key other
    rw [Std.ExtTreeMap.getElem?_erase]
    split
    next same =>
      obtain rfl := Std.LawfulEqCmp.eq_of_compare same
      refine iff_of_false (Option.some_ne_none other).symm ?_
      rintro ⟨value, member⟩
      have samePlace := (linked.place_eq_iff (inFront _ member) isLast).mpr rfl
      exact places.2.2 other (mem_map_of_mem member) place mem_cons_self samePlace
    next different =>
      rw [linked.linked key other]
      refine exists_congr fun value => ⟨fun member => ?_, inFront _⟩
      rw [is] at member
      refine (mem_append.mp member).resolve_right fun atEnd => different ?_
      have same := congrArg (fun entry => entry.2.key) (mem_singleton.mp atEnd)
      dsimp only at same
      rw [same]
      exact Std.ReflCmp.compare_self

theorem Sound.eraseTailNode (sound : Sound stale cache)
    (is : cache.nodeList = front ++ [(place, node)]) :
    cache.eraseTailNode.nodeList = front ∧
      Becomes stale cache cache.contents.dropLast cache.eraseTailNode := by
  have isContents : cache.contents = _ ++ [(node.key, node.value)] :=
    (congrArg (map _) is).trans map_append
  have valid : Valid node.value := sound.valid (node.key, node.value)
    (isContents ▸ mem_append_right _ mem_cons_self)
  have size := sound.size
  rw [isContents, Lru.total_append, Lru.total_cons, Lru.total_nil] at size
  dsimp only at size
  have isAfter : cache.eraseTailNode = { cache with
      nodeList := front
      cache := cache.cache.erase node.key
      size := cache.size - valueSize node.value } := by
    unfold LruCache.eraseTailNode
    rw [is, getLast?_concat, dropLast_concat]
    dsimp only
    rw [if_neg valid, getMapValueSize_eq valid, if_pos (by omega)]
  rw [isAfter, isContents, dropLast_concat]
  refine ⟨rfl, ⟨sound.linked.dropLast is _, ?_, ?_⟩, rfl, rfl⟩
  · intro entry member
    exact sound.valid entry (isContents ▸ mem_append_left _ member)
  · dsimp only [contents]
    omega

theorem eraseTails_spec (sound : Sound stale cache) (bounded : stale ≤ cache.capacity) :
    ∃ after, eraseTails cache.nodeList.length cache = .ok after ∧
      Becomes stale cache (Lru.evict valueSize (cache.capacity - stale) cache.contents) after := by
  generalize isLength : cache.nodeList.length = rounds
  induction rounds generalizing cache with
  | zero =>
    have empty : cache.contents = [] := map_eq_nil_iff.mpr (length_eq_zero_iff.mp isLength)
    have size := sound.size
    rw [empty, Lru.total_nil] at size
    rw [eraseTails, if_neg (by omega)]
    refine ⟨cache, rfl, sound, rfl, ?_⟩
    rw [empty, Lru.evict_of_le (Nat.zero_le _)]
  | succ rounds ih =>
    have size := sound.size
    rw [eraseTails]
    split
    next exceeds =>
      obtain ⟨front, ⟨place, node⟩, is⟩ : ∃ front entry, cache.nodeList = front ++ [entry] := by
        refine ⟨_, _, (dropLast_concat_getLast ?_).symm⟩
        exact ne_nil_of_length_eq_add_one isLength
      obtain ⟨isFront, taken⟩ := sound.eraseTailNode is
      rw [is, length_append] at isLength
      obtain ⟨after, isAfter, becomes⟩ := ih taken.sound
        (taken.capacity ▸ bounded) (isFront ▸ Nat.succ.inj isLength)
      refine ⟨after, isAfter, becomes.sound, becomes.capacity.trans taken.capacity, ?_⟩
      rw [becomes.contents, taken.contents, taken.capacity, ← Lru.evict_of_lt (by omega)]
    · exact ⟨cache, rfl, sound, rfl, (Lru.evict_of_le (by omega)).symm⟩

/-! ## Calls -/

theorem Linked.withSize (linked : Linked cache) (size : Nat) :
    Linked { cache with size := size } := ⟨linked.places, linked.fresh, linked.linked⟩

theorem mem_contents (member : entry ∈ cache.nodeList) :
    (entry.2.key, entry.2.value) ∈ cache.contents :=
  mem_map.mpr ⟨entry, member, rfl⟩

theorem Linked.weight (linked : Linked cache) (member : entry ∈ cache.nodeList) :
    valueSize entry.2.value + Lru.total valueSize (Lru.remove entry.2.key cache.contents) =
      Lru.total valueSize cache.contents :=
  Lru.total_remove linked.distinct (mem_contents member)

theorem Sound.addNode (sound : Sound stale cache) (new : cache.cache[key]? = none)
    (valid : Valid value) :
    Becomes stale cache ((key, value) :: Lru.remove key cache.contents)
      (cache.addNode ⟨key, value⟩) := by
  have absent : Lru.remove key cache.contents = cache.contents := by
    refine Lru.remove_of_not_mem fun member => ?_
    obtain ⟨entry, inContents, same⟩ := mem_map.mp member
    obtain ⟨node, inList, rfl⟩ := mem_map.mp inContents
    exact (sound.linked.but new).absent node inList same
  rw [absent]
  refine ⟨⟨?_, ?_, ?_⟩, rfl, rfl⟩
  · have linked : Linked (cache.emplaceFront ⟨key, value⟩) :=
      LinkedBut.emplaceFront (sound.linked.but new)
    exact linked.withSize _
  · exact forall_mem_cons.mpr ⟨valid, sound.valid⟩
  · change cache.size + getMapValueSize value =
      stale + Lru.total valueSize ((key, value) :: cache.contents)
    rw [Lru.total_cons, getMapValueSize_eq valid, sound.size]
    dsimp only
    omega

theorem Sound.replace (sound : Sound stale cache)
    (member : entry ∈ cache.nodeList) (valid : Valid value) :
    Becomes stale cache ((entry.2.key, value) :: Lru.remove entry.2.key cache.contents)
      { (cache.eraseAt entry.1).emplaceFront ⟨entry.2.key, value⟩ with
        size := cache.size - valueSize entry.2.value + valueSize value } := by
  have isContents := sound.linked.contents_eraseAt member
  have weight := sound.linked.weight member
  have size := sound.size
  refine ⟨⟨?_, ?_, ?_⟩, rfl, ?_⟩
  · have linked : Linked ((cache.eraseAt entry.1).emplaceFront ⟨entry.2.key, value⟩) :=
      LinkedBut.emplaceFront (sound.linked.eraseAt member)
    exact linked.withSize _
  · change ∀ other ∈ (entry.2.key, value) :: (cache.eraseAt entry.1).contents, _
    rw [isContents]
    exact forall_mem_cons.mpr
      ⟨valid, fun other inRest => sound.valid other (mem_filter.mp inRest).1⟩
  · change _ = stale + Lru.total valueSize ((entry.2.key, value) :: (cache.eraseAt entry.1).contents)
    rw [isContents, Lru.total_cons]
    dsimp only
    omega
  · change (entry.2.key, value) :: (cache.eraseAt entry.1).contents = _
    rw [isContents]

theorem Linked.lookup_eq (linked : Linked cache) (key : Bytes) :
    (cache.cache[key]? = none ∧ cache.contents.lookup key = none) ∨
      ∃ entry ∈ cache.nodeList, entry.2.key = key ∧ cache.cache[key]? = some entry.1 ∧
        cache.nodeAt entry.1 = .ok entry.2 ∧ cache.contents.lookup key = some entry.2.value := by
  cases is : cache.cache[key]? with
  | none =>
    refine .inl ⟨rfl, ?_⟩
    rw [lookup_eq_none_iff]
    intro entry member
    obtain ⟨node, inList, rfl⟩ := mem_map.mp member
    exact bne_iff_ne.mpr ((linked.but is).absent node inList).symm
  | some place =>
    obtain ⟨value, member, isNode⟩ := linked.exists_node is
    refine .inr ⟨_, member, rfl, rfl, isNode, ?_⟩
    exact linked.distinct.lookup_eq_some_iff.mpr (mem_contents member)

theorem Sound.valueSize_le (sound : Sound stale cache) (member : entry ∈ cache.nodeList) :
    valueSize entry.2.value ≤ cache.size := by
  have weight := sound.linked.weight member
  have size := sound.size
  omega

theorem places_setValueAt :
    (cache.setValueAt place value).nodeList.map Prod.fst = cache.nodeList.map Prod.fst := by
  unfold setValueAt
  rw [map_map]
  refine map_congr_left fun entry _ => ?_
  dsimp only [Function.comp_apply]
  split <;> rfl

theorem filter_setValueAt :
    (cache.setValueAt place value).nodeList.filter (·.1 ≠ place) =
      cache.nodeList.filter (·.1 ≠ place) := by
  unfold setValueAt
  induction cache.nodeList with
  | nil => rfl
  | cons entry entries ih =>
    rw [map_cons]
    by_cases here : entry.1 = place
    · rw [if_pos here, filter_cons_of_neg (by simpa using here),
        filter_cons_of_neg (by simpa using here), ih]
    · rw [if_neg here, filter_cons_of_pos (by simpa using here),
        filter_cons_of_pos (by simpa using here), ih]

theorem Linked.moveNodeToHead_setValueAt (linked : Linked cache)
    (member : entry ∈ cache.nodeList) (value : Value) (size : Nat) :
    moveNodeToHead { cache.setValueAt entry.1 value with size := size } entry.1 =
      .ok { (cache.eraseAt entry.1).emplaceFront ⟨entry.2.key, value⟩ with size := size } := by
  have isNode : nodeAt { cache.setValueAt entry.1 value with size := size } entry.1 =
      .ok ⟨entry.2.key, value⟩ := by
    have places : Lru.Distinct (cache.setValueAt entry.1 value).nodeList := by
      unfold Lru.Distinct
      rw [places_setValueAt]
      exact linked.places
    have there : (entry.1, ⟨entry.2.key, value⟩) ∈ (cache.setValueAt entry.1 value).nodeList := by
      refine mem_map.mpr ⟨entry, member, ?_⟩
      rw [if_pos rfl]
    unfold nodeAt
    rw [places.lookup_eq_some_iff.mpr there]
    rfl
  unfold moveNodeToHead
  rw [isNode]
  dsimp only [bind, Except.bind, LruCache.eraseAt]
  rw [filter_setValueAt]
  rfl

theorem get_spec (sound : Sound stale cache) :
    ∃ after, cache.get key = .ok ((cache.contents.lookup key).getD ∅, after) ∧
      Becomes stale cache (Lru.touch key cache.contents) after := by
  unfold get Lru.touch
  rcases sound.linked.lookup_eq key with
    ⟨none, isNone⟩ | ⟨entry, member, rfl, isPlace, isNode, isSome⟩
  · rw [none, isNone]
    exact ⟨cache, rfl, sound, rfl, rfl⟩
  · rw [isPlace, isSome]
    have becomes := sound.replace member (sound.valid _ (mem_contents member))
    rw [Nat.sub_add_cancel (sound.valueSize_le member)] at becomes
    dsimp only [moveNodeToHead]
    rw [isNode]
    exact ⟨_, rfl, becomes⟩

theorem Becomes.eraseTails {after : LruCache} (becomes : Becomes stale cache entries after)
    (bounded : stale ≤ cache.capacity) :
    ∃ last, eraseTails after.nodeList.length after = .ok last ∧
      Becomes stale cache (Lru.evict valueSize (cache.capacity - stale) entries) last := by
  obtain ⟨last, isLast, evicted⟩ := eraseTails_spec becomes.sound (becomes.capacity ▸ bounded)
  rw [becomes.capacity, becomes.contents] at evicted
  exact ⟨last, isLast, evicted.sound, evicted.capacity.trans becomes.capacity, evicted.contents⟩

theorem put_spec (sound : Sound stale cache) (bounded : stale ≤ cache.capacity)
    (valid : Valid value) :
    ∃ after, cache.put key value = .ok after ∧
      Becomes stale cache
        (Lru.put valueSize (cache.capacity - stale) key value cache.contents) after := by
  unfold put
  rw [if_neg valid]
  rcases sound.linked.lookup_eq key with
    ⟨none, -⟩ | ⟨entry, member, rfl, isPlace, isNode, -⟩
  · rw [none]
    exact (sound.addNode none valid).eraseTails bounded
  · rw [isPlace]
    dsimp only
    rw [isNode]
    have replaced := sound.replace member valid
    dsimp only [bind, Except.bind]
    rw [getMapValueSize_eq valid, getMapValueSize_eq (sound.valid _ (mem_contents member))]
    have moved := sound.linked.moveNodeToHead_setValueAt member value
      (cache.size - valueSize entry.2.value + valueSize value)
    have after := replaced.eraseTails bounded
    dsimp only [LruCache.setValueAt] at moved ⊢
    rw [moved]
    exact after

/-- What an entry that is put leaves: an invalid value is not put. -/
def putEntry (limit : Nat) (entries : List (Bytes × Value)) (node : Node) : List (Bytes × Value) :=
  if Valid node.value then Lru.put valueSize limit node.key node.value entries else entries

theorem put_becomes (sound : Sound stale cache) (bounded : stale ≤ cache.capacity) (node : Node) :
    ∃ after, cache.put node.key node.value = .ok after ∧
      Becomes stale cache (putEntry (cache.capacity - stale) cache.contents node) after := by
  unfold putEntry
  by_cases valid : Valid node.value
  · rw [if_pos valid]
    exact put_spec sound bounded valid
  · rw [if_neg valid]
    refine ⟨cache, ?_, sound, rfl, rfl⟩
    unfold put
    rw [if_pos (not_not.mp valid)]
    rfl

theorem putNodes_spec (sound : Sound stale cache) (bounded : stale ≤ cache.capacity) :
    ∃ after, putNodes nodes cache = .ok after ∧
      Becomes stale cache
        (nodes.foldl (putEntry (cache.capacity - stale)) cache.contents) after := by
  induction nodes generalizing cache with
  | nil => exact ⟨cache, rfl, sound, rfl, rfl⟩
  | cons node nodes ih =>
    obtain ⟨next, isNext, becomes⟩ := put_becomes sound bounded node
    obtain ⟨after, isAfter, last⟩ := ih becomes.sound (becomes.capacity ▸ bounded)
    refine ⟨after, ?_, last.sound, last.capacity.trans becomes.capacity, ?_⟩
    · unfold putNodes
      rw [isNext]
      exact isAfter
    · rw [last.contents, becomes.contents, becomes.capacity, foldl_cons]

end LruCache

/-! ## JSON -/

/-- An array has no object in it, whose name would be a null pointer. -/
def ReadsSafely : Option Json → Prop
  | some (.array items) => ∀ members, .object members ∉ items
  | _ => True

theorem readNodes_returns (named : ∀ members, (none, .object members) ∉ children) :
    ∃ nodes, readNodes children = .ok nodes := by
  induction children with
  | nil => exact ⟨[], rfl⟩
  | cons child children ih =>
    obtain ⟨nodes, isNodes⟩ := ih fun members member => named members (mem_cons_of_mem _ member)
    obtain ⟨name, json⟩ := child
    cases json with
    | object members =>
      cases name with
      | none => exact absurd mem_cons_self (named members)
      | some key =>
        unfold readNodes
        rw [isNodes]
        exact ⟨_, rfl⟩
    | null | bool | number | string | array =>
      refine ⟨nodes, ?_⟩
      cases name <;> exact isNodes

theorem readNodes_children_returns (safe : ReadsSafely root) :
    ∃ nodes, readNodes ((root.map Json.children).getD []) = .ok nodes := by
  refine readNodes_returns fun members member => ?_
  cases root with
  | none => cases member
  | some json =>
    cases json with
    | array items =>
      obtain ⟨item, inItems, is⟩ := mem_map.mp member
      exact safe members ((Prod.mk.inj is).2 ▸ inItems)
    | object named =>
      obtain ⟨item, -, is⟩ := mem_map.mp member
      cases is
    | null | bool | number | string => cases member

namespace LruCache

variable {stale : Nat} {cache : LruCache} (sortNodes : SortNodes)

/-! ## Runs -/

/-- A call. -/
inductive Event where
  | put (key : Bytes) (value : Value)
  | get (key : Bytes)
  /-- `MergeOtherCache` with another cache. -/
  | mergeOther (other : LruCache)
  /-- `MergeOtherCache` with the cache itself, whose mutex `std::lock` waits for twice. -/
  | mergeSelf
  /-- `ReadCacheFromJsonValue`. -/
  | read (root : Option Json)
  | clear

/-- What a call leaves. -/
def call (cache : LruCache) : Event → Except Fault LruCache
  | .put key value => cache.put key value
  | .get key => (cache.get key).map Prod.snd
  | .mergeOther other => cache.mergeOtherCache other
  | .mergeSelf => throw .endless
  | .read root => cache.readCacheFromJsonValue sortNodes root
  | .clear => return cache.clear

/-- The cache after a call; one that does not return leaves no other. -/
def step (cache : LruCache) (event : Event) : LruCache :=
  match call sortNodes cache event with
  | .ok after => after
  | .error _ => cache

/-- The condition on a call. -/
def Permitted (cache : LruCache) : Event → Prop
  | .mergeSelf => False
  | .read root => ReadsSafely root
  | .clear => cache.nodeList = []
  | _ => True

/-- The account of the cache: `size_` is the size of the values, the map and the list have
the same keys once each, and the capacity is not exceeded. -/
structure Accounted (cache : LruCache) : Prop where
  size : cache.size = (cache.nodeList.map fun entry => valueSize entry.2.value).sum
  keys : ∀ key, key ∈ cache.cache ↔ key ∈ cache.nodeList.map fun entry => entry.2.key
  once : (cache.nodeList.map fun entry => entry.2.key).Nodup
  bounded : cache.size ≤ cache.capacity

/-- A cache that no `Clear` has left anything in, within its capacity. -/
structure Settled (cache : LruCache) : Prop where
  sound : Sound 0 cache
  fits : Lru.total valueSize cache.contents ≤ cache.capacity

variable {limit : Nat}

theorem total_putEntry_le (fits : Lru.total valueSize entries ≤ limit) :
    Lru.total valueSize (putEntry limit entries node) ≤ limit := by
  unfold putEntry
  split
  · exact Lru.total_evict_le
  · exact fits

theorem total_foldl_putEntry_le (fits : Lru.total valueSize entries ≤ limit) (nodes : List Node) :
    Lru.total valueSize (nodes.foldl (putEntry limit) entries) ≤ limit := by
  induction nodes generalizing entries with
  | nil => exact fits
  | cons node nodes ih => exact ih (total_putEntry_le fits)

/-- A cache of a capacity, within which it and what a `Clear` has left are. -/
structure Within (limit stale : Nat) (cache : LruCache) : Prop where
  sound : Sound stale cache
  fits : stale + Lru.total valueSize cache.contents ≤ limit
  capacity : cache.capacity = limit

theorem Settled.within (settled : Settled cache) : Within cache.capacity 0 cache :=
  ⟨settled.sound, (Nat.zero_add _).trans_le settled.fits, rfl⟩

section Within

variable (within : Within limit stale cache)
include within

theorem Within.settled (fresh : stale = 0) : Settled cache := by
  subst fresh
  refine ⟨within.sound, ?_⟩
  rw [within.capacity, ← Nat.zero_add (Lru.total _ _)]
  exact within.fits

theorem Within.bounded : stale ≤ cache.capacity :=
  within.capacity ▸ (Nat.le_add_right ..).trans within.fits

theorem Within.total_le : Lru.total valueSize cache.contents ≤ cache.capacity - stale := by
  have fits := within.fits
  rw [within.capacity]
  omega

theorem Within.of_becomes {after : LruCache} (becomes : Becomes stale cache entries after)
    (fits : Lru.total valueSize entries ≤ cache.capacity - stale) :
    Within limit stale after := by
  have bounded := within.bounded
  refine ⟨becomes.sound, ?_, becomes.capacity.trans within.capacity⟩
  rw [becomes.contents, ← within.capacity]
  omega

theorem Within.putNodes : ∃ after, putNodes nodes cache = .ok after ∧ Within limit stale after := by
  obtain ⟨after, isAfter, becomes⟩ := putNodes_spec within.sound within.bounded
  refine ⟨after, isAfter, within.of_becomes becomes ?_⟩
  exact total_foldl_putEntry_le within.total_le nodes

theorem Within.clear : Within limit cache.size cache.clear := by
  refine ⟨⟨⟨nodup_nil, nofun, ?_⟩, nofun, rfl⟩, ?_, within.capacity⟩
  · intro key place
    exact iff_of_false (Option.some_ne_none place).symm nofun
  · exact within.sound.size.trans_le within.fits

end Within

/-- What is left in the account by calls of `Clear`. -/
def staleAfter (stale : Nat) (cache : LruCache) : Event → Nat
  | .clear => cache.size
  | _ => stale

theorem Within.call (within : Within limit stale cache) :
    (∃ after, call sortNodes cache event = .ok after ∧
        Within limit (staleAfter stale cache event) after) ∨
      ¬ Permitted cache event ∧ ∃ fault, call sortNodes cache event = .error fault := by
  cases event with
  | put key value =>
    obtain ⟨after, isAfter, becomes⟩ := put_becomes within.sound within.bounded ⟨key, value⟩
    refine .inl ⟨after, isAfter, within.of_becomes becomes ?_⟩
    exact total_putEntry_le within.total_le
  | get key =>
    obtain ⟨after, isAfter, becomes⟩ := get_spec within.sound
    refine .inl ⟨after, ?_, within.of_becomes becomes ?_⟩
    · dsimp only [LruCache.call]
      rw [isAfter]
      rfl
    · rw [Lru.total_touch within.sound.linked.distinct]
      exact within.total_le
  | mergeOther other =>
    refine .inl ?_
    dsimp only [LruCache.call, mergeOtherCache]
    split
    · exact ⟨cache, rfl, within⟩
    · exact within.putNodes
  | mergeSelf => exact .inr ⟨id, _, rfl⟩
  | read root =>
    dsimp only [LruCache.call, readCacheFromJsonValue]
    cases reads : readNodes ((root.map Json.children).getD []) with
    | error fault =>
      refine .inr ⟨fun safe => ?_, fault, rfl⟩
      obtain ⟨nodes, isNodes⟩ := readNodes_children_returns safe
      cases reads.symm.trans isNodes
    | ok nodes => exact .inl within.putNodes
  | clear => exact .inl ⟨_, rfl, within.clear⟩

theorem Settled.call (settled : Settled cache) (permitted : Permitted cache event) :
    ∃ after, call sortNodes cache event = .ok after ∧ Settled after := by
  obtain ⟨after, isAfter, within⟩ := (settled.within.call sortNodes).resolve_right
    fun either => either.1 permitted
  refine ⟨after, isAfter, within.settled ?_⟩
  cases event with
  | clear =>
    have size := settled.sound.size
    unfold contents at size
    rw [permitted] at size
    exact size
  | _ => rfl

theorem Settled.new (capacity : Nat) : Settled (new capacity) := by
  refine ⟨⟨⟨nodup_nil, nofun, ?_⟩, nofun, rfl⟩, Nat.zero_le _⟩
  intro key place
  exact iff_of_false (Option.some_ne_none place).symm nofun

theorem Settled.accounted (settled : Settled cache) : Accounted cache := by
  have size := settled.sound.size
  have linked := settled.sound.linked
  refine ⟨?_, fun key => ?_, ?_, ?_⟩
  · rw [size, Nat.zero_add, Lru.total, contents, map_map]
    rfl
  · rw [Std.ExtTreeMap.mem_iff_isSome_getElem?, Option.isSome_iff_exists, mem_map]
    constructor
    · rintro ⟨place, is⟩
      obtain ⟨value, member⟩ := (linked.linked key place).mp is
      exact ⟨_, member, rfl⟩
    · rintro ⟨⟨place, node⟩, member, rfl⟩
      exact ⟨place, (linked.linked node.key place).mpr ⟨node.value, member⟩⟩
  · have distinct := linked.distinct
    unfold Lru.Distinct contents at distinct
    rw [map_map] at distinct
    exact distinct
  · rw [size, Nat.zero_add]
    exact settled.fits

/-- In every run of permitted calls the account is kept, and every permitted call returns. -/
theorem accounted_of_reach (sortNodes : SortNodes) {capacity : Nat}
    (reach : Run.Reach (step sortNodes) Permitted (new capacity) cache) :
    Accounted cache ∧
      ∀ event, Permitted cache event → ∃ after, call sortNodes cache event = .ok after := by
  have settled : Settled cache := reach.invariant (Settled.new capacity) (by
    intro state event settled permitted
    obtain ⟨after, isAfter, settledAfter⟩ := settled.call sortNodes permitted
    unfold step
    rw [isAfter]
    exact settledAfter)
  refine ⟨settled.accounted, fun event permitted => ?_⟩
  obtain ⟨after, isAfter, -⟩ := settled.call sortNodes permitted
  exact ⟨after, isAfter⟩

/-- `std::sort` as a merge sort. -/
def mergeSortNodes : SortNodes where
  sort nodes := nodes.mergeSort fun first second => indexOf second ≤ indexOf first
  perm nodes := mergeSort_perm nodes _
  sorted nodes := by
    have transitive (first second third : Node) :
        decide (indexOf second ≤ indexOf first) → decide (indexOf third ≤ indexOf second) →
          decide (indexOf third ≤ indexOf first) := by
      simp only [decide_eq_true_eq]
      omega
    have total (first second : Node) :
        decide (indexOf second ≤ indexOf first) || decide (indexOf first ≤ indexOf second) := by
      simp only [Bool.or_eq_true, decide_eq_true_eq]
      omega
    simpa using pairwise_mergeSort transitive total nodes

/-- A text under a name. -/
def oneText : Value := (∅ : Value).insert [98] [1, 2, 3]

/-- A response is put and taken. -/
theorem accounted_putGet :
    Accounted ([Event.put [107] oneText, Event.get [107]].foldl (step mergeSortNodes)
      (new maxSize)) := by
  have initial : Run.Reach (step mergeSortNodes) Permitted (new maxSize) (new maxSize) := .start
  exact (accounted_of_reach mergeSortNodes
    (initial.foldl [.put [107] oneText, .get [107]] ⟨trivial, trivial, trivial⟩)).1

/-- After a `Clear` the size of what was there is still accounted. A merge with the cache
itself does not return, nor does an array with an object. -/
theorem not_accounted :
    ¬ Accounted ([Event.put [107] oneText, Event.clear].foldl (step mergeSortNodes) (new maxSize)) ∧
    call mergeSortNodes (new maxSize) .mergeSelf = .error .endless ∧
    call mergeSortNodes (new maxSize) (.read (some (.array [.object []]))) =
      .error .nullString := by
  refine ⟨fun accounted => ?_, rfl, rfl⟩
  exact absurd accounted.size (by decide +kernel)

/-! ## Recently used entries -/

/-- After every run of permitted calls, `Get` and `Put` are those of an abstract cache of
recently used entries. -/
theorem calls_of_reach (sortNodes : SortNodes) {capacity : Nat}
    (reach : Run.Reach (step sortNodes) Permitted (new capacity) cache)
    (key : Bytes) (value : Value) :
    (∃ after, cache.get key = .ok ((cache.contents.lookup key).getD ∅, after) ∧
      after.contents = Lru.touch key cache.contents) ∧
    ∃ after, cache.put key value = .ok after ∧
      after.contents = putEntry (min maxSize capacity) cache.contents ⟨key, value⟩ := by
  have within : Within (min maxSize capacity) 0 cache := by
    refine reach.invariant (Settled.new capacity).within fun state event within permitted => ?_
    obtain ⟨after, isAfter, next⟩ := (within.call sortNodes).resolve_right
      fun either => either.1 permitted
    obtain ⟨_, isSame, settled⟩ := (within.settled rfl).call sortNodes permitted
    obtain rfl := Except.ok.inj (isAfter.symm.trans isSame)
    unfold step
    rw [isAfter]
    exact next.capacity ▸ settled.within
  obtain ⟨taken, isTaken, touched⟩ := get_spec within.sound
  obtain ⟨after, isAfter, becomes⟩ := put_becomes within.sound within.bounded ⟨key, value⟩
  rw [within.capacity] at becomes
  exact ⟨⟨taken, isTaken, touched.contents⟩, after, isAfter, becomes.contents⟩

theorem get_onePut :
    ∃ taken, ([Event.put [107] oneText].foldl (step mergeSortNodes) (new maxSize)).get [107] =
      .ok taken := by
  have initial : Run.Reach (step mergeSortNodes) Permitted (new maxSize) (new maxSize) := .start
  obtain ⟨⟨_, isTaken, -⟩, -⟩ := calls_of_reach mergeSortNodes
    (initial.foldl [.put [107] oneText] ⟨trivial, trivial⟩) [107] oneText
  exact ⟨_, isTaken⟩

end LruCache

end NetManager.Http
