import NetManager.Firewall.Manager

/-!
# What `BuildBitmapMap` builds

The build goes through the rules twice and updates all maps in each turn. Here
each map is described on its own: an address map is the run of the insertions
of its prefixes, a segment map the run of the additions of its ranges, and
marking the unconstrained rules adds one fixed bitmap to every entry.
-/

namespace NetManager.Firewall

open List AddressPrefix Outcome IpParamParser SegmentBitmapMap Ip4RuleMap

/-! ## Prefixes of a rule -/

namespace NetFirewallIpParam

/-- The prefixes a parameter is inserted under in an IPv4 map. -/
def ip4Blocks (item : NetFirewallIpParam) : List Ip4Data :=
  if item.family = familyIpv4 then
    if item.type = singleIp then [⟨item.mask.toNat, item.ipv4.startIp⟩]
    else if item.type = multipleIp then
      match getIp4AndMask (2 ^ 32 + 1) item.ipv4.startIp item.ipv4.endIp with
      | some (.ok list) => list
      | _ => []
    else []
  else []

/-- The parameters whose insertion returns: an IPv4 segment must be in order
and not end at 255.255.255.255, an IPv6 segment must be one the parser cuts. -/
def Accepted (item : NetFirewallIpParam) : Prop :=
  item.family = familyIpv4 ∧
    (item.type = multipleIp → item.ipv4.startIp ≤ item.ipv4.endIp ∧
      item.ipv4.endIp ≠ BitVec.allOnes 32) ∨
  item.family = familyIpv6 ∧
    (item.type = multipleIp → ∃ list,
      getIp6AndMask item.ipv6.startIp item.ipv6.endIp = ok list)

end NetFirewallIpParam

namespace BitmapManager

variable {fuel : Nat} {item : NetFirewallIpParam}

theorem insertIpParam_returns (enough : 2 ^ 32 < fuel)
    (accepted : item.Accepted) :
    ∃ result, insertIpParam fuel bitmap maps item = ok result := by
  unfold insertIpParam
  rcases accepted with ⟨ipv4, segment⟩ | ⟨ipv6, segment⟩
  · rw [if_pos ipv4]
    unfold insertIp4SegBitmap
    by_cases single : item.type = singleIp
    · rw [if_pos single]
      exact ⟨_, rfl⟩
    · rw [if_neg single]
      by_cases multiple : item.type = multipleIp
      · obtain ⟨ordered, notTop⟩ := segment multiple
        obtain ⟨list, blocks, _⟩ := getIp4AndMask_tiles ordered
          (toNat_succ_lt notTop) enough
        rw [if_pos multiple, blocks]
        exact ⟨_, rfl⟩
      · rw [if_neg multiple]
        exact ⟨_, rfl⟩
  · have notIpv4 : item.family ≠ familyIpv4 := by
      rw [ipv6]
      decide
    rw [if_neg notIpv4, if_pos ipv6]
    unfold insertIp6SegBitmap
    by_cases single : item.type = singleIp
    · rw [if_pos single, ok_bind]
      exact ⟨_, rfl⟩
    · rw [if_neg single]
      by_cases multiple : item.type = multipleIp
      · obtain ⟨list, blocks⟩ := segment multiple
        rw [if_pos multiple, blocks]
        exact ⟨_, rfl⟩
      · rw [if_neg multiple, ok_bind]
        exact ⟨_, rfl⟩

variable {bitmap : Bitmap}

/-- A parameter that is inserted is accepted, and its prefixes go into the IPv4 map. -/
theorem insertIpParam_spec (returns : insertIpParam fuel bitmap maps item = ok result) :
    item.Accepted ∧ result.ip4 = orInsertAll maps.ip4
      (item.ip4Blocks.map fun block => ⟨block, bitmap⟩) := by
  unfold insertIpParam at returns
  unfold NetFirewallIpParam.ip4Blocks
  split at returns
  next ipv4 =>
    obtain ⟨ip4, inserted, made⟩ := bind_eq_ok_iff.mp returns
    obtain rfl := ok_inj.mp made
    rw [if_pos ipv4]
    unfold insertIp4SegBitmap at inserted
    split at inserted
    next single =>
      rw [ok_inj] at inserted
      rw [if_pos single, ← inserted]
      exact ⟨.inl ⟨ipv4, fun multiple => absurd (single.symm.trans multiple) (by decide)⟩, rfl⟩
    next notSingle =>
      rw [if_neg notSingle]
      split at inserted
      next multiple =>
        obtain ⟨list, blocks, made⟩ := bind_eq_ok_iff.mp inserted
        rw [ok_inj] at made
        rw [if_pos multiple, getIp4AndMask_enough blocks, ← made]
        refine ⟨.inl ⟨ipv4, fun _ => ⟨le_of_getIp4AndMask blocks,
          ne_top_of_getIp4AndMask blocks⟩⟩, ?_⟩
        simp [ok, orInsertAll, foldl_map]
      next other =>
        rw [ok_inj] at inserted
        rw [if_neg other, ← inserted]
        exact ⟨.inl ⟨ipv4, fun multiple => absurd multiple other⟩, rfl⟩
  next notIpv4 =>
    rw [if_neg notIpv4]
    split at returns
    next ipv6 =>
      obtain ⟨ip6, inserted, made⟩ := bind_eq_ok_iff.mp returns
      obtain rfl := ok_inj.mp made
      refine ⟨.inr ⟨ipv6, fun multiple => ?_⟩, rfl⟩
      have notSingle : item.type ≠ singleIp := by
        rw [multiple]
        decide
      rw [insertIp6SegBitmap, if_neg notSingle, if_pos multiple] at inserted
      obtain ⟨list, blocks, _⟩ := bind_eq_ok_iff.mp inserted
      exact ⟨list, blocks⟩
    next other => exact absurd returns throw_ne_ok

theorem insertIpBitmap_spec (returns : insertIpBitmap fuel ipInfo bitmap maps = ok result) :
    (∀ item ∈ ipInfo, item.Accepted) ∧ result.ip4 = orInsertAll maps.ip4
      ((ipInfo.flatMap NetFirewallIpParam.ip4Blocks).map fun block => ⟨block, bitmap⟩) := by
  induction ipInfo generalizing maps with
  | nil =>
    have same : maps = result := ok_inj.mp returns
    rw [same]
    exact ⟨by simp, rfl⟩
  | cons item ipInfo ih =>
    obtain ⟨next, first, rest⟩ := foldlM_cons_eq_ok_iff.mp returns
    obtain ⟨accepted, inserted⟩ := insertIpParam_spec first
    obtain ⟨acceptedRest, insertedRest⟩ := ih rest
    refine ⟨forall_mem_cons.mpr ⟨accepted, acceptedRest⟩, ?_⟩
    rw [insertedRest, inserted, flatMap_cons, map_append, orInsertAll_append]

/-! ## The run over the rules -/

/-- The address maps of one side. -/
def MarkState.ips (state : MarkState) (isSrc : Bool) : IpMaps :=
  if isSrc then state.src else state.dst

/-- The prefixes of a rule on one side. -/
def rulePrefixes (isSrc : Bool) (rule : NetFirewallIpRule) : List Ip4Data :=
  (rule.ips isSrc).flatMap NetFirewallIpParam.ip4Blocks

/-- The insertions of a rule into the IPv4 map of one side. -/
def ip4Events (isSrc : Bool) (entry : NetFirewallIpRule × Nat) : List Ip4RuleBitmap :=
  (rulePrefixes isSrc entry.1).map fun block => ⟨block, Bitmap.single entry.2⟩

/-- All addresses of a rule can be inserted. -/
def RuleAccepted (rule : NetFirewallIpRule) : Prop :=
  ∀ isSrc, ∀ item ∈ rule.ips isSrc, item.Accepted

variable {entry : NetFirewallIpRule × Nat}

theorem markRule_eq_ok_iff :
    markRule fuel state entry = ok result ↔
      insertIpBitmap fuel entry.1.remoteIps (Bitmap.single entry.2) state.src = ok result.src ∧
      insertIpBitmap fuel entry.1.localIps (Bitmap.single entry.2) state.dst = ok result.dst ∧
      markFields state.fields entry = result.fields := by
  obtain ⟨newSrc, newDst, newFields⟩ := result
  simp only [markRule, bind_eq_ok_iff, adapt_eq_ok_iff, ok_inj, MarkState.mk.injEq]
  constructor
  · rintro ⟨src, first, dst, second, rfl, rfl, rfl⟩
    exact ⟨first, second, rfl⟩
  · rintro ⟨first, second, rfl⟩
    exact ⟨newSrc, first, newDst, second, rfl, rfl, rfl⟩

theorem insertIpBitmap_of_markRule
    (returns : markRule fuel state entry = ok result) (isSrc : Bool) :
    insertIpBitmap fuel (entry.1.ips isSrc) (Bitmap.single entry.2)
      (state.ips isSrc) = ok (result.ips isSrc) := by
  obtain ⟨src, dst, _⟩ := markRule_eq_ok_iff.mp returns
  cases isSrc
  · exact dst
  · exact src

variable (indexed : List (NetFirewallIpRule × Nat))

/-- When the run over the rules returns, every address was accepted, an IPv4
map is the run of its insertions, and the other fields are marked rule by
rule. -/
theorem markRules_spec (returns : indexed.foldlM (markRule fuel) state = ok result) :
    (∀ entry ∈ indexed, RuleAccepted entry.1) ∧
      (∀ isSrc, (result.ips isSrc).ip4 =
        orInsertAll (state.ips isSrc).ip4 (indexed.flatMap (ip4Events isSrc))) ∧
      result.fields = indexed.foldl markFields state.fields := by
  induction indexed generalizing state with
  | nil =>
    have same : state = result := ok_inj.mp returns
    subst same
    exact ⟨by simp, fun _ => rfl, rfl⟩
  | cons entry indexed ih =>
    obtain ⟨next, first, rest⟩ := foldlM_cons_eq_ok_iff.mp returns
    obtain ⟨accepted, maps, fields⟩ := ih rest
    have inserted := insertIpBitmap_of_markRule first
    have here := fun isSrc => insertIpBitmap_spec (inserted isSrc)
    refine ⟨forall_mem_cons.mpr ⟨fun isSrc => (here isSrc).1, accepted⟩, fun isSrc => ?_, ?_⟩
    · rw [maps isSrc, (here isSrc).2, flatMap_cons, orInsertAll_append]
      rfl
    · rw [fields, ← (markRule_eq_ok_iff.mp first).2.2]
      rfl

theorem markRules_returns (enough : 2 ^ 32 < fuel)
    (indexed : List (NetFirewallIpRule × Nat)) (accepted : ∀ entry ∈ indexed, RuleAccepted entry.1)
    (state : MarkState) :
    ∃ result, indexed.foldlM (markRule fuel) state = ok result := by
  have inserted : ∀ isSrc, ∀ entry ∈ indexed, ∀ maps, ∃ result,
      insertIpBitmap fuel (entry.1.ips isSrc) (Bitmap.single entry.2) maps = ok result :=
    fun isSrc entry member => foldlM_returns _ fun item listed maps =>
      insertIpParam_returns enough (accepted entry member isSrc item listed)
  refine foldlM_returns indexed (fun entry member state => ?_) state
  obtain ⟨src, srcReturns⟩ := inserted true entry member state.src
  obtain ⟨dst, dstReturns⟩ := inserted false entry member state.dst
  exact ⟨⟨src, dst, markFields state.fields entry⟩,
    markRule_eq_ok_iff.mpr ⟨srcReturns, dstReturns, rfl⟩⟩

/-! ## Port segments -/

variable (fields : FieldMaps)

section

variable (isSrc : Bool) (rules : List NetFirewallIpRule)

/-- The segments of one side. -/
def FieldMaps.segments : List SegmentBitmap :=
  if isSrc then fields.srcSegments else fields.dstSegments

/-- The range that `AddPortBitmap` adds for a parameter. -/
def portRange (bitmap : Bitmap) (item : NetFirewallPortParam) : Option SegmentBitmap :=
  if item.startPort = 0 then none
  else if item.startPort ≤ item.endPort then some ⟨item.startPort, item.endPort, bitmap⟩
  else none

/-- The ranges of a rule on one side. -/
def portRanges (entry : NetFirewallIpRule × Nat) : List SegmentBitmap :=
  if isNotNeedPort entry.1.protocol then []
  else (entry.1.ports isSrc).filterMap (portRange (Bitmap.single entry.2))

theorem addPortBitmap_eq (ports : List NetFirewallPortParam) (bitmap : Bitmap)
    (segments : List SegmentBitmap) :
    addPortBitmap ports bitmap segments =
      addAll segments (ports.filterMap (portRange bitmap)) := by
  induction ports generalizing segments with
  | nil => rfl
  | cons item ports ih =>
    rw [filterMap_cons]
    refine (ih _).trans ?_
    simp only [portRange]
    split
    · rfl
    · split <;> rfl

theorem segments_markFields (entry : NetFirewallIpRule × Nat) (isSrc : Bool) :
    (markFields fields entry).segments isSrc =
      addAll (fields.segments isSrc) (portRanges isSrc entry) := by
  by_cases unused : isNotNeedPort entry.1.protocol = true
  · cases isSrc <;>
      simp [markFields, portRanges, FieldMaps.segments, unused, addAll]
  · cases isSrc <;>
      simp [markFields, portRanges, FieldMaps.segments, unused,
        addPortBitmap_eq, NetFirewallIpRule.ports]

theorem segments_foldl_markFields :
    (indexed.foldl markFields fields).segments isSrc =
      addAll (fields.segments isSrc) (indexed.flatMap (portRanges isSrc)) := by
  induction indexed generalizing fields with
  | nil => rfl
  | cons entry indexed ih =>
    rw [foldl_cons, ih, segments_markFields]
    simp [addAll]

theorem represents_segments :
    SegmentBitmapMap.Represents (indexed.flatMap (portRanges isSrc))
      ((indexed.foldl markFields MarkState.empty.fields).segments isSrc) := by
  rw [segments_foldl_markFields]
  have empty : MarkState.empty.fields.segments isSrc = [] := by
    cases isSrc <;> rfl
  rw [empty]
  exact SegmentBitmapMap.Represents.nil.addAll _

/-- The port map of one side before the other key is inserted. -/
def markedPortMap : Option (List PortRuleBitmap) :=
  orInsertPortBitmap ((rules.zipIdx.foldl markFields MarkState.empty.fields).segments isSrc) []

theorem markedPortMap_returns : ∃ entries, markedPortMap isSrc rules = some entries ∧ Blocks
        ((rules.zipIdx.foldl markFields MarkState.empty.fields).segments isSrc)
        entries := by
  obtain ⟨entries, returns, blocks⟩ := orInsertPortBitmap_returns _
    (represents_segments rules.zipIdx isSrc).wellFormed.valid []
  exact ⟨entries, returns, blocks⟩

end

/-! ## The whole build -/

/-- The maps that the first pass leaves. -/
def marked (state : MarkState) (srcPorts dstPorts : List PortRuleBitmap) : BitmapManager where
  src := state.src
  dst := state.dst
  srcPortMap := srcPorts
  dstPortMap := dstPorts
  protoMap := state.fields.protoMap
  appUidMap := state.fields.appUidMap
  uidMap := state.fields.uidMap
  actionMap := state.fields.actionMap
  interfaceMap := state.fields.interfaceMap

/-- The maps after both passes. -/
def assemble (rules : List NetFirewallIpRule) (state : MarkState)
    (srcPorts dstPorts : List PortRuleBitmap) : BitmapManager :=
  buildNoMarkBitmap (marked state srcPorts dstPorts).insert rules

theorem buildBitmapMap_eq_ok_iff :
    buildBitmapMap fuel rules = ok manager ↔
      ∃ state,
        rules.zipIdx.foldlM (markRule fuel) MarkState.empty = ok state ∧
        ∃ srcPorts, markedPortMap true rules = some srcPorts ∧
        ∃ dstPorts, markedPortMap false rules = some dstPorts ∧
        assemble rules state srcPorts dstPorts = manager := by
  simp only [buildBitmapMap, buildMarkBitmap, bind_eq_ok_iff, lift_eq_ok_iff, ok_inj]
  constructor
  · rintro ⟨_, ⟨state, run, srcPorts, src, dstPorts, dst, rfl⟩, rfl⟩
    have fields := (markRules_spec _ run).2.2
    rw [fields] at src dst
    exact ⟨state, run, srcPorts, src, dstPorts, dst, rfl⟩
  · rintro ⟨state, run, srcPorts, src, dstPorts, dst, rfl⟩
    have fields := (markRules_spec _ run).2.2
    rw [markedPortMap, ← fields] at src dst
    exact ⟨_, ⟨state, run, srcPorts, src, dstPorts, dst, rfl⟩, rfl⟩

section Fuel

variable {fuel more : Nat} (le : fuel ≤ more)
include le

theorem insertIpParam_mono (returns : insertIpParam fuel bitmap maps item = ok result) :
    insertIpParam more bitmap maps item = ok result := by
  unfold insertIpParam insertIp4SegBitmap at returns ⊢
  split
  case isFalse notIpv4 =>
    rw [if_neg notIpv4] at returns
    exact returns
  case isTrue ipv4 =>
    rw [if_pos ipv4] at returns
    obtain ⟨ip4, inserted, made⟩ := bind_eq_ok_iff.mp returns
    refine bind_eq_ok_iff.mpr ⟨ip4, ?_, made⟩
    by_cases single : item.type = singleIp
    · rw [if_pos single] at inserted ⊢
      exact inserted
    · rw [if_neg single] at inserted ⊢
      by_cases multiple : item.type = multipleIp
      · rw [if_pos multiple] at inserted ⊢
        obtain ⟨list, blocks, rest⟩ := bind_eq_ok_iff.mp inserted
        exact bind_eq_ok_iff.mpr ⟨list, getIp4AndMask_mono le blocks, rest⟩
      · rw [if_neg multiple] at inserted ⊢
        exact inserted

theorem markRule_mono (returns : markRule fuel state entry = ok result) :
    markRule more state entry = ok result := by
  obtain ⟨src, dst, fields⟩ := markRule_eq_ok_iff.mp returns
  exact markRule_eq_ok_iff.mpr
    ⟨foldlM_eq_ok_of_body (insertIpParam_mono le) _ src,
      foldlM_eq_ok_of_body (insertIpParam_mono le) _ dst, fields⟩

theorem buildBitmapMap_mono (returns : buildBitmapMap fuel rules = ok manager) :
    buildBitmapMap more rules = ok manager := by
  obtain ⟨state, run, rest⟩ := buildBitmapMap_eq_ok_iff.mp returns
  exact buildBitmapMap_eq_ok_iff.mpr ⟨state, foldlM_eq_ok_of_body (markRule_mono le) _ run, rest⟩

end Fuel

theorem buildBitmapMap_unique (returns : buildBitmapMap fuel rules = ok manager)
    (returns' : buildBitmapMap fuel' rules = ok manager') :
    manager = manager' := by
  have first := buildBitmapMap_mono (Nat.le_max_left fuel fuel') returns
  have second := buildBitmapMap_mono (Nat.le_max_right fuel fuel') returns'
  exact ok_inj.mp (first.symm.trans second)

theorem forall_mem_zipIdx_iff {rules : List NetFirewallIpRule}
    {property : NetFirewallIpRule → Prop} :
    (∀ entry ∈ rules.zipIdx, property entry.1) ↔ ∀ rule ∈ rules, property rule := by
  rw [← forall_mem_map, zipIdx_map_fst]

theorem exists_buildBitmapMap_iff (rules : List NetFirewallIpRule) :
    (∃ fuel manager, buildBitmapMap fuel rules = ok manager) ↔
      ∀ rule ∈ rules, RuleAccepted rule := by
  constructor
  · rintro ⟨fuel, manager, returns⟩
    obtain ⟨state, run, _⟩ := buildBitmapMap_eq_ok_iff.mp returns
    exact forall_mem_zipIdx_iff.mp (markRules_spec _ run).1
  · intro accepted
    obtain ⟨state, run⟩ := markRules_returns (Nat.lt_succ_self (2 ^ 32))
      rules.zipIdx (forall_mem_zipIdx_iff.mpr accepted) MarkState.empty
    obtain ⟨srcPorts, src, _⟩ := markedPortMap_returns true rules
    obtain ⟨dstPorts, dst, _⟩ := markedPortMap_returns false rules
    exact ⟨_, _, buildBitmapMap_eq_ok_iff.mpr ⟨state, run, srcPorts, src, dstPorts, dst, rfl⟩⟩

end BitmapManager

/-! ## Unconstrained rules -/

/-- The rules of an indexed list that meet a condition. -/
def indicesOf (condition : NetFirewallIpRule → Bool)
    (indexed : List (NetFirewallIpRule × Nat)) : Bitmap :=
  indexed.foldl
    (fun bitmap entry => if condition entry.1 then bitmap.or (Bitmap.single entry.2) else bitmap)
    Bitmap.clear

variable (condition : NetFirewallIpRule → Bool) (indexed : List (NetFirewallIpRule × Nat))

theorem indicesOf_append_singleton :
    indicesOf condition (indexed ++ [entry]) =
      if condition entry.1 then (indicesOf condition indexed).or (Bitmap.single entry.2)
      else indicesOf condition indexed := by
  simp [indicesOf]

theorem test_indicesOf (n : Nat) :
    (indicesOf condition indexed).test n = true ↔
      ∃ entry ∈ indexed, condition entry.1 = true ∧ entry.2 = n ∧ n < bitmapBits := by
  induction indexed using List.reverseRecOn with
  | nil => simp [indicesOf]
  | append_singleton indexed entry ih =>
    rw [indicesOf_append_singleton]
    simp only [mem_append, mem_singleton, or_and_right, exists_or, exists_eq_left]
    split
    next holds =>
      simp only [Bitmap.test_or, Bitmap.test_single, Bool.or_eq_true,
        decide_eq_true_iff, holds, true_and, ih]
      refine or_congr_right ⟨?_, ?_⟩ <;> exact fun ⟨same, bound⟩ => ⟨same.symm, same ▸ bound⟩
    next fails => simp [fails, ih]

theorem test_indicesOf_zipIdx
    {rules : List NetFirewallIpRule} (size : rules.length ≤ bitmapBits) (i : Nat) :
    (indicesOf condition rules.zipIdx).test i = true ↔
      ∃ rule, rules[i]? = some rule ∧ condition rule = true := by
  rw [test_indicesOf]
  constructor
  · rintro ⟨⟨rule, j⟩, member, holds, rfl, _⟩
    exact ⟨rule, mem_zipIdx_iff_getElem?.mp member, holds⟩
  · rintro ⟨rule, here, holds⟩
    have inside := (List.getElem?_eq_some_iff.mp here).1
    exact ⟨(rule, i), mem_zipIdx_iff_getElem?.mpr here, holds, rfl, by omega⟩

variable {w : Nat} (vec : List (RuleBitmap w))

theorem orForEach_orForEach (first second : Bitmap) :
    orForEach (orForEach vec first) second = orForEach vec (first.or second) := by
  simp [orForEach, Bitmap.or_assoc]

@[simp] theorem orForEach_clear : orForEach vec Bitmap.clear = vec := by
  simp [orForEach]

/-- Marking the rules that meet a condition one by one adds all of them, in any
map where marking twice is marking once with both bitmaps. -/
theorem foldl_mark {σ : Type} {mark : σ → Bitmap → σ}
    (mark_mark : ∀ map first second, mark (mark map first) second = mark map (first.or second))
    (mark_clear : ∀ map, mark map Bitmap.clear = map) (condition : NetFirewallIpRule → Bool)
    (indexed : List (NetFirewallIpRule × Nat)) (map : σ) :
    indexed.foldl
      (fun map entry => if condition entry.1 then mark map (Bitmap.single entry.2) else map)
      map =
      mark map (indicesOf condition indexed) := by
  induction indexed using List.reverseRecOn with
  | nil => exact (mark_clear map).symm
  | append_singleton indexed entry ih =>
    rw [foldl_append, foldl_cons, ih, indicesOf_append_singleton]
    split
    · exact mark_mark map _ _
    · rfl

theorem foldl_orForEach :
    indexed.foldl
      (fun vec entry =>
        if condition entry.1 then orForEach vec (Bitmap.single entry.2)
        else vec)
      vec =
      orForEach vec (indicesOf condition indexed) :=
  foldl_mark orForEach_orForEach orForEach_clear condition indexed vec

namespace BitmapManager

/-- Rules are added to every entry of both maps. -/
def markIps (maps : IpMaps) (bitmap : Bitmap) : IpMaps :=
  ⟨orForEach maps.ip4 bitmap, orForEach maps.ip6 bitmap⟩

theorem markIps_markIps (maps : IpMaps) (first second : Bitmap) :
    markIps (markIps maps first) second = markIps maps (first.or second) :=
  congrArg₂ IpMaps.mk (orForEach_orForEach ..) (orForEach_orForEach ..)

theorem ips_buildNoMarkBitmap (manager : BitmapManager) (rules : List NetFirewallIpRule)
    (isSrc : Bool) :
    (buildNoMarkBitmap manager rules).ips isSrc = markIps (manager.ips isSrc)
      (indicesOf (fun rule => decide (rule.ips isSrc = [])) rules.zipIdx) := by
  rw [← foldl_mark markIps_markIps fun maps =>
    congrArg₂ IpMaps.mk (orForEach_clear maps.ip4) (orForEach_clear maps.ip6)]
  refine (foldl_hom (fun manager : BitmapManager => manager.ips isSrc) fun manager entry => ?_).symm
  simp only [decide_eq_true_eq]
  cases isSrc <;> rfl

end BitmapManager

end NetManager.Firewall
