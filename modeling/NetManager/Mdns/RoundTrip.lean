import NetManager.Library.Labels
import NetManager.Mdns.Accepts

/-!
# What is serialized is parsed again

A name is compressed by a pointer to the same name, or the same end of a name, that was
written before. Each entry of the cache leads to a name in what is written so far, which
stays there.
-/

namespace NetManager.Mdns

open List Wire MDnsPayloadParser

/-! ## Names -/

/-- A label of 1 to 63 bytes without a dot. -/
structure ValidLabel (label : Bytes) : Prop where
  nonempty : label ≠ []
  short : label.length ≤ mdnsMaxDomainLabel
  clean : mdnsDomainSpliter ∉ label

/-- A name of such labels. -/
def ValidName (name : Bytes) : Prop :=
  ∃ labels, (∀ label ∈ labels, ValidLabel label) ∧ name = [mdnsDomainSpliter].intercalate labels

/-- The labels with dots between them. -/
abbrev join (labels : List Bytes) : Bytes := [mdnsDomainSpliter].intercalate labels

/-- The name with a dot at its end, as the parser collects it. -/
def dotted (name : Bytes) : Bytes := if name = [] then [] else name ++ [mdnsDomainSpliter]

theorem unDotted_dotted : unDotted (dotted name) = name := by
  unfold unDotted dotted
  split
  next empty => rw [empty]; rfl
  · rw [getLast?_concat, if_pos rfl, dropLast_concat]

theorem intercalate_ne_nil (valid : ValidLabel label) :
    join (label :: labels) ≠ [] := by
  cases labels with
  | nil =>
    rw [join, intercalate_singleton]
    exact valid.nonempty
  | cons next labels =>
    rw [join, intercalate_cons_cons]
    exact fun empty => valid.nonempty (append_eq_nil_iff.mp (append_eq_nil_iff.mp empty).1).1

theorem dotted_intercalate (valid : ∀ other ∈ label :: labels, ValidLabel other) :
    dotted (join (label :: labels)) = label ++ [mdnsDomainSpliter] ++ dotted (join labels) := by
  rw [dotted, if_neg (intercalate_ne_nil (valid label mem_cons_self))]
  cases labels with
  | nil => simp [dotted]
  | cons next labels =>
    have nextValid := valid next (mem_cons_of_mem _ mem_cons_self)
    rw [dotted, if_neg (intercalate_ne_nil nextValid), join, intercalate_cons_cons]
    simp

variable {payload longer : Bytes}

theorem NameAt.of_isPrefix {begin p next : Nat} {name : Bytes}
    (nameAt : NameAt true payload begin p name next) (more : payload <+: longer) :
    NameAt true longer begin p name next := by
  have stays {p : Nat} {byte : UInt8} (here : payload[p]? = some byte) : longer[p]? = some byte :=
    at_singleton_iff.mp ((at_singleton_iff.mpr here).of_isPrefix more)
  induction nameAt with
  | zero here => exact .zero (stays here)
  | label here nonzero short counted lies _ ih =>
    exact .label (stays here) nonzero short counted (lies.of_isPrefix more) ih
  | pointer here marked reads back _ ih =>
    have readsLonger := (readNUint16_eq_some_iff.mp reads).of_isPrefix more
    exact .pointer (stays here) marked (readNUint16_eq_some_iff.mpr readsLonger) back ih
  | out lax => exact absurd lax Bool.false_ne_true.symm

/-! ## Pointers -/

variable {offset : Nat}

theorem toNat_pointer (small : offset < 16384) :
    (UInt16.ofNat offset ||| 0xc000).toNat = 49152 + offset := by
  rw [UInt16.toNat_or, UInt16.toNat_ofNat_of_lt' (Nat.lt_trans small (by decide)), Nat.or_comm]
  exact (Nat.two_pow_add_eq_or_of_lt (i := 14) small 3).symm

theorem target_pointer (small : offset < 16384) :
    target (UInt16.ofNat offset ||| 0xc000) = offset := by
  unfold target
  rw [UInt16.toNat_and, toNat_pointer small]
  rw [show (~~~(0xc000 : UInt16)).toNat = 2 ^ 14 - 1 from by decide, Nat.and_two_pow_sub_one_eq_mod]
  omega

theorem isPointer_high (small : offset < 16384) :
    isPointer (UInt8.ofNat ((49152 + offset) / 256)) := by
  have all : ∀ high : Fin 64, isPointer (UInt8.ofNat (192 + high)) := by decide
  have is : (49152 + offset) / 256 = 192 + offset / 256 := by omega
  rw [is]
  exact all ⟨offset / 256, by omega⟩

/-- The pointer leads to a name before `limit`. -/
def Points (payload : Bytes) (limit : Nat) (name : Bytes) (pointer : UInt16) : Prop :=
  ∃ offset next, offset < limit ∧ offset < 16384 ∧ pointer = UInt16.ofNat offset ||| 0xc000 ∧
    NameAt true payload offset offset (dotted name) next

variable {pointer : UInt16}

theorem Points.of_isPrefix {limit later : Nat} {name : Bytes}
    (points : Points payload limit name pointer) (more : payload <+: longer) (le : limit ≤ later) :
    Points longer later name pointer := by
  obtain ⟨offset, next, below, small, is, nameAt⟩ := points
  exact ⟨offset, next, Nat.lt_of_lt_of_le below le, small, is, nameAt.of_isPrefix more⟩

theorem Points.nameAt {payload : Bytes} {limit : Nat} {name : Bytes}
    (points : Points payload limit name pointer) :
    NameAt true (payload ++ bigEndian 2 pointer.toNat) limit payload.length (dotted name)
      (payload.length + 2) := by
  obtain ⟨offset, next, below, small, is, nameAt⟩ := points
  have leads : target pointer = offset := is ▸ target_pointer small
  have value : pointer.toNat = 49152 + offset := is ▸ toNat_pointer small
  have lies := at_length payload (bigEndian 2 pointer.toNat)
  have here : At (payload ++ bigEndian 2 pointer.toNat) payload.length
      [UInt8.ofNat ((49152 + offset) / 256)] := by
    rw [value] at lies ⊢
    exact ((at_append_iff _ _).mp lies).1
  have longer := nameAt.of_isPrefix (prefix_append payload (bigEndian 2 pointer.toNat))
  rw [← leads] at longer below
  exact .pointer (at_singleton_iff.mp here) (isPointer_high small)
    (readNUint16_eq_some_iff.mpr lies) below longer

/-! ## Serializing names -/

/-- What is written depends on what is there only by its length and the cache. -/
def Appends (write : Output → Output) : Prop :=
  ∀ first second : Output, first.strCacheMap = second.strCacheMap →
    first.payload.length = second.payload.length → ∃ bytes cache,
      write first = ⟨first.payload ++ bytes, cache⟩ ∧
        write second = ⟨second.payload ++ bytes, cache⟩

theorem Appends.isPrefix (appends : Appends write) (output : Output) :
    output.payload <+: (write output).payload := by
  obtain ⟨bytes, cache, is, _⟩ := appends output output rfl rfl
  rw [is]
  exact prefix_append _ _

theorem Appends.comp {write next : Output → Output} (first : Appends write) (second : Appends next)
    :
    Appends fun output => next (write output) := by
  intro output other sameCache sameLength
  obtain ⟨bytes, cache, is, otherIs⟩ := first output other sameCache sameLength
  obtain ⟨more, after, nextIs, otherNextIs⟩ :=
    second ⟨output.payload ++ bytes, cache⟩ ⟨other.payload ++ bytes, cache⟩ rfl
      (by rw [length_append, length_append, sameLength])
  dsimp only at nextIs otherNextIs
  rw [← is, append_assoc] at nextIs
  rw [← otherIs, append_assoc] at otherNextIs
  exact ⟨bytes ++ more, after, nextIs, otherNextIs⟩

theorem appends_write : Appends (Output.write · bytes) := by
  rintro ⟨payload, cache⟩ ⟨other, otherCache⟩ rfl _
  exact ⟨bytes, cache, rfl, rfl⟩

theorem appends_serializeDnsString (str : Bytes) : Appends (serializeDnsString str) := by
  intro first second sameCache sameLength
  fun_induction serializeDnsString str first generalizing second with
  | case1 output =>
    rw [serializeDnsString]
    exact appends_write output second sameCache sameLength
  | case2 str output nonempty pointer found =>
    rw [serializeDnsString, if_neg nonempty, ← sameCache, found]
    exact appends_write output second sameCache sameLength
  | case3 str output nonempty absent label segLen strptr ih =>
    have unfolded := serializeDnsString.eq_def str second
    rw [if_neg nonempty, ← sameCache, absent] at unfolded
    rw [← sameLength] at unfolded
    obtain ⟨bytes, cache, is, otherIs⟩ := ih
      { payload := second.payload ++ UInt8.ofNat segLen :: label.take segLen
        strCacheMap := (str, strptr ||| 0xc000) :: output.strCacheMap } rfl
      (by rw [length_append, length_append, sameLength])
    refine ⟨UInt8.ofNat segLen :: label.take segLen ++ bytes, cache, ?_, ?_⟩
    · rw [is, append_assoc]
    · exact unfolded.trans (by rw [otherIs, append_assoc])

/-- What the cache has for the names that are not longer than `bound` leads to them. -/
def Cached (output : Output) (bound limit : Nat) : Prop :=
  ∀ name pointer, output.strCacheMap.lookup name = some pointer → name.length ≤ bound →
    Points output.payload limit name pointer

variable {output : Output}

theorem serializeDnsString_cons (valid : ValidLabel label)
    (absent : output.strCacheMap.lookup (join (label :: labels)) = none) :
    serializeDnsString (join (label :: labels)) output = serializeDnsString (join labels)
        { payload := output.payload ++ UInt8.ofNat label.length :: label
          strCacheMap := (join (label :: labels),
            UInt16.ofNat output.payload.length ||| 0xc000) :: output.strCacheMap } := by
  have segLen : label.length &&& 0x3f = label.length := by
    rw [show 0x3f = 2 ^ 6 - 1 from rfl, Nat.and_two_pow_sub_one_eq_mod]
    exact Nat.mod_eq_of_lt (Nat.lt_succ_of_le valid.short)
  rw [serializeDnsString, if_neg (intercalate_ne_nil valid), absent]
  dsimp only
  rw [Labels.takeWhile_intercalate valid.clean, Labels.drop_dropWhile_intercalate valid.clean,
    segLen, take_length]

theorem length_intercalate_lt (valid : ValidLabel label) (labels : List Bytes) :
    (join labels).length < (join (label :: labels)).length := by
  have positive := length_pos_iff.mpr valid.nonempty
  cases labels with
  | nil => simpa using positive
  | cons next labels =>
    rw [join, join, intercalate_cons_cons]
    simp only [length_append]
    omega

theorem nameAt_label (valid : ∀ other ∈ label :: labels, ValidLabel other) {start next : Nat}
    (more : payload ++ UInt8.ofNat label.length :: label <+: longer)
    (rest : NameAt true longer start (payload ++ UInt8.ofNat label.length :: label).length
      (dotted (join labels)) next)
    :
    NameAt true longer start payload.length (dotted (join (label :: labels))) next := by
  have labelValid := valid label mem_cons_self
  have lies := (at_length payload (UInt8.ofNat label.length :: label)).of_isPrefix more
  obtain ⟨here, behind⟩ := (at_append_iff [UInt8.ofNat label.length] label).mp lies
  have positive := length_pos_iff.mpr labelValid.nonempty
  have counted : (UInt8.ofNat label.length).toNat = label.length :=
    UInt8.toNat_ofNat_of_lt' (Nat.lt_of_le_of_lt labelValid.short (by decide))
  rw [dotted_intercalate valid]
  refine .label (at_singleton_iff.mp here) ?_ (by rw [counted]; exact labelValid.short)
    counted.symm behind ?_
  · intro zero
    rw [zero] at counted
    exact Nat.ne_of_lt positive counted
  · rw [counted]
    rw [length_append] at rest
    exact rest

/-- A name is written so that it is parsed, and what the cache gets leads to its ends. -/
theorem nameAt_serializeDnsString (valid : ∀ label ∈ labels, ValidLabel label)
    (le : start ≤ output.payload.length) (cached : Cached output (join labels).length start)
    (small : (serializeDnsString (join labels) output).payload.length < 16384) :
    let after := serializeDnsString (join labels) output
    NameAt true after.payload start output.payload.length (dotted (join labels))
        after.payload.length ∧
      ∀ name pointer, after.strCacheMap.lookup name = some pointer →
        output.strCacheMap.lookup name = some pointer ∨
          Points after.payload after.payload.length name pointer := by
  intro after
  induction labels generalizing output with
  | nil =>
    have is : after = output.write [0] := by
      rw [show after = serializeDnsString [] output from rfl, serializeDnsString, if_pos rfl]
    rw [is]
    refine ⟨?_, fun _ _ => .inl⟩
    have ends : (output.write [0]).payload.length = output.payload.length + 1 := length_append
    rw [ends]
    exact .zero (at_singleton_iff.mp (at_length output.payload [0]))
  | cons label labels ih =>
    have labelValid := valid label mem_cons_self
    have extended := (appends_serializeDnsString (join (label :: labels))).isPrefix output
    cases found : output.strCacheMap.lookup (join (label :: labels)) with
    | some pointer =>
      have is : after = output.writeNUint16 pointer := by
        dsimp only [after]
        rw [serializeDnsString, if_neg (intercalate_ne_nil labelValid), found]
      have ends : (output.writeNUint16 pointer).payload.length = output.payload.length + 2 := by
        rw [Output.writeNUint16, Output.write, length_append, length_bigEndian]
      rw [is, ends]
      exact ⟨(cached _ _ found (Nat.le_refl _)).nameAt, fun _ _ => .inl⟩
    | none =>
      have is := serializeDnsString_cons labelValid found
      set next : Output :=
        { payload := output.payload ++ UInt8.ofNat label.length :: label
          strCacheMap := (join (label :: labels),
            UInt16.ofNat output.payload.length ||| 0xc000) :: output.strCacheMap }
      rw [is] at small
      have nextLength : next.payload.length = output.payload.length + label.length + 1 := by
        rw [length_append, length_cons, Nat.add_assoc]
      have more : output.payload <+: next.payload := prefix_append _ _
      have nextPrefix := (appends_serializeDnsString (join labels)).isPrefix next
      have nextCached : Cached next (join labels).length start := by
        intro name pointer lookup shorter
        have longer := length_intercalate_lt labelValid labels
        have other : (name == join (label :: labels)) = false :=
          beq_false_of_ne fun same => by rw [same] at shorter; omega
        rw [lookup_cons, other] at lookup
        exact (cached name pointer lookup (by omega)).of_isPrefix more (Nat.le_refl _)
      obtain ⟨restAt, caches⟩ := ih (forall_mem_cons.mp valid).2 (by omega) nextCached small
      have nameAt := nameAt_label valid nextPrefix restAt
      dsimp only [after]
      rw [is]
      refine ⟨nameAt, fun name pointer lookup => ?_⟩
      rcases caches name pointer lookup with added | points
      · rw [lookup_cons] at added
        split at added
        next same =>
          rw [eq_of_beq same]
          have small : output.payload.length < 16384 :=
            Nat.lt_of_le_of_lt (extended.length_le) (is ▸ small)
          refine .inr ⟨output.payload.length, _, ?_, small, (Option.some_inj.mp added).symm,
            nameAt.of_le le⟩
          have := nextPrefix.length_le
          omega
        · exact .inl added
      · exact .inr points

/-! ## Writing parts of a message -/

/-- What the cache has leads to names. -/
def Leads (output : Output) : Prop :=
  ∀ name pointer, output.strCacheMap.lookup name = some pointer →
    Points output.payload output.payload.length name pointer

/-- A part of a message is written, if the packet does not get too long. It stays where it
is whatever is written behind it. -/
structure Writes (write : Output → Output) (part : Bytes → Nat → Nat → Prop) : Prop where
  isPrefix : ∀ output, output.payload <+: (write output).payload
  leads : ∀ output, Leads output → (write output).payload.length < 16384 → Leads (write output)
  part : ∀ output, Leads output → (write output).payload.length < 16384 →
    ∀ longer, (write output).payload <+: longer →
      part longer output.payload.length (write output).payload.length

namespace Writes

variable {write next : Output → Output} {part other : Bytes → Nat → Nat → Prop}

theorem imp (writes : Writes write part)
    (imp : ∀ longer start stop, stop < 16384 → stop ≤ longer.length → part longer start stop →
      other longer start stop) :
    Writes write other where
  isPrefix := writes.isPrefix
  leads := writes.leads
  part output leads small longer more :=
    imp _ _ _ small more.length_le (writes.part output leads small longer more)

theorem comp (first : Writes write part) (second : Writes next other) :
    Writes (fun output => next (write output)) fun longer start stop =>
      ∃ mid, part longer start mid ∧ other longer mid stop := by
  have smaller : ∀ output, (next (write output)).payload.length < 16384 →
      (write output).payload.length < 16384 := fun output small =>
    Nat.lt_of_le_of_lt (second.isPrefix (write output)).length_le small
  constructor
  · exact fun output => (first.isPrefix output).trans (second.isPrefix (write output))
  · exact fun output leads small =>
      second.leads _ (first.leads output leads (smaller output small)) small
  · intro output leads small longer more
    have mid := first.leads output leads (smaller output small)
    exact ⟨_, first.part output leads (smaller output small) longer
      ((second.isPrefix (write output)).trans more), second.part _ mid small longer more⟩

theorem bytes (bytes : Bytes) : Writes (Output.write · bytes) fun longer start stop =>
      At longer start bytes ∧ stop = start + bytes.length where
  isPrefix _ := prefix_append _ _
  leads _ leads _ name pointer lookup :=
    (leads name pointer lookup).of_isPrefix (prefix_append _ _) (prefix_append _ _).length_le
  part output _ _ _ more := ⟨(at_length output.payload bytes).of_isPrefix more, length_append⟩

theorem name {name : Bytes} (valid : ValidName name) :
    Writes (serializeDnsString name) fun longer start stop =>
      NameAt true longer start start (dotted name) stop := by
  obtain ⟨labels, labelsValid, rfl⟩ := valid
  have isPrefix := (appends_serializeDnsString (join labels)).isPrefix
  refine ⟨isPrefix, fun output leads small => ?_, fun output leads small longer more => ?_⟩
  · intro name pointer lookup
    rcases (nameAt_serializeDnsString labelsValid (Nat.le_refl _)
      (fun name pointer lookup _ => leads name pointer lookup) small).2 name pointer lookup with
      old | new
    · exact (leads name pointer old).of_isPrefix (isPrefix output) (isPrefix output).length_le
    · exact new
  · exact (nameAt_serializeDnsString labelsValid (Nat.le_refl _)
      (fun name pointer lookup _ => leads name pointer lookup) small).1.of_isPrefix more

theorem foldl {β : Type} {write : Output → β → Output} {itemAt : Bytes → Nat → β → Nat → Prop}
    {items : List β}
    (each : ∀ item ∈ items, Writes (write · item) fun longer start stop =>
      itemAt longer start item stop) :
    Writes (fun output => items.foldl write output) fun longer start stop =>
      Items (itemAt longer) start items stop := by
  induction items with
  | nil => refine ⟨fun _ => prefix_rfl, fun _ leads _ => leads, fun _ _ _ _ _ => .nil _⟩
  | cons item items ih =>
    refine ((each item mem_cons_self).comp (ih (forall_mem_cons.mp each).2)).imp ?_
    rintro longer start stop _ _ ⟨mid, first, rest⟩
    exact .cons first rest

end Writes

/-! ## Questions and records -/

theorem writes_question (valid : ValidName question.name) :
    Writes (serializeQuestion · question) fun longer start stop =>
      QuestionAt true longer start question stop := by
  refine (((Writes.name valid).comp (.bytes (bigEndian 2 question.qtype.toNat))).comp
    (.bytes (bigEndian 2 question.qclass.toNat))).imp ?_
  rintro longer start stop _ _ ⟨_, ⟨mid, nameAt, type, rfl⟩, class_, rfl⟩
  refine ⟨_, mid, nameAt, unDotted_dotted.symm, (at_append_iff _ _).mpr ?_, ?_⟩
  · exact ⟨type, class_⟩
  · rw [length_bigEndian, length_bigEndian]

/-- The type of a record is the one of its data, whose names are valid. -/
def ValidRData (type : UInt16) : RData → Prop
  | .empty => False
  | .inAddr _ => type = rrtypeA
  | .in6Addr _ => type = rrtypeAaaa
  | .string name => type = rrtypePtr ∧ ValidName name
  | .srv srv => type = rrtypeSrv ∧ ValidName srv.name
  | .txt _ => type = rrtypeTxt

theorem appends_serializeRData : Appends (serializeRData rdata) := by
  cases rdata with
  | empty =>
    rintro ⟨payload, cache⟩ ⟨other, otherCache⟩ rfl _
    exact ⟨[], cache, by rw [append_nil]; rfl, by rw [append_nil]; rfl⟩
  | inAddr addr => exact appends_write
  | in6Addr addr => exact appends_write
  | string name => exact appends_serializeDnsString name
  | srv srv =>
    exact ((appends_write.comp appends_write).comp appends_write).comp
      (appends_serializeDnsString srv.name)
  | txt bytes => exact appends_write

theorem writes_rdata (valid : ValidRData type rdata) :
    Writes (serializeRData rdata) fun longer start stop =>
      RDataAt true longer start type (UInt16.ofNat (stop - start)) rdata stop := by
  cases rdata with
  | empty => exact valid.elim
  | inAddr addr | in6Addr addr =>
    obtain rfl := valid
    refine (Writes.bytes addr.1).imp ?_
    rintro longer start stop _ _ ⟨lies, rfl⟩
    rw [addr.2, Nat.add_sub_cancel_left]
    constructor
    exact lies
  | string name =>
    obtain ⟨rfl, nameValid⟩ := valid
    refine (Writes.name nameValid).imp fun longer start stop _ _ nameAt => ?_
    have data : RDataAt true longer start rrtypePtr (UInt16.ofNat (stop - start)) _ stop :=
      .string nameAt
    rwa [unDotted_dotted] at data
  | srv srv =>
    obtain ⟨rfl, nameValid⟩ := valid
    refine ((((Writes.bytes (bigEndian 2 srv.priority.toNat)).comp
      (.bytes (bigEndian 2 srv.weight.toNat))).comp
      (.bytes (bigEndian 2 srv.port.toNat))).comp (Writes.name nameValid)).imp ?_
    rintro longer start stop _ _ ⟨_, ⟨_, ⟨_, ⟨priority, rfl⟩, weight, rfl⟩, port, rfl⟩, nameAt⟩
    have numbers : At longer start (bigEndian 2 srv.priority.toNat ++
        bigEndian 2 srv.weight.toNat ++ bigEndian 2 srv.port.toNat) := by
      simp only [at_append_iff, length_append, length_bigEndian]
      exact ⟨⟨priority, weight⟩, port⟩
    have data : RDataAt true longer start rrtypeSrv (UInt16.ofNat (stop - start)) _ stop :=
      .srv numbers nameAt
    rwa [unDotted_dotted] at data
  | txt bytes =>
    obtain rfl := valid
    refine (Writes.bytes bytes).imp ?_
    rintro longer start stop small inside ⟨lies, rfl⟩
    have counted : bytes.length = (UInt16.ofNat (start + bytes.length - start)).toNat := by
      rw [Nat.add_sub_cancel_left, UInt16.toNat_ofNat_of_lt']
      exact Nat.lt_trans (by omega : bytes.length < 16384) (by decide)
    have data : RDataAt true longer start rrtypeTxt _ (.txt bytes) _ :=
      .txt (by rw [← counted]; exact inside) counted lies
    rwa [← counted] at data

theorem serializeRR_eq :
    ∃ len, serializeRR output rr =
        serializeRData rr.rdata ((serializeHead rr output).writeNUint16 len) ∧
      len = UInt16.ofNat ((serializeRR output rr).payload.length -
        ((serializeHead rr output).writeNUint16 len).payload.length) := by
  generalize headIs : serializeHead rr output = head
  have lengths len : (head.writeNUint16 len).payload.length = head.payload.length + 2 := by
    rw [Output.writeNUint16, Output.write, length_append, length_bigEndian]
  set len := UInt16.ofNat ((serializeRData rr.rdata (head.writeNUint16 rr.length)).payload.length -
    head.payload.length - 2) with lenIs
  obtain ⟨bytes, cache, before, after⟩ := appends_serializeRData
    (head.writeNUint16 rr.length) (head.writeNUint16 len) rfl (by rw [lengths, lengths])
  have is : serializeRR output rr = serializeRData rr.rdata (head.writeNUint16 len) := by
    unfold serializeRR
    rw [headIs]
    dsimp only
    rw [← lenIs, before, after]
    simp [Output.overwrite, Output.writeNUint16, Output.write]
  refine ⟨len, is, ?_⟩
  rw [is, after, lenIs, before, length_append, length_append, lengths, lengths, Nat.sub_sub]

theorem writes_rr (validName : ValidName rr.name) (validData : ValidRData rr.rtype rr.rdata) :
    Writes (serializeRR · rr) fun longer start stop =>
      ∃ length, RRAt true longer start { rr with length := length } stop := by
  have head : Writes (serializeHead rr) fun longer start stop => ∃ mid,
      NameAt true longer start start (dotted rr.name) mid ∧
        At longer mid (bigEndian 2 rr.rtype.toNat ++ bigEndian 2 rr.rclass.toNat ++
          bigEndian 4 rr.ttl.toNat) ∧ stop = mid + 8 := by
    refine ((((Writes.name validName).comp (.bytes (bigEndian 2 rr.rtype.toNat))).comp
      (.bytes (bigEndian 2 rr.rclass.toNat))).comp (.bytes (bigEndian 4 rr.ttl.toNat))).imp ?_
    rintro longer start stop _ _ ⟨_, ⟨_, ⟨mid, nameAt, type, rfl⟩, class_, rfl⟩, ttl, rfl⟩
    refine ⟨mid, nameAt, ?_, ?_⟩
    · simp only [at_append_iff, length_append, length_bigEndian]
      exact ⟨⟨type, class_⟩, ttl⟩
    · simp
  have data := writes_rdata validData
  constructor
  · intro output
    obtain ⟨len, is, _⟩ := serializeRR_eq
    rw [is]
    exact ((head.comp (.bytes _)).comp data).isPrefix output
  · intro output leads small
    obtain ⟨len, is, _⟩ := serializeRR_eq
    rw [is] at small ⊢
    exact ((head.comp (.bytes _)).comp data).leads output leads small
  · intro output leads small longer more
    obtain ⟨len, is, lenIs⟩ := serializeRR_eq
    rw [is] at small more lenIs ⊢
    have before := head.comp (.bytes (bigEndian 2 len.toNat))
    have isPrefix := data.isPrefix ((serializeHead rr output).writeNUint16 len)
    have beforeSmall := Nat.lt_of_le_of_lt isPrefix.length_le small
    obtain ⟨_, ⟨mid, nameAt, fixed, rfl⟩, lengthAt, ends⟩ :=
      before.part output leads beforeSmall longer (isPrefix.trans more)
    have dataAt := data.part ((serializeHead rr output).writeNUint16 len)
      (before.leads output leads beforeSmall) small longer more
    refine ⟨len, dotted rr.name, mid, nameAt, unDotted_dotted.symm, ?_, ?_⟩
    · exact (at_append_iff _ _).mpr ⟨fixed, lengthAt⟩
    · rw [← lenIs] at dataAt
      exact ends ▸ dataAt

/-! ## Messages -/

/-- A record but for its length, which `SerializeRR` sets. -/
def ResourceRecord.withoutLength (rr : ResourceRecord) : ResourceRecord := { rr with length := 0 }

/-- The names are valid and the types of records are those of their data. -/
structure ValidMessage (msg : Message) : Prop where
  questions : ∀ question ∈ msg.questions, ValidName question.name
  records : ∀ rr ∈ msg.answers ++ msg.authorities ++ msg.additional,
    ValidName rr.name ∧ ValidRData rr.rtype rr.rdata

/-- The number of entries of each section has 16 bits. -/
structure Countable (msg : Message) : Prop where
  questions : msg.questions.length < UInt16.size
  answers : msg.answers.length < UInt16.size
  authorities : msg.authorities.length < UInt16.size
  additional : msg.additional.length < UInt16.size

/-- A message that was parsed is one that was serialized. -/
structure SameMessage (parsed msg : Message) : Prop where
  id : parsed.header.id = msg.header.id
  flags : parsed.header.flags = msg.header.flags
  questions : parsed.questions = msg.questions
  answers : parsed.answers.map (·.withoutLength) = msg.answers.map (·.withoutLength)
  authorities : parsed.authorities.map (·.withoutLength) = msg.authorities.map (·.withoutLength)
  additional : parsed.additional.map (·.withoutLength) = msg.additional.map (·.withoutLength)

/-- `FromBytes(ToBytes(msg))` reports no error and gives the message. -/
def RoundTrips (msg : Message) : Prop :=
  ∃ cursor parsed, fromBytes (toBytes msg) = some (cursor, parsed) ∧
    getError cursor.errorFlags = 0 ∧ SameMessage parsed msg

theorem writes_header (header : Header) : Writes (serializeHeader header) fun longer start stop =>
      At longer start (bigEndian 2 header.id.toNat ++ bigEndian 2 header.flags.toNat ++
        bigEndian 2 header.qdcount.toNat ++ bigEndian 2 header.ancount.toNat ++
        bigEndian 2 header.nscount.toNat ++ bigEndian 2 header.arcount.toNat) ∧
        stop = start + 12 := by
  refine ((((((Writes.bytes (bigEndian 2 header.id.toNat)).comp
    (.bytes (bigEndian 2 header.flags.toNat))).comp
    (.bytes (bigEndian 2 header.qdcount.toNat))).comp
    (.bytes (bigEndian 2 header.ancount.toNat))).comp
    (.bytes (bigEndian 2 header.nscount.toNat))).comp
    (.bytes (bigEndian 2 header.arcount.toNat))).imp ?_
  rintro longer start stop _ _ ⟨_, ⟨_, ⟨_, ⟨_, ⟨_, ⟨id, rfl⟩, flags, rfl⟩, questions, rfl⟩,
    answers, rfl⟩, authorities, rfl⟩, additional, rfl⟩
  simp only [at_append_iff, length_append, length_bigEndian, Nat.add_assoc]
  exact ⟨⟨⟨⟨⟨⟨id, flags⟩, questions⟩, answers⟩, authorities⟩, additional⟩, trivial⟩

variable {records : List ResourceRecord}

/-- The records of a section, with the lengths that were written. -/
theorem exists_records (there : Items (fun start (rr : ResourceRecord) stop =>
      ∃ length, RRAt true payload start { rr with length := length } stop) start records stop) :
    ∃ found, Items (RRAt true payload) start found stop ∧
      found.map (·.withoutLength) = records.map (·.withoutLength) := by
  induction there with
  | nil => exact ⟨[], .nil _, rfl⟩
  | cons first _ ih =>
    obtain ⟨length, firstAt⟩ := first
    obtain ⟨found, foundAt, same⟩ := ih
    exact ⟨_ :: found, .cons firstAt foundAt, by rw [map_cons, map_cons, same]; rfl⟩

theorem writes_records (valid : ∀ rr ∈ records, ValidName rr.name ∧ ValidRData rr.rtype rr.rdata) :
    Writes (fun output => records.foldl serializeRR output) fun longer start stop =>
      ∃ found, Items (RRAt true longer) start found stop ∧
        found.map (·.withoutLength) = records.map (·.withoutLength) := by
  have each := Writes.foldl fun rr member => writes_rr (valid rr member).1 (valid rr member).2
  exact each.imp fun _ _ _ _ _ there => exists_records there

theorem toNat_ofNat_length {β : Type} {items : List β} (small : items.length < UInt16.size) :
    (UInt16.ofNat items.length).toNat = items.length := UInt16.toNat_ofNat_of_lt' small

variable {msg : Message}

theorem serialize_eq (countable : Countable msg) :
    serialize msg output =
      msg.additional.foldl serializeRR (msg.authorities.foldl serializeRR
        (msg.answers.foldl serializeRR (msg.questions.foldl serializeQuestion
          (serializeHeader (serializedHeader msg) output)))) := by
  unfold serialize
  simp [serializedHeader, toNat_ofNat_length countable.questions,
    toNat_ofNat_length countable.answers, toNat_ofNat_length countable.authorities,
    toNat_ofNat_length countable.additional]

theorem messageAt_toBytes (valid : ValidMessage msg) (countable : Countable msg)
    (small : (toBytes msg).length < 16384) :
    ∃ written, MessageAt true (toBytes msg) written (toBytes msg).length ∧
      SameMessage written msg := by
  have records : ∀ section_ ⊆ msg.answers ++ msg.authorities ++ msg.additional,
      ∀ rr ∈ section_, ValidName rr.name ∧ ValidRData rr.rtype rr.rdata :=
    fun _ subset rr member => valid.records rr (subset member)
  have writes := ((((writes_header (serializedHeader msg)).comp
    (.foldl fun question member => writes_question (valid.questions question member))).comp
    (writes_records (records msg.answers (by simp)))).comp
    (writes_records (records msg.authorities (by simp)))).comp
    (writes_records (records msg.additional (by simp)))
  have bytes : toBytes msg = _ := congrArg Output.payload (serialize_eq countable)
  rw [bytes] at small
  obtain ⟨additionalStart, ⟨authoritiesStart, ⟨answersStart, ⟨questionsStart, ⟨headerAt, rfl⟩,
    questionsAt⟩, answers, answersAt, sameAnswers⟩, authorities, authoritiesAt, sameAuthorities⟩,
    additional, additionalAt, sameAdditional⟩ :=
    writes.part {} (fun _ _ absent => absurd absent (by simp)) small _ prefix_rfl
  rw [← bytes] at *
  have lengths : ∀ {found records : List ResourceRecord}, records.length < UInt16.size →
      found.map (·.withoutLength) = records.map (·.withoutLength) →
        found.length = (UInt16.ofNat records.length).toNat := by
    intro found records few same
    rw [toNat_ofNat_length few, ← length_map (·.withoutLength), same, length_map]
  refine ⟨⟨serializedHeader msg, msg.questions, answers, authorities, additional⟩,
    ⟨headerAt, ⟨(toNat_ofNat_length countable.questions).symm,
      lengths countable.answers sameAnswers, lengths countable.authorities sameAuthorities,
      lengths countable.additional sameAdditional⟩,
      _, _, _, questionsAt, answersAt, authoritiesAt, additionalAt⟩,
    rfl, rfl, rfl, sameAnswers, sameAuthorities, sameAdditional⟩

/-- A message that is not too long and whose sections are countable is parsed as it was
serialized. -/
theorem roundTrips {msg : Message} (valid : ValidMessage msg) (countable : Countable msg)
    (small : (toBytes msg).length < 16384) :
    RoundTrips msg := by
  obtain ⟨written, messageAt, same⟩ := messageAt_toBytes valid countable small
  obtain ⟨cursor, parsed, arrives⟩ := messageAt.parse
  exact ⟨cursor, written, parsed, not_not.mp (of_decide_eq_false arrives.fine), same⟩

theorem validLabel_singleton (clean : byte ≠ mdnsDomainSpliter) :
    ValidLabel [byte] :=
  ⟨cons_ne_nil _ _, by rw [length_singleton]; decide, by simpa using clean.symm⟩

theorem validName_ab : ValidName [97, 46, 98] := by
  refine ⟨[[97], [98]], fun label member => ?_, by decide⟩
  simp only [mem_cons, not_mem_nil, or_false] at member
  rcases member with rfl | rfl
  · exact validLabel_singleton (by decide)
  · exact validLabel_singleton (by decide)

theorem validName_b : ValidName [98] :=
  ⟨[[98]], forall_mem_singleton.mpr (validLabel_singleton (by decide)), by decide⟩

/-- A question, and records whose names are compressed. -/
def answer : Message where
  header := { id := 7, flags := 0x8400 }
  questions := [⟨[97, 46, 98], 12, 1⟩]
  answers := [⟨[97, 46, 98], rrtypePtr, 1, 120, 0, .string [98]⟩,
    ⟨[98], rrtypeSrv, 1, 120, 0, .srv ⟨0, 0, 80, [97, 46, 98]⟩⟩]
  additional := [⟨[98], rrtypeTxt, 1, 120, 0, .txt [1, 2]⟩,
    ⟨[97, 46, 98], rrtypeA, 1, 120, 0, .inAddr ⟨[10, 0, 0, 1], rfl⟩⟩]

theorem roundTrips_answer : RoundTrips answer := by
  refine roundTrips ⟨fun question member => ?_, fun rr member => ?_⟩
    ⟨by decide, by decide, by decide, by decide⟩ (by decide +kernel)
  · obtain rfl := mem_singleton.mp member
    exact validName_ab
  · simp only [answer, append_nil, cons_append, nil_append, mem_cons,
      not_mem_nil, or_false] at member
    rcases member with rfl | rfl | rfl | rfl
    · exact ⟨validName_ab, rfl, validName_b⟩
    · exact ⟨validName_b, rfl, validName_ab⟩
    · exact ⟨validName_b, rfl⟩
    · exact ⟨validName_ab, rfl⟩

/-- As many questions as the header cannot count. -/
def uncounted : Message := { questions := List.replicate 65536 ⟨[98], 12, 1⟩ }

theorem toBytes_uncounted : toBytes uncounted = List.replicate 12 0 := by
  have count : uncounted.questions.length = 65536 := length_replicate
  have header : serializedHeader uncounted = {} := by
    rw [serializedHeader, count]
    decide
  unfold toBytes serialize
  rw [header]
  rfl

/-- Questions get lost if there are too many of them. -/
theorem not_roundTrips :
    ¬ ∀ msg : Message, ValidMessage msg → (toBytes msg).length < 16384 → RoundTrips msg := by
  intro always
  obtain ⟨cursor, parsed, is, _, same⟩ := always uncounted
    ⟨fun question member => by rw [eq_of_mem_replicate member]; exact validName_b, nofun⟩
    (by rw [toBytes_uncounted]; decide)
  rw [toBytes_uncounted] at is
  have empty : (fromBytes (List.replicate 12 0)).map (·.2.questions) = some [] := by
    decide +kernel
  rw [is, Option.map_some, same.questions] at empty
  have counted := congrArg List.length (Option.some_inj.mp empty)
  rw [uncounted, length_replicate] at counted
  exact absurd counted (by decide)

end NetManager.Mdns
