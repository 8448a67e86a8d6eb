import NetManager.Mdns.PayloadParser

/-!
# The grammar of packets

Where the parts of a message lie in a packet. A strict packet ends each name with a zero
byte or by a pointer to such a name, and holds all of its records. A lax one may also end
inside of a name, or of a record whose type is not known. The parser accepts the lax
packets.
-/

namespace NetManager.Mdns

open List Wire MDnsPayloadParser Option

/-! ## Flags and numbers -/

theorem getError_or : getError (first ||| second) = getError first ||| getError second :=
  BitVec.and_or_distrib_right

theorem getError_or_ne_zero (bad : getError flag ≠ 0) :
    getError (errorFlags ||| flag) ≠ 0 := by
  rw [getError_or]
  exact fun zero => bad (BitVec.or_eq_zero_iff.mp zero).2

section Numbers

theorem readNUint16_eq_some_iff :
    readNUint16 payload pos = some value ↔ At payload pos (bigEndian 2 value.toNat) := by
  unfold readNUint16
  rw [map_eq_some_iff]
  constructor
  · rintro ⟨number, reads, rfl⟩
    obtain ⟨_, small, lies⟩ := readNumber_eq_some_iff.mp reads
    rw [UInt16.toNat_ofNat_of_lt' small]
    exact lies
  · intro lies
    have inside := lies.length_le (ne_nil_of_length_pos (by simp))
    exact ⟨_, readNumber_eq_some_iff.mpr ⟨inside, value.toNat_lt, lies⟩, UInt16.ofNat_toNat⟩

theorem exists_readNUint16 (inside : pos + 2 ≤ payload.length) :
    ∃ value, readNUint16 payload pos = some value ∧ At payload pos (bigEndian 2 value.toNat) := by
  obtain ⟨number, reads⟩ := exists_readNumber inside
  have is : readNUint16 payload pos = some (.ofNat number) := by
    rw [readNUint16, reads, map_some]
  exact ⟨_, is, readNUint16_eq_some_iff.mp is⟩

theorem readNUint32_eq_some_iff :
    readNUint32 payload pos = some value ↔ At payload pos (bigEndian 4 value.toNat) := by
  unfold readNUint32
  rw [map_eq_some_iff]
  constructor
  · rintro ⟨number, reads, rfl⟩
    obtain ⟨_, small, lies⟩ := readNumber_eq_some_iff.mp reads
    rw [UInt32.toNat_ofNat_of_lt' small]
    exact lies
  · intro lies
    have inside := lies.length_le (ne_nil_of_length_pos (by simp))
    exact ⟨_, readNumber_eq_some_iff.mpr ⟨inside, value.toNat_lt, lies⟩, UInt32.ofNat_toNat⟩

theorem exists_readNUint32 (inside : pos + 4 ≤ payload.length) :
    ∃ value, readNUint32 payload pos = some value ∧ At payload pos (bigEndian 4 value.toNat) := by
  obtain ⟨number, reads⟩ := exists_readNumber inside
  have is : readNUint32 payload pos = some (.ofNat number) := by
    rw [readNUint32, reads, map_some]
  exact ⟨_, is, readNUint32_eq_some_iff.mp is⟩

end Numbers

/-! ## Names -/

/-- The labels from `p` on, with a dot behind each, in a name that starts at `begin`. -/
inductive NameAt (strict : Bool) (payload : Bytes) : Nat → Nat → Bytes → Nat → Prop
  | zero
      {begin p : Nat}
      (here : payload[p]? = some 0) :
      NameAt strict payload begin p [] (p + 1)
  | label
      {begin p next : Nat}
      {byte : UInt8}
      {label dotted : Bytes}
      (here : payload[p]? = some byte)
      (nonzero : byte ≠ 0)
      (short : byte.toNat ≤ mdnsMaxDomainLabel)
      (counted : label.length = byte.toNat)
      (lies : At payload (p + 1) label)
      (rest : NameAt strict payload begin (p + byte.toNat + 1) dotted next) :
      NameAt strict payload begin p (label ++ [mdnsDomainSpliter] ++ dotted) next
  | pointer
      {begin p next : Nat}
      {byte : UInt8}
      {offset : UInt16}
      {dotted : Bytes}
      (here : payload[p]? = some byte)
      (marked : isPointer byte)
      (reads : readNUint16 payload p = some offset)
      (back : target offset < begin)
      (rest : NameAt strict payload (target offset) (target offset) dotted next) :
      NameAt strict payload begin p dotted (p + 2)
  | out
      {begin p : Nat}
      (lax : strict = false)
      (outside : payload.length ≤ p) :
      NameAt strict payload begin p [] p

/-- The name at a position ends with a zero byte inside the packet. -/
def Terminated (payload : Bytes) (start : Nat) : Prop :=
  ∃ dotted next, NameAt true payload start start dotted next

section Names

variable {next : Nat} {dotted : Bytes}

theorem NameAt.of_le (nameAt : NameAt strict payload begin p dotted next) (le : begin ≤ later) :
    NameAt strict payload later p dotted next := by
  induction nameAt with
  | zero here => exact .zero here
  | label here nonzero short counted lies _ ih =>
    exact .label here nonzero short counted lies (ih le)
  | pointer here marked reads back rest =>
    exact .pointer here marked reads (Nat.lt_of_lt_of_le back le) rest
  | out lax outside => exact .out lax outside

theorem NameAt.le_next (nameAt : NameAt strict payload begin p dotted next) : p ≤ next := by
  induction nameAt with
  | zero => exact Nat.le_succ _
  | label _ _ _ _ _ _ ih => omega
  | pointer => exact Nat.le_add_right _ _
  | out => exact Nat.le_refl _

theorem le_of_isPointer (marked : isPointer byte) : 192 ≤ byte.toNat := by
  have masked : (byte &&& 0xc0).toNat = 192 := by
    rw [of_decide_eq_true marked]
    rfl
  rw [UInt8.toNat_and] at masked
  have := @Nat.and_le_left byte.toNat (0xc0 : UInt8).toNat
  omega

theorem NameAt.parse (nameAt : NameAt strict payload begin p dotted next) (ordered : begin ≤ p)
    (fine : getError errorFlags = 0) (str : Bytes) :
    parseDnsString payload begin p str errorFlags = some (next, str ++ dotted, errorFlags) := by
  induction nameAt generalizing str with
  | zero here =>
    have inside := (List.getElem?_eq_some_iff.mp here).1
    rw [parseDnsString, if_pos inside, here]
    simp
  | @label begin p next byte label dotted here nonzero short counted lies _ ih =>
    have inside := (List.getElem?_eq_some_iff.mp here).1
    have positive : 0 < byte.toNat := Nat.pos_of_ne_zero fun zero => nonzero (UInt8.toNat_inj.mp zero)
    have fits := lies.length_le (ne_nil_of_length_pos (by omega))
    have reads : read payload (p + 1) byte.toNat = some label :=
      read_eq_some_iff.mpr ⟨by omega, counted, lies⟩
    rw [parseDnsString, if_pos inside, here]
    dsimp only
    rw [if_neg nonzero, if_pos ⟨short, by omega⟩, reads]
    dsimp only
    rw [ih (by omega)]
    simp
  | @pointer begin p next byte offset dotted here marked reads back rest ih =>
    have inside := (List.getElem?_eq_some_iff.mp here).1
    have large := le_of_isPointer marked
    have fits := (readNUint16_eq_some_iff.mp reads).length_le (by simp [bigEndian])
    have nonzero : byte ≠ 0 := fun zero => absurd large (by rw [zero]; decide)
    rw [length_bigEndian] at fits
    rw [parseDnsString, if_pos inside, here]
    dsimp only
    rw [if_neg nonzero, if_neg (by unfold mdnsMaxDomainLabel; omega), if_pos marked,
      if_neg (by omega), reads]
    dsimp only
    rw [if_neg (by omega), ih (Nat.le_refl _)]
    dsimp only
    rw [if_neg (by simpa using fine)]
  | out _ outside => rw [parseDnsString, if_neg (Nat.not_lt.mpr outside), append_nil]

/-- What is parsed as a name without an error is one, of a lax packet. -/
theorem parseDnsString_spec :
    ∃ next out after, parseDnsString payload begin p str errorFlags = some (next, out, after) ∧
      (getError after = 0 → after = errorFlags ∧
        ∃ dotted, out = str ++ dotted ∧ NameAt false payload begin p dotted next) := by
  have raised : ∀ {flag : ErrorFlags} {goal : Prop}, getError flag ≠ 0 →
      getError (errorFlags ||| flag) = 0 → goal :=
    fun bad zero => absurd zero (getError_or_ne_zero bad)
  fun_induction parseDnsString payload begin p str errorFlags with
  | case1 begin p str inside absent =>
    exact absurd inside (Nat.not_lt.mpr (List.getElem?_eq_none_iff.mp absent))
  | case2 begin p str inside here =>
    exact ⟨_, _, _, rfl, fun _ => ⟨rfl, [], (append_nil _).symm, .zero here⟩⟩
  | case3 begin p str inside byte here nonzero fits unread =>
    obtain ⟨label, reads⟩ : ∃ label, read payload (p + 1) byte.toNat = some label :=
      exists_read (by omega)
    exact absurd (unread.symm.trans reads) (some_ne_none _).symm
  | case4 begin p str inside byte here nonzero fits label reads ih =>
    obtain ⟨next, out, after, is, sound⟩ := ih
    refine ⟨next, out, after, is, fun fine => ?_⟩
    obtain ⟨same, dotted, rfl, rest⟩ := sound fine
    obtain ⟨_, counted, lies⟩ := read_eq_some_iff.mp reads
    exact ⟨same, _, by simp, .label here nonzero fits.1 counted lies rest⟩
  | case5 => exact ⟨_, _, _, rfl, raised (by decide)⟩
  | case6 begin p str inside byte here nonzero _ marked fits unread =>
    obtain ⟨offset, reads, -⟩ : ∃ offset, readNUint16 payload p = some offset ∧ _ :=
      exists_readNUint16 (by omega)
    exact absurd (unread.symm.trans reads) (some_ne_none _).symm
  | case7 => exact ⟨_, _, _, rfl, raised (by decide)⟩
  | case8 begin p str inside byte here nonzero _ marked fits offset reads back failed ih =>
      obtain ⟨next, out, after, is, _⟩ := ih
      exact absurd (failed.symm.trans is) (some_ne_none _).symm
  | case9 begin p str inside byte here nonzero _ marked fits offset reads back _ _ _ _ bad =>
    exact ⟨_, _, _, rfl, fun fine => absurd fine bad⟩
  | case10 begin p str inside byte here nonzero _ marked fits offset reads back _ _ _ is _ ih =>
      obtain ⟨next, out, after, same, sound⟩ := ih
      cases is.symm.trans same
      refine ⟨_, _, _, rfl, fun fine => ?_⟩
      obtain ⟨sameFlags, dotted, rfl, rest⟩ := sound fine
      exact ⟨sameFlags, dotted, rfl, .pointer here marked reads (by omega) rest⟩
  | case11 => exact ⟨_, _, _, rfl, raised (by decide)⟩
  | case12 begin p str outside =>
    exact ⟨_, _, _, rfl, fun _ => ⟨rfl, [], (append_nil _).symm, .out rfl (Nat.not_lt.mp outside)⟩⟩

theorem NameAt.deterministic (nameAt : NameAt strict payload begin p dotted next)
    (ordered : begin ≤ p) (otherAt : NameAt other payload begin p otherDotted otherNext) :
    dotted = otherDotted ∧ next = otherNext := by
  have parsed : parseDnsString payload begin p [] 0 = _ := nameAt.parse ordered (by decide) []
  rw [otherAt.parse ordered (by decide) []] at parsed
  cases parsed
  exact ⟨rfl, rfl⟩

end Names

/-! ## Parts of a message -/

section Parts

variable (strict : Bool) (payload : Bytes)

/-- A question. -/
def QuestionAt (start : Nat) (question : Question) (next : Nat) : Prop :=
  ∃ dotted mid, NameAt strict payload start start dotted mid ∧ question.name = unDotted dotted ∧
    At payload mid (bigEndian 2 question.qtype.toNat ++ bigEndian 2 question.qclass.toNat) ∧
    next = mid + 4

/-- The data of a record, of a type and a length. -/
inductive RDataAt : Nat → UInt16 → UInt16 → RData → Nat → Prop
  | inAddr
      {start : Nat}
      {addr : Raw 4}
      (lies : At payload start addr.1) :
      RDataAt start rrtypeA 4 (.inAddr addr) (start + 4)
  | in6Addr
      {start : Nat}
      {addr : Raw 16}
      (lies : At payload start addr.1) :
      RDataAt start rrtypeAaaa 16 (.in6Addr addr) (start + 16)
  | string
      {start next : Nat}
      {length : UInt16}
      {dotted : Bytes}
      (nameAt : NameAt strict payload start start dotted next) :
      RDataAt start rrtypePtr length (.string (unDotted dotted)) next
  | srv
      {start next : Nat}
      {length priority weight port : UInt16}
      {dotted : Bytes}
      (lies : At payload start (bigEndian 2 priority.toNat ++ bigEndian 2 weight.toNat ++
        bigEndian 2 port.toNat))
      (nameAt : NameAt strict payload (start + 6) (start + 6) dotted next) :
      RDataAt start rrtypeSrv length (.srv ⟨priority, weight, port, unDotted dotted⟩) next
  | txt
      {start : Nat}
      {length : UInt16}
      {bytes : Bytes}
      (inside : start + length.toNat ≤ payload.length)
      (counted : bytes.length = length.toNat)
      (lies : At payload start bytes) :
      RDataAt start rrtypeTxt length (.txt bytes) (start + length.toNat)
  | unknown
      {start : Nat}
      {type length : UInt16}
      (other : type ∉ [rrtypeA, rrtypeAaaa, rrtypePtr, rrtypeSrv, rrtypeTxt])
      (inside : strict → start + length.toNat ≤ payload.length) :
      RDataAt start type length .empty (start + length.toNat)

/-- A record. -/
def RRAt (start : Nat) (rr : ResourceRecord) (next : Nat) : Prop :=
  ∃ dotted mid, NameAt strict payload start start dotted mid ∧ rr.name = unDotted dotted ∧
    At payload mid (bigEndian 2 rr.rtype.toNat ++ bigEndian 2 rr.rclass.toNat ++
      bigEndian 4 rr.ttl.toNat ++ bigEndian 2 rr.length.toNat) ∧
    RDataAt strict payload (mid + 10) rr.rtype rr.length rr.rdata next

/-- A header, which a packet starts with. -/
def HeaderAt (header : Header) : Prop :=
  At payload 0 (bigEndian 2 header.id.toNat ++ bigEndian 2 header.flags.toNat ++
    bigEndian 2 header.qdcount.toNat ++ bigEndian 2 header.ancount.toNat ++
    bigEndian 2 header.nscount.toNat ++ bigEndian 2 header.arcount.toNat)

/-- The lists of a message are as long as its header says. -/
structure Counted (message : Message) : Prop where
  questions : message.questions.length = message.header.qdcount.toNat
  answers : message.answers.length = message.header.ancount.toNat
  authorities : message.authorities.length = message.header.nscount.toNat
  additional : message.additional.length = message.header.arcount.toNat

/-- A message up to a position. -/
structure MessageAt (message : Message) (stop : Nat) : Prop where
  header : HeaderAt payload message.header
  counted : Counted message
  sections : ∃ answers authorities additional,
    Items (QuestionAt strict payload) 12 message.questions answers ∧
    Items (RRAt strict payload) answers message.answers authorities ∧
    Items (RRAt strict payload) authorities message.authorities additional ∧
    Items (RRAt strict payload) additional message.additional stop

end Parts

end NetManager.Mdns
