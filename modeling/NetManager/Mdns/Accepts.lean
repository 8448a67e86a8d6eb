import NetManager.Mdns.Grammar

/-!
# What the parser accepts

The parser reads inside the packet only. It reports no error exactly for the lax packets,
and then gives their message. If all names that it came across are terminated and it ends
inside the packet, then the packet is strict.
-/

namespace NetManager.Mdns

open List Wire MDnsPayloadParser Option

/-! ## Cursors -/

variable (payload : Bytes)

/-- The names that were parsed are terminated. -/
def AllTerminated (cursor : Cursor) : Prop := ∀ start ∈ cursor.names, Terminated payload start

/-- From one cursor to the next lies a part of a lax packet, and of a strict one if the
next cursor is inside and its names are terminated. -/
structure Passed (payload : Bytes) (cursor after : Cursor)
    (part : Bool → Prop) : Prop where
  lax : part false
  le : cursor.begin ≤ after.begin
  names : AllTerminated payload after → AllTerminated payload cursor
  strict : AllTerminated payload after → after.begin ≤ payload.length → part true

/-- The parser comes to a position without an error. -/
structure Arrives (payload : Bytes) (strict : Bool) (cursor after : Cursor)
    (next : Nat) : Prop where
  fine : after.failed = false
  begin_eq : after.begin = next
  names : strict → AllTerminated payload cursor → AllTerminated payload after

/-- The parser ends, with something good if there is no error. -/
def Parses {β : Type} (parsed : Option (Cursor × β)) (good : Cursor → β → Prop) : Prop :=
  ∃ after found, parsed = some (after, found) ∧ (after.failed = false → good after found)

/-- The parser of an item arrives behind it. -/
def ParsesItem {β : Type} (strict : Bool) (parse : Cursor → List β → Option (Cursor × List β))
    (isAt : Nat → β → Nat → Prop) : Prop :=
  ∀ (cursor : Cursor) item next, isAt cursor.begin item next → cursor.failed = false →
    ∀ items, ∃ after, parse cursor items = some (after, items ++ [item]) ∧
      Arrives payload strict cursor after next

/-- The parser passes the data of a record. -/
def ParsesData (cursor : Cursor) (type length : UInt16) (parsed : Option (Cursor × RData)) : Prop :=
  Parses parsed fun after rdata => Passed payload cursor after fun strict =>
    RDataAt strict payload cursor.begin type length rdata after.begin

section Cursors

variable {payload : Bytes} {cursor mid after : Cursor} {part other : Bool → Prop}

theorem Passed.of_forall (holds : ∀ strict, part strict) (count : Nat) :
    Passed payload cursor (cursor.advance count) part :=
  ⟨holds _, Nat.le_add_right _ _, id, fun _ _ => holds _⟩

theorem Passed.trans (first : Passed payload cursor mid part)
    (second : Passed payload mid after other) :
    Passed payload cursor after fun strict => part strict ∧ other strict where
  lax := ⟨first.lax, second.lax⟩
  le := Nat.le_trans first.le second.le
  names terminated := first.names (second.names terminated)
  strict terminated inside :=
    ⟨first.strict (second.names terminated) (Nat.le_trans second.le inside),
      second.strict terminated inside⟩

theorem Passed.imp (passed : Passed payload cursor after part)
    (imp : ∀ strict, part strict → other strict) :
    Passed payload cursor after other where
  lax := imp _ passed.lax
  le := passed.le
  names := passed.names
  strict terminated inside := imp _ (passed.strict terminated inside)

theorem Passed.advance (passed : Passed payload cursor after part) (count : Nat) :
    Passed payload cursor (after.advance count) part where
  lax := passed.lax
  le := Nat.le_trans passed.le (Nat.le_add_right _ _)
  names := passed.names
  strict terminated inside := passed.strict terminated (Nat.le_trans (Nat.le_add_right _ _) inside)

section Parses

variable {β : Type} {good : Cursor → β → Prop}

theorem parses_bind {α : Type} {first : Option α} {next : α → Option (Cursor × β)}
    {fact : α → Prop} (reads : ∃ read, first = some read ∧ fact read)
    (rest : ∀ read, fact read → Parses (next read) good) :
    Parses (first >>= next) good := by
  obtain ⟨read, rfl, holds⟩ := reads
  exact rest read holds

theorem Parses.bind {γ : Type} {first : Option (Cursor × γ)}
    {next : Cursor × γ → Option (Cursor × β)} {goodFirst : Cursor → γ → Prop}
    (parses : Parses first goodFirst)
    (rest : ∀ after found, (after.failed = false → goodFirst after found) →
      Parses (next (after, found)) good) :
    Parses (first >>= next) good := by
  obtain ⟨after, found, rfl, sound⟩ := parses
  exact rest after found sound

theorem parses_ite_failed (next : cursor.failed = false → Parses rest good) :
    Parses (if cursor.failed then some (cursor, value) else rest) good := by
  split
  next failed => exact ⟨_, _, rfl, fun fine => absurd failed (Bool.eq_false_iff.mp fine)⟩
  next fine => exact next (Bool.eq_false_iff.mpr fine)

theorem parses_ite_badSize [Decidable bad] (next : ¬ bad → Parses rest good) :
    Parses (if bad then some (cursor.raise parseErrorBadSize, value) else rest) good := by
  split
  · exact ⟨_, _, rfl, fun fine => absurd
      (getError_or_ne_zero (by decide)) (of_decide_eq_false fine)⟩
  next fits => exact next fits

end Parses

theorem Arrives.advance (fine : cursor.failed = false) (count : Nat) :
    Arrives payload strict cursor (cursor.advance count) (cursor.begin + count) :=
  ⟨fine, rfl, fun _ => id⟩

theorem failed_raise_warning : (cursor.raise parseWarningBadRrtype).failed = cursor.failed := by
  have same : getError (cursor.errorFlags ||| parseWarningBadRrtype) =
      getError cursor.errorFlags := by
    rw [getError_or]
    exact BitVec.or_zero
  unfold Cursor.failed Cursor.raise
  rw [same]

/-! ## Names -/

theorem parseName_passed :
    ∃ parsed, parseName payload cursor = some parsed ∧
      (parsed.2.failed = false → ∃ dotted, parsed.1 = unDotted dotted ∧
        Passed payload cursor parsed.2 fun strict =>
          NameAt strict payload cursor.begin cursor.begin dotted parsed.2.begin) := by
  obtain ⟨next, out, errorFlags, is, sound⟩ :=
    parseDnsString_spec
  unfold parseName
  rw [is]
  refine ⟨_, rfl, fun fine => ?_⟩
  obtain ⟨_, dotted, outIs, nameAt⟩ := sound (by simpa [Cursor.failed] using fine)
  refine ⟨dotted, by rw [outIs, nil_append], nameAt, nameAt.le_next, ?_, ?_⟩
  · exact fun terminated start member => terminated start (mem_cons_of_mem _ member)
  · intro terminated _
    obtain ⟨otherDotted, otherNext, otherAt⟩ := terminated cursor.begin mem_cons_self
    obtain ⟨rfl, rfl⟩ := nameAt.deterministic (Nat.le_refl _) otherAt
    exact otherAt

variable {strict : Bool} {next : Nat}

theorem NameAt.parseName (cursor : Cursor)
    (nameAt : NameAt strict payload cursor.begin cursor.begin dotted next)
    (fine : cursor.failed = false) :
    ∃ after, parseName payload cursor = some (unDotted dotted, after) ∧
      Arrives payload strict cursor after next := by
  have parsed := nameAt.parse (Nat.le_refl _) (of_decide_eq_false fine |> not_not.mp) []
  unfold MDnsPayloadParser.parseName
  rw [parsed]
  refine ⟨_, rfl, fine, rfl, ?_⟩
  rintro rfl terminated
  exact forall_mem_cons.mpr ⟨⟨dotted, next, nameAt⟩, terminated⟩

/-! ## Questions -/

theorem parseQuestion_passed (cursor : Cursor) (questions : List Question) :
    Parses (parseQuestion payload cursor questions) fun after items =>
      ∃ question, items = questions ++ [question] ∧ Passed payload cursor after fun strict =>
        QuestionAt strict payload cursor.begin question after.begin := by
  refine parses_bind parseName_passed fun ⟨name, mid⟩ sound =>
    parses_ite_failed fun fine => parses_ite_badSize fun inside => ?_
  obtain ⟨dotted, rfl, passed⟩ := sound fine
  refine parses_bind (exists_readNUint16 (by omega)) fun qtype isType =>
    parses_bind (exists_readNUint16 (by omega)) fun qclass isClass =>
      ⟨_, _, rfl, fun _ => ⟨_, rfl, ?_⟩⟩
  refine (passed.advance 4).imp fun strict nameAt => ⟨dotted, _, nameAt, rfl, ?_, rfl⟩
  rw [at_append_iff]
  exact ⟨isType, isClass⟩

theorem parsesItem_parseQuestion :
    ParsesItem payload strict (parseQuestion payload) (QuestionAt strict payload) := by
  rintro cursor question _ ⟨dotted, mid, nameAt, sameName, lies, rfl⟩ fine questions
  obtain ⟨after, named, arrives⟩ := nameAt.parseName _ fine
  have inside := lies.length_le (ne_nil_of_length_pos (by simp))
  rw [at_append_iff, length_bigEndian, ← readNUint16_eq_some_iff, ← readNUint16_eq_some_iff] at lies
  rw [length_append, length_bigEndian, length_bigEndian] at inside
  unfold parseQuestion
  obtain ⟨name, qtype, qclass⟩ := question
  obtain rfl := sameName
  obtain ⟨afterFine, rfl, names⟩ := arrives
  rw [named, bind_eq_bind, bind_some]
  dsimp only at lies ⊢
  rw [if_neg (by simp [afterFine]), if_neg (by omega), lies.1, lies.2]
  exact ⟨_, rfl, afterFine, rfl, names⟩

/-! ## Data of records -/

variable {pos count : Nat}

theorem readRaw_eq_some_iff :
    readRaw payload pos count = some raw ↔ read payload pos count = some raw.1 := by
  unfold readRaw
  split
  next is => simp [is]
  next bytes is =>
    constructor
    · rintro ⟨⟩
      exact is
    · intro same
      cases is.symm.trans same
      rfl

theorem exists_readRaw (inside : pos + count ≤ payload.length) :
    ∃ raw, readRaw payload pos count = some raw ∧ At payload pos raw.1 := by
  obtain ⟨bytes, reads⟩ := exists_read inside
  obtain ⟨_, counted, lies⟩ := read_eq_some_iff.mp reads
  exact ⟨⟨bytes, counted⟩, readRaw_eq_some_iff.mpr reads, lies⟩

theorem readRaw_of_at (lies : At payload pos raw.1) (positive : 0 < count) :
    pos + count ≤ payload.length ∧ readRaw payload pos count = some raw := by
  have inside := lies.length_le (ne_nil_of_length_pos (positive.trans_eq raw.2.symm))
  rw [raw.2] at inside
  exact ⟨inside, readRaw_eq_some_iff.mpr (read_eq_some_iff.mpr ⟨inside, raw.2, lies⟩)⟩

theorem parseInAddr_passed (inside : cursor.begin ≤ payload.length) (length : UInt16) :
    ParsesData payload cursor rrtypeA length (parseInAddr payload cursor length) := by
  refine parses_ite_badSize fun good => ?_
  obtain ⟨fits, rfl⟩ : cursor.begin + 4 ≤ payload.length ∧ length = 4 := by
    rw [not_or, not_not] at good
    exact ⟨by omega, good.2⟩
  refine parses_bind (exists_readRaw fits) fun raw lies => ⟨_, _, rfl, fun _ => ?_⟩
  exact .of_forall (fun _ => .inAddr lies) 4

section

variable (payload : Bytes) (cursor : Cursor) (length : UInt16)

theorem parseIn6Addr_passed :
    ParsesData payload cursor rrtypeAaaa length (parseIn6Addr payload cursor length) := by
  refine parses_ite_badSize fun good => ?_
  obtain ⟨fits, rfl⟩ : cursor.begin + 16 ≤ payload.length ∧ length = 16 := by
    rw [not_or, not_not] at good
    exact ⟨by omega, good.2⟩
  refine parses_bind (exists_readRaw fits) fun raw lies => ⟨_, _, rfl, fun _ => ?_⟩
  exact .of_forall (fun _ => .in6Addr lies) 16

theorem parsePtr_passed : ParsesData payload cursor rrtypePtr length (parsePtr payload cursor) := by
  refine parses_bind parseName_passed fun ⟨name, mid⟩ sound =>
    parses_ite_failed fun fine => ?_
  obtain ⟨dotted, rfl, passed⟩ := sound fine
  exact ⟨_, _, rfl, fun _ => passed.imp fun _ nameAt => .string nameAt⟩

theorem parseSrv_passed : ParsesData payload cursor rrtypeSrv length (parseSrv payload cursor) := by
  refine parses_ite_badSize fun fits =>
    parses_bind (exists_readNUint16 (by omega)) fun priority isPriority =>
      parses_bind (exists_readNUint16 (by omega)) fun weight isWeight =>
        parses_bind (exists_readNUint16 (by omega)) fun port isPort =>
          parses_bind parseName_passed fun ⟨name, mid⟩ sound =>
            parses_ite_failed fun fine => ?_
  obtain ⟨dotted, rfl, passed⟩ := sound fine
  refine ⟨_, _, rfl, fun _ => ?_⟩
  have skipped : Passed payload cursor (cursor.advance 6) fun _ => True :=
    .of_forall (fun _ => trivial) 6
  refine (skipped.trans passed).imp fun _ parts => .srv ?_ parts.2
  simp only [at_append_iff, length_append, length_bigEndian]
  exact ⟨⟨isPriority, isWeight⟩, isPort⟩

theorem parseTxt_passed :
    ParsesData payload cursor rrtypeTxt length (parseTxt payload cursor length) := by
  refine parses_ite_badSize fun fits => ?_
  obtain ⟨bytes, reads⟩ := exists_read (Nat.not_lt.mp fits)
  obtain ⟨inside, counted, lies⟩ := read_eq_some_iff.mp reads
  rw [reads]
  exact ⟨_, _, rfl, fun _ => .of_forall (fun _ => .txt inside counted lies) _⟩

end

theorem parseRData_passed (inside : cursor.begin ≤ payload.length)
    (type length : UInt16) :
    ParsesData payload cursor type length (parseRData payload cursor type length) := by
  unfold parseRData
  split_ifs with isA isAaaa isPtr isSrv isTxt
  · exact isA ▸ parseInAddr_passed inside length
  · exact isAaaa ▸ parseIn6Addr_passed payload cursor length
  · exact isPtr ▸ parsePtr_passed payload cursor length
  · exact isSrv ▸ parseSrv_passed payload cursor length
  · exact isTxt ▸ parseTxt_passed payload cursor length
  · have other : type ∉ [rrtypeA, rrtypeAaaa, rrtypePtr, rrtypeSrv, rrtypeTxt] := by
      simp only [mem_cons, not_mem_nil, not_or]
      exact ⟨isA, isAaaa, isPtr, isSrv, isTxt, not_false⟩
    refine ⟨_, _, rfl, fun _ => ⟨?_, Nat.le_add_right _ _, id, ?_⟩⟩
    · exact .unknown other fun strict => absurd strict Bool.false_ne_true
    · exact fun _ fits => .unknown other fun _ => fits

theorem RDataAt.parse (cursor : Cursor) {type length : UInt16}
    (rdataAt : RDataAt strict payload cursor.begin type length rdata next)
    (fine : cursor.failed = false) :
    ∃ after, parseRData payload cursor type length = some (after, rdata) ∧
      Arrives payload strict cursor after next := by
  generalize startIs : cursor.begin = start at rdataAt
  unfold parseRData
  cases rdataAt <;> obtain rfl := startIs
  case inAddr lies =>
    obtain ⟨inside, reads⟩ := readRaw_of_at lies (by decide)
    rw [parseInAddr, if_neg (not_or.mpr ⟨by omega, fun different => different rfl⟩), reads]
    exact ⟨_, rfl, .advance fine 4⟩
  case in6Addr lies =>
    obtain ⟨inside, reads⟩ := readRaw_of_at lies (by decide)
    rw [parseIn6Addr, if_neg (not_or.mpr ⟨by omega, fun different => different rfl⟩), reads]
    exact ⟨_, rfl, .advance fine 16⟩
  case string nameAt =>
    obtain ⟨after, named, arrives⟩ := nameAt.parseName _ fine
    rw [parsePtr, named, bind_eq_bind, bind_some]
    dsimp only
    rw [if_neg (Bool.eq_false_iff.mp arrives.fine)]
    exact ⟨after, rfl, arrives⟩
  case srv lies nameAt =>
    obtain ⟨after, named, arrives⟩ := nameAt.parseName (cursor.advance 6) fine
    have inside := lies.length_le (ne_nil_of_length_pos (by simp))
    simp only [at_append_iff, length_append, length_bigEndian, ← readNUint16_eq_some_iff] at lies
    simp only [length_append, length_bigEndian] at inside
    rw [if_neg (by decide), if_neg (by decide), if_neg (by decide), if_pos rfl, parseSrv,
      if_neg (by omega), lies.1.1, lies.1.2, lies.2]
    simp only [bind_eq_bind, bind_some, named]
    rw [if_neg (Bool.eq_false_iff.mp arrives.fine)]
    exact ⟨after, rfl, arrives.fine, arrives.begin_eq, arrives.names⟩
  case txt counted lies inside =>
    rw [parseTxt, if_neg (Nat.not_lt.mpr inside), read_eq_some_iff.mpr ⟨inside, counted, lies⟩]
    exact ⟨_, rfl, .advance fine _⟩
  case unknown other inside =>
    simp only [mem_cons, not_mem_nil, not_or] at other
    obtain ⟨notA, notAaaa, notPtr, notSrv, notTxt, _⟩ := other
    rw [if_neg notA, if_neg notAaaa, if_neg notPtr, if_neg notSrv, if_neg notTxt]
    exact ⟨_, rfl, failed_raise_warning.trans fine, rfl, fun _ => id⟩

/-! ## Records -/

theorem parseRR_passed (cursor : Cursor) (answers : List ResourceRecord) :
    Parses (parseRR payload cursor answers) fun after items =>
      ∃ rr, items = answers ++ [rr] ∧ Passed payload cursor after fun strict =>
        RRAt strict payload cursor.begin rr after.begin := by
  refine parses_bind parseName_passed fun ⟨name, mid⟩ sound =>
    parses_ite_failed fun fine => parses_ite_badSize fun inside => ?_
  obtain ⟨dotted, rfl, passed⟩ := sound fine
  refine parses_bind (exists_readNUint16 (by omega)) fun rtype isType =>
    parses_bind (exists_readNUint16 (by omega)) fun rclass isClass =>
      parses_bind (exists_readNUint32 (by omega)) fun ttl isTtl =>
        parses_bind (exists_readNUint16 (by omega)) fun length isLength =>
          (parseRData_passed (Nat.not_lt.mp inside) rtype length).bind
            fun after rdata soundData => ⟨_, _, rfl, fun afterFine => ⟨_, rfl, ?_⟩⟩
  refine ((passed.advance 10).trans (soundData afterFine)).imp
    fun strict parts => ⟨dotted, _, parts.1, rfl, ?_, parts.2⟩
  simp only [at_append_iff, length_append, length_bigEndian]
  exact ⟨⟨⟨isType, isClass⟩, isTtl⟩, isLength⟩

theorem parsesItem_parseRR : ParsesItem payload strict (parseRR payload) (RRAt strict payload) := by
  rintro cursor rr _ ⟨dotted, mid, nameAt, sameName, lies, rdataAt⟩ fine answers
  obtain ⟨afterName, named, nameFine, rfl, names⟩ := nameAt.parseName _ fine
  obtain ⟨after, parsed, afterFine, rfl, dataNames⟩ := rdataAt.parse (afterName.advance 10) nameFine
  have inside := lies.length_le (ne_nil_of_length_pos (by simp))
  simp only [at_append_iff, length_append, length_bigEndian, ← readNUint16_eq_some_iff,
    ← readNUint32_eq_some_iff] at lies
  simp only [length_append, length_bigEndian] at inside
  unfold parseRR
  obtain ⟨name, rtype, rclass, ttl, length, rdata⟩ := rr
  obtain rfl := sameName
  rw [named, bind_eq_bind, bind_some]
  dsimp only at lies parsed ⊢
  rw [if_neg (Bool.eq_false_iff.mp nameFine), if_neg (by omega), lies.1.1.1, lies.1.1.2,
    lies.1.2, lies.2]
  simp only [bind_eq_bind, bind_some, parsed]
  exact ⟨_, rfl, afterFine, rfl, fun strict before => dataNames strict (names strict before)⟩

/-! ## Sections -/

section Loop

variable
    {β : Type}
    {parse : Cursor → List β → Option (Cursor × List β)}
    {itemAt : Bool → Nat → β → Nat → Prop}

theorem parseLoop_passed (each : ∀ cursor items, Parses (parse cursor items) fun after found =>
      ∃ item, found = items ++ [item] ∧
        Passed payload cursor after fun strict => itemAt strict cursor.begin item after.begin)
    (cursor : Cursor) (items : List β) :
    Parses (parseLoop parse count cursor items) fun after found =>
      ∃ added, found = items ++ added ∧ added.length = count ∧
        Passed payload cursor after fun strict =>
          Items (itemAt strict) cursor.begin added after.begin := by
  induction count generalizing cursor items with
  | zero =>
    refine ⟨_, _, rfl, fun _ => ⟨[], (append_nil _).symm, rfl, ?_⟩⟩
    exact .of_forall (fun _ => .nil _) 0
  | succ count ih =>
    refine (each cursor items).bind fun mid found passed => parses_ite_failed fun fine => ?_
    obtain ⟨item, rfl, first⟩ := passed fine
    obtain ⟨after, all, looped, rest⟩ := ih mid (items ++ [item])
    refine ⟨after, all, looped, fun afterFine => ?_⟩
    obtain ⟨added, rfl, counted, later⟩ := rest afterFine
    refine ⟨item :: added, by simp, by rw [length_cons, counted], ?_⟩
    exact (first.trans later).imp fun _ parts => .cons parts.1 parts.2

theorem parseLoop_items (each : ParsesItem payload strict parse isAt)
    (there : Items isAt start added next) (atStart : cursor.begin = start)
    (fine : cursor.failed = false) (items : List β) :
    ∃ after, parseLoop parse added.length cursor items = some (after, items ++ added) ∧
      Arrives payload strict cursor after next := by
  induction there generalizing cursor items with
  | nil => exact ⟨cursor, by rw [append_nil]; rfl, fine, atStart, fun _ => id⟩
  | @cons start mid stop item added first _ ih =>
    obtain ⟨afterFirst, parsed, firstFine, begins, firstNames⟩ :=
      each cursor item mid (atStart ▸ first) fine items
    obtain ⟨after, looped, afterFine, ends, names⟩ := ih begins firstFine (items ++ [item])
    rw [length_cons, parseLoop, parsed, bind_eq_bind, bind_some]
    dsimp only
    rw [if_neg (Bool.eq_false_iff.mp firstFine), looped]
    exact ⟨after, by simp, afterFine, ends, fun is before => names is (firstNames is before)⟩

end Loop

/-! ## Messages -/

theorem parseHeader_passed : Parses (parseHeader payload {}) fun after header =>
      after = ({} : Cursor).advance 12 ∧ HeaderAt payload header := by
  refine parses_ite_badSize fun inside =>
    parses_bind (exists_readNUint16 (by omega)) fun id isId =>
      parses_bind (exists_readNUint16 (by omega)) fun flags isFlags =>
        parses_bind (exists_readNUint16 (by omega)) fun qdcount isQdcount =>
          parses_bind (exists_readNUint16 (by omega)) fun ancount isAncount =>
            parses_bind (exists_readNUint16 (by omega)) fun nscount isNscount =>
              parses_bind (exists_readNUint16 (by omega)) fun arcount isArcount =>
                ⟨_, _, rfl, fun _ => ⟨rfl, ?_⟩⟩
  simp only [HeaderAt, at_append_iff, length_append, length_bigEndian]
  exact ⟨⟨⟨⟨⟨isId, isFlags⟩, isQdcount⟩, isAncount⟩, isNscount⟩, isArcount⟩

theorem HeaderAt.parse (headerAt : HeaderAt payload header) :
    parseHeader payload {} = some (({} : Cursor).advance 12, header) := by
  have inside := At.length_le headerAt (ne_nil_of_length_pos (by simp))
  simp only [length_append, length_bigEndian] at inside
  simp only [HeaderAt, at_append_iff, length_append, length_bigEndian,
    ← readNUint16_eq_some_iff, Nat.zero_add] at headerAt
  obtain ⟨⟨⟨⟨⟨readsId, readsFlags⟩, readsQdcount⟩, readsAncount⟩, readsNscount⟩, readsArcount⟩ :=
    headerAt
  unfold parseHeader
  rw [if_neg (Nat.not_lt.mpr inside)]
  simp only [Nat.zero_add, readsId, readsFlags, readsQdcount, readsAncount, readsNscount,
    readsArcount, bind_eq_bind, bind_some]
  rfl

/-- The parser reads inside of the packet, and what it accepts is a message. -/
theorem fromBytes_passed : Parses (fromBytes payload) fun cursor message =>
      Passed payload {} cursor fun strict => MessageAt strict payload message cursor.begin := by
  refine parseHeader_passed.bind fun _ header sound => parses_ite_failed fun fine => ?_
  obtain ⟨rfl, headerAt⟩ := sound fine
  refine (parseLoop_passed parseQuestion_passed _ []).bind fun _ _ sound =>
    parses_ite_failed fun fine => ?_
  obtain ⟨_, rfl, countedQuestions, passedQuestions⟩ := sound fine
  refine (parseLoop_passed parseRR_passed _ []).bind fun _ _ sound =>
    parses_ite_failed fun fine => ?_
  obtain ⟨_, rfl, countedAnswers, passedAnswers⟩ := sound fine
  refine (parseLoop_passed parseRR_passed _ []).bind fun _ _ sound =>
    parses_ite_failed fun fine => ?_
  obtain ⟨_, rfl, countedAuthorities, passedAuthorities⟩ := sound fine
  refine (parseLoop_passed parseRR_passed _ []).bind fun _ _ sound =>
    ⟨_, _, rfl, fun fine => ?_⟩
  obtain ⟨_, rfl, countedAdditional, passedAdditional⟩ := sound fine
  have start : Passed payload {} (({} : Cursor).advance 12) fun _ => True :=
    .of_forall (fun _ => trivial) 12
  refine ((((start.trans passedQuestions).trans passedAnswers).trans passedAuthorities).trans
    passedAdditional).imp fun strict parts => ?_
  obtain ⟨⟨⟨⟨_, questionsAt⟩, answersAt⟩, authoritiesAt⟩, additionalAt⟩ := parts
  exact ⟨headerAt, ⟨countedQuestions, countedAnswers, countedAuthorities, countedAdditional⟩,
    _, _, _, questionsAt, answersAt, authoritiesAt, additionalAt⟩

theorem MessageAt.parse (messageAt : MessageAt strict payload message stop) :
    ∃ cursor, fromBytes payload = some (cursor, message) ∧
      Arrives payload strict {} cursor stop := by
  obtain ⟨headerAt, ⟨countedQuestions, countedAnswers, countedAuthorities, countedAdditional⟩,
    _, _, _, questionsAt, answersAt, authoritiesAt, additionalAt⟩ := messageAt
  have started : (({} : Cursor).advance 12).failed = false := rfl
  obtain ⟨second, parsedQuestions, questionsFine, atAnswers, questionNames⟩ :=
    parseLoop_items parsesItem_parseQuestion questionsAt rfl started []
  obtain ⟨third, parsedAnswers, answersFine, atAuthorities, answerNames⟩ :=
    parseLoop_items parsesItem_parseRR answersAt atAnswers questionsFine []
  obtain ⟨fourth, parsedAuthorities, authoritiesFine, atAdditional, authorityNames⟩ :=
    parseLoop_items parsesItem_parseRR authoritiesAt atAuthorities answersFine []
  obtain ⟨last, parsedAdditional, additionalFine, atStop, additionalNames⟩ :=
    parseLoop_items parsesItem_parseRR additionalAt atAdditional authoritiesFine []
  rw [countedQuestions] at parsedQuestions
  rw [countedAnswers] at parsedAnswers
  rw [countedAuthorities] at parsedAuthorities
  rw [countedAdditional] at parsedAdditional
  unfold fromBytes MDnsPayloadParser.parse
  simp only [headerAt.parse, bind_eq_bind, bind_some, started, parsedQuestions,
    questionsFine, parsedAnswers, answersFine, parsedAuthorities, authoritiesFine,
    parsedAdditional, nil_append, Bool.false_eq_true, if_false]
  exact ⟨last, rfl, additionalFine, atStop, fun is before =>
    additionalNames is (authorityNames is (answerNames is (questionNames is before)))⟩

end Cursors

/-! ## Safety -/

/-- A packet that the grammar allows, which may end inside of a name or of a record whose
type is not known. -/
def Lax : Prop := ∃ message stop, MessageAt false payload message stop

/-- A packet whose names are terminated and which holds all of its records. -/
def Strict : Prop := ∃ message, ∃ stop ≤ payload.length, MessageAt true payload message stop

/-- The parser ends and reads inside of the packet. If it reports no error, then it stops
inside, the names that it accepted are terminated and the sections are as long as the
header says. -/
def Safe : Prop :=
  ∃ cursor message, fromBytes payload = some (cursor, message) ∧
    (getError cursor.errorFlags = 0 →
      cursor.begin ≤ payload.length ∧ AllTerminated payload cursor ∧ Counted message)

theorem fine_iff (cursor : Cursor) : cursor.failed = false ↔ getError cursor.errorFlags = 0 := by
  rw [Cursor.failed, decide_eq_false_iff_not, not_not]

/-- The parser is safe unless the packet is lax only. -/
theorem safe_iff (payload : Bytes) : Safe payload ↔ (Lax payload → Strict payload) := by
  obtain ⟨cursor, message, is, sound⟩ := fromBytes_passed
  constructor
  · rintro ⟨other, otherMessage, otherIs, safe⟩ ⟨laxMessage, stop, messageAt⟩
    obtain ⟨arrived, arrivedIs, arrives⟩ := messageAt.parse
    cases otherIs.symm.trans arrivedIs
    cases is.symm.trans arrivedIs
    obtain ⟨inside, terminated, _⟩ := safe ((fine_iff _).mp arrives.fine)
    exact ⟨_, _, inside, (sound arrives.fine).strict terminated inside⟩
  · intro strict
    refine ⟨cursor, message, is, fun fine => ?_⟩
    have passed := sound ((fine_iff cursor).mpr fine)
    obtain ⟨strictMessage, stop, inside, messageAt⟩ := strict ⟨message, _, passed.lax⟩
    obtain ⟨arrived, arrivedIs, _, rfl, names⟩ := messageAt.parse
    cases is.symm.trans arrivedIs
    exact ⟨inside, names rfl nofun, messageAt.counted⟩

/-- What is accepted, and where the parser stops, is what the grammar says. -/
theorem accepts_iff (payload : Bytes) (message : Message) (stop : Nat) :
    (∃ cursor, fromBytes payload = some (cursor, message) ∧
      getError cursor.errorFlags = 0 ∧ cursor.begin = stop) ↔
        MessageAt false payload message stop := by
  constructor
  · rintro ⟨cursor, is, fine, rfl⟩
    obtain ⟨_, _, isParsed, sound⟩ := fromBytes_passed
    cases is.symm.trans isParsed
    exact (sound ((fine_iff cursor).mpr fine)).lax
  · intro messageAt
    obtain ⟨cursor, is, arrives⟩ := messageAt.parse
    exact ⟨cursor, is, (fine_iff cursor).mp arrives.fine, arrives.begin_eq⟩

/-- One answer without a name, of a type that is not known, with a byte of data that is
not there. -/
def overrun : Bytes := [0, 0, 0x84, 0, 0, 0, 0, 1, 0, 0, 0, 0] ++ [0, 0, 99, 0, 1, 0, 0, 0, 0, 0, 1]

/-- One answer with a name that ends with the packet. -/
def unterminated : Bytes :=
  [0, 0, 0x84, 0, 0, 0, 0, 1, 0, 0, 0, 0] ++ [0, 0, 12, 0, 1, 0, 0, 0, 0, 0, 2, 1, 97]

theorem not_terminated : ¬ Terminated unterminated 23 := by
  rintro ⟨dotted, next, nameAt⟩
  cases nameAt with
  | zero here => exact absurd here (by decide)
  | label here _ _ _ _ rest =>
    obtain rfl := some_inj.mp ((show unterminated[23]? = some 1 from rfl).symm.trans here)
    cases rest with
    | zero here => exact absurd here (by decide)
    | label here => exact absurd here (by simp [unterminated])
    | pointer here => exact absurd here (by simp [unterminated])
    | out lax => exact absurd lax (by decide)
  | pointer here marked =>
    obtain rfl := some_inj.mp ((show unterminated[23]? = some 1 from rfl).symm.trans here)
    exact absurd marked (by decide)
  | out lax => exact absurd lax (by decide)

/-- The parser stops outside of one packet and accepts a name without an end in the
other. -/
theorem not_safe : ¬ Safe overrun ∧ ¬ Safe unterminated := by
  constructor
  · rintro ⟨cursor, message, is, safe⟩
    have outcome : (fromBytes overrun).map (fun result =>
        (getError result.1.errorFlags, result.1.begin)) = some (0, 24) := by decide +kernel
    rw [is, map_some, some_inj, Prod.mk.injEq] at outcome
    have inside := (safe outcome.1).1
    rw [outcome.2] at inside
    exact absurd inside (by decide)
  · rintro ⟨cursor, message, is, safe⟩
    have outcome : (fromBytes unterminated).map (fun result =>
        (getError result.1.errorFlags, result.1.names)) = some (0, [23, 12]) := by
      decide +kernel
    rw [is, map_some, some_inj, Prod.mk.injEq] at outcome
    refine not_terminated ((safe outcome.1).2.1 23 ?_)
    rw [outcome.2]
    exact mem_cons_self

end NetManager.Mdns
