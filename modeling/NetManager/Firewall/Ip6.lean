import NetManager.Firewall.Rule
import NetManager.Library.Loop

/-!
# IPv6 segments and the IPv6 rule map

An IPv6 address is a 128-bit number whose byte 0 is the most significant one,
as `in6_addr` stores it. The searches of `IpParamParser` go through bytes and
bits in the order of the source; a search that runs below byte 0 reads outside
the address and has no value.

`Ip6RuleMap::OrInsert` merges an insertion into every entry that has the same
address or, after truncation by each entry's own prefix length, the same
zero-padded network. Section "Exactness" says which insertions keep a
longest-prefix-match lookup exact.
-/

namespace NetManager.Firewall

open AddressPrefix BitVec

abbrev In6Addr := BitVec 128

namespace In6Addr

variable (addr : In6Addr) (i : Nat) (value : BitVec 8)

/-- `s6_addr[i]`. -/
def byte : BitVec 8 := addr.extractLsb' (120 - 8 * i) 8

/-- Assign `s6_addr[i]`. -/
def setByte : In6Addr :=
  addr &&& ~~~((0xff#8).setWidth 128 <<< (120 - 8 * i)) ||| (value.setWidth 128 <<< (120 - 8 * i))

theorem getLsbD_byte {addr : In6Addr} {i j : Nat} (bit : j < 8) :
    (byte addr i).getLsbD j = addr.getLsbD (120 - 8 * i + j) := by
  simp [byte, bit]

theorem getLsbD_setByte (inside : k < 128) :
    (setByte addr i value).getLsbD k =
      if 120 - 8 * i ≤ k ∧ k < 120 - 8 * i + 8 then value.getLsbD (k - (120 - 8 * i))
      else addr.getLsbD k := by
  have ones j : (0xff#8).getLsbD j = decide (j < 8) := by
    rw [show (0xff#8) = allOnes 8 from rfl, getLsbD_allOnes]
  simp only [setByte, getLsbD_or, getLsbD_and,
    getLsbD_not, getLsbD_shiftLeft, getLsbD_setWidth,
    inside, decide_true, Bool.true_and, ones]
  split
  next within =>
    have below : ¬ k < 120 - 8 * i := by omega
    have low : k - (120 - 8 * i) < 8 := by omega
    have width : k - (120 - 8 * i) < 128 := by omega
    simp [below, low, width]
  next outside =>
    by_cases below : k < 120 - 8 * i
    · simp [below]
    · have high : ¬ k - (120 - 8 * i) < 8 := by omega
      have zero : value.getLsbD (k - (120 - 8 * i)) = false := getLsbD_of_ge _ _ (by omega)
      simp [high, zero]

end In6Addr

/-! ## Segments -/

/-- `Ip6Data`: a prefix length and an address. -/
abbrev Ip6Data := Prefix 128

namespace IpParamParser

/-- The numbers `n, n - 1, ..., 0`. -/
def downTo (n : Nat) : List Nat := (List.range (n + 1)).reverse

/-- `GetIp6Prefixlen`: the first bit in which two addresses differ. -/
def getIp6Prefixlen (start stop : In6Addr) : Nat :=
  let differing := (List.range 16).findSome? fun i =>
    if start.byte i = stop.byte i then none
    else
      (downTo 7).findSome? fun j =>
        if start.byte i &&& (1#8 <<< j) = stop.byte i &&& (1#8 <<< j) then none
        else some (i * 8 + 8 - j - 1)
  differing.getD 128

/-- `RfindIp6`: the last bit between two positions that has a value, or 128.
The byte index is unsigned, so that a search which started at byte 0 and found
nothing goes on below it. -/
def rfindIp6 (addr : In6Addr) (startBit endBit : Nat) (value : BitVec 8) : Outcome Nat :=
  if endBit < startBit then Outcome.ok 128
  else
    let startBits := startBit % 8
    let startBytes := startBit / 8
    let endBits := endBit % 8
    let endBytes := endBit / 8
    let found :=
      (List.range' startBytes (endBytes + 1 - startBytes)).reverse.findSome? fun i =>
          let j := if i = endBytes then 8 - endBits - 1 else 0
          let k := if i = startBytes then 8 - startBits - 1 else 7
          (List.range' j (k + 1 - j)).findSome? fun j =>
            if (addr.byte i &&& (1#8 <<< j)) >>> j = value then some (i * 8 + 8 - j - 1)
            else none
    match found with
    | some bit => Outcome.ok bit
    | none => if startBytes = 0 then none else Outcome.ok 128

/-- `FindIp6`: the first bit from a position on that has a value, or 128. -/
def findIp6 (addr : In6Addr) (startBit : Nat) (value : BitVec 8) : Nat :=
  if 128 ≤ startBit then 128
  else
    let startBits := startBit % 8
    let startBytes := startBit / 8
    let found := (List.range' startBytes (16 - startBytes)).findSome? fun i =>
      (downTo (if i = startBytes then 8 - startBits - 1 else 7)).findSome? fun j =>
          if (addr.byte i >>> j) &&& 1#8 = value then some (i * 8 + 8 - j - 1)
          else none
    found.getD 128

/-- The carry loop of `ChangeIp6Start` over the remaining bytes and bits. -/
def carry (needSetZero : Bool)
    (bytes off : Nat) : List (Nat × Nat) → In6Addr → In6Addr
  | [], addr => addr
  | (i, j) :: rest, addr =>
    let cleared := addr.setByte i (addr.byte i &&& ~~~(1#8 <<< j))
    if needSetZero ∧ i = bytes ∧ j ≤ off then carry needSetZero bytes off rest cleared
    else if addr.byte i &&& (1#8 <<< j) ≠ 0 then carry needSetZero bytes off rest cleared
    else addr.setByte i (addr.byte i ||| (1#8 <<< j))

/-- `ChangeIp6Start`: the address after the last one of a block. -/
def changeIp6Start (startBit : Nat) (addr : In6Addr) : In6Addr :=
  let bits := startBit % 8
  let bytes := startBit / 8
  let addr := (List.range' (bytes + 1) (15 - bytes)).foldl (fun addr i => addr.setByte i 0) addr
  let positions := fun bytes => (downTo bytes).flatMap fun i => (List.range 8).map fun j => (i, j)
  if 16 ≤ bytes then carry false 15 (8 - 7 - 1) (positions 15) addr
  else carry true bytes (8 - bits - 1) (positions bytes) addr

/-- One turn of the first loop of `GetIp6AndMask`, which walks the zero bits of
the start address from the right. -/
def ip6StartTurn (addr6Start : In6Addr) (prefixlen : Nat) :
    Nat × In6Addr × List Ip6Data → (Nat × In6Addr × List Ip6Data) ⊕ Outcome (In6Addr × List Ip6Data)
  | (off, tmpAddr, list) =>
    if off ≠ 128 ∧ off ≠ prefixlen then
      match rfindIp6 addr6Start prefixlen (off - 1) 0 with
      | some (.ok next) =>
        .inl (next, changeIp6Start (off + 1) tmpAddr, list ++ [⟨off + 1, tmpAddr⟩])
      | _ => .inr none
    else .inr (Outcome.ok (tmpAddr, list))

/-- One turn of the second loop of `GetIp6AndMask`, which walks the one bits of
the end address from the left. -/
def ip6EndTurn (addr6End : In6Addr) :
    Nat × In6Addr × List Ip6Data → (Nat × In6Addr × List Ip6Data) ⊕ (In6Addr × List Ip6Data)
  | (off, tmpAddr, list) =>
    if off ≠ 128 then
      .inl (findIp6 addr6End (off + 1) 1, changeIp6Start (off + 1) tmpAddr,
        list ++ [⟨off + 1, tmpAddr⟩])
    else .inr (tmpAddr, list)

/-- The tail of `GetIp6AndMask` after the start address was worked off. -/
def ip6EndBlocks (addr6End : In6Addr) (prefixlen : Nat) (tmpAddr : In6Addr)
    (list : List Ip6Data) : Outcome (List Ip6Data) :=
  let off := findIp6 addr6End prefixlen 1
  if off = 128 then throw .err
  else do
    -- the position grows with every turn
    let (tmpAddr, list) ← ExceptT.lift
      (Loop.run (ip6EndTurn addr6End) 130 (findIp6 addr6End (off + 1) 1, tmpAddr, list))
    if tmpAddr = addr6End then Outcome.ok (list ++ [⟨128, tmpAddr⟩])
    else Outcome.ok list

def getIp6AndMask (addr6Start addr6End : In6Addr) : Outcome (List Ip6Data) :=
  if addr6End < addr6Start then throw .err
  else if addr6Start = addr6End then Outcome.ok [⟨128, addr6Start⟩]
  else do
    let prefixlen := getIp6Prefixlen addr6Start addr6End
    let off ← rfindIp6 addr6Start prefixlen 127 1
    if off ≠ 128 then
      let list := [⟨off + 1, addr6Start⟩]
      let tmpAddr := changeIp6Start (off + 1) addr6Start
      let off ← rfindIp6 addr6Start prefixlen off 0
      -- the position shrinks with every turn
      let walked ← ExceptT.lift
        (Loop.run (ip6StartTurn addr6Start prefixlen) 130 (off, tmpAddr, list))
      let (tmpAddr, list) ← walked
      ip6EndBlocks addr6End prefixlen tmpAddr list
    else
      let lastZero ← rfindIp6 addr6End prefixlen 127 0
      if lastZero = 128 then Outcome.ok [⟨prefixlen, addr6Start⟩]
      else ip6EndBlocks addr6End prefixlen addr6Start []

end IpParamParser

/-! ## The rule map -/

abbrev Ip6RuleBitmap := RuleBitmap 128

namespace Ip6RuleMap

/-- `Ip6RuleMap::GetNetworkAddress`, byte by byte into a zeroed address. -/
def getNetworkAddress (addr : In6Addr) (prefixLen : Nat) : In6Addr :=
  let quotient := prefixLen / 8
  let remainder := prefixLen % 8
  let out := (List.range quotient).foldl (fun out i => out.setByte i (addr.byte i &&& 0xff#8)) 0
  if remainder ≠ 0 then out.setByte quotient (addr.byte quotient &&& ~~~(0xff#8 >>> remainder))
  else out

/-- An insertion is merged into an entry with the same address or the same
network address. -/
def Matches (addr : In6Addr) (prefixlen : Nat) (it : Ip6RuleBitmap) : Prop :=
  addr = it.key.addr ∨ getNetworkAddress addr prefixlen = getNetworkAddress it.key.addr it.key.len
deriving Decidable

variable (ruleBitmapVec : List Ip6RuleBitmap)

/-- `Ip6RuleMap::OrInsert`. -/
def orInsert (addr : In6Addr) (prefixlen : Nat) (bitmap : Bitmap) : List Ip6RuleBitmap :=
  if ∃ it ∈ ruleBitmapVec, Matches addr prefixlen it then
    ruleBitmapVec.map fun it =>
      if Matches addr prefixlen it then { it with bitmap := it.bitmap.or bitmap }
      else it
  else ruleBitmapVec ++ [⟨⟨prefixlen, addr⟩, bitmap⟩]

/-! ## Exactness -/

variable (calls : List Ip6RuleBitmap)

/-- Perform a sequence of `OrInsert` calls on an empty map. -/
def insertAll : List Ip6RuleBitmap :=
  calls.foldl (fun vec call => orInsert vec call.key.addr call.key.len call.bitmap) []

variable (call : Ip6RuleBitmap)

@[simp] theorem insertAll_append_singleton :
    insertAll (calls ++ [call]) =
      orInsert (insertAll calls) call.key.addr call.key.len call.bitmap := by
  simp [insertAll]

/-- The rules of all calls whose prefix covers an address, or nothing when no
call covers it. -/
def coveringOr (a : In6Addr) : Option Bitmap :=
  calls.foldl
    (fun rules call =>
      if call.key.Covers a then some ((rules.getD Bitmap.clear).or call.bitmap)
      else rules)
    none

@[simp] theorem coveringOr_append_singleton :
    coveringOr (calls ++ [call]) a =
      if call.key.Covers a then some (((coveringOr calls a).getD Bitmap.clear).or call.bitmap)
      else coveringOr calls a := by
  simp [coveringOr]

/-- The table written from a vector. -/
abbrev lookupVec (a : In6Addr) : Option Bitmap := PrefixTable.lookup a (writeLpm ruleBitmapVec)

/-- After the calls a lookup returns exactly the rules of the covering calls. -/
def Exact : Prop := ∀ a, lookupVec (insertAll calls) a = coveringOr calls a

/-- The calls that keep lookups exact. A call that is merged must reach the
answering entries of exactly the addresses it covers, except where they have
its rules anyway, and cover no address that has no entry. A call that is
appended must not add rules where a longer entry goes on answering, and must
bring all rules of the entries it covers up. -/
def KeepsExact : Prop :=
  if ∃ it ∈ ruleBitmapVec, Matches call.key.addr call.key.len it then
    ∀ a,
      (∀ it, Answers ruleBitmapVec a it →
        (Matches call.key.addr call.key.len it ↔ call.key.Covers a) ∨
          it.bitmap.or call.bitmap = it.bitmap) ∧
      ((∀ it ∈ ruleBitmapVec, ¬ it.key.Covers a) → ¬ call.key.Covers a)
  else
    ∀ a, call.key.Covers a → ∀ it, Answers ruleBitmapVec a it →
      it.bitmap.or call.bitmap = if call.key.len < it.key.len then it.bitmap else call.bitmap

/-- The entry after a merge. -/
def merge (call it : Ip6RuleBitmap) : Ip6RuleBitmap :=
  if Matches call.key.addr call.key.len it then { it with bitmap := it.bitmap.or call.bitmap }
  else it

@[simp] theorem merge_key (call it : Ip6RuleBitmap) : (merge call it).key = it.key := by
  unfold merge
  split <;> rfl

section Step

variable {ruleBitmapVec : List Ip6RuleBitmap} {call it : Ip6RuleBitmap} {a : In6Addr}

theorem lookupVec_append_of_answers (answers : Answers ruleBitmapVec a it)
    (covers : call.key.Covers a) :
    lookupVec (ruleBitmapVec ++ [call]) a =
      some (if call.key.len < it.key.len then it.bitmap else call.bitmap) := by
  have next := answers.append_singleton call
  simp only [covers, true_and] at next
  split at next
  next takes =>
    rw [if_neg (Nat.not_lt.mpr takes)]
    exact lookup_writeLpm_of_answers next
  next keeps =>
    rw [if_pos (Nat.not_le.mp keeps)]
    exact lookup_writeLpm_of_answers next

theorem lookupVec_append_of_not_covers (outside : ¬ call.key.Covers a) :
    lookupVec (ruleBitmapVec ++ [call]) a = lookupVec ruleBitmapVec a := by
  by_cases covered : ∃ it ∈ ruleBitmapVec, it.key.Covers a
  · obtain ⟨it, answers⟩ := PrefixTable.exists_wins covered
    have next := answers.append_singleton call
    simp only [outside, false_and, if_false] at next
    rw [lookupVec, lookupVec, lookup_writeLpm_of_answers answers, lookup_writeLpm_of_answers next]
  · have uncovered : ∀ it ∈ ruleBitmapVec, ¬ it.key.Covers a :=
      fun it member covers => covered ⟨it, member, covers⟩
    rw [lookupVec, lookupVec, lookup_writeLpm_eq_none uncovered]
    apply lookup_writeLpm_eq_none
    simpa [or_imp, forall_and, outside] using uncovered

/-- Two choices between the same bitmaps agree when they are made alike or the
bitmaps are equal. -/
theorem ite_eq_ite_iff [Decidable left] [Decidable right] :
    (if left then x else y) = (if right then x else y) ↔ (left ↔ right) ∨ x = y := by
  by_cases first : left
  · by_cases second : right
    · simp [first, second]
    · simp [first, second]
  · by_cases second : right
    · simp [first, second, eq_comm]
    · simp [first, second]

end Step

theorem exact_append_singleton_iff {calls : List Ip6RuleBitmap} (exact : Exact calls) :
    Exact (calls ++ [call]) ↔ KeepsExact (insertAll calls) call := by
  unfold Exact KeepsExact
  simp only [insertAll_append_singleton, coveringOr_append_singleton]
  split
  next matched =>
    have merged : orInsert (insertAll calls) call.key.addr call.key.len call.bitmap =
        (insertAll calls).map (merge call) := if_pos matched
    rw [merged]
    refine forall_congr' fun a => ?_
    rw [← exact a]
    by_cases covered : ∃ it ∈ insertAll calls, it.key.Covers a
    · obtain ⟨it, answers⟩ := PrefixTable.exists_wins covered
      rw [lookupVec, lookup_writeLpm_of_answers (answers.map _ (merge_key call)), lookupVec,
        lookup_writeLpm_of_answers answers, merge, apply_ite RuleBitmap.bitmap, ← apply_ite some,
        Option.some_inj, Option.getD_some, ite_eq_ite_iff]
      constructor
      · intro agrees
        refine ⟨fun other otherAnswers => ?_, fun uncovered => ?_⟩
        · rw [otherAnswers.unique answers]
          exact agrees
        · exact absurd answers.covers (uncovered it answers.mem)
      · rintro ⟨agrees, _⟩
        exact agrees it answers
    · have uncovered : ∀ it ∈ insertAll calls, ¬ it.key.Covers a :=
        fun it member covers => covered ⟨it, member, covers⟩
      rw [lookupVec, lookup_writeLpm_eq_none (by simpa using uncovered), lookupVec,
        lookup_writeLpm_eq_none uncovered]
      have noAnswer : ∀ it, ¬ Answers (insertAll calls) a it :=
        fun it answers => uncovered it answers.mem answers.covers
      by_cases covers : call.key.Covers a
      · simpa [covers, noAnswer] using uncovered
      · simp [covers, noAnswer]
  next fresh =>
    have appended : orInsert (insertAll calls) call.key.addr call.key.len call.bitmap =
        insertAll calls ++ [call] := if_neg fresh
    rw [appended]
    refine forall_congr' fun a => ?_
    by_cases covers : call.key.Covers a
    · simp only [covers, if_true, true_imp_iff]
      rw [← exact a]
      by_cases covered : ∃ it ∈ insertAll calls, it.key.Covers a
      · obtain ⟨it, answers⟩ := PrefixTable.exists_wins covered
        rw [lookupVec_append_of_answers answers covers, lookupVec,
          lookup_writeLpm_of_answers answers, Option.some_inj, eq_comm]
        constructor
        · intro agrees other otherAnswers
          rw [otherAnswers.unique answers]
          exact agrees
        · intro agrees
          exact agrees it answers
      · have uncovered : ∀ it ∈ insertAll calls, ¬ it.key.Covers a :=
          fun it member inside => covered ⟨it, member, inside⟩
        have noAnswer : ∀ it, ¬ Answers (insertAll calls) a it :=
          fun it answers => uncovered it answers.mem answers.covers
        rw [lookupVec, lookupVec, lookup_writeLpm_eq_none uncovered,
          lookup_writeLpm_of_answers
            (PrefixTable.wins_append_singleton_of_uncovered uncovered covers)]
        simp [noAnswer]
    · simp [covers, lookupVec_append_of_not_covers, exact a]

/-- A sequence of calls answers every lookup exactly after each of them if and
only if each call meets the condition on the entries before it. -/
theorem exact_take_iff_keepsExact (calls : List Ip6RuleBitmap) :
    (∀ k ≤ calls.length, Exact (calls.take k)) ↔
      ∀ k (inside : k < calls.length),
        KeepsExact (insertAll (calls.take k)) (calls.get ⟨k, inside⟩) := by
  constructor
  · intro exact k inside
    have next := exact (k + 1) inside
    rw [List.take_succ_eq_append_getElem inside] at next
    exact (exact_append_singleton_iff _ (exact k inside.le)).mp next
  · intro keeps k
    induction k with
    | zero =>
      intro _ a
      rfl
    | succ k ih =>
      intro inside
      rw [List.take_succ_eq_append_getElem inside]
      exact (exact_append_singleton_iff _ (ih (by omega))).mpr (keeps k inside)

/-- A prefix inside another one, merged because both have the same truncated
address: the answer for addresses outside the inner one gains its rules. -/
theorem not_exact_nested :
    ¬ Exact [⟨⟨32, 0x20010db8000000000000000000000000⟩, Bitmap.single 0⟩,
      ⟨⟨64, 0x20010db8000000000000000000000000⟩, Bitmap.single 1⟩] := by
  intro exact
  have answer := congrArg (Option.map fun rules => rules.test 1)
    (exact 0x20010db8000100000000000000000000)
  revert answer
  decide +kernel

end Ip6RuleMap

end NetManager.Firewall
