import NetManager.Slice.MsgParser

/-!
# Instructions of a network

The sublists of a message are for networks, and each has instructions. A decoder that
lists the sublists goes the same way as the one of the code, which keeps the instructions
of the first sublist that has any, and drops those of later sublists of the same network.
Of an instruction that is alone with its UPSC it keeps a flag that nothing has set.
-/

namespace NetManager.Slice

open List Wire Std Option

/-- An instruction of a message, with the bytes to go where it starts. -/
structure Instruction where
  upsc : UInt16
  contents : PolicyInstruction
  left : Int

abbrev Instructions := List Instruction

section Buffer

variable (buffer : Bytes) (inputLen : Nat)

/-- List an instruction. -/
def readInstruction (instructions : Instructions) : Decode (Bool × Instructions) := do
  if inputLen < 2 then return (false, instructions)
  else
    let left ← remaining buffer
    let upsc ← getShort buffer false
    let (decoded, policyInstruction) ← decodeItems buffer (decodeUePolicyPart buffer)
      (inputLen - 2) {}
    return (decoded, instructions ++ [⟨upsc, policyInstruction, left⟩])

/-- List a sublist, with its network. -/
def readSublist (sublists : List (Bytes × Instructions)) :
    Decode (Bool × List (Bytes × Instructions)) := do
  if inputLen < 3 then return (false, sublists)
  else
    let first ← next buffer
    let second ← next buffer
    let third ← next buffer
    let plmn ← plmnToString first second third
    let (decoded, instructions) ← decodeItems buffer (readInstruction buffer) (inputLen - 3) []
    return (decoded, sublists ++ [(plmn, instructions)])

/-- List all sublists. -/
def readSublists (inputLen : Int) : Decode (Bool × List (Bytes × Instructions)) := do
  let subLen ← getLength buffer
  if subLen ≠ inputLen - 2 then return (false, [])
  else decodeItems buffer (readSublist buffer) subLen []

end Buffer

section Follows

variable {α δ ε δ' ε' : Type} {rel : ε → δ → Prop}

/-- Where a decoder that lists succeeds, one that stores does, and what it stores is as
related. -/
def Agrees (rel : ε → δ → Prop) (lists : Except Fault ((Bool × ε) × Cursor))
    (stores : Except Fault ((Bool × δ) × Cursor)) : Prop :=
  ∀ listed after, lists = .ok ((true, listed), after) →
    ∃ stored, stores = .ok ((true, stored), after) ∧ rel listed stored

def Follows (rel : ε → δ → Prop) (read : Nat → ε → Decode (Bool × ε))
    (item : Nat → δ → Decode (Bool × δ)) : Prop :=
  ∀ len listed stored cursor, rel listed stored →
    Agrees rel (read len listed cursor) (item len stored cursor)

theorem agrees_bind {first : Decode α}
    (rest : ∀ value after, Agrees rel (lists value after) (stores value after)) :
    Agrees rel ((first >>= lists) cursor) ((first >>= stores) cursor) := by
  change Agrees rel (first cursor >>= _) (first cursor >>= _)
  cases first cursor with
  | error => exact nofun
  | ok outcome => exact rest outcome.1 outcome.2

theorem agrees_ite {condition : Prop} [Decidable condition] {listed : ε} {stored : δ}
    {lists : Decode (Bool × ε)} {stores : Decode (Bool × δ)} {cursor : Cursor}
    (rest : ¬ condition → Agrees rel (lists cursor) (stores cursor)) :
    Agrees rel ((if condition then pure (false, listed) else lists) cursor)
      ((if condition then pure (false, stored) else stores) cursor) := by
  split
  · exact nofun
  · exact rest ‹_›

theorem Agrees.bind {inner : ε' → δ' → Prop} {first : Decode (Bool × ε')}
    {second : Decode (Bool × δ')} {lists : Bool × ε' → Decode (Bool × ε)}
    {stores : Bool × δ' → Decode (Bool × δ)} {cursor : Cursor}
    (agrees : Agrees inner (first cursor) (second cursor))
    (fails : ∀ listed after last end', lists (false, listed) after ≠ .ok ((true, last), end'))
    (rest : ∀ listed stored after, inner listed stored →
      Agrees rel (lists (true, listed) after) (stores (true, stored) after)) :
    Agrees rel ((first >>= lists) cursor) ((second >>= stores) cursor) := by
  change Agrees rel (first cursor >>= _) (second cursor >>= _)
  match isListed : first cursor with
  | .error _ => exact nofun
  | .ok ((false, _), _) => exact fun _ _ ends => absurd ends (fails _ _ _ _)
  | .ok ((true, listed), after) =>
    obtain ⟨stored, isStored, related⟩ := agrees listed after isListed
    rw [isStored]
    exact rest listed stored after related

theorem Follows.decodeItems {read : Nat → ε → Decode (Bool × ε)} (follows : Follows rel read item) :
    Follows rel (decodeItems buffer read) (decodeItems buffer item) := by
  intro len
  induction len using Nat.strongRecOn with
  | ind len ih =>
    intro listed stored cursor related
    rw [Slice.decodeItems, Slice.decodeItems]
    by_cases more : 0 < len
    case neg =>
      rw [if_neg more, if_neg more]
      rintro _ _ ⟨⟩
      exact ⟨stored, rfl, related⟩
    case pos =>
      rw [if_pos more, if_pos more]
      refine agrees_bind fun left cursor => agrees_ite fun _ => agrees_bind fun subLen cursor =>
        agrees_bind fun left cursor => agrees_ite fun fits => ?_
      refine (follows subLen listed stored cursor related).bind (fun _ _ _ _ => nofun) ?_
      intro next nextStored middle nextRelated
      exact ih _ (by omega) next nextStored middle nextRelated

end Follows

section

variable (leftInMemory : Int → Bool)

/-- The contents, with the flag as memory leaves it where no part sets it. -/
def Instruction.unset (instruction : Instruction) : PolicyInstruction :=
  { instruction.contents with
    hasUrspType := instruction.contents.hasUrspType || leftInMemory instruction.left }

/-- What is kept of the instructions of a sublist with the same UPSC: the last one, and of a
single one what memory leaves. -/
def kept : Instructions → Option PolicyInstruction
  | [only] => some (only.unset leftInMemory)
  | same => same.getLast?.map (·.contents)

/-- Store an instruction. The flag of a known UPSC is set to false first. -/
def store (map : ExtTreeMap UInt16 PolicyInstruction) (instruction : Instruction) :
    ExtTreeMap UInt16 PolicyInstruction :=
  map.insert instruction.upsc
    (if map.contains instruction.upsc then instruction.contents
      else instruction.unset leftInMemory)

variable (sublists : List (Bytes × Instructions))

/-- The instructions of the sublists of a network. -/
def instructionLists (plmn : Bytes) : List Instructions :=
  (sublists.filter (·.1 = plmn)).map Prod.snd

/-- The first sublist of a network that has instructions. -/
def firstList (plmn : Bytes) : Option Instructions :=
  (instructionLists sublists plmn).find? (· ≠ [])

/-- The map has the first sublists. -/
def KeepsFirst (map : UePolicyMap) : Prop :=
  ∀ plmn, map[plmn]?.map (·.policyInstructionMap) =
    (firstList sublists plmn).map (·.foldl (store leftInMemory) ∅)

end

variable (buffer : Bytes) {leftInMemory : Int → Bool}

theorem kept_append_singleton (before : Instructions) (last : Instruction) :
    kept leftInMemory (before ++ [last]) =
      some (if before = [] then last.unset leftInMemory else last.contents) := by
  cases before with
  | nil => rfl
  | cons first rest =>
    have two : kept leftInMemory (first :: rest ++ [last]) =
        (first :: rest ++ [last]).getLast?.map (·.contents) := by
      cases rest <;> rfl
    rw [two, getLast?_concat, if_neg (cons_ne_nil _ _)]
    rfl

theorem getElem?_foldl_store (instructions : Instructions) (upsc : UInt16) :
    (instructions.foldl (store leftInMemory) ∅)[upsc]? =
      kept leftInMemory (instructions.filter (·.upsc = upsc)) := by
  induction instructions using reverseRecOn with
  | nil => rfl
  | append_singleton before last ih =>
    rw [foldl_append, foldl_cons, foldl_nil, store, ExtTreeMap.getElem?_insert, filter_append]
    by_cases same : last.upsc = upsc
    · have known : (before.foldl (store leftInMemory) ∅).contains last.upsc ↔
          before.filter (·.upsc = upsc) ≠ [] := by
        rw [ExtTreeMap.contains_eq_isSome_getElem?, same, ih]
        cases before.filter (·.upsc = upsc) using List.reverseRecOn
        · simp [kept]
        · simp [kept_append_singleton]
      have alone : [last].filter (·.upsc = upsc) = [last] := by simp [same]
      rw [alone, kept_append_singleton, if_pos (by simp [same])]
      by_cases new : before.filter (·.upsc = upsc) = []
      · rw [if_pos new, if_neg (known.not.mpr (not_not.mpr new))]
      · rw [if_neg new, if_pos (known.mpr new)]
    · simp [same, ih]

theorem foldl_store_eq_empty_iff (instructions : Instructions) :
    instructions.foldl (store leftInMemory) base = ∅ ↔ base = ∅ ∧ instructions = [] := by
  induction instructions using reverseRecOn with
  | nil => simp
  | append_singleton before last => simp [store]

theorem follows_decodeUePolicyPart (flag : Bool) :
    Follows (fun listed stored => stored =
      { listed with hasUrspType := listed.hasUrspType || flag })
      (decodeUePolicyPart buffer) (decodeUePolicyPart buffer) := by
  rintro inputLen listed _ cursor rfl
  unfold decodeUePolicyPart
  refine agrees_ite fun _ => agrees_bind fun uePolicyType cursor => ?_
  split
  · refine agrees_bind fun _ _ => ?_
    rintro _ _ ⟨⟩
    exact ⟨_, rfl, rfl⟩
  · refine agrees_bind fun result _ => ?_
    obtain ⟨decoded, urspRules⟩ := result
    rintro _ _ ⟨⟩
    exact ⟨_, rfl, rfl⟩

theorem follows_readInstruction (base : ExtTreeMap UInt16 PolicyInstruction) :
    Follows (fun instructions (ordered : Nat × UePolicy) =>
      ordered.2.policyInstructionMap = instructions.foldl (store leftInMemory) base)
      (readInstruction buffer) (decodeInstruction buffer leftInMemory) := by
  intro inputLen instructions ordered cursor related
  unfold readInstruction decodeInstruction
  refine agrees_ite fun _ => agrees_bind fun left cursor => agrees_bind fun upsc cursor => ?_
  refine ((follows_decodeUePolicyPart buffer _).decodeItems _ _ _ _ rfl).bind
    (fun _ _ _ _ => nofun) ?_
  rintro contents _ after rfl _ _ ⟨⟩
  refine ⟨_, rfl, ?_⟩
  beta_reduce
  rw [foldl_append, foldl_cons, foldl_nil, ← related, store]
  ext1 other
  cases known : ordered.2.policyInstructionMap.contains upsc
  · simp only [Instruction.unset, ExtTreeMap.getElem?_insert]
    grind
  · simp

theorem KeepsFirst.store {sublists : List (Bytes × Instructions)} {map : UePolicyMap}
    (keeps : KeepsFirst leftInMemory sublists map) {plmn : Bytes} {instructions : Instructions}
    {fresh uePolicy : UePolicy} (isFresh : fresh.policyInstructionMap = ∅)
    (held : uePolicy.policyInstructionMap =
      instructions.foldl (store leftInMemory) (map.getD plmn fresh).policyInstructionMap) :
    KeepsFirst leftInMemory (sublists ++ [(plmn, instructions)])
      (if uePolicy.policyInstructionMap.isEmpty then (map.insertIfNew plmn uePolicy).erase plmn
        else map.insertIfNew plmn uePolicy) := by
  intro other
  by_cases same : plmn = other
  · subst same
    have kept := keeps plmn
    rw [ExtTreeMap.getD_eq_getD_getElem?] at held
    have appended : firstList (sublists ++ [(plmn, instructions)]) plmn =
        (firstList sublists plmn).or (if instructions = [] then none else instructions) := by
      simp [firstList, instructionLists, find?_append]
    rw [appended]
    cases first : firstList sublists plmn with
    | none =>
      rw [first, map_none, map_eq_none_iff] at kept
      rw [kept, getD_none, isFresh] at held
      by_cases empty : instructions = []
      · rw [held, empty]
        simp
      · have lookup : (map.insertIfNew plmn uePolicy)[plmn]? = some uePolicy := by grind
        simp only [held, ExtTreeMap.isEmpty_iff, foldl_store_eq_empty_iff, empty, and_false,
          if_false, lookup, map_some, none_or]
    | some list =>
      rw [first, map_some] at kept
      obtain ⟨policy, stored, holds⟩ := map_eq_some_iff.mp kept
      have listed : list ≠ [] := by simpa using find?_some first
      rw [stored, getD_some, holds] at held
      have lookup : (map.insertIfNew plmn uePolicy)[plmn]? = some policy := by grind
      simp only [held, ExtTreeMap.isEmpty_iff, foldl_store_eq_empty_iff, listed, and_false,
        false_and, if_false, lookup, holds, map_some, some_or]
  · have lists : firstList (sublists ++ [(plmn, instructions)]) other = firstList sublists other := by
      simp [firstList, instructionLists, filter_append, same]
    rw [lists, ← keeps other]
    split <;> grind

theorem follows_readSublist :
    Follows (KeepsFirst leftInMemory) (readSublist buffer)
      (decodePolicySection buffer leftInMemory) := by
  intro inputLen sublists map cursor keeps
  unfold readSublist decodePolicySection
  refine agrees_ite fun _ => agrees_bind fun first cursor => agrees_bind fun second cursor =>
    agrees_bind fun third cursor => agrees_bind fun plmn cursor => ?_
  refine ((follows_readInstruction buffer _).decodeItems (inputLen - 3) [] (0, _) cursor
    rfl).bind (fun _ _ _ _ => nofun) ?_
  rintro instructions ⟨count, uePolicy⟩ after held _ _ ⟨⟩
  exact ⟨_, rfl, keeps.store rfl held⟩

theorem keepsFirst_empty : KeepsFirst leftInMemory [] ∅ := by
  intro plmn
  simp [firstList, instructionLists]

variable (leftInMemory) (inputLen : Int) (cursor : Cursor)

theorem agrees_readSublists :
    Agrees (KeepsFirst leftInMemory) (readSublists buffer inputLen cursor)
      (decodePolicySectionList buffer leftInMemory inputLen ∅ cursor) := by
  unfold readSublists decodePolicySectionList
  refine agrees_bind fun subLen cursor => agrees_ite fun _ => ?_
  exact (follows_readSublist buffer).decodeItems _ _ _ _ keepsFirst_empty

/-- The contents that the map has for a network and a UPSC. -/
def heldContents (map : UePolicyMap) (plmn : Bytes) (upsc : UInt16) : Option PolicyInstruction :=
  (map[plmn]?.map (·.policyInstructionMap)).bind (·[upsc]?)

/-- The contents of the last instruction with a UPSC, in all sublists of a network. -/
def lastContents (sublists : List (Bytes × Instructions)) (plmn : Bytes) (upsc : UInt16) :
    Option PolicyInstruction :=
  ((instructionLists sublists plmn).flatten.filter (·.upsc = upsc)).getLast?.map (·.contents)

/-- A list of sublists is decoded, and the map has for each network and UPSC the contents of
the last instruction in all sublists of the network, and nothing else. -/
def KeepsLast : Prop :=
  ∀ sublists after, readSublists buffer inputLen cursor = .ok ((true, sublists), after) →
    ∃ map, decodePolicySectionList buffer leftInMemory inputLen ∅ cursor =
        .ok ((true, map), after) ∧
      ∀ plmn upsc, heldContents map plmn upsc = lastContents sublists plmn upsc

variable {leftInMemory}

theorem KeepsFirst.heldContents_eq {sublists : List (Bytes × Instructions)} {map : UePolicyMap}
    (keeps : KeepsFirst leftInMemory sublists map) :
    heldContents map plmn upsc =
      kept leftInMemory (((firstList sublists plmn).getD []).filter (·.upsc = upsc)) := by
  rw [← getElem?_foldl_store, heldContents, keeps plmn]
  cases firstList sublists plmn <;> rfl

variable (leftInMemory)

/-- The map keeps the last contents where the first sublist with instructions has them. -/
theorem keepsLast_iff :
    KeepsLast buffer leftInMemory inputLen cursor ↔
      ∀ sublists after, readSublists buffer inputLen cursor = .ok ((true, sublists), after) →
        ∀ plmn upsc,
          kept leftInMemory (((firstList sublists plmn).getD []).filter (·.upsc = upsc)) =
            lastContents sublists plmn upsc := by
  refine forall_congr' fun sublists => forall_congr' fun after => imp_congr_right fun reads => ?_
  obtain ⟨map, decodes, keeps⟩ :=
    agrees_readSublists buffer leftInMemory inputLen cursor sublists after reads
  constructor
  · rintro ⟨_, is, last⟩ plmn upsc
    cases decodes.symm.trans is
    rw [← keeps.heldContents_eq, last]
  · intro agree
    refine ⟨map, decodes, fun plmn upsc => ?_⟩
    rw [keeps.heldContents_eq, agree]

/-- Two sublists of the network 46000, one with the UPSC 1 and one with the UPSC 2. -/
def twoSublists : Bytes :=
  [0, 18] ++ [0, 7, 0x64, 0xf0, 0, 0, 2, 0, 1] ++ [0, 7, 0x64, 0xf0, 0, 0, 2, 0, 2]

theorem not_keepsLast_twoSublists :
    ¬ KeepsLast twoSublists (fun _ => false) 20 { startIndex := 0 } := by
  intro keeps
  have listed : (readSublists twoSublists 20 { startIndex := 0 }).toOption.map (fun result =>
      (result.1.1, (lastContents result.1.2 [52, 54, 48, 48, 48] 2).isSome)) =
      some (true, true) := by
    decide +kernel
  have held : (decodePolicySectionList twoSublists (fun _ => false) 20 ∅
      { startIndex := 0 }).toOption.map
        (fun result => (heldContents result.1.2 [52, 54, 48, 48, 48] 2).isSome) = some false := by
    decide +kernel
  revert listed
  cases reads : readSublists twoSublists 20 { startIndex := 0 } with
  | error => exact nofun
  | ok result =>
    intro listed
    simp only [Except.toOption, map_some, some_inj, Prod.mk.injEq] at listed
    obtain ⟨⟨decoded, sublists⟩, after⟩ := result
    obtain ⟨rfl, isSome⟩ := listed
    obtain ⟨map, is, agree⟩ := keeps sublists after reads
    rw [is, Except.toOption, map_some, agree, isSome] at held
    cases held

end NetManager.Slice
