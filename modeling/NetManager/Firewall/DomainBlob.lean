import NetManager.Firewall.Domain

/-!
# Domains in the rule database

The domains of a rule are stored as one blob: for each domain a flag, its length in two
bytes and its letters. `BlobToDomainList` reads them back and stops where a blob is cut
off. A read behind the end of the blob has no result.
-/

namespace NetManager.Firewall

open List

/-- A domain in a blob, as a little-endian host writes it. -/
def NetFirewallDomainParam.blob (param : NetFirewallDomainParam) : List Byte :=
  let size := BitVec.ofNat 16 param.domain.length
  (if param.isWildcard then 1 else 0) :: size.extractLsb' 0 8 :: size.extractLsb' 8 8 ::
    param.domain

variable (vec : List NetFirewallDomainParam)

/-- `DomainListToBlob`: the blob, `fuzzyNum` and the result. -/
def domainListToBlob (fuzzyNum : Nat) : List Byte × Nat × Bool :=
  let (blob, fuzzyNum) := vec.foldl
    (fun (blob, fuzzyNum) param =>
      (blob ++ param.blob, if param.isWildcard then fuzzyNum + 1 else fuzzyNum)) ([], fuzzyNum)
  (blob, fuzzyNum, 0 < blob.length)

variable (blob : List Byte)

/-- `std::string(it, it + size)` at an index. -/
def readString (index size : Nat) : Option (List Byte) :=
  if index + size ≤ blob.length then some ((blob.drop index).take size) else none

/-- The loop of `BlobToDomainList`. -/
def readDomains (blob : List Byte) (i : Nat) (vec : List NetFirewallDomainParam) :
    Option (List NetFirewallDomainParam × Bool) :=
  if i < blob.length then do
    let flag ← blob[i]?
    if i + 1 ≥ blob.length || blob.length - (i + 1) < 2 then return (vec, true)
    let low ← blob[i + 1]?
    let high ← blob[i + 2]?
    let size := (high ++ low).toNat
    let index := i + 1 + 2
    if index ≥ blob.length || blob.length - index < size then return (vec, true)
    let domain ← readString blob index size
    readDomains blob (i + 1 + size + 2) (vec ++ [⟨flag ≠ 0, domain⟩])
  else some (vec, 0 < vec.length)
  termination_by blob.length - i
  decreasing_by omega

def blobToDomainList : Option (List NetFirewallDomainParam × Bool) :=
  if blob.length < 1 then some ([], false) else readDomains blob 0 []

/-! ## No read behind the end -/

theorem isSome_readDomains (vec : List NetFirewallDomainParam) :
    (readDomains blob i vec).isSome := by
  induction i, vec using readDomains.induct blob with
  | case1 i vec inside ih =>
    rw [readDomains, if_pos inside, getElem?_eq_getElem inside]
    dsimp only [bind, Option.bind]
    split
    · rfl
    · rename_i whole
      simp only [ge_iff_le, Bool.or_eq_true, decide_eq_true_eq, not_or, not_le, not_lt] at whole
      rw [getElem?_eq_getElem (by omega), getElem?_eq_getElem (by omega)]
      dsimp only
      split
      · rfl
      · rename_i stored
        simp only [Bool.or_eq_true, decide_eq_true_eq, not_or, not_le, not_lt] at stored
        rw [readString, if_pos (by omega)]
        exact ih _ _ _ _
  | case2 i vec outside =>
    rw [readDomains, if_neg outside]
    rfl

/-! ## Round trip -/

theorem blob_domainListToBlob :
    (domainListToBlob vec fuzzyNum).1 = vec.flatMap NetFirewallDomainParam.blob := by
  induction vec using reverseRecOn with
  | nil => rfl
  | append_singleton vec param ih =>
    simp only [domainListToBlob] at ih ⊢
    rw [foldl_append, flatMap_append, ← ih, flatMap_singleton]
    rfl

theorem readDomains_append {vec : List NetFirewallDomainParam}
    (sizes : ∀ param ∈ vec, 1 ≤ param.domain.length ∧ param.domain.length ≤ 65535)
    (before : List Byte) (read : List NetFirewallDomainParam) :
    readDomains (before ++ vec.flatMap NetFirewallDomainParam.blob) before.length read =
      some (read ++ vec, decide (0 < (read ++ vec).length)) := by
  induction vec generalizing before read with
  | nil => rw [readDomains, if_neg (by simp), append_nil]
  | cons param vec ih =>
    obtain ⟨least, most⟩ := sizes param mem_cons_self
    have later := ih (forall_mem_cons.mp sizes).2 (before ++ param.blob) (read ++ [param])
    rw [append_assoc, ← flatMap_cons] at later
    generalize stored : before ++ (param :: vec).flatMap NetFirewallDomainParam.blob = blob at later ⊢
    let word := BitVec.ofNat 16 param.domain.length
    have split : blob = before ++ ((if param.isWildcard then 1 else 0) ::
        word.extractLsb' 0 8 :: word.extractLsb' 8 8 ::
        (param.domain ++ vec.flatMap NetFirewallDomainParam.blob)) := stored.symm
    have length : blob.length = before.length + 3 + param.domain.length +
        (vec.flatMap NetFirewallDomainParam.blob).length := by
      simp only [split, length_append, length_cons]
      omega
    have flag : blob[before.length]? = some (if param.isWildcard then 1 else 0) := by simp [split]
    have low : blob[before.length + 1]? = some (word.extractLsb' 0 8) := by simp [split]
    have high : blob[before.length + 2]? = some (word.extractLsb' 8 8) := by simp [split]
    have size : (word.extractLsb' 8 8 ++ word.extractLsb' 0 8).toNat = param.domain.length := by
      have whole : word.extractLsb' 8 8 ++ word.extractLsb' 0 8 = word := by
        apply BitVec.extractLsb'_append_extractLsb'_eq_extractLsb' rfl |>.trans
        simp
      rw [whole, BitVec.toNat_ofNat, Nat.mod_eq_of_lt (by omega)]
    have domain : readString blob (before.length + 1 + 2) param.domain.length =
        some param.domain := by
      rw [readString, if_pos (by omega), split, Nat.add_assoc, drop_length_add_append]
      exact congrArg some take_left
    have same : (⟨(if param.isWildcard then 1 else 0 : Byte) ≠ 0, param.domain⟩ :
        NetFirewallDomainParam) = param := by
      cases param with
      | mk isWildcard domain => cases isWildcard <;> rfl
    have next : before.length + 1 + param.domain.length + 2 = (before ++ param.blob).length := by
      simp only [NetFirewallDomainParam.blob, length_append, length_cons]
      omega
    rw [readDomains, if_pos (by omega)]
    simp only [flag, low, high, bind, Option.bind, size, domain, same, next, later]
    rw [if_neg (by simp; omega), if_neg (by simp; omega), append_assoc, singleton_append]

/-- A list of domains of 1 to 65535 bytes is read back from its blob, and no blob makes
`BlobToDomainList` read behind its end. -/
theorem blobToDomainList_domainListToBlob :
    (∀ (vec : List NetFirewallDomainParam) (fuzzyNum : Nat),
      (∀ param ∈ vec, 1 ≤ param.domain.length ∧ param.domain.length ≤ 65535) →
        blobToDomainList (domainListToBlob vec fuzzyNum).1 = some (vec, decide (0 < vec.length))) ∧
      ∀ blob, (blobToDomainList blob).isSome := by
  refine ⟨fun vec fuzzyNum sizes => ?_, fun blob => ?_⟩
  · rw [blob_domainListToBlob, blobToDomainList]
    cases vec with
    | nil => rfl
    | cons param vec =>
      exact readDomains_append sizes [] []
  · rw [blobToDomainList]
    split
    · rfl
    · exact isSome_readDomains blob []

/-- A plain and a wildcard domain. -/
theorem blobToDomainList_two :
    blobToDomainList (domainListToBlob [⟨false, [97]⟩, ⟨true, [98, 99]⟩] 0).1 =
      some ([⟨false, [97]⟩, ⟨true, [98, 99]⟩], true) :=
  blobToDomainList_domainListToBlob.1 [⟨false, [97]⟩, ⟨true, [98, 99]⟩] 0 (by decide)

end NetManager.Firewall
