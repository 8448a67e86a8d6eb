import Mathlib.Data.List.Basic

/-!
# Base64

`Encode` and `Decode` collect the bytes of a text in groups of three, and the characters of
an encoded text in groups of four. What is left in the last group is handled at the end.
-/

namespace NetManager.Http.Base64

open List

abbrev Byte := BitVec 8

/-- The bytes of a text. -/
def toBytes (text : String) : List Byte := text.toList.map fun c => BitVec.ofNat 8 c.toNat

def base64Chars : List Byte :=
  toBytes "ABCDEFGHIJKLMNOPQRSTUVWXYZabcdefghijklmnopqrstuvwxyz0123456789+/"

/-- The character at an index. -/
def charAt (index : Byte) : Byte := base64Chars.getD index.toNat 0

/-- What a byte has of `find`: 255 if there is no such character. -/
def findChar (c : Byte) : Byte :=
  if c ∈ base64Chars then BitVec.ofNat 8 (base64Chars.idxOf c) else 255

def isBase64Char (c : Byte) : Bool :=
  (48 ≤ c ∧ c ≤ 57) ∨ (65 ≤ c ∧ c ≤ 90) ∨ (97 ≤ c ∧ c ≤ 122) ∨ c = 43 ∨ c = 47

/-- `=`, for what a last group does not have. -/
def padding : Byte := 61

def makeCharFour : List Byte → List Byte
  | [a, b, c] =>
    [(a &&& 0xfc) >>> 2, ((a &&& 0x03) <<< 4) + ((b &&& 0xf0) >>> 4),
      ((b &&& 0x0f) <<< 2) + ((c &&& 0xc0) >>> 6), c &&& 0x3f]
  | _ => []

def makeCharTree : List Byte → List Byte
  | [x, y, z, w] =>
    [(x <<< 2) + ((y &&& 0x30) >>> 4), ((y &&& 0xf) <<< 4) + ((z &&& 0x3c) >>> 2),
      ((z &&& 0x3) <<< 6) + w]
  | _ => []

/-- One round of a loop that collects groups: the group and the result. -/
def collect (size : Nat) (make : List Byte → List Byte) (state : List Byte × List Byte)
    (c : Byte) : List Byte × List Byte :=
  let group := state.1 ++ [c]
  if group.length ≠ size then (group, state.2) else ([], state.2 ++ make group)

/-- What `Encode` adds for the last group. -/
def encodeLast (group : List Byte) : List Byte :=
  if group.length = 0 then []
  else
    let four := makeCharFour (group ++ replicate (3 - group.length) 0)
    (four.take (group.length + 1)).map charAt ++ replicate (3 - group.length) padding

def encode (source : List Byte) : List Byte :=
  let state := source.foldl (collect 3 fun three => (makeCharFour three).map charAt) ([], [])
  state.2 ++ encodeLast state.1

/-- What `Decode` adds for the last group. -/
def decodeLast (group : List Byte) : List Byte :=
  if group.length = 0 then []
  else
    let four := (group ++ replicate (4 - group.length) 0).map findChar
    (makeCharTree four).take (group.length - 1)

def decode (encoded : List Byte) : List Byte :=
  let state := (encoded.takeWhile isBase64Char).foldl
    (collect 4 fun four => makeCharTree (four.map findChar)) ([], [])
  state.2 ++ decodeLast state.1

/-! ## Groups -/

theorem foldl_collect (size : Nat) (make : List Byte → List Byte) (text group ret : List Byte) :
    text.foldl (collect size make) (group, ret) =
      let state := text.foldl (collect size make) (group, [])
      (state.1, ret ++ state.2) := by
  induction text generalizing group ret with
  | nil => simp
  | cons c text ih =>
    rw [foldl_cons, foldl_cons, collect, collect]
    split
    · exact ih _ _
    · rw [ih, ih [] ([] ++ _)]
      simp

theorem encode_group :
    encode (a :: b :: c :: source) = (makeCharFour [a, b, c]).map charAt ++ encode source := by
  have round := foldl_collect 3 (fun three => (makeCharFour three).map charAt) source []
    ((makeCharFour [a, b, c]).map charAt)
  exact (congrArg (fun state : List Byte × List Byte => state.2 ++ encodeLast state.1) round).trans
    (append_assoc ..)

theorem charAt_spec : ∀ index : Byte, index.toNat < 64 →
    charAt index ∈ base64Chars ∧ isBase64Char (charAt index) = true ∧
      findChar (charAt index) = index := by
  decide +kernel

theorem toNat_mask : ∀ a : Byte, (a &&& 0x3).toNat = a.toNat % 4 ∧
    (a &&& 0xf).toNat = a.toNat % 16 ∧ (a &&& 0x3f).toNat = a.toNat % 64 ∧
    (a &&& 0xfc).toNat = a.toNat / 4 * 4 ∧ (a &&& 0xf0).toNat = a.toNat / 16 * 16 ∧
    (a &&& 0xc0).toNat = a.toNat / 64 * 64 ∧ (a &&& 0x30).toNat = a.toNat / 16 % 4 * 16 ∧
    (a &&& 0x3c).toNat = a.toNat / 4 % 16 * 4 := by
  decide +kernel

theorem makeCharFour_spec :
    ∃ x y z w : Byte, makeCharFour [a, b, c] = [x, y, z, w] ∧
      (∀ index ∈ [x, y, z, w], index.toNat < 64) ∧
      makeCharTree [x, y, z, w] = [a, b, c] := by
  refine ⟨_, _, _, _, rfl, ?_, ?_⟩
  · simp only [forall_mem_cons, BitVec.toNat_add, BitVec.toNat_shiftLeft,
      BitVec.toNat_ushiftRight, toNat_mask, Nat.shiftLeft_eq, Nat.shiftRight_eq_div_pow]
    exact ⟨by omega, by omega, by omega, by omega, nofun⟩
  · simp only [makeCharTree, cons.injEq, ← BitVec.toNat_inj, BitVec.toNat_add,
      BitVec.toNat_shiftLeft, BitVec.toNat_ushiftRight, toNat_mask,
      Nat.shiftLeft_eq, Nat.shiftRight_eq_div_pow, and_true]
    omega

theorem decode_group (bound : ∀ index ∈ [x, y, z, w], index.toNat < 64) :
    decode ([x, y, z, w].map charAt ++ encoded) = makeCharTree [x, y, z, w] ++ decode encoded := by
  obtain ⟨-, isX, findX⟩ := charAt_spec x (bound x (by simp))
  obtain ⟨-, isY, findY⟩ := charAt_spec y (bound y (by simp))
  obtain ⟨-, isZ, findZ⟩ := charAt_spec z (bound z (by simp))
  obtain ⟨-, isW, findW⟩ := charAt_spec w (bound w (by simp))
  have round := foldl_collect 4 (fun four => makeCharTree (four.map findChar))
    (encoded.takeWhile isBase64Char) [] (makeCharTree [x, y, z, w])
  simp [decode, isX, isY, isZ, isW, collect, findX, findY, findZ, findW, round]

/-! ## Texts -/

/-- A text that is encoded over the alphabet, with padding at its end. -/
structure Encodes (source encoded : List Byte) : Prop where
  decodes : decode encoded = source
  length : encoded.length = 4 * ((source.length + 2) / 3)
  padded : ∃ chars count, encoded = chars ++ replicate count padding ∧ count ≤ 2 ∧
    ∀ c ∈ chars, c ∈ base64Chars

theorem not_isBase64Char_padding : isBase64Char padding = false := by decide

theorem encodes_one : Encodes [a] (encode [a]) := by
  obtain ⟨x, y, z, w, isFour, bound, back⟩ := makeCharFour_spec
  obtain ⟨memX, isX, findX⟩ := charAt_spec x (bound x (by simp))
  obtain ⟨memY, isY, findY⟩ := charAt_spec y (bound y (by simp))
  have encoded : encode [a] = [charAt x, charAt y] ++ replicate 2 padding :=
    congrArg (fun four => (four.take 2).map charAt ++ replicate 2 padding) isFour
  rw [encoded]
  refine ⟨?_, by simp, _, 2, rfl, Nat.le_refl 2, by simp [memX, memY]⟩
  simpa [decode, isX, isY, not_isBase64Char_padding, collect, decodeLast, findX, findY,
    makeCharTree] using (cons.inj back).1

theorem encodes_two : Encodes [a, b] (encode [a, b]) := by
  obtain ⟨x, y, z, w, isFour, bound, back⟩ := makeCharFour_spec
  obtain ⟨memX, isX, findX⟩ := charAt_spec x (bound x (by simp))
  obtain ⟨memY, isY, findY⟩ := charAt_spec y (bound y (by simp))
  obtain ⟨memZ, isZ, findZ⟩ := charAt_spec z (bound z (by simp))
  have encoded : encode [a, b] = [charAt x, charAt y, charAt z] ++ replicate 1 padding :=
    congrArg (fun four => (four.take 3).map charAt ++ replicate 1 padding) isFour
  rw [encoded]
  refine ⟨?_, by simp, _, 1, rfl, by decide, by simp [memX, memY, memZ]⟩
  simpa [decode, isX, isY, isZ, not_isBase64Char_padding, collect, decodeLast, findX, findY,
    findZ, makeCharTree] using ⟨(cons.inj back).1, (cons.inj (cons.inj back).2).1⟩

theorem encodes_encode : ∀ source : List Byte, Encodes source (encode source)
  | [] => ⟨rfl, rfl, [], 0, rfl, Nat.zero_le 2, nofun⟩
  | [a] => encodes_one
  | [a, b] => encodes_two
  | a :: b :: c :: source => by
    obtain ⟨decodes, length, chars, count, isEncoded, few, alphabet⟩ := encodes_encode source
    obtain ⟨x, y, z, w, isFour, bound, back⟩ := makeCharFour_spec
    rw [encode_group, isFour]
    refine ⟨?_, ?_, [x, y, z, w].map charAt ++ chars, count, ?_, few, ?_⟩
    · rw [decode_group bound, back, decodes]
      rfl
    · rw [length_append, length]
      simp only [length_map, length_cons, length_nil]
      omega
    · rw [isEncoded, append_assoc]
    · refine forall_mem_append.mpr ⟨forall_mem_map.mpr fun index isIndex => ?_, alphabet⟩
      exact (charAt_spec index (bound index isIndex)).1

/-- What is encoded is decoded; an encoded text has four characters of the alphabet for
three bytes, and padding at its end only. -/
theorem decode_encode (source : List Byte) :
    decode (encode source) = source ∧
      (encode source).length = 4 * ((source.length + 2) / 3) ∧
      ∃ chars count, encode source = chars ++ replicate count padding ∧ count ≤ 2 ∧
        ∀ c ∈ chars, c ∈ base64Chars := by
  obtain ⟨decodes, length, padded⟩ := encodes_encode source
  exact ⟨decodes, length, padded⟩

theorem encode_injective : Function.Injective encode := fun first second same =>
  (encodes_encode first).decodes.symm.trans
    ((congrArg decode same).trans (encodes_encode second).decodes)

end NetManager.Http.Base64
