import Mathlib.Algebra.Group.Nat.Defs
import Mathlib.Data.List.Infix

/-!
# Bytes on a wire

What lies at a position of a packet, reading inside of it, numbers in network byte order
and sequences of items.
-/

namespace Wire

open List

/-- A string of bytes. -/
abbrev Bytes := List UInt8

/-! ## Positions -/

/-- The bytes lie at the position. -/
def At (data : Bytes) (pos : Nat) (bytes : Bytes) : Prop := bytes <+: data.drop pos

variable {data longer bytes : Bytes} {pos : Nat}

theorem at_append_iff (first second : Bytes) :
    At data pos (first ++ second) ↔ At data pos first ∧ At data (pos + first.length) second := by
  unfold At
  rw [← drop_drop]
  constructor
  · rintro ⟨rest, is⟩
    rw [← is, append_assoc]
    exact ⟨prefix_append _ _, by rw [drop_left]; exact prefix_append _ _⟩
  · rintro ⟨⟨rest, is⟩, second⟩
    rw [← is, drop_left] at second
    rw [← is]
    exact (prefix_append_right_inj _).mpr second

theorem At.of_isPrefix (lies : At data pos bytes) (more : data <+: longer) :
    At longer pos bytes := by
  obtain ⟨rest, rfl⟩ := more
  unfold At
  rw [drop_append]
  exact lies.trans (prefix_append _ _)

theorem at_length (data bytes : Bytes) : At (data ++ bytes) data.length bytes := by
  rw [At, drop_left]

theorem At.length_le (lies : At data pos bytes) (nonempty : bytes ≠ []) :
    pos + bytes.length ≤ data.length := by
  have fits := List.IsPrefix.length_le lies
  have := length_pos_iff.mpr nonempty
  rw [length_drop] at fits
  omega

theorem at_singleton_iff : At data pos [byte] ↔ data[pos]? = some byte := by
  rw [At, singleton_prefix_iff_head?_eq_some, head?_drop]

/-! ## Reading -/

/-- Read bytes; there is nothing to read outside. -/
def read (data : Bytes) (pos count : Nat) : Option Bytes :=
  if pos + count ≤ data.length then some ((data.drop pos).take count) else none

variable {count : Nat}

theorem read_eq_some_iff :
    read data pos count = some bytes ↔
      pos + count ≤ data.length ∧ bytes.length = count ∧ At data pos bytes := by
  unfold read
  split
  case isFalse outside => simp [outside]
  case isTrue inside =>
    rw [Option.some_inj, At, prefix_iff_eq_take]
    constructor
    · rintro rfl
      have counted : ((data.drop pos).take count).length = count := by
        rw [length_take, length_drop]
        omega
      rw [counted]
      exact ⟨inside, rfl, rfl⟩
    · rintro ⟨_, rfl, is⟩
      exact is.symm

theorem exists_read (inside : pos + count ≤ data.length) :
    ∃ bytes, read data pos count = some bytes := ⟨_, if_pos inside⟩

/-! ## Network byte order -/

/-- A number as that many bytes, the most significant one first. -/
def bigEndian : Nat → Nat → Bytes
  | 0, _ => []
  | count + 1, value => bigEndian count (value / 256) ++ [UInt8.ofNat value]

section

variable (count value : Nat) (bytes : Bytes)

/-- The number that bytes stand for. -/
def ofBigEndian : Nat := bytes.foldl (fun value byte => value * 256 + byte.toNat) 0

@[simp] theorem length_bigEndian : (bigEndian count value).length = count := by
  induction count generalizing value with
  | zero => rfl
  | succ count ih => rw [bigEndian, length_append, ih, length_singleton]

theorem ofBigEndian_concat :
    ofBigEndian (bytes ++ [byte]) = ofBigEndian bytes * 256 + byte.toNat := by
  rw [ofBigEndian, foldl_append]
  rfl

theorem ofBigEndian_bigEndian : ofBigEndian (bigEndian count value) = value % 256 ^ count := by
  induction count generalizing value with
  | zero => rw [pow_zero, Nat.mod_one]; rfl
  | succ count ih =>
    have split : value % (256 * 256 ^ count) = value % 256 + 256 * (value / 256 % 256 ^ count) :=
      Nat.mod_mul
    rw [bigEndian, ofBigEndian_concat, ih, UInt8.toNat_ofNat', pow_succ' 256 count]
    omega

theorem bigEndian_ofBigEndian : bigEndian bytes.length (ofBigEndian bytes) = bytes := by
  induction bytes using List.reverseRecOn with
  | nil => rfl
  | append_singleton bytes byte ih =>
    have small := byte.toNat_lt
    have low : UInt8.ofNat (ofBigEndian bytes * 256 + byte.toNat) = byte := by
      apply UInt8.toNat_inj.mp
      rw [UInt8.toNat_ofNat']
      omega
    have high : (ofBigEndian bytes * 256 + byte.toNat) / 256 = ofBigEndian bytes := by
      omega
    rw [length_append, length_singleton, bigEndian, ofBigEndian_concat, low, high, ih]

theorem ofBigEndian_lt : ofBigEndian bytes < 256 ^ bytes.length := by
  rw [← bigEndian_ofBigEndian bytes, ofBigEndian_bigEndian, length_bigEndian]
  exact Nat.mod_lt _ (Nat.pow_pos (by decide))

end

/-- Read a number. -/
def readNumber (data : Bytes) (pos count : Nat) : Option Nat :=
  (read data pos count).map ofBigEndian

theorem exists_readNumber (inside : pos + count ≤ data.length) :
    ∃ value, readNumber data pos count = some value := by
  obtain ⟨bytes, reads⟩ := exists_read inside
  exact ⟨ofBigEndian bytes, by rw [readNumber, reads, Option.map_some]⟩

theorem readNumber_eq_some_iff :
    readNumber data pos count = some value ↔
      pos + count ≤ data.length ∧ value < 256 ^ count ∧ At data pos (bigEndian count value) := by
  unfold readNumber
  rw [Option.map_eq_some_iff]
  constructor
  · rintro ⟨bytes, reads, rfl⟩
    obtain ⟨inside, rfl, lies⟩ := read_eq_some_iff.mp reads
    exact ⟨inside, ofBigEndian_lt bytes, by rw [bigEndian_ofBigEndian]; exact lies⟩
  · rintro ⟨inside, small, lies⟩
    refine ⟨_, read_eq_some_iff.mpr ⟨inside, length_bigEndian _ _, lies⟩, ?_⟩
    rw [ofBigEndian_bigEndian, Nat.mod_eq_of_lt small]

/-! ## Sequences -/

variable {β : Type*}

/-- Items one after the other, from a position to another. -/
inductive Items (itemAt : Nat → β → Nat → Prop) : Nat → List β → Nat → Prop
  | nil (pos : Nat) : Items itemAt pos [] pos
  | cons
      {start mid stop : Nat}
      {item : β}
      {items : List β}
      (first : itemAt start item mid)
      (rest : Items itemAt mid items stop) :
      Items itemAt start (item :: items) stop

end Wire
