import Mathlib.Data.BitVec
import Mathlib.Data.Fintype.Pi

/-!
# Rule bitmaps

The firewall gives every rule one bit of a bitmap of 63 words. The operations
of `Bitmap` in `bitmap_manager.cpp` and of `netfirewall_bitmap.h` are kept at
the level of words. The rest of the development reads a bitmap through `test`,
the bit of one rule.
-/

namespace NetManager.Firewall

open BitVec

def bitmapLen : Nat := 63

/-- `BITMAP_BITS`, the number of rules a bitmap can hold. -/
def bitmapBits : Nat := bitmapLen * 32

/-- `bitmap_t`, one bit for each rule. -/
structure Bitmap where
  /-- The words, least significant rule first. -/
  words : Fin bitmapLen → BitVec 32
  deriving DecidableEq

namespace Bitmap

/-- `Bitmap::Clear`, the bitmap of no rule. -/
def clear : Bitmap := ⟨fun _ => 0⟩

/-- `Bitmap::Set`, which ignores indices beyond the last word. -/
def set (bitmap : Bitmap) (n : Nat) : Bitmap :=
  if n < bitmapBits then
    ⟨fun i =>
      if i.val = n >>> 5 then bitmap.words i ||| (1#32 <<< (n &&& 0x1f))
      else bitmap.words i⟩
  else bitmap

/-- `Bitmap::Bitmap(uint32_t n)`, the bitmap of rule `n` alone. -/
def single (n : Nat) : Bitmap := clear.set n

/-- `Bitmap::Or`. -/
def or (bitmap other : Bitmap) : Bitmap := ⟨fun i => bitmap.words i ||| other.words i⟩

/-- `Bitmap::And` and `bitmap_and`. -/
def and (bitmap other : Bitmap) : Bitmap := ⟨fun i => bitmap.words i &&& other.words i⟩

/-- `bitmap_and_inv`. -/
def andInv (bitmap other : Bitmap) : Bitmap := ⟨fun i => bitmap.words i &&& ~~~ other.words i⟩

/-- `bitmap_positive`: some word is not zero. -/
def positive (bitmap : Bitmap) : Bool := decide (∃ i, 0#32 < bitmap.words i)

/-- All bits set, as `memset(key, 0xff, ...)` leaves them. -/
def full : Bitmap := ⟨fun _ => allOnes 32⟩

/-- The bit of rule `n`. -/
def test (bitmap : Bitmap) (n : Nat) : Bool :=
  if inside : n / 32 < bitmapLen then (bitmap.words ⟨n / 32, inside⟩).getLsbD (n % 32)
  else false

variable {n : Nat}

theorem div_lt_bitmapLen_iff : n / 32 < bitmapLen ↔ n < bitmapBits := by
  unfold bitmapBits
  omega

@[simp] theorem test_clear : clear.test n = false := by
  simp [test, clear]

@[simp] theorem test_full : full.test n = decide (n < bitmapBits) := by
  by_cases inside : n / 32 < bitmapLen
  · have range := div_lt_bitmapLen_iff.mp inside
    simp only [test, full, inside, dite_true, getLsbD_allOnes, range,
      Nat.mod_lt n (show 0 < 32 by decide)]
  · have range : ¬ n < bitmapBits := fun h => inside (div_lt_bitmapLen_iff.mpr h)
    simp [test, inside, range]

section

variable (bitmap other : Bitmap) (n : Nat)

@[simp] theorem test_or : (bitmap.or other).test n = (bitmap.test n || other.test n) := by
  unfold test
  split <;> simp [or]

@[simp] theorem clear_or (bitmap : Bitmap) : clear.or bitmap = bitmap := by
  simp [or, clear]

@[simp] theorem test_and : (bitmap.and other).test n = (bitmap.test n && other.test n) := by
  unfold test
  split <;> simp [and]

@[simp] theorem test_andInv : (bitmap.andInv other).test n = (bitmap.test n && !other.test n) := by
  unfold test
  split <;> simp [andInv, Nat.mod_lt n (show 0 < 32 by decide)]

end

theorem test_set (bitmap : Bitmap) :
    (bitmap.set n).test i = (bitmap.test i || decide (i = n ∧ n < bitmapBits)) := by
  unfold set
  split
  case isFalse outside => simp [outside]
  case isTrue inside =>
    have word : n >>> 5 = n / 32 := Nat.shiftRight_eq_div_pow n 5
    have offset : n &&& 0x1f = n % 32 := Nat.and_two_pow_sub_one_eq_mod n 5
    unfold test
    split
    case isFalse beyond =>
      have : i ≠ n := fun same => beyond (by
        rw [same, div_lt_bitmapLen_iff]; exact inside)
      simp [this]
    case isTrue below =>
      simp only [word, offset]
      by_cases sameWord : i / 32 = n / 32
      · have bit : (1#32 <<< (n % 32)).getLsbD (i % 32) = decide (i % 32 = n % 32) := by
          rw [← twoPow_eq, getLsbD_twoPow]
          simp [Nat.mod_lt n (show 0 < 32 by decide), eq_comm]
        have whole : i = n ↔ i % 32 = n % 32 := by omega
        simp [sameWord, bit, whole, inside]
      · have : i ≠ n := fun same => sameWord (by rw [same])
        simp [sameWord, this]

@[simp] theorem test_single (n i : Nat) : (single n).test i = decide (i = n ∧ n < bitmapBits) := by
  simp [single, test_set]

variable {bitmap : Bitmap}

theorem lt_of_test (set : bitmap.test n = true) : n < bitmapBits := by
  by_contra outside
  have : ¬ n / 32 < bitmapLen := fun h => outside (div_lt_bitmapLen_iff.mp h)
  simp [test, this] at set

theorem ext_test (same : ∀ n, bitmap.test n = other.test n) :
    bitmap = other := by
  obtain ⟨words⟩ := bitmap
  congr 1
  funext i
  apply eq_of_getLsbD_eq
  intro j bound
  have index : (32 * i.val + j) / 32 = i.val := by omega
  have offset : (32 * i.val + j) % 32 = j := by omega
  have bit := same (32 * i.val + j)
  simpa [test, index, offset] using bit

theorem or_assoc (first second third : Bitmap) :
    (first.or second).or third = first.or (second.or third) := by
  apply ext_test
  simp [Bool.or_assoc]

@[simp] theorem or_clear : bitmap.or clear = bitmap := by
  apply ext_test
  simp

theorem positive_iff : bitmap.positive = true ↔ ∃ n, bitmap.test n = true := by
  rw [positive, decide_eq_true_iff]
  constructor
  · rintro ⟨i, nonzero⟩
    by_contra none
    have zero : bitmap = clear := ext_test fun n => by
      rw [test_clear]
      exact Bool.eq_false_iff.mpr fun set => none ⟨n, set⟩
    rw [zero] at nonzero
    exact absurd nonzero (by simp [clear])
  · rintro ⟨n, set⟩
    have inside : n / 32 < bitmapLen := div_lt_bitmapLen_iff.mpr (lt_of_test set)
    refine ⟨⟨n / 32, inside⟩, ?_⟩
    rw [pos_iff_ne_zero]
    intro zero
    simp [test, inside, zero] at set

end Bitmap

end NetManager.Firewall
