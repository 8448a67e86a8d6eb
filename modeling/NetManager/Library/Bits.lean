import Mathlib.Data.Nat.Log
import Mathlib.Tactic.Ring

/-!
# Counting bits by shifting

The two counting loops that arithmetic on power-of-two blocks needs: the number
of trailing zero bits, and the position of the leading one bit. Both shift
right once a turn and are bounded by the width of the word they are given.
-/

namespace BitCount

/-- `while ((n & 1) == 0) { ++count; n >>= 1; }` for at most `width` turns. -/
def trailingZeros : (width n : Nat) → Nat
  | 0, _ => 0
  | width + 1, n => if n &&& 1 = 0 then trailingZeros width (n >>> 1) + 1 else 0

/-- `while (n >>= 1) ++count` for at most `width` turns. -/
def leadingBit : (width n : Nat) → Nat
  | 0, _ => 0
  | width + 1, n => if n >>> 1 = 0 then 0 else leadingBit width (n >>> 1) + 1

theorem two_pow_trailingZeros_dvd (width n : Nat) : 2 ^ trailingZeros width n ∣ n := by
  induction width generalizing n with
  | zero => simp [trailingZeros]
  | succ width ih =>
    unfold trailingZeros
    split
    next even =>
      obtain ⟨k, half⟩ := ih (n >>> 1)
      rw [Nat.and_one_is_mod] at even
      refine ⟨k, ?_⟩
      rw [pow_succ, mul_right_comm]
      omega
    next odd => simp

variable {width n : Nat}

theorem trailingZeros_lt (positive : 0 < n) (small : n < 2 ^ width) :
    trailingZeros width n < width := by
  have le := Nat.le_of_dvd positive (two_pow_trailingZeros_dvd width n)
  exact (Nat.pow_lt_pow_iff_right (by decide)).mp (le.trans_lt small)

theorem leadingBit_eq_log (small : n < 2 ^ (width + 1)) : leadingBit width n = Nat.log 2 n := by
  induction width generalizing n with
  | zero =>
    have : n < 2 := small
    rw [Nat.log_of_lt this]
    rfl
  | succ width ih =>
    unfold leadingBit
    rw [Nat.shiftRight_eq_div_pow]
    split
    next less => rw [Nat.log_of_lt (by omega)]
    next more =>
      have halfSmall : n / 2 < 2 ^ (width + 1) := by
        omega
      rw [ih halfSmall, Nat.log_div_base]
      have : 0 < Nat.log 2 n := Nat.log_pos (by decide) (by omega)
      omega

theorem two_pow_leadingBit_le (positive : 0 < n) (small : n < 2 ^ (width + 1)) :
    2 ^ leadingBit width n ≤ n := by
  rw [leadingBit_eq_log small]
  exact Nat.pow_log_le_self 2 (by omega)

theorem leadingBit_le (small : n < 2 ^ (width + 1)) : leadingBit width n ≤ width := by
  rw [leadingBit_eq_log small]
  by_cases positive : 0 < n
  · exact Nat.lt_succ_iff.mp
      ((Nat.pow_lt_pow_iff_right (by decide)).mp
        ((Nat.pow_log_le_self 2 (by omega)).trans_lt small))
  · simp [show n = 0 by omega]

/-- `while (n > limit) n >>= 1` for at most `width` turns. -/
def halveTo : (width limit n : Nat) → Nat
  | 0, _, n => n
  | width + 1, limit, n => if limit < n then halveTo width limit (n >>> 1) else n

/-- `while (n > 1) { count--; n >>= 1; }` for at most `width` turns. -/
def countDown : (width count n : Nat) → Nat
  | 0, count, _ => count
  | width + 1, count, n => if 1 < n then countDown width (count - 1) (n >>> 1) else count

theorem halveTo_two_pow (positive : 0 < limit) (enough : bits ≤ width) :
    ∃ fewer ≤ bits, halveTo width limit (2 ^ bits) = 2 ^ fewer ∧ 2 ^ fewer ≤ limit := by
  induction width generalizing bits with
  | zero =>
    obtain rfl : bits = 0 := by omega
    exact ⟨0, le_rfl, rfl, positive⟩
  | succ width ih =>
    unfold halveTo
    split
    case isFalse within => exact ⟨bits, le_rfl, rfl, by omega⟩
    case isTrue above =>
      cases bits with
      | zero => omega
      | succ bits =>
        rw [Nat.shiftRight_eq_div_pow, pow_succ, Nat.mul_div_cancel _ (by decide)]
        obtain ⟨fewer, le, halved, within⟩ := ih (Nat.le_of_succ_le_succ enough)
        exact ⟨fewer, by omega, halved, within⟩

theorem countDown_two_pow (enough : bits ≤ width) :
    countDown width count (2 ^ bits) = count - bits := by
  induction width generalizing bits count with
  | zero =>
    obtain rfl : bits = 0 := by omega
    rfl
  | succ width ih =>
    unfold countDown
    cases bits with
    | zero => simp
    | succ bits =>
      have large : 1 < 2 ^ (bits + 1) := Nat.one_lt_two_pow (by omega)
      rw [if_pos large, Nat.shiftRight_eq_div_pow, pow_succ, Nat.mul_div_cancel _ (by decide),
        ih (Nat.le_of_succ_le_succ enough)]
      omega

end BitCount
