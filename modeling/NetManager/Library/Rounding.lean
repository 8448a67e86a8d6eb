import Mathlib.Tactic.Ring

/-!
# Rounding to powers of two

The multiple of `2 ^ k` at or below a number and the first one above it. Going from
one power to the next changes the first only at a one bit and the second only at a
zero bit, so both stay the same along a run of equal bits.
-/

namespace Rounding

section

variable (k n : Nat)

/-- The largest multiple of `2 ^ k` that is not above a number. -/
def roundDown : Nat := n / 2 ^ k * 2 ^ k

/-- The smallest multiple of `2 ^ k` above a number. -/
def roundUp : Nat := (n / 2 ^ k + 1) * 2 ^ k

@[simp] theorem roundDown_zero : roundDown 0 n = n := by
  simp [roundDown]

theorem roundDown_le : roundDown k n ≤ n := Nat.div_mul_le_self n (2 ^ k)

theorem roundUp_eq : roundUp k n = roundDown k n + 2 ^ k := by
  unfold roundUp roundDown
  rw [Nat.add_mul, Nat.one_mul]

theorem dvd_roundDown : 2 ^ k ∣ roundDown k n := Nat.dvd_mul_left _ _

theorem dvd_roundUp : 2 ^ k ∣ roundUp k n := Nat.dvd_mul_left _ _

theorem div_two_pow_eq : n / 2 ^ k = 2 * (n / 2 ^ (k + 1)) + (n.testBit k).toNat := by
  have halves : n / 2 ^ (k + 1) = n / 2 ^ k / 2 := by
    rw [Nat.pow_succ, Nat.div_div_eq_div_mul]
  rw [Nat.testBit_eq_decide_div_mod_eq]
  by_cases odd : n / 2 ^ k % 2 = 1
  · rw [decide_eq_true odd, Bool.toNat_true]
    omega
  · rw [decide_eq_false odd, Bool.toNat_false]
    omega

theorem roundDown_eq_succ : roundDown k n = roundDown (k + 1) n + (n.testBit k).toNat * 2 ^ k := by
  unfold roundDown
  rw [div_two_pow_eq k n]
  ring

end

theorem roundDown_of_zero (zero : n.testBit k = false) : roundDown k n = roundDown (k + 1) n := by
  rw [roundDown_eq_succ, zero, Bool.toNat_false, Nat.zero_mul, Nat.add_zero]

theorem roundDown_of_one (one : n.testBit k = true) :
    roundDown k n = roundDown (k + 1) n + 2 ^ k := by
  rw [roundDown_eq_succ, one, Bool.toNat_true, Nat.one_mul]

theorem roundUp_of_zero (zero : n.testBit k = false) : roundUp k n + 2 ^ k = roundUp (k + 1) n := by
  rw [roundUp_eq, roundUp_eq, roundDown_of_zero zero]
  ring

theorem roundUp_of_one (one : n.testBit k = true) : roundUp k n = roundUp (k + 1) n := by
  rw [roundUp_eq, roundUp_eq, roundDown_of_one one]
  ring

theorem roundDown_of_zeros (le : k ≤ m)
    (zeros : ∀ i, k ≤ i → i < m → n.testBit i = false) :
    roundDown k n = roundDown m n := by
  induction m, le using Nat.le_induction with
  | base => rfl
  | succ m le ih =>
    rw [ih fun i lower upper => zeros i lower (by omega)]
    exact roundDown_of_zero (zeros m le (Nat.lt_succ_self m))

theorem roundUp_of_ones (le : k ≤ m)
    (ones : ∀ i, k ≤ i → i < m → n.testBit i = true) :
    roundUp k n = roundUp m n := by
  induction m, le using Nat.le_induction with
  | base => rfl
  | succ m le ih =>
    rw [ih fun i lower upper => ones i lower (by omega)]
    exact roundUp_of_one (ones m le (Nat.lt_succ_self m))

theorem roundUp_lt (small : n < 2 ^ w) (inside : k < w) (zero : n.testBit k = false) :
    roundUp k n < 2 ^ w := by
  have above := roundUp_of_zero zero
  have whole : 2 ^ w = 2 ^ (w - (k + 1)) * 2 ^ (k + 1) := by
    rw [← Nat.pow_add, Nat.sub_add_cancel inside]
  have quotient : n / 2 ^ (k + 1) < 2 ^ (w - (k + 1)) := by
    rw [Nat.div_lt_iff_lt_mul (Nat.two_pow_pos _), ← whole]
    exact small
  have fits : roundUp (k + 1) n ≤ 2 ^ w := by
    rw [whole]
    exact Nat.mul_le_mul_right _ quotient
  have positive := Nat.two_pow_pos k
  omega

theorem testBit_of_dvd (aligned : 2 ^ k ∣ n) (below : i < k) :
    n.testBit i = false := by
  obtain ⟨q, rfl⟩ := aligned
  rw [Nat.testBit_two_pow_mul, decide_eq_false (by omega), Bool.false_and]

end Rounding
