import Mathlib.Algebra.Group.Int.Defs
import Mathlib.Algebra.Group.Nat.Defs
import NetManager.Library.Numeral

/-!
# Common utilities

The conversions of `CommonUtils` between texts and integers. Each of them reads
what `std::to_string` writes.
-/

namespace NetManager.CommonUtils

/-- What `strtol` and `strtoll` return where it is in range. -/
def signedValue (negative : Bool) (magnitude : Nat) : Int :=
  if negative then -magnitude else magnitude

variable (value : String)

def strToInt (defaultErr : Int32) : Int32 :=
  match Numeral.read value with
  | none => defaultErr
  | some (negative, magnitude) =>
    let result := signedValue negative magnitude
    if result < -2 ^ 31 ∨ 2 ^ 31 ≤ result then defaultErr
    else Int32.ofInt result

def strToLong (defaultErr : Int64) : Int64 :=
  match Numeral.read value with
  | none => defaultErr
  | some (negative, magnitude) =>
    let result := signedValue negative magnitude
    if result < -2 ^ 63 ∨ 2 ^ 63 ≤ result then defaultErr
    else Int64.ofInt result

/-- `strtoul`, when it reports no error. A minus sign negates modulo `2 ^ 64`. -/
def strtoul : Option Nat :=
  match Numeral.read value with
  | none => none
  | some (negative, magnitude) =>
    if 2 ^ 64 ≤ magnitude then none
    else if negative then some ((2 ^ 64 - magnitude) % 2 ^ 64)
    else some magnitude

def strToUint (defaultErr : BitVec 32) : BitVec 32 :=
  match strtoul value with
  | none => defaultErr
  | some result => if 2 ^ 32 ≤ result then defaultErr else BitVec.ofNat 32 result

def strToBool (defaultErr : Bool) : Bool :=
  match strtoul value with
  | none => defaultErr
  | some result => if 2 ^ 32 ≤ result then defaultErr else result ≠ 0

/-! ## Reading what was written -/

theorem signedValue_of_int : signedValue (decide (number < 0)) number.natAbs = number := by
  unfold signedValue
  split
  next isNegative =>
    have negative : number < 0 := of_decide_eq_true isNegative
    omega
  next notNegative =>
    have positive : ¬ number < 0 := fun negative => notNegative (decide_eq_true negative)
    omega

@[simp] theorem strToInt_repr : strToInt number.toInt.repr defaultErr = number := by
  have above := number.le_toInt
  have below := number.toInt_lt
  rw [strToInt, Numeral.read_int_repr]
  simp only [signedValue_of_int]
  rw [if_neg (by omega), Int32.ofInt_toInt]

@[simp] theorem strToLong_repr : strToLong number.toInt.repr defaultErr = number := by
  have above := number.le_toInt
  have below := number.toInt_lt
  rw [strToLong, Numeral.read_int_repr]
  simp only [signedValue_of_int]
  rw [if_neg (by omega), Int64.ofInt_toInt]

theorem strtoul_repr (small : number < 2 ^ 64) :
    strtoul number.repr = some number := by
  rw [strtoul, Numeral.read_repr]
  simp only [Bool.false_eq_true, if_false]
  rw [if_neg (by omega)]

@[simp] theorem strToUint_repr : strToUint number.toNat.repr defaultErr = number := by
  rw [strToUint, strtoul_repr (by omega)]
  simp only
  rw [if_neg (by omega), BitVec.ofNat_toNat, BitVec.setWidth_eq]

@[simp] theorem strToBool_repr (value defaultErr : Bool) :
    strToBool value.toNat.repr defaultErr = value := by
  have small : value.toNat < 2 := Bool.toNat_lt value
  rw [strToBool, strtoul_repr (by omega)]
  cases value <;> rfl

theorem repr_toNat_injective : Function.Injective fun number : BitVec 32 =>
    number.toNat.repr := by
  intro first second same
  have read := congrArg (strToUint · 0) same
  simpa using read

end NetManager.CommonUtils
