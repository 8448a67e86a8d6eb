import Mathlib.Data.List.Basic
import Mathlib.Data.List.TakeWhile

/-!
# Numerals of C

Reading an integer as `strtol` and `strtoul` do with base 0: leading blanks, an
optional sign, then a hexadecimal, octal or decimal magnitude that ends at the
first character which is not a digit of its base. Reading what is printed in
decimal gives the number back.
-/

namespace Numeral

def isSpace (character : Char) : Bool :=
  character = ' ' || 9 ≤ character.toNat && character.toNat ≤ 13

/-- The value of a digit or letter. -/
def digitValue (character : Char) : Option Nat :=
  if character.isDigit then some (character.toNat - 48)
  else if 'a' ≤ character ∧ character ≤ 'z' then some (character.toNat - 87)
  else if 'A' ≤ character ∧ character ≤ 'Z' then some (character.toNat - 55)
  else none

/-- The character is a digit of the base. -/
def isDigitOf (base : Nat) (character : Char) : Bool := (digitValue character).any (· < base)

/-- The number that the leading digits of a text stand for. -/
def readDigits (base : Nat) (text : List Char) : Option Nat :=
  let digits := text.takeWhile (isDigitOf base)
  if digits.isEmpty then none
  else some (digits.foldl (fun value digit => base * value + (digitValue digit).getD 0) 0)

/-- A magnitude with the prefix of its base. -/
def readMagnitude : List Char → Option Nat
  | '0' :: mark :: rest =>
    if (mark = 'x' ∨ mark = 'X') ∧ rest.head?.any (isDigitOf 16) then readDigits 16 rest
    else readDigits 8 ('0' :: mark :: rest)
  | text => readDigits 10 text

/-- Whether there is a minus sign, and the magnitude. -/
def readSigned : List Char → Option (Bool × Nat)
  | '-' :: rest => (readMagnitude rest).map (true, ·)
  | '+' :: rest => (readMagnitude rest).map (false, ·)
  | rest => (readMagnitude rest).map (false, ·)

/-- The sign and the magnitude of the number that a text begins with. -/
def read (text : String) : Option (Bool × Nat) := readSigned (text.toList.dropWhile isSpace)

/-! ## Decimal digits -/

variable {character : Char}

theorem toNat_of_isDigit (digit : character.isDigit = true) :
    48 ≤ character.toNat ∧ character.toNat ≤ 57 := by
  simpa [Char.isDigit, UInt32.le_iff_toNat_le] using digit

theorem isDigitOf_ten_of_isDigit (digit : character.isDigit = true) :
    isDigitOf 10 character = true := by
  have range := toNat_of_isDigit digit
  simp [isDigitOf, digitValue, digit]
  omega

theorem not_isSpace_of_isDigit (digit : character.isDigit = true) :
    ¬ isSpace character = true := by
  have range := toNat_of_isDigit digit
  have notBlank : character ≠ ' ' := by
    rintro rfl
    simp at range
  simp [isSpace, notBlank]
  omega

theorem readDigits_append (allDigits : ∀ character ∈ digits, character.isDigit = true)
    (ends : rest.takeWhile (isDigitOf 10) = []) :
    readDigits 10 (digits ++ rest) =
      if digits.isEmpty then none else some (Nat.ofDigitChars 10 digits 0) := by
  have whole : (digits ++ rest).takeWhile (isDigitOf 10) = digits := by
    rw [List.takeWhile_append_of_pos fun character member =>
      isDigitOf_ten_of_isDigit (allDigits character member), ends, List.append_nil]
  have values : digits.foldl (fun value digit => 10 * value + (digitValue digit).getD 0) 0 =
      Nat.ofDigitChars 10 digits 0 := by
    apply List.foldl_ext
    intro value digit member
    simp [digitValue, allDigits digit member]
  simp [readDigits, whole, values]

theorem eq_zero_of_digitChar : ∀ digit < 10, Nat.digitChar digit = '0' → digit = 0 := by
  decide

variable (number : Nat)

/-- Printed numbers begin with a digit, and only zero with a zero. -/
theorem toDigits_eq_cons :
    ∃ first rest, Nat.toDigits 10 number = first :: rest ∧
      first.isDigit = true ∧ (first = '0' → number = 0) := by
  induction number using Nat.strongRecOn with
  | ind number ih =>
    rw [Nat.toDigits_eq_if (by decide)]
    split
    next small =>
        exact ⟨number.digitChar, [], rfl, by simp [Nat.isDigit_digitChar, small],
          eq_zero_of_digitChar number small⟩
    next large =>
        obtain ⟨first, rest, digits, isDigit, zero⟩ := ih (number / 10) (by omega)
        refine ⟨first, rest ++ [(number % 10).digitChar], by simp [digits],
          isDigit, fun isZero => ?_⟩
        have := zero isZero
        omega

theorem readDigits_toDigits : readDigits 10 (Nat.toDigits 10 number) = some number := by
  have allDigits : ∀ character ∈ Nat.toDigits 10 number, character.isDigit = true :=
    fun _ member => Nat.isDigit_of_mem_toDigits (by decide) (by decide) member
  simpa using readDigits_append allDigits (List.takeWhile_nil (p := isDigitOf 10))

theorem readMagnitude_toDigits : readMagnitude (Nat.toDigits 10 number) = some number := by
  obtain ⟨first, rest, digits, -, zero⟩ := toDigits_eq_cons number
  by_cases isZero : first = '0'
  · rw [zero isZero]
    rfl
  · have decimal : readMagnitude (first :: rest) = readDigits 10 (first :: rest) := by
      unfold readMagnitude
      split
      · simp_all
      · rfl
    rw [digits, decimal, ← digits, readDigits_toDigits]

theorem dropWhile_toDigits :
    (Nat.toDigits 10 number).dropWhile isSpace = Nat.toDigits 10 number := by
  obtain ⟨first, rest, digits, isDigit, -⟩ := toDigits_eq_cons number
  rw [digits, List.dropWhile_cons_of_neg (not_isSpace_of_isDigit isDigit)]

theorem read_repr : read number.repr = some (false, number) := by
  obtain ⟨first, rest, digits, isDigit, -⟩ := toDigits_eq_cons number
  have magnitude := readMagnitude_toDigits number
  rw [read, Nat.toList_repr, dropWhile_toDigits]
  unfold readSigned
  split
  next tail minus =>
      obtain rfl := (List.cons.inj (digits.symm.trans minus)).1
      simp at isDigit
  next tail plus =>
      obtain rfl := (List.cons.inj (digits.symm.trans plus)).1
      simp at isDigit
  · rw [magnitude, Option.map_some]

theorem read_int_repr (number : Int) :
    read number.repr = some (decide (number < 0), number.natAbs) := by
  cases number with
  | ofNat number => exact read_repr number
  | negSucc number =>
    have minus : ¬ isSpace '-' = true := by decide
    have text : (Int.negSucc number).repr.toList = '-' :: Nat.toDigits 10 (number + 1) := by
      rw [Int.repr, String.toList_append, Nat.toList_repr]
      rfl
    rw [read, text, List.dropWhile_cons_of_neg minus]
    simp [readSigned, readMagnitude_toDigits]

end Numeral
