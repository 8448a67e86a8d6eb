import Mathlib.Data.List.Infix

/-!
# Shell expressions of proxy scripts

A C string is the list of its characters before the terminating zero.
-/

namespace NetManager.ConnService.PacFunctions

open List

/-- The loop of `MatchPattern` over the rests of a string. -/
def anyRest (accepts : List Char → Bool) : List Char → Bool
  | [] => accepts []
  | c :: str => if accepts (c :: str) then true else anyRest accepts str

def matchPattern : List Char → List Char → Bool
  | str, [] => str.isEmpty
  | str, p :: pattern =>
    if p = '*' then anyRest (fun rest => matchPattern rest pattern) str
    else
      match str with
      | [] => false
      | c :: str => if p = '?' || p = c then matchPattern str pattern else false

/-- A string is what a shell expression stands for. -/
inductive ShExp : List Char → List Char → Prop
  | nil : ShExp [] []
  | star (any : List Char) (rest : ShExp pattern str) : ShExp ('*' :: pattern) (any ++ str)
  | question (c : Char) (rest : ShExp pattern str) : ShExp ('?' :: pattern) (c :: str)
  | char (notStar : c ≠ '*') (notQuestion : c ≠ '?') (rest : ShExp pattern str) :
      ShExp (c :: pattern) (c :: str)

theorem anyRest_iff : anyRest accepts str = true ↔ ∃ rest, rest <:+ str ∧ accepts rest = true := by
  induction str with
  | nil => simp [anyRest]
  | cons c str ih =>
    rw [anyRest, Bool.if_true_left, Bool.or_eq_true_iff, decide_eq_true_iff, ih]
    simp [suffix_cons_iff]

/-- `MatchPattern` returns, and it tells the strings of the pattern from the others. -/
theorem matchPattern_iff (str pattern : List Char) :
    matchPattern str pattern = true ↔ ShExp pattern str := by
  induction pattern generalizing str with
  | nil =>
    rw [matchPattern, List.isEmpty_iff]
    constructor
    · rintro rfl
      exact .nil
    · rintro ⟨⟩
      rfl
  | cons p pattern ih =>
    unfold matchPattern
    by_cases star : p = '*'
    · rw [if_pos star, star, anyRest_iff]
      simp only [ih]
      constructor
      · rintro ⟨rest, ⟨any, rfl⟩, matched⟩
        exact .star any matched
      · intro matched
        cases matched with
        | star any rest => exact ⟨_, suffix_append any _, rest⟩
        | char notStar => exact absurd rfl notStar
    · rw [if_neg star]
      constructor
      · intro matched
        cases str with
        | nil => cases matched
        | cons c rest =>
          dsimp only at matched
          split_ifs at matched with same
          have rests := (ih rest).mp matched
          by_cases question : p = '?'
          · exact question ▸ .question c rests
          · obtain rfl : p = c := by simpa [question] using same
            exact .char star question rests
      · intro matched
        cases matched with
        | star => exact absurd rfl star
        | question c rest => exact (ih _).mpr rest
        | char notStar notQuestion rest => simpa [notQuestion] using (ih _).mpr rest

end NetManager.ConnService.PacFunctions
