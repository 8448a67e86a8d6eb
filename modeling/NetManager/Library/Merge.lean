import Mathlib.Algebra.BigOperators.Group.List.Basic

/-!
# Merged records

A record is added to the first item that it fits, or becomes an item. What is counted of
chosen items is then counted of the records, each by the tag of the item it was added to.
-/

namespace Merge

open List

variable {α ρ τ M : Type*}

/-- Change the first item that fits, or add a new one. -/
def put (fits : ρ → Bool) (change : ρ → ρ) (new : ρ) : List ρ → List ρ
  | [] => [new]
  | item :: items => if fits item then change item :: items else item :: put fits change new items

/-- The records, with the tags of the items that they are added to. -/
def credits (fits : α → τ → Bool) (tag : α → τ) : List τ → List α → List (τ × α)
  | _, [] => []
  | tags, record :: records =>
    match tags.find? (fits record) with
    | some leader => (leader, record) :: credits fits tag tags records
    | none => (tag record, record) :: credits fits tag (tags ++ [tag record]) records

/-- The sum over what is chosen. -/
def sumOf [AddMonoid M] (choice : ρ → Bool) (amount : ρ → M) (items : List ρ) : M :=
  (items.map fun item => if choice item then amount item else 0).sum

@[simp] theorem sumOf_cons [AddMonoid M] {choice : ρ → Bool} {amount : ρ → M} :
    sumOf choice amount (item :: items) =
      (if choice item then amount item else 0) + sumOf choice amount items :=
  sum_cons

theorem sumOf_append [AddMonoid M] {choice : ρ → Bool} {amount : ρ → M} :
    sumOf choice amount (first ++ second) =
      sumOf choice amount first + sumOf choice amount second := by
  unfold sumOf
  rw [map_append, sum_append]

theorem map_snd_credits (records : List α) :
    (credits fits tag tags records).map Prod.snd = records := by
  induction records generalizing tags with
  | nil => rfl
  | cons record records ih =>
    unfold credits
    split <;> rw [map_cons, ih]

section Put

variable [AddCommMonoid M] (fits : α → τ → Bool) {tagOf : ρ → τ} {amount : ρ → M}
  {change : α → ρ → ρ} {new : α → ρ}
  (keeps : ∀ record item, tagOf (change record item) = tagOf item)
  (adds : ∀ record item, amount (change record item) = amount item + amount (new record))
include keeps adds

theorem sumOf_put (choice : τ → Bool) (record : α) (items : List ρ) :
    let leader := (items.map tagOf).find? (fits record)
    let after := put (fun item => fits record (tagOf item)) (change record) (new record) items
    sumOf (fun item => choice (tagOf item)) amount after =
        sumOf (fun item => choice (tagOf item)) amount items +
          (if choice (leader.getD (tagOf (new record))) then amount (new record) else 0) ∧
      after.map tagOf = items.map tagOf ++ if leader.isSome then [] else [tagOf (new record)] := by
  induction items with
  | nil => exact ⟨add_comm _ _, rfl⟩
  | cons item items ih =>
    cases isFit : fits record (tagOf item) with
    | true =>
      simp only [put, isFit, if_true, map_cons, find?_cons, keeps, sumOf_cons, adds]
      cases chosen : choice (tagOf item) <;> simp [chosen, add_right_comm]
    | false =>
      simp only [put, isFit, map_cons, find?_cons, sumOf_cons, Bool.false_eq_true, if_false,
        cons_append]
      exact ⟨by rw [ih.1, add_assoc], by rw [ih.2]⟩

theorem sumOf_foldl_put (choice : τ → Bool) :
    sumOf (fun item => choice (tagOf item)) amount
        (records.foldl (fun items record =>
          put (fun item => fits record (tagOf item)) (change record) (new record) items) items) =
      sumOf (fun item => choice (tagOf item)) amount items +
        sumOf (fun credit => choice credit.1) (fun credit => amount (new credit.2))
          (credits fits (fun record => tagOf (new record)) (items.map tagOf) records) := by
  induction records generalizing items with
  | nil => exact (add_zero _).symm
  | cons record records ih =>
    obtain ⟨sum, tags⟩ := sumOf_put fits keeps adds choice record items
    rw [foldl_cons, ih, sum, tags, credits, add_assoc]
    cases (items.map tagOf).find? (fits record) <;> simp

end Put

/-- Two choices count the same if what only one of them counts is the same. -/
theorem sumOf_eq_iff [AddCancelCommMonoid M] (first second : ρ → Bool) (amount : ρ → M)
    (items : List ρ) :
    sumOf first amount items = sumOf second amount items ↔
      sumOf (fun item => first item && !second item) amount items =
        sumOf (fun item => second item && !first item) amount items := by
  have split (first second : ρ → Bool) : sumOf first amount items =
      sumOf (fun item => first item && second item) amount items +
        sumOf (fun item => first item && !second item) amount items := by
    unfold sumOf
    rw [← sum_map_add]
    refine congrArg List.sum (map_congr_left fun item _ => ?_)
    cases isFirst : first item <;> cases isSecond : second item <;> simp [isFirst, isSecond]
  rw [split first second, split second first]
  simp [Bool.and_comm (second _) (first _)]

end Merge
