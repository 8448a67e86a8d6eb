import Mathlib.Data.List.Infix
import Mathlib.Data.List.TakeWhile

/-!
# Strings of labels

A list of labels is written either with a separator between them or with its length
before each one. Reversing a text with separators reverses the order of the labels and
each of them; reversing the other form puts the lengths behind.
-/

namespace Labels

open List

variable {β : Type*}

/-! ## Separators -/

/-- A text is one label, or a label before a separator and another text. -/
theorem labelInduction [DecidableEq β] (separator : β) {motive : List β → Prop}
    (single : ∀ label, separator ∉ label → motive label)
    (more : ∀ label text, separator ∉ label → motive text → motive (label ++ separator :: text)) :
    motive text := by
  by_cases member : separator ∈ text
  · obtain ⟨label, rest, rfl, clean⟩ := eq_append_cons_of_mem member
    exact more label rest clean (labelInduction separator single more)
  · exact single text member
termination_by text.length

theorem not_mem_splitOn [DecidableEq β] {text label : List β}
    (member : label ∈ text.splitOn separator) :
    separator ∉ label := by
  induction text using labelInduction separator with
  | single text clean =>
    rw [splitOn_eq_singleton clean, mem_singleton] at member
    exact member ▸ clean
  | more first text clean ih =>
    rw [splitOn_append_cons_self_of_not_mem clean] at member
    obtain rfl | later := mem_cons.mp member
    · exact clean
    · exact ih later

theorem splitOn_reverse [DecidableEq β] (text : List β) :
    text.reverse.splitOn separator = ((text.splitOn separator).map List.reverse).reverse := by
  induction text using labelInduction separator with
  | single text clean => simp [splitOn_eq_singleton, clean]
  | more label text clean ih =>
    rw [reverse_append, reverse_cons, append_assoc, singleton_append, splitOn_append_cons_self, ih,
      splitOn_append_cons_self_of_not_mem clean]
    simp [splitOn_eq_singleton, clean]

variable {label : List β}

theorem takeWhile_intercalate [DecidableEq β] (clean : separator ∉ label) :
    ([separator].intercalate (label :: labels)).takeWhile (· ≠ separator) = label := by
  have all : ∀ letter ∈ label, decide (letter ≠ separator) = true :=
    fun letter member => decide_eq_true fun same => clean (same ▸ member)
  cases labels with
  | nil => rw [intercalate_singleton, takeWhile_eq_self_iff.mpr all]
  | cons next labels =>
    rw [intercalate_cons_cons, append_assoc, takeWhile_append_of_pos all]
    simp

theorem drop_dropWhile_intercalate [DecidableEq β]
    (clean : separator ∉ label) :
    (([separator].intercalate (label :: labels)).dropWhile (· ≠ separator)).drop 1 =
      [separator].intercalate labels := by
  have all : ∀ letter ∈ label, decide (letter ≠ separator) = true :=
    fun letter member => decide_eq_true fun same => clean (same ▸ member)
  cases labels with
  | nil => rw [intercalate_singleton, dropWhile_eq_nil_iff.mpr all]; rfl
  | cons next labels =>
    rw [intercalate_cons_cons, append_assoc, dropWhile_append_of_pos all]
    simp

/-! ## Lengths -/

variable (size : Nat → β)

/-- Each label after its length. -/
def wire (labels : List (List β)) : List β := labels.flatMap fun label => size label.length :: label

/-- Each label before its length. -/
def trailed (labels : List (List β)) : List β :=
  labels.flatMap fun label => label ++ [size label.length]

theorem reverse_wire :
    (wire size labels).reverse = trailed size (labels.map List.reverse).reverse := by
  induction labels with
  | nil => rfl
  | cons label labels ih =>
    simp only [wire, trailed, flatMap_cons, map_cons, reverse_cons,
      reverse_append, flatMap_append, flatMap_nil, append_nil,
      length_reverse] at *
    rw [ih]

theorem length_trailed_cons (label : List β) (labels : List (List β)) :
    (trailed size (label :: labels)).length = label.length + 1 + (trailed size labels).length := by
  simp only [trailed, flatMap_cons, length_append, length_singleton]

theorem length_wire_cons :
    (wire size (label :: labels)).length = label.length + 1 + (wire size labels).length := by
  simp only [wire, flatMap_cons, length_append, length_cons]

theorem length_wire_splitOn [DecidableEq β] (separator : β) (text : List β) :
    (wire size (text.splitOn separator)).length = text.length + 1 := by
  induction text using labelInduction separator with
  | single text clean => simp [splitOn_eq_singleton clean, wire]
  | more label text clean ih =>
    rw [splitOn_append_cons_self_of_not_mem clean, length_wire_cons, ih, length_append, length_cons]
    omega

theorem head?_splitOn_cons [DecidableEq β] (text : List β) :
    ((letter :: text).splitOn separator).head? = some [] ↔ letter = separator := by
  rw [splitOn_cons_eq_if_modifyHead]
  split
  next same => simp_all
  next differs =>
    cases parts : text.splitOn separator with
    | nil => exact absurd parts (splitOn_ne_nil _ _)
    | cons part parts' => simp_all

/-- A letter that is not in a label begins a suffix only behind it. -/
theorem suffix_of_suffix_append (absent : letter ∉ label)
    (suffix : letter :: word <:+ label ++ rest) :
    letter :: word <:+ rest := by
  induction label with
  | nil => exact suffix
  | cons first label ih =>
    rw [mem_cons, not_or] at absent
    rw [cons_append, suffix_cons_iff] at suffix
    rcases suffix with whole | later
    · exact absurd (List.cons.inj whole).1 absent.1
    · exact ih absent.2 later

variable {size} {part labels : List (List β)}

section

variable (apart : ∀ first ∈ part, ∀ second ∈ labels, size first.length = size second.length →
  first.length = second.length)

include apart

theorem eq_of_wire_eq (same : wire size part = wire size labels) : part = labels := by
  induction part generalizing labels with
  | nil =>
    cases labels with
    | nil => rfl
    | cons => cases same
  | cons first part ih =>
    cases labels with
    | nil => cases same
    | cons second labels =>
      simp only [wire, flatMap_cons, cons_append, List.cons.injEq] at same
      have lengths := apart first mem_cons_self second mem_cons_self same.1
      obtain ⟨rfl, later⟩ := append_inj same.2 lengths
      rw [ih _ later]
      intro left leftMember right rightMember
      exact apart left (mem_cons_of_mem _ leftMember) right (mem_cons_of_mem _ rightMember)

/-- Suffixes are the same in both forms as long as no length of the part is a letter of
the labels. -/
theorem wire_suffix_iff (clean : ∀ first ∈ part, ∀ second ∈ labels, size first.length ∉ second) :
    wire size part <:+ wire size labels ↔ part <:+ labels := by
  constructor
  · intro suffix
    cases part with
    | nil => exact nil_suffix
    | cons first part =>
      induction labels with
      | nil => cases suffix_nil.mp suffix
      | cons label labels ih =>
        have unfolded : wire size (label :: labels) =
            size label.length :: (label ++ wire size labels) := rfl
        rw [unfolded, suffix_cons_iff] at suffix
        rcases suffix with whole | later
        · rw [eq_of_wire_eq apart whole]
        · have behind := suffix_of_suffix_append
            (clean first mem_cons_self label mem_cons_self) later
          refine (ih ?_ ?_ behind).trans (suffix_cons _ _)
          · intro left leftMember right rightMember
            exact apart left leftMember right (mem_cons_of_mem _ rightMember)
          · intro left leftMember right rightMember
            exact clean left leftMember right (mem_cons_of_mem _ rightMember)
  · rintro ⟨before, rfl⟩
    exact ⟨wire size before, by simp [wire]⟩

end

end Labels
