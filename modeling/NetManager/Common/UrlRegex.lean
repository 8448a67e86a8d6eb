import Mathlib.Data.List.DropRight

/-!
# Patterns of urls

`UrlRegexParse` turns a pattern with `*` into a regular expression of ECMAScript: it puts a
dot before each star, and then a backslash before each dot that no star follows.
-/

namespace NetManager.CommonUtils

open List

/-! ## Regular expressions -/

/-- A character that stands for itself, or any one but a line terminator. -/
inductive Atom where
  | char (c : Char)
  | any

def lineTerminators : List Char := ['\n', '\r']

def Atom.accepts : Atom → Char → Bool
  | char c, d => c = d
  | any, d => d ∉ lineTerminators

/-- The atoms of a regular expression of literal characters, `.`, `\\.` and `*`, each with a
star or without. A star that follows on nothing is an error. -/
def terms : List Char → Option (List (Atom × Bool))
  | [] => some []
  | '*' :: _ => none
  | '\\' :: '.' :: '*' :: rest => (terms rest).map ((.char '.', true) :: ·)
  | '\\' :: '.' :: rest => (terms rest).map ((.char '.', false) :: ·)
  | '\\' :: _ => none
  | '.' :: '*' :: rest => (terms rest).map ((.any, true) :: ·)
  | '.' :: rest => (terms rest).map ((.any, false) :: ·)
  | c :: '*' :: rest => (terms rest).map ((.char c, true) :: ·)
  | c :: rest => (terms rest).map ((.char c, false) :: ·)

def matchTerms : List (Atom × Bool) → List Char → Bool
  | [], str => str.isEmpty
  | (_, false) :: _, [] => false
  | (atom, false) :: terms, c :: str => atom.accepts c && matchTerms terms str
  | (atom, true) :: terms, str => (List.range (str.length + 1)).any fun n =>
    (str.take n).all atom.accepts && matchTerms terms (str.drop n)

/-- `std::regex_match`, which throws where the expression is none. -/
def regexMatch (str pattern : List Char) : Option Bool := (terms pattern).map (matchTerms · str)

/-! ## The function -/

def trim (str : List Char) : List Char :=
  (str.dropWhile (· ∈ [' ', '\t', '\n', '\r'])).rdropWhile (· ∈ [' ', '\t', '\n', '\r'])

/-- The characters of `[a-zA-Z0-9\-_\.*]`. -/
def urlCharacter (c : Char) : Bool := c.isAlphanum || c ∈ ['-', '_', '.', '*']

def isUrlRegexValid (regex : List Char) : Bool :=
  if (trim regex).isEmpty then false else regex ≠ [] && regex.all urlCharacter

def insertCharBefore (char preChar nextChar : Char) : List Char → List Char
  | [] => []
  | c :: input =>
    if c = char ∧ input.head? ≠ some nextChar then
      preChar :: c :: insertCharBefore char preChar nextChar input
    else c :: insertCharBefore char preChar nextChar input

variable (input : List Char)

def replaceCharacters : List Char :=
  insertCharBefore '.' '\\' '*' (insertCharBefore '*' '.' '\x00' input)

def urlRegexParse (str patternStr : List Char) : Option Bool :=
  if patternStr = [] then some false
  else if patternStr = ['*'] then some true
  else if ¬ isUrlRegexValid patternStr then some (patternStr = str)
  else regexMatch str (replaceCharacters patternStr)

/-! ## Glob patterns -/

/-- A string comes from a pattern by putting some string in the place of each star. -/
inductive Glob : List Char → List Char → Prop
  | nil : Glob [] []
  | char {c : Char} {pattern str : List Char} (notStar : c ≠ '*') (rest : Glob pattern str) :
      Glob (c :: pattern) (c :: str)
  | star {pattern str : List Char} (any : List Char) (rest : Glob pattern str) :
      Glob ('*' :: pattern) (any ++ str)

/-- The atom of a character of a pattern. -/
def termOf (c : Char) : Atom × Bool := if c = '*' then (.any, true) else (.char c, false)

/-- The regular expression of a character of a pattern. -/
def textOf (c : Char) : List Char :=
  if c = '*' then ['.', '*'] else if c = '.' then ['\\', '.'] else [c]

theorem head_dotted :
    (input.flatMap fun c => if c = '*' then ['.', '*'] else [c]).head? ≠ some '*' := by
  cases input with
  | nil => nofun
  | cons c input => by_cases star : c = '*' <;> simp [star]

theorem insertCharBefore_star {input : List Char} (noNul : '\x00' ∉ input) :
    insertCharBefore '*' '.' '\x00' input =
      input.flatMap fun c => if c = '*' then ['.', '*'] else [c] := by
  induction input with
  | nil => rfl
  | cons c input ih =>
    obtain ⟨-, later⟩ := not_or.mp (mem_cons.not.mp noNul)
    have head : input.head? ≠ some '\x00' := fun is => later (mem_of_mem_head? is)
    rw [insertCharBefore, ih later]
    by_cases star : c = '*' <;> simp [star, head]

theorem replaceCharacters_eq {input : List Char} (noNul : '\x00' ∉ input) :
    replaceCharacters input = input.flatMap textOf := by
  rw [replaceCharacters, insertCharBefore_star noNul]
  clear noNul
  induction input with
  | nil => rfl
  | cons c input ih =>
    have head := head_dotted input
    rw [flatMap_cons, flatMap_cons, ← ih, textOf]
    by_cases star : c = '*'
    · simp [star, insertCharBefore]
    · by_cases dot : c = '.' <;> simp [star, dot, insertCharBefore, head]

theorem head_flatMap_textOf : (input.flatMap textOf).head? ≠ some '*' := by
  cases input with
  | nil => nofun
  | cons c input =>
    rw [flatMap_cons, textOf]
    by_cases star : c = '*'
    · simp [star]
    · by_cases dot : c = '.' <;> simp [star, dot]

theorem terms_textOf (notSlash : c ≠ '\\') (head : rest.head? ≠ some '*') :
    terms (textOf c ++ rest) = (terms rest).map (termOf c :: ·) := by
  have noStar : ∀ later, rest = '*' :: later → False := fun later is => head (is ▸ rfl)
  unfold textOf termOf
  by_cases star : c = '*'
  · rw [if_pos star, if_pos star]
    simp [terms]
  · rw [if_neg star]
    by_cases dot : c = '.'
    · rw [dot]
      simp [terms]
    · rw [if_neg dot, singleton_append, terms]
      all_goals simp_all

theorem terms_flatMap_textOf {input : List Char} (noSlash : '\\' ∉ input) :
    terms (input.flatMap textOf) = some (input.map termOf) := by
  induction input with
  | nil => rfl
  | cons c input ih =>
    obtain ⟨notSlash, later⟩ := not_or.mp (mem_cons.not.mp noSlash)
    rw [flatMap_cons, terms_textOf (Ne.symm notSlash) (head_flatMap_textOf input), ih later]
    rfl

theorem glob_of_matchTerms (accepted : matchTerms (pattern.map termOf) str = true) :
    Glob pattern str := by
  induction pattern generalizing str with
  | nil =>
    rw [map_nil, matchTerms, List.isEmpty_iff] at accepted
    exact accepted ▸ .nil
  | cons c pattern ih =>
    rw [map_cons, termOf] at accepted
    by_cases star : c = '*'
    · rw [if_pos star, matchTerms, any_eq_true] at accepted
      obtain ⟨n, -, both⟩ := accepted
      have rest := ih (Bool.and_eq_true_iff.mp both).2
      exact star ▸ str.take_append_drop n ▸ Glob.star (str.take n) rest
    · rw [if_neg star] at accepted
      cases str with
      | nil => cases accepted
      | cons d str =>
        obtain ⟨same, rest⟩ := Bool.and_eq_true_iff.mp accepted
        exact of_decide_eq_true same ▸ .char star (ih rest)

theorem matchTerms_of_glob (glob : Glob pattern str) (oneLine : ∀ c ∈ str, c ∉ lineTerminators) :
    matchTerms (pattern.map termOf) str = true := by
  induction glob with
  | nil => rfl
  | char notStar _ ih =>
    rw [map_cons, termOf, if_neg notStar, matchTerms, ih (forall_mem_cons.mp oneLine).2]
    simp [Atom.accepts]
  | star any _ ih =>
    rw [map_cons, termOf, if_pos rfl, matchTerms, any_eq_true]
    refine ⟨any.length, ?_, ?_⟩
    · rw [mem_range, length_append]
      omega
    · rw [take_left, drop_left, Bool.and_eq_true_iff, all_eq_true]
      exact ⟨fun c member => decide_eq_true (oneLine c (mem_append_left _ member)),
        ih fun c member => oneLine c (mem_append_right _ member)⟩

theorem isUrlRegexValid_of_all (nonempty : regex ≠ [])
    (valid : ∀ c ∈ regex, urlCharacter c = true) : isUrlRegexValid regex = true := by
  obtain ⟨c, rest, rfl⟩ := exists_cons_of_ne_nil nonempty
  have solid : c ∉ [' ', '\t', '\n', '\r'] := by
    intro blank
    have isUrl := valid c mem_cons_self
    simp only [mem_cons, not_mem_nil, or_false] at blank
    rcases blank with rfl | rfl | rfl | rfl <;> cases isUrl
  have kept : trim (c :: rest) ≠ [] := by
    rw [trim, dropWhile_cons_of_neg (by simpa using solid)]
    intro nil
    exact solid (of_decide_eq_true (rdropWhile_eq_nil_iff.mp nil c mem_cons_self))
  rw [isUrlRegexValid, if_neg (by simpa using kept), Bool.and_eq_true_iff]
  exact ⟨rfl, all_eq_true.mpr valid⟩

/-- The expression of a pattern of url characters is its text, star by star. -/
theorem regexMatch_replaceCharacters {patternStr : List Char}
    (valid : ∀ c ∈ patternStr, urlCharacter c = true) :
    regexMatch str (replaceCharacters patternStr) =
      some (matchTerms (patternStr.map termOf) str) := by
  have noSlash : '\\' ∉ patternStr := fun member => absurd (valid _ member) (by decide)
  have noNul : '\x00' ∉ patternStr := fun member => absurd (valid _ member) (by decide)
  rw [replaceCharacters_eq noNul, regexMatch, terms_flatMap_textOf noSlash]
  rfl

/-- No pattern makes `UrlRegexParse` throw, and what it accepts is the pattern or an instance. -/
theorem exists_urlRegexParse (str patternStr : List Char) :
    ∃ result, urlRegexParse str patternStr = some result ∧
      (result = true → str = patternStr ∨ Glob patternStr str) := by
  unfold urlRegexParse
  split_ifs with empty star isValid
  · exact ⟨_, rfl, nofun⟩
  · exact ⟨_, rfl, fun _ => .inr (star ▸ str.append_nil ▸ Glob.star str .nil)⟩
  · have valid : ∀ c ∈ patternStr, urlCharacter c = true := by
      unfold isUrlRegexValid at isValid
      split at isValid
      · cases isValid
      · exact all_eq_true.mp (Bool.and_eq_true_iff.mp isValid).2
    exact ⟨_, regexMatch_replaceCharacters valid, fun accepted => .inr (glob_of_matchTerms accepted)⟩
  · exact ⟨_, rfl, fun same => .inl (Eq.symm (of_decide_eq_true same))⟩

section

variable {str patternStr : List Char} (nonempty : patternStr ≠ [])
  (valid : ∀ c ∈ patternStr, urlCharacter c = true) (oneLine : ∀ c ∈ str, c ∉ lineTerminators)

include nonempty valid oneLine

open Classical in
theorem urlRegexParse_eq : urlRegexParse str patternStr = some (decide (Glob patternStr str)) := by
  unfold urlRegexParse
  rw [if_neg nonempty]
  by_cases star : patternStr = ['*']
  · rw [if_pos star, star, decide_eq_true]
    exact str.append_nil ▸ Glob.star str .nil
  · have isValid := isUrlRegexValid_of_all nonempty valid
    rw [if_neg star, if_neg (not_not.mpr isValid), regexMatch_replaceCharacters valid,
      Option.some_inj, Bool.eq_iff_iff, decide_eq_true_eq]
    exact ⟨glob_of_matchTerms, fun glob => matchTerms_of_glob glob oneLine⟩

/-- `UrlRegexParse` is glob matching. -/
theorem urlRegexParse_iff_glob : ∃ result, urlRegexParse str patternStr = some result ∧
    (result = true ↔ Glob patternStr str) :=
  ⟨_, urlRegexParse_eq nonempty valid oneLine, by simp⟩

end

theorem urlRegexParse_example : ∃ result,
    urlRegexParse "www.example.com".toList "*.example.*".toList = some result ∧
      (result = true ↔ Glob "*.example.*".toList "www.example.com".toList) :=
  urlRegexParse_iff_glob (by decide) (all_eq_true.mp (by decide)) (by simp [lineTerminators])

end NetManager.CommonUtils
