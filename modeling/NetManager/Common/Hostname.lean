import Mathlib.Data.List.TakeWhile
import NetManager.Common.Text

/-!
# The host of an address

`GetHostnameFromURL` takes what stands behind "://" up to the first of three delimiters,
whatever the part is that it begins in. `getHostnameFromURL_eq_host_iff` says for which
addresses this is the host.
-/

namespace NetManager.CommonUtils

open List

/-- The first letter of a kind, from a position on. -/
def findWhere (kind : Char → Bool) (text : List Char) (pos : Nat) : Option Nat :=
  ((text.drop pos).findIdx? kind).map (pos + ·)

/-- `find_first_not_of` of a character. -/
def findFirstNotOf (c : Char) : List Char → Nat → Option Nat := findWhere (· != c)

/-- `std::min` of two positions, where `none` is `npos`. -/
def minPos : Option Nat → Option Nat → Option Nat
  | some pos, some other => some (min pos other)
  | none, other => other
  | pos, none => pos

/-- `std::replace` on one letter. -/
def replaced (c : Char) : Char := if c = '\\' then '/' else c

def getHostnameFromURL (url : List Char) : List Char :=
  if url.isEmpty then []
  else
    let tempUrl := url.map replaced
    let posStart := match find "://".toList tempUrl 0 with
      | some pos => pos + 3
      | none => 0
    let posStart := (findFirstNotOf '/' tempUrl posStart).getD posStart
    let posEnd := minPos (minPos (findChar ':' tempUrl posStart) (findChar '/' tempUrl posStart))
      (findChar '?' tempUrl posStart)
    match posEnd with
    | some posEnd => (tempUrl.drop posStart).take (posEnd - posStart)
    | none => tempUrl.drop posStart

/-! ## Addresses -/

/-- A registered name or an IPv4 address, or an IPv6 address in brackets. -/
inductive Host
  | name (letters : List Char) (plain : ∀ c ∈ letters, c ∉ ":/?#[]@\\".toList)
  | ipv6 (address : List Char) (colon : ':' ∈ address)

def Host.text : Host → List Char
  | name letters _ => letters
  | ipv6 address _ => '[' :: address ++ [']']

/-- The parts of an address. -/
structure Url where
  scheme : List Char
  userinfo : Option (List Char) := none
  host : Host
  port : Option (List Char) := none
  path : List Char := []
  query : Option (List Char) := none
  fragment : Option (List Char) := none
  scheme_plain : ∀ c ∈ scheme, c ∉ ":/?#[]@\\".toList := by simp
  userinfo_plain : ∀ text ∈ userinfo, ∀ c ∈ text, c ∉ "@/?#".toList := by simp
  port_digits : ∀ text ∈ port, ∀ c ∈ text, c.isDigit := by simp
  path_slash : ∀ c ∈ path.head?, c = '/' := by simp
  path_plain : ∀ c ∈ path, c ∉ "?#".toList := by simp
  query_plain : ∀ text ∈ query, ∀ c ∈ text, c ≠ '#' := by simp

namespace Url

variable (url : Url)

/-- What stands behind the host. -/
def behind : List Char :=
  url.port.elim [] (':' :: ·) ++ url.path ++ url.query.elim [] ('?' :: ·) ++
    url.fragment.elim [] ('#' :: ·)

/-- What stands behind "://". -/
def afterScheme : List Char :=
  url.userinfo.elim [] (· ++ ['@']) ++ (url.host.text ++ url.behind)

def text : List Char := url.scheme ++ ("://".toList ++ url.afterScheme)

end Url

/-- A slash, as `GetHostnameFromURL` sees it. -/
def isSlash (c : Char) : Bool := c == '/' || c == '\\'

/-- A letter that ends the host. -/
def isDelimiter (c : Char) : Bool := c == ':' || isSlash c || c == '?'

/-- Nothing, or a text that begins with a delimiter. -/
def Ends (text : List Char) : Prop := ∀ c ∈ text.head?, isDelimiter c

/-- The host is no IPv6 address. Without user information it has a delimiter or nothing
behind it, where slashes that follow an empty host do not count. With user information,
this is the host and then a delimiter. -/
def Url.Delimited (url : Url) : Prop :=
  (∃ letters plain, url.host = .name letters plain) ∧
    match url.userinfo with
    | none => if url.host.text = [] then Ends (url.behind.dropWhile isSlash) else Ends url.behind
    | some userinfo => ∃ rest ≠ [], Ends rest ∧ userinfo.dropWhile isSlash = url.host.text ++ rest

/-! ## What is cut out -/

theorem minPos_findWhere :
    minPos (findWhere kind text pos) (findWhere other text pos) =
      findWhere (fun c => kind c || other c) text pos := by
  have shift (first second : Option Nat) (count : Nat) :
      minPos (first.map (count + ·)) (second.map (count + ·)) =
        (minPos first second).map (count + ·) := by
    cases first <;> cases second <;> simp [minPos, Nat.add_min_add_left]
  unfold findWhere
  rw [shift]
  congr 1
  induction text.drop pos with
  | nil => rfl
  | cons c text ih =>
    have later := shift (text.findIdx? kind) (text.findIdx? other) 1
    simp only [Nat.add_comm 1, ih] at later
    rw [findIdx?_cons, findIdx?_cons, findIdx?_cons]
    cases kind c <;> cases other c
    · exact later
    · cases text.findIdx? kind <;> simp [minPos]
    · cases text.findIdx? other <;> simp [minPos]
    · rfl

theorem take_findWhere :
    (match findWhere kind text pos with
      | some last => (text.drop pos).take (last - pos)
      | none => text.drop pos) = (text.drop pos).takeWhile fun c => !kind c := by
  unfold findWhere
  simp only [takeWhile_eq_take_findIdx_not, Bool.not_not]
  cases found : (text.drop pos).findIdx? kind with
  | none =>
    rw [findIdx?_eq_none_iff_findIdx_eq] at found
    rw [found, take_length]
    rfl
  | some count =>
    obtain ⟨-, rfl⟩ := findIdx?_eq_some_iff_findIdx_eq.mp found
    simp

/-- The slashes in front are left out. Where there is nothing else, nothing is left. -/
theorem takeWhile_drop_findFirstNotOf {kind : Char → Bool} (stops : kind '/' = true)
    (text : List Char) :
    (text.drop ((findFirstNotOf '/' text pos).getD pos)).takeWhile (fun c => !kind c) =
      ((text.drop pos).dropWhile (· == '/')).takeWhile fun c => !kind c := by
  unfold findFirstNotOf findWhere
  cases found : (text.drop pos).findIdx? (· != '/') with
  | none =>
    have slashes : ∀ c ∈ text.drop pos, c = '/' := by simpa using found
    have nothing : (text.drop pos).dropWhile (· == '/') = [] :=
      dropWhile_eq_nil_iff.mpr fun c member => beq_iff_eq.mpr (slashes c member)
    rw [nothing]
    cases is : text.drop pos with
    | nil => simp [is]
    | cons c rest => simp [is, slashes c (is ▸ mem_cons_self), stops]
  | some count =>
    obtain ⟨-, rfl⟩ := findIdx?_eq_some_iff_findIdx_eq.mp found
    rw [dropWhile_eq_drop_findIdx_not, drop_drop]
    rfl

theorem find_scheme (plain : ':' ∉ scheme) :
    find "://".toList (scheme ++ ("://".toList ++ rest)) 0 = some scheme.length := by
  refine find?_range'_eq_some.mpr ⟨?_, ?_, fun i _ before => ?_⟩
  · rw [drop_left, isPrefixOf_iff_prefix]
    exact prefix_append ..
  · rw [mem_range'_1, length_append]
    omega
  · rw [Bool.not_eq_true', ← Bool.not_eq_true, isPrefixOf_iff_prefix]
    rintro ⟨more, same⟩
    rw [drop_append_of_le_length (Nat.le_of_lt before), drop_eq_getElem_cons before] at same
    have first : ':' = scheme[i] := (cons.inj same).1
    exact plain (first ▸ getElem_mem before)

theorem cut_eq :
    let start := (findFirstNotOf '/' text pos).getD pos
    (match minPos (minPos (findChar ':' text start) (findChar '/' text start))
        (findChar '?' text start) with
      | some last => (text.drop start).take (last - start)
      | none => text.drop start) =
      ((text.drop pos).dropWhile (· == '/')).takeWhile fun c =>
        !(c == ':' || c == '/' || c == '?') := by
  intro start
  have first : minPos (minPos (findChar ':' text start) (findChar '/' text start))
      (findChar '?' text start) = findWhere (fun c => c == ':' || c == '/' || c == '?') text start :=
    (congrArg (minPos · _) (minPos_findWhere ..)).trans (minPos_findWhere ..)
  rw [first, take_findWhere]
  exact takeWhile_drop_findFirstNotOf rfl text

theorem getHostnameFromURL_text (url : Url) :
    getHostnameFromURL url.text =
      (url.afterScheme.dropWhile isSlash).takeWhile fun c => !isDelimiter c := by
  have nonempty : url.text.isEmpty = false := by simp [Url.text]
  have colon : ':' ∉ url.scheme.map replaced := by
    intro member
    obtain ⟨c, listed, is⟩ := mem_map.mp member
    have plain := url.scheme_plain c listed
    rw [replaced, if_neg fun (backslash : c = '\\') => plain (backslash ▸ by decide)] at is
    exact plain (is ▸ by decide)
  have isTemp : url.text.map replaced =
      url.scheme.map replaced ++ ("://".toList ++ url.afterScheme.map replaced) := by
    rw [Url.text, map_append, map_append]
    rfl
  have rest : (url.text.map replaced).drop ((url.scheme.map replaced).length + 3) =
      url.afterScheme.map replaced := by
    rw [isTemp, ← drop_drop, drop_left]
    rfl
  have kinds : ((· == '/') ∘ replaced) = isSlash ∧
      ((fun c => !(c == ':' || c == '/' || c == '?')) ∘ replaced) = fun c => !isDelimiter c := by
    constructor <;> funext c <;> rcases eq_or_ne c '\\' with rfl | other <;>
      simp [replaced, isDelimiter, isSlash, *, beq_false_of_ne]
  unfold getHostnameFromURL
  rw [nonempty, isTemp]
  dsimp only
  rw [find_scheme colon, ← isTemp]
  refine cut_eq.trans ?_
  rw [rest, dropWhile_map, takeWhile_map, kinds.1, kinds.2]
  -- no backslash is left that was replaced
  refine (map_congr_left fun c member => if_neg ?_).trans (map_id _)
  rintro rfl
  exact absurd (mem_takeWhile_imp member) (by decide)

/-! ## Which addresses are cut at the host -/

theorem takeWhile_eq_iff (plain : ∀ c ∈ letters, isDelimiter c = false) :
    (text.takeWhile fun c => !isDelimiter c) = letters ↔
      ∃ rest, Ends rest ∧ text = letters ++ rest := by
  constructor
  · rintro rfl
    refine ⟨text.dropWhile fun c => !isDelimiter c, fun c first => ?_,
      takeWhile_append_dropWhile.symm⟩
    simpa [Option.mem_def.mp first] using head?_dropWhile_not (fun c => !isDelimiter c) text
  · rintro ⟨rest, ends, rfl⟩
    rw [takeWhile_append_of_pos (by simpa using plain)]
    cases rest with
    | nil => exact append_nil letters
    | cons c rest => simpa using ends c rfl

/-- An '@' is no delimiter, so the host is cut out of what stands before it or not at all. -/
theorem exists_ends_append_at_iff (noAt : '@' ∉ letters) :
    (∃ rest, Ends rest ∧ user ++ '@' :: more = letters ++ rest) ↔
      ∃ rest ≠ [], Ends rest ∧ user = letters ++ rest := by
  have noEnd : ∀ {rest}, ¬ Ends ('@' :: rest) := fun ends => absurd (ends _ rfl) (by decide)
  constructor
  · rintro ⟨rest, ends, same⟩
    obtain ⟨between, rfl, isRest⟩ | ⟨between, rfl, rfl⟩ := append_eq_append_iff.mp same
    · cases between with
      | nil => exact absurd ((nil_append rest ▸ isRest) ▸ ends) noEnd
      | cons c between =>
        obtain rfl : '@' = c := (cons.inj isRest).1
        exact absurd (by simp) noAt
    · cases between with
      | nil => exact absurd ends noEnd
      | cons c between => exact ⟨c :: between, cons_ne_nil _ _, ends, rfl⟩
  · rintro ⟨rest, nonempty, ends, rfl⟩
    obtain ⟨c, rest, rfl⟩ := exists_cons_of_ne_nil nonempty
    exact ⟨c :: rest ++ '@' :: more, ends, by simp⟩

/-- `GetHostnameFromURL` returns the host of exactly these addresses. -/
theorem getHostnameFromURL_eq_host_iff (url : Url) :
    getHostnameFromURL url.text = url.host.text ↔ url.Delimited := by
  rw [getHostnameFromURL_text]
  unfold Url.Delimited
  cases isHost : url.host with
  | ipv6 address colon =>
    refine iff_of_false (fun same => ?_) (by simp)
    have inHost : ':' ∈ (Host.ipv6 address colon).text := by simp [Host.text, colon]
    rw [← same] at inHost
    exact absurd (mem_takeWhile_imp inHost) (by decide)
  | name letters plain =>
    have hostPlain : ∀ c ∈ letters, isDelimiter c = false := by
      intro c member
      have none := plain c member
      simp_all [isDelimiter, isSlash]
    refine (takeWhile_eq_iff hostPlain).trans
      (Iff.trans ?_ (and_iff_right ⟨letters, plain, rfl⟩).symm)
    unfold Url.afterScheme
    rw [isHost]
    cases url.userinfo with
    | none =>
      change (∃ rest, Ends rest ∧ (letters ++ url.behind).dropWhile isSlash = letters ++ rest) ↔
        if letters = [] then Ends (url.behind.dropWhile isSlash) else Ends url.behind
      cases letters with
      | nil => simp
      | cons c letters =>
        simp_all [isDelimiter]
    | some userinfo =>
      change (∃ rest, Ends rest ∧
        (userinfo ++ ['@'] ++ (letters ++ url.behind)).dropWhile isSlash = letters ++ rest) ↔
        ∃ rest ≠ [], Ends rest ∧ userinfo.dropWhile isSlash = letters ++ rest
      have skipped : (userinfo ++ ['@'] ++ (letters ++ url.behind)).dropWhile isSlash =
          userinfo.dropWhile isSlash ++ '@' :: (letters ++ url.behind) := by
        rw [append_assoc, dropWhile_append]
        split
        · rename_i slashes
          rw [isEmpty_iff.mp slashes]
          rfl
        · rfl
      rw [skipped]
      exact exists_ends_append_at_iff fun member => plain '@' member (by decide)

/-- An address with a user and a password. -/
def withPassword : Url where
  scheme := "http".toList
  userinfo := some "user:pw".toList
  host := .name "host".toList (by simp)
  path := "/".toList

theorem getHostnameFromURL_ne_host :
    withPassword.text = "http://user:pw@host/".toList ∧
      getHostnameFromURL withPassword.text = "user".toList ∧
      withPassword.host.text = "host".toList := by
  decide

end NetManager.CommonUtils
