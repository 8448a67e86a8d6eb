import NetManager.Http.Base64

/-!
# Keys of the response cache

`CacheProxy` joins the parts of a request to one text and encodes it. Each part but the last
one ends at a separator, so that the parts can be read back from the text as long as none of
them has a separator inside.
-/

namespace NetManager.Http

open List Base64

inductive HttpProtocol
  | http1_1
  | http2
  | http3
  | httpNone
  deriving DecidableEq

/-- `HttpRequestOptions`, as far as keys go. -/
structure HttpRequestOptions where
  url : List Byte
  method : List Byte
  /-- The entries of the map, in its order. -/
  header : List (List Byte × List Byte)
  usingProtocol : HttpProtocol := .httpNone

/-- `GetHttpVersion`, with the numbers of libcurl. -/
def HttpRequestOptions.getHttpVersion (options : HttpRequestOptions) : Nat :=
  match options.usingProtocol with
  | .http3 => 30
  | .http2 => 3
  | .http1_1 => 2
  | .httpNone => 0

namespace CacheProxy

def carriageReturn : Byte := 13
def lineFeed : Byte := 10
def httpLineSeparator : List Byte := [carriageReturn, lineFeed]
def httpHeaderSeparator : Byte := 58
def ifNoneMatch : List Byte := toBytes "if-none-match"
def ifModifiedSince : List Byte := toBytes "if-modified-since"

def toLower (s : List Byte) : List Byte := s.map fun c => if 65 ≤ c ∧ c ≤ 90 then c + 32 else c

/-- The text of an entry of the header. -/
def line (p : List Byte × List Byte) : List Byte :=
  p.1 ++ httpHeaderSeparator :: p.2 ++ httpLineSeparator

def isConditional (p : List Byte × List Byte) : Bool := p.1 = ifNoneMatch || p.1 = ifModifiedSince

variable (options : HttpRequestOptions)

/-- The text that is encoded. -/
def str : List Byte :=
  let str := options.url ++ httpLineSeparator ++ toLower options.method ++ httpLineSeparator
  options.header.foldl (fun str p => if isConditional p then str else str ++ line p) str ++
    toBytes (toString options.getHttpVersion)

/-- `key_` of the proxy for a request. -/
def key : List Byte := encode (str options)

/-- The entries of the header that count. -/
def unconditional : List (List Byte × List Byte) := options.header.filter fun p => !isConditional p

/-- A text without line breaks. -/
def Unbroken (text : List Byte) : Prop := carriageReturn ∉ text ∧ lineFeed ∉ text
deriving Decidable

/-- Entries without line breaks, and without a separator in a name. -/
def PlainHeader (header : List (List Byte × List Byte)) : Prop :=
  ∀ p ∈ header, httpHeaderSeparator ∉ p.1 ∧ Unbroken p.1 ∧ Unbroken p.2
deriving Decidable

/-- A request whose address and header have no line breaks, and no separator in a name. -/
structure Plain : Prop where
  url : Unbroken options.url
  header : PlainHeader options.header

theorem foldl_line (entries : List (List Byte × List Byte)) (str : List Byte) :
    entries.foldl (fun str p => if isConditional p then str else str ++ line p) str =
      str ++ (entries.filter fun p => !isConditional p).flatMap line := by
  induction entries generalizing str with
  | nil => simp
  | cons p entries ih => cases conditional : isConditional p <;> simp [conditional, ih]

theorem eq_of_append_cons_eq {left right after later : List Byte} (notLeft : separator ∉ left)
    (notRight : separator ∉ right)
    (same : left ++ separator :: after = right ++ separator :: later) :
    left = right ∧ after = later := by
  have cut {text rest : List Byte} (clean : separator ∉ text) :
      (text ++ separator :: rest).takeWhile (· ≠ separator) = text := by
    rw [takeWhile_append_of_pos fun c member => decide_eq_true (ne_of_mem_of_not_mem member clean)]
    simp
  obtain rfl : left = right := by rw [← cut notLeft, same, cut notRight]
  exact ⟨rfl, (cons.inj (append_cancel_left same)).2⟩

theorem eq_of_flatMap_line_eq {first second : List (List Byte × List Byte)}
    {after later : List Byte}
    (firstPlain : PlainHeader first) (secondPlain : PlainHeader second)
    (notAfter : carriageReturn ∉ after) (notLater : carriageReturn ∉ later)
    (same : first.flatMap line ++ after = second.flatMap line ++ later) :
    first = second ∧ after = later := by
  have isThere : ∀ p (rest : List Byte), carriageReturn ∈ line p ++ rest := by
    simp [line, httpLineSeparator]
  induction first generalizing second with
  | nil =>
    cases second with
    | nil => exact ⟨rfl, same⟩
    | cons q second =>
      rw [flatMap_cons, append_assoc, flatMap_nil, nil_append] at same
      exact absurd (same ▸ isThere q _) notAfter
  | cons p first ih =>
    cases second with
    | nil =>
      rw [flatMap_cons, append_assoc, flatMap_nil, nil_append] at same
      exact absurd (same ▸ isThere p _) notLater
    | cons q second =>
      obtain ⟨noSeparator, -, unbroken⟩ := firstPlain p mem_cons_self
      obtain ⟨noSeparatorToo, -, unbrokenToo⟩ := secondPlain q mem_cons_self
      simp only [flatMap_cons, line, httpLineSeparator, append_assoc, cons_append,
        nil_append] at same
      obtain ⟨name, values⟩ := eq_of_append_cons_eq noSeparator noSeparatorToo same
      obtain ⟨value, rest⟩ := eq_of_append_cons_eq unbroken.1 unbrokenToo.1 values
      obtain ⟨rfl, rfl⟩ := ih (forall_mem_cons.mp firstPlain).2
        (forall_mem_cons.mp secondPlain).2 (cons.inj rest).2
      exact ⟨congrArg (· :: first) (Prod.ext name value), rfl⟩

theorem carriageReturn_not_mem_toLower (unbroken : Unbroken s) :
    carriageReturn ∉ toLower s := by
  have stays : ∀ c : Byte, (if 65 ≤ c ∧ c ≤ 90 then c + 32 else c) = carriageReturn →
      c = carriageReturn := by decide +kernel
  intro member
  obtain ⟨c, isThere, same⟩ := mem_map.mp member
  exact unbroken.1 (stays c same ▸ isThere)

theorem version_spec (options other : HttpRequestOptions) :
    carriageReturn ∉ toBytes (toString options.getHttpVersion) ∧
      (toBytes (toString options.getHttpVersion) = toBytes (toString other.getHttpVersion) →
        options.getHttpVersion = other.getHttpVersion) := by
  unfold HttpRequestOptions.getHttpVersion
  cases options.usingProtocol <;> cases other.usingProtocol <;> decide

/-- Requests with equal keys are equal in all that counts, if the methods have no line
breaks either. -/
theorem eq_of_key_eq {first second : HttpRequestOptions} (firstPlain : Plain first)
    (secondPlain : Plain second) (firstMethod : Unbroken first.method)
    (secondMethod : Unbroken second.method) (same : key first = key second) :
    first.url = second.url ∧ toLower first.method = toLower second.method ∧
      first.getHttpVersion = second.getHttpVersion ∧
      unconditional first = unconditional second := by
  have texts := encode_injective same
  simp only [str, foldl_line, httpLineSeparator, append_assoc, cons_append, nil_append] at texts
  obtain ⟨url, methods⟩ := eq_of_append_cons_eq firstPlain.url.1 secondPlain.url.1 texts
  obtain ⟨method, headers⟩ := eq_of_append_cons_eq (carriageReturn_not_mem_toLower firstMethod)
    (carriageReturn_not_mem_toLower secondMethod) (cons.inj methods).2
  obtain ⟨header, version⟩ := eq_of_flatMap_line_eq
    (fun p member => firstPlain.header p (mem_of_mem_filter member))
    (fun p member => secondPlain.header p (mem_of_mem_filter member))
    (version_spec first second).1 (version_spec second first).1 (cons.inj headers).2
  exact ⟨url, method, (version_spec first second).2 version, header⟩

/-- A request for a page. -/
def page (method : String) (header : List (String × String)) : HttpRequestOptions where
  url := toBytes "http://a/"
  method := toBytes method
  header := header.map fun p => (toBytes p.1, toBytes p.2)

/-- Conditional entries and the case of the method do not count. -/
theorem eq_of_key_eq_page : let first := page "GET" [("accept", "*/*"), ("if-none-match", "x")]
    let second := page "get" [("accept", "*/*")]
    key first = key second ∧ unconditional first = unconditional second := by
  intro first second
  have same : key first = key second := by decide +kernel
  exact ⟨same, (eq_of_key_eq ⟨by decide +kernel, by decide +kernel⟩
    ⟨by decide +kernel, by decide +kernel⟩ (by decide +kernel) (by decide +kernel) same).2.2.2⟩

/-- A method that has an entry of the header inside. -/
theorem not_eq_of_key_eq :
    ¬ ∀ first second, Plain first → Plain second → key first = key second →
      first.url = second.url ∧ toLower first.method = toLower second.method ∧
        first.getHttpVersion = second.getHttpVersion ∧
        unconditional first = unconditional second := by
  intro holds
  have equal := holds (page "get\r\naccept:*/*" []) (page "get" [("accept", "*/*")])
    ⟨by decide +kernel, by decide +kernel⟩ ⟨by decide +kernel, by decide +kernel⟩
    (by decide +kernel)
  exact absurd equal.2.1 (by decide +kernel)

end CacheProxy

end NetManager.Http
