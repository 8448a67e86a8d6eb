import NetManager.Library.Labels
import NetManager.Mdns.ProtocolImpl

/-!
# Full names of services

`ExtractNameAndType` takes the type of a service from two segments that are not empty, so
the full name of a service determines where its name ends.
-/

namespace NetManager.Mdns

open List Wire MDnsProtocolImpl

/-- The number of segments that are not empty. -/
def viewCount (raw : List Bytes) : Nat := raw.countP (· ≠ [])

/-! ## Views -/

@[simp] theorem viewCount_cons :
    viewCount (part :: rest) = viewCount rest + if part ≠ [] then 1 else 0 := by
  simp [viewCount, countP_cons]

theorem viewCount_fromView (index : Nat) (raw : List Bytes) :
    viewCount (fromView index raw) = viewCount raw - index := by
  fun_induction fromView index raw with
  | case1 => exact (Nat.zero_sub _).symm
  | case2 index rest ih => simp [ih]
  | case3 byte bytes rest => rfl
  | case4 index byte bytes rest ih => simp [ih]

theorem fromView_suffix : fromView index raw <:+ raw := by
  fun_induction fromView index raw with
  | case1 => exact suffix_rfl
  | case2 index rest ih => exact ih.trans (suffix_cons _ _)
  | case3 => exact suffix_rfl
  | case4 index byte bytes rest ih => exact ih.trans (suffix_cons _ _)

theorem head_fromView {segment : Bytes} (first : segment ∈ (fromView index raw).head?) :
    segment ≠ [] := by
  fun_induction fromView index raw with
  | case1 => cases first
  | case2 index rest ih => exact ih first
  | case3 byte bytes rest =>
    cases first
    exact cons_ne_nil _ _
  | case4 index byte bytes rest ih => exact ih first

theorem viewCount_uptoView (enough : index < viewCount raw) :
    viewCount (uptoView index raw) = index + 1 := by
  fun_induction uptoView index raw with
  | case1 => exact absurd enough (Nat.not_lt_zero _)
  | case2 index rest ih => exact ih enough
  | case3 byte bytes rest => simp [viewCount]
  | case4 index byte bytes rest ih => simp [ih (by simpa using enough)]

theorem head_uptoView : (uptoView index raw).head? = raw.head? := by
  fun_cases uptoView index raw <;> rfl

theorem uptoView_prefixed : uptoView index raw <+: raw := by
  fun_induction uptoView index raw with
  | case1 => exact prefix_rfl
  | case2 index rest ih => exact (prefix_cons_inj _).mpr ih
  | case3 byte bytes rest => exact (prefix_cons_inj _).mpr nil_prefix
  | case4 index byte bytes rest ih => exact (prefix_cons_inj _).mpr ih

theorem getLast_uptoView (enough : index < viewCount raw) :
    ∃ segment ∈ (uptoView index raw).getLast?, segment ≠ [] := by
  fun_induction uptoView index raw with
  | case1 => exact absurd enough (Nat.not_lt_zero _)
  | case2 index rest ih =>
    obtain ⟨segment, last, nonempty⟩ := ih (by simpa using enough)
    exact ⟨segment, mem_getLast?_cons last, nonempty⟩
  | case3 byte bytes rest => exact ⟨_, rfl, cons_ne_nil _ _⟩
  | case4 index byte bytes rest ih =>
    obtain ⟨segment, last, nonempty⟩ := ih (by simpa using enough)
    exact ⟨segment, mem_getLast?_cons last, nonempty⟩

/-! ## Types -/

/-- Two segments that are not empty, at the ends of the text. -/
structure TypeText (text : Bytes) : Prop where
  head : ∀ segment ∈ (segments text).head?, segment ≠ []
  last : ∃ segment ∈ (segments text).getLast?, segment ≠ []
  two : viewCount (segments text) = 2

theorem typeText_viewed (enough : first + 1 < viewCount (segments text)) :
    TypeText (viewed text first (first + 1)) := by
  have count := viewCount_fromView first (segments text)
  have enoughLeft : 1 < viewCount (fromView first (segments text)) := by omega
  have nonempty : uptoView 1 (fromView first (segments text)) ≠ [] := by
    intro empty
    have two := viewCount_uptoView enoughLeft
    rw [empty] at two
    exact absurd two (by decide)
  have clean : ∀ segment ∈ uptoView 1 (fromView first (segments text)),
      mdnsDomainSpliter ∉ segment := fun segment member =>
    Labels.not_mem_splitOn (fromView_suffix.subset (uptoView_prefixed.subset member))
  have is : segments (viewed text first (first + 1)) =
      uptoView 1 (fromView first (segments text)) := by
    rw [viewed, Nat.add_sub_cancel_left]
    exact splitOn_intercalate mdnsDomainSpliter clean nonempty
  constructor
  · rw [is, head_uptoView]
    exact fun segment => head_fromView
  · rw [is]
    exact getLast_uptoView enoughLeft
  · rw [is]
    exact viewCount_uptoView enoughLeft

/-- The name and the type of a service. -/
def Extracted (serviceName serviceType : Bytes) : Prop :=
  ∃ text, extractNameAndType text = (serviceName, serviceType) ∧ serviceType ≠ []

theorem Extracted.typeText (extracted : Extracted serviceName serviceType) :
    TypeText serviceType := by
  obtain ⟨text, is, nonempty⟩ := extracted
  have count : (split text).length = viewCount (segments text) := countP_eq_length_filter.symm
  unfold extractNameAndType at is
  dsimp only at is
  split at is
  next few =>
    cases is
    have typed : TypeText (viewed text 1 (1 + 1)) := typeText_viewed (by omega)
    exact typed
  · split at is
    · cases is
      exact absurd rfl nonempty
    next typeIndex found =>
      split at is
      case isFalse =>
        cases is
        exact absurd rfl nonempty
      case isTrue large =>
        cases is
        have member := mem_of_getLast? found
        have inside := mem_range.mp (mem_of_mem_filter member)
        obtain ⟨first, rfl⟩ := Nat.exists_eq_add_of_lt (Nat.zero_lt_of_lt large)
        exact typeText_viewed (by omega)

/-! ## Full names -/

/-- Of two texts with the same end, a type is the whole of the end in both. -/
theorem append_cancel_of_viewCount (same : first ++ firstType = second ++ secondType)
    (firstHead : ∀ segment ∈ firstType.head?, segment ≠ [])
    (secondHead : ∀ segment ∈ secondType.head?, segment ≠ [])
    (counts : viewCount firstType = viewCount secondType) :
    first = second := by
  have nothing {middle rest : List Bytes} (head : ∀ segment ∈ (middle ++ rest).head?, segment ≠ [])
      (counts : viewCount (middle ++ rest) = viewCount rest) : middle = [] := by
    cases middle with
    | nil => rfl
    | cons segment middle =>
      rw [viewCount, viewCount, countP_append, countP_cons_of_pos
        (by simpa using head segment rfl)] at counts
      omega
  rcases append_eq_append_iff.mp same with ⟨middle, is, rfl⟩ | ⟨middle, is, rfl⟩
  · rw [is, nothing firstHead counts, append_nil]
  · rw [is, nothing secondHead counts.symm, append_nil]

theorem decorated_eq (typeText : TypeText serviceType) :
    decorated setup (serviceName ++ mdnsDomainSpliter :: serviceType) =
      serviceName ++ mdnsDomainSpliter :: serviceType ++ setup.topDomain := by
  refine if_neg fun ⟨_, last⟩ => ?_
  obtain ⟨segment, isLast, nonempty⟩ := typeText.last
  obtain ⟨front, is⟩ := getLast?_eq_some_iff.mp last
  have splits := congrArg segments is
  simp only [segments, splitOn_append_cons_self, splitOn_nil] at splits isLast
  have ends := congrArg List.getLast? splits
  rw [getLast?_append, isLast, getLast?_concat] at ends
  exact nonempty (Option.some_inj.mp ends)

theorem serviceName_eq_of_fullName_eq
    (firstExtracted : Extracted first.serviceName first.serviceType)
    (secondExtracted : Extracted second.serviceName second.serviceType)
    (same : fullName setup first = fullName setup second) :
    first.serviceName = second.serviceName := by
  unfold fullName at same
  rw [decorated_eq firstExtracted.typeText,
    decorated_eq secondExtracted.typeText] at same
  have splits := congrArg segments (append_cancel_right same)
  simp only [segments, splitOn_append_cons_self] at splits
  have names := append_cancel_of_viewCount splits firstExtracted.typeText.head
    secondExtracted.typeText.head
    (firstExtracted.typeText.two.trans secondExtracted.typeText.two.symm)
  have joined := congrArg [mdnsDomainSpliter].intercalate names
  rwa [intercalate_splitOn, intercalate_splitOn] at joined

/-! ## Names that are taken apart -/

theorem fromView_append (head : ∀ segment ∈ rest.head?, segment ≠ []) :
    fromView (viewCount raw) (raw ++ rest) = rest := by
  induction raw with
  | nil =>
    match rest with
    | [] => rfl
    | [] :: _ => exact absurd rfl (head [] rfl)
    | (_ :: _) :: _ => rfl
  | cons segment raw ih => cases segment <;> simpa [fromView] using ih

theorem uptoView_append (nonempty : view ≠ []) :
    uptoView (viewCount front) (front ++ view :: rest) = front ++ [view] := by
  induction front with
  | nil =>
    obtain ⟨byte, bytes, rfl⟩ := exists_cons_of_ne_nil nonempty
    rfl
  | cons first front ih => cases first <;> simpa [uptoView] using ih

theorem viewed_eq (before : List Bytes)
    (raw : segments text = before ++ (front ++ ending :: behind))
    (firstIs : viewCount before = first) (lastIs : first + viewCount front = last)
    (head : ∀ view ∈ (front ++ [ending]).head?, view ≠ []) (nonempty : ending ≠ [])
    (is : segments piece = front ++ [ending]) :
    viewed text first last = piece := by
  have begins : ∀ view ∈ (front ++ ending :: behind).head?, view ≠ [] := by
    rwa [append_cons, head?_append_of_ne_nil _ (by simp)]
  rw [viewed, ← lastIs, Nat.add_sub_cancel_left, ← firstIs, raw, fromView_append begins,
    uptoView_append nonempty, ← is]
  exact intercalate_splitOn _

theorem getMDNSTypeIndex_append (transport : isTransport type)
    (other : isTransport last = false) :
    getMDNSTypeIndex (front ++ [type, last]) = some front.length := by
  simp [getMDNSTypeIndex, range_succ, getD_eq_getElem?_getD, transport, other]

/-- A name of parts that are not empty, and a type that ends in `_tcp` or `_udp`. -/
structure Service where
  name : Bytes
  part_ne_nil : ∀ part ∈ segments name, part ≠ []
  type : Bytes
  typeText : TypeText type
  transport : ∀ segment ∈ (segments type).getLast?, isTransport segment

/-- The name, the type and `local`. -/
def Service.text (service : Service) : Bytes :=
  service.name ++ mdnsDomainSpliter :: (service.type ++ mdnsDomainSpliter :: [108, 111, 99, 97, 108])

theorem extractNameAndType_text (service : Service) :
    extractNameAndType service.text = (service.name, service.type) := by
  obtain ⟨segment, isLast, nonempty⟩ := service.typeText.last
  obtain ⟨front, typeIs⟩ := getLast?_eq_some_iff.mp isLast
  obtain ⟨parts, part, nameIs⟩ :=
    (eq_nil_or_concat' (segments service.name)).resolve_left (splitOnP_ne_nil _ _)
  have partNonempty := service.part_ne_nil part (by simp [nameIs])
  have one : viewCount front = 1 := by
    have two := service.typeText.two
    simpa [typeIs, viewCount, nonempty] using two
  have raw : segments service.text =
      parts ++ part :: front ++ [segment, [108, 111, 99, 97, 108]] := by
    rw [segments, Service.text, splitOn_append_cons_self, splitOn_append_cons_self]
    change segments service.name ++ (segments service.type ++ [[108, 111, 99, 97, 108]]) = _
    simp [nameIs, typeIs]
  have views : split service.text =
      (parts ++ part :: front).filter (· ≠ []) ++ [segment, [108, 111, 99, 97, 108]] := by
    rw [split, raw, filter_append, filter_cons_of_pos (by simpa using nonempty)]
    rfl
  have count : ((parts ++ part :: front).filter (· ≠ [])).length = viewCount parts + 2 := by
    rw [← countP_eq_length_filter, countP_append]
    change viewCount parts + viewCount (part :: front) = _
    simp [partNonempty, one]
  have name : viewed service.text 0 (viewCount parts) = service.name := by
    refine viewed_eq [] (raw.trans (append_assoc _ _ _)) rfl (Nat.zero_add _) ?_ partNonempty nameIs
    rw [← nameIs]
    exact fun view first => service.part_ne_nil view (mem_of_mem_head? first)
  have type : viewed service.text (viewCount parts + 1) (viewCount parts + 2) = service.type := by
    have behind := raw.trans ((append_assoc _ _ _).trans (append_cons parts part _))
    refine viewed_eq (parts ++ [part]) behind ?_ ?_ ?_ nonempty typeIs
    · simp [viewCount, partNonempty]
    · rw [one]
    · rw [← typeIs]
      exact service.typeText.head
  unfold extractNameAndType
  dsimp only
  rw [views, getMDNSTypeIndex_append (service.transport segment isLast) (by decide),
    length_append, count]
  split
  next few =>
    have first : viewCount parts = 0 := by simp at few; omega
    rw [first] at name type
    rw [name, type]
  next many =>
    dsimp only
    rw [if_pos (by simp at many; omega)]
    exact Prod.ext name type

/-- The service `a` of type `_b._tcp`. -/
def Service.short : Service where
  name := [97]
  part_ne_nil := by decide
  type := [95, 98, 46, 95, 116, 99, 112]
  typeText := ⟨by decide, by decide, by decide⟩
  transport := by decide

theorem extractNameAndType_short :
    extractNameAndType Service.short.text = ([97], [95, 98, 46, 95, 116, 99, 112]) :=
  extractNameAndType_text Service.short

end NetManager.Mdns
