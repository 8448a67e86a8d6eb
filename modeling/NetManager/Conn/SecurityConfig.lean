import NetManager.Common.UrlRegex

/-!
# Host rules of the network security configuration

Each setting is read from the first domain config with a domain that equals the host name,
or that includes subdomains and matches it as a pattern.
-/

namespace NetManager.NetworkSecurityConfig

open List CommonUtils

abbrev Text := List Char

structure Domain where
  domainName : Text
  includeSubDomains : Bool

structure Pin where
  digestAlgorithm : Text
  digest : Text

structure PinSet where
  isOpenMode : Bool := false
  pins : List Pin := []
  expiration : Text := []

structure DomainConfig where
  cleartextTrafficPermitted : Bool := true
  domains : List Domain
  trustAnchors : List Text := []
  pinSet : PinSet := {}

structure Config where
  hasBaseConfig : Bool := false
  baseCleartextTrafficPermitted : Bool := true
  baseTrustAnchors : List Text := []
  domainConfigs : List DomainConfig

/-! ## The functions -/

/-- The test of the four searches. It fails where `UrlRegexParse` throws. -/
def isFor (hostname : Text) (domain : Domain) : Option Bool :=
  if hostname = domain.domainName then some true
  else if domain.includeSubDomains then urlRegexParse hostname domain.domainName
  else some false

/-- The search of the four functions, for the config that they read. -/
def search (config : Config) (hostname : Text) : Option (Option DomainConfig) :=
  config.domainConfigs.findM? fun domainConfig => domainConfig.domains.anyM (isFor hostname)

def openModeOf (found : Option DomainConfig) : Bool := found.elim false (·.pinSet.isOpenMode)

section

variable (config : Config) (hostname : Text) (unexpired : Text → Bool)
  (getRehasedCAPath : Text → Text)

/-- `ValidateDate`, for a clock that says which dates have not passed. -/
def validateDate (dateStr : Text) : Bool := dateStr = [] || unexpired dateStr

def pinsOf (found : Option DomainConfig) : Text :=
  found.elim [] fun domainConfig =>
    if validateDate unexpired domainConfig.pinSet.expiration then
      (domainConfig.pinSet.pins.flatMap fun pin =>
        pin.digestAlgorithm ++ ['/', '/'] ++ pin.digest ++ [';']).dropLast
    else []

def certsOf (found : Option DomainConfig) : List Text :=
  ((found.elim config.baseTrustAnchors (·.trustAnchors)).map getRehasedCAPath).filter (· ≠ [])

def permittedOf (found : Option DomainConfig) : Bool :=
  found.elim (if config.hasBaseConfig then config.baseCleartextTrafficPermitted else true)
    (·.cleartextTrafficPermitted)

def isPinOpenMode : Option Bool :=
  if hostname = [] then some false else (search config hostname).map openModeOf

def getPinSetForHostName : Option Text :=
  if hostname = [] then some [] else (search config hostname).map (pinsOf unexpired)

def getTrustAnchorsForHostName : Option (List Text) :=
  if hostname = [] then some []
  else (search config hostname).map (certsOf config getRehasedCAPath)

/-- For a caller with the internet permission. -/
def isCleartextPermitted : Option Bool :=
  if hostname = [] then some (permittedOf config none)
  else (search config hostname).map (permittedOf config)

end

/-! ## The first config for a host -/

section

variable (hostname : Text) (domain : Domain)

def lower (text : Text) : Text := text.map Char.toLower

/-- The domain itself, one of its subdomains or an instance of its pattern. -/
def Covers : Prop :=
  lower hostname = lower domain.domainName ∨
    domain.includeSubDomains ∧
      ('.' :: lower domain.domainName <:+ lower hostname ∨ Glob domain.domainName hostname)

/-- The domain letter by letter, or what `UrlRegexParse` takes for an instance of it. -/
def CoversText : Prop :=
  hostname = domain.domainName ∨
    domain.includeSubDomains ∧ urlRegexParse hostname domain.domainName = some true

open Classical in
/-- The first config with a domain that covers the host. -/
noncomputable def firstConfig (config : Config) : Option DomainConfig :=
  config.domainConfigs.find? fun domainConfig =>
    ∃ domain ∈ domainConfig.domains, Covers hostname domain

/-- All settings of a host are taken from one config, or from the base. -/
structure TakenFrom (config : Config) (found : Option DomainConfig) : Prop where
  searched : search config hostname = some found
  openMode : isPinOpenMode config hostname = some (openModeOf found)
  pins : ∀ unexpired, getPinSetForHostName config hostname unexpired =
    some (pinsOf unexpired found)
  trustAnchors : ∀ getRehasedCAPath, getTrustAnchorsForHostName config hostname getRehasedCAPath =
    some (certsOf config getRehasedCAPath found)
  cleartext : isCleartextPermitted config hostname = some (permittedOf config found)

end

variable {hostname : Text}

theorem takenFrom_iff (nonempty : hostname ≠ []) :
    TakenFrom hostname config found ↔ search config hostname = some found := by
  constructor
  · intro taken
    exact taken.searched
  · intro searched
    constructor <;>
      simp [isPinOpenMode, getPinSetForHostName, getTrustAnchorsForHostName, isCleartextPermitted,
        nonempty, searched]

open Classical in
theorem isFor_eq : isFor hostname = fun domain => pure (decide (CoversText hostname domain)) := by
  funext domain
  obtain ⟨result, parsed, -⟩ := exists_urlRegexParse hostname domain.domainName
  unfold isFor CoversText
  split
  next same => simp [same]
  next other =>
    split
    next includes => simp [other, includes, parsed]
    next alone => simp [other, alone]

open Classical in
theorem search_eq : search config hostname = some (config.domainConfigs.find? fun domainConfig =>
    ∃ domain ∈ domainConfig.domains, CoversText hostname domain) := by
  rw [search, isFor_eq]
  simp only [anyM_pure, findM?_pure]
  congr 2
  funext domainConfig
  rw [Bool.eq_iff_iff]
  simp

theorem CoversText.covers (own : CoversText hostname domain) : Covers hostname domain := by
  rcases own with same | ⟨includes, parsed⟩
  · exact .inl (congrArg lower same)
  · obtain ⟨result, is, accepts⟩ := exists_urlRegexParse hostname domain.domainName
    cases is.symm.trans parsed
    rcases accepts rfl with same | glob
    · exact .inl (congrArg lower same)
    · exact .inr ⟨includes, .inr glob⟩

theorem exists_covers {domains : List Domain}
    (found : ∃ domain ∈ domains, CoversText hostname domain) :
    ∃ domain ∈ domains, Covers hostname domain := by
  obtain ⟨domain, member, own⟩ := found
  exact ⟨domain, member, own.covers⟩

/-- The settings are those of the first config for the host if it has the host's own text. -/
theorem takenFrom_firstConfig_iff (config : Config) (hostname : Text) (nonempty : hostname ≠ []) :
    TakenFrom hostname config (firstConfig hostname config) ↔
      ∀ domainConfig ∈ firstConfig hostname config,
        ∃ domain ∈ domainConfig.domains, CoversText hostname domain := by
  rw [takenFrom_iff nonempty, search_eq, Option.some_inj]
  constructor
  · intro same domainConfig first
    simpa using find?_some (same.trans first)
  · intro ownText
    cases first : firstConfig hostname config with
    | none =>
      rw [firstConfig, find?_eq_none] at first
      rw [find?_eq_none]
      simp only [decide_eq_true_eq] at first ⊢
      exact fun domainConfig member found => first domainConfig member (exists_covers found)
    | some domainConfig =>
      have own := ownText domainConfig first
      rw [firstConfig, find?_eq_some_iff_append] at first
      rw [find?_eq_some_iff_append]
      simp only [decide_eq_true_eq, Bool.not_eq_true', decide_eq_false_iff_not] at first ⊢
      obtain ⟨-, before, behind, is, others⟩ := first
      exact ⟨own, before, behind, is, fun other member found =>
        others other member (exists_covers found)⟩

/-- `example.com` with its subdomains. -/
def exampleCom : DomainConfig where
  domains := [⟨"example.com".toList, true⟩]

theorem firstConfig_exampleCom (hostname : Text)
    (covers : Covers hostname ⟨"example.com".toList, true⟩) :
    firstConfig hostname { domainConfigs := [exampleCom] } = some exampleCom := by
  have covered : ∃ domain ∈ exampleCom.domains, Covers hostname domain :=
    ⟨_, mem_cons_self, covers⟩
  rw [firstConfig, find?_cons_of_pos (by simpa using covered)]

/-- The settings of `example.com` are its own. -/
theorem takenFrom_domain :
    TakenFrom "example.com".toList { domainConfigs := [exampleCom] }
      (firstConfig "example.com".toList { domainConfigs := [exampleCom] }) := by
  refine (takenFrom_firstConfig_iff _ _ (by decide)).mpr ?_
  rw [firstConfig_exampleCom _ (.inl rfl)]
  rintro _ ⟨⟩
  exact ⟨_, mem_cons_self, .inl rfl⟩

/-- A subdomain is not found. -/
theorem not_takenFrom_subdomain :
    ¬ TakenFrom "www.example.com".toList { domainConfigs := [exampleCom] }
      (firstConfig "www.example.com".toList { domainConfigs := [exampleCom] }) := by
  intro taken
  have searched := taken.searched
  rw [firstConfig_exampleCom _ (.inr ⟨rfl, .inl ⟨"www".toList, rfl⟩⟩)] at searched
  exact absurd searched nofun

end NetManager.NetworkSecurityConfig
