import LavsCore.Auth.Session

/-!
# Resolving the principal

The registry and the resolver that the lifespan assembles. Whether auth is configured is
computed from the recognised modes and the API key; which providers are registered is
another matter. `fails_closed_iff` says for which settings, plugins and requests the
resolver fails closed.
-/

namespace LavsCore

open AuthQuery

/-! ## Providers -/

/-- An `AuthProvider`: it answers with a principal, or with none. -/
abbrev AuthProvider := AuthRequest → AuthQuery (Option Principal)

/-- The contract of `AuthProvider`: it must never raise for the not-me case. -/
def AuthProvider.NeverRaises (provider : AuthProvider) : Prop :=
  ∀ request w, ∃ answer, ((provider request).run w).1 = .ok answer

def isAscii (text : String) : Bool := text.toList.all fun c => c.toNat < 128

/-- `hmac.compare_digest` of two texts. -/
def compareDigest (a b : String) : Except AuthError Bool :=
  if isAscii a = true ∧ isAscii b = true then .ok (a = b)
  else .error (.typeError "comparing strings with non-ASCII characters is not supported")

/-- `ApiKeyProvider.authenticate`. -/
def apiKeyProvider (env : AuthEnvironment) (edition : String) : AuthProvider := fun request =>
  match env.apiKey with
  | none => return none
  | some configuredKey =>
    if configuredKey = "" then return none
    else
      match request.apiKey with
      | none => return none
      | some presentedKey => do
        let same ← Prog.lift (compareDigest presentedKey configuredKey)
        return if same then some ⟨.service, "api-key", none, edition⟩ else none

/-! ## The lifespan -/

/-- What a plugin registers until it returns or raises. -/
inductive PluginOutcome where
  | loaded (registered : List AuthProvider)
  | failed (registered : List AuthProvider)

def PluginOutcome.registered : PluginOutcome → List AuthProvider
  | .loaded providers | .failed providers => providers

/-- `load_plugins`. A plugin that raises is skipped; what it has registered stays. -/
def loadPlugins (registry : List AuthProvider) (plugins : List PluginOutcome) :
    List AuthProvider :=
  plugins.foldl (fun registry plugin => registry ++ plugin.registered) registry

/-- `AuthResolverFactory.build_registry`. -/
def buildRegistry (lower : String → String) (env : AuthEnvironment) : List AuthProvider :=
  if isAuthenticationEnabled env || AuthSettings.apikeyModeEnabled lower env then
    [apiKeyProvider env (AuthSettings.edition env)]
  else []

/-- The registry after the lifespan has started. -/
def lifespanRegistry (lower : String → String) (env : AuthEnvironment)
    (plugins : List PluginOutcome) (now : Py.Timestamp) (choice : Nat) : List AuthProvider :=
  let registry := buildRegistry lower env
  let registry :=
    if AuthSettings.passwordEnabled lower env then
      registry ++ [passwordSessionProvider (AuthSettings.edition env) now choice]
    else registry
  loadPlugins registry plugins

/-- `auth_configured` of `build_resolver`. -/
def authConfigured (lower : String → String) (env : AuthEnvironment) : Bool :=
  !(AuthSettings.modes lower env).isEmpty || isAuthenticationEnabled env

/-! ## AuthResolver -/

/-- The loop of `resolve`: the first principal that a provider produces. -/
def tryProviders (request : AuthRequest) : List AuthProvider → AuthQuery (Option Principal)
  | [] => return none
  | provider :: rest => do
    match ← provider request with
    | some principal => return some principal
    | none => tryProviders request rest

def anonymousPrincipal (edition : String) : Principal := ⟨.service, "anonymous", none, edition⟩

/-- `AuthResolver.resolve`. -/
def resolve (providers : List AuthProvider) (edition : String) (configured : Bool)
    (request : AuthRequest) : AuthQuery Principal := do
  match ← tryProviders request providers with
  | some principal => return principal
  | none =>
    if configured || !providers.isEmpty then
      Prog.raise (.unauthorized "No valid credentials were provided.")
    else return anonymousPrincipal edition

/-- The resolver of the lifespan. -/
def lifespanResolve (lower : String → String) (env : AuthEnvironment)
    (plugins : List PluginOutcome) (now : Py.Timestamp) (choice : Nat) (request : AuthRequest) :
    AuthQuery Principal :=
  resolve (lifespanRegistry lower env plugins now choice) (AuthSettings.edition env)
    (authConfigured lower env) request

/-! ## Failing closed -/

/-- The answer is a principal that a registered provider produced, or `UnauthorizedError`. -/
def FailsClosed (providers : List AuthProvider) (request : AuthRequest)
    (answer : Except AuthError Principal) : Prop :=
  (∃ principal, answer = .ok principal ∧
    ∃ provider ∈ providers, ∃ w, ((provider request).run w).1 = .ok (some principal)) ∨
  ∃ message, answer = .error (.unauthorized message)

/-- A recognised mode, a configured key, or a provider of a plugin. -/
def AnythingEnabled (lower : String → String) (env : AuthEnvironment)
    (plugins : List PluginOutcome) : Prop :=
  AuthSettings.modes lower env ≠ [] ∨ isAuthenticationEnabled env = true ∨
    ∃ plugin ∈ plugins, plugin.registered ≠ []

/-- The configured key is compared with a header, and one of the two is not ASCII. -/
def ComparesNonAscii (env : AuthEnvironment) (request : AuthRequest) : Prop :=
  ∃ configuredKey ∈ env.apiKey, configuredKey ≠ "" ∧
    ∃ presentedKey ∈ request.apiKey, ¬ (isAscii presentedKey = true ∧ isAscii configuredKey = true)

namespace ResolverLemmas

variable {lower : String → String} {env : AuthEnvironment} {plugins : List PluginOutcome}
  {now : Py.Timestamp} {choice : Nat} {edition : String} {request : AuthRequest}

theorem apiKeyProvider_raises (edition : String) (h : ComparesNonAscii env request)
    (w : AuthWorld) :
    ∃ message, (apiKeyProvider env edition request).run w = (.error (.typeError message), w) := by
  obtain ⟨configuredKey, hkey, hne, presentedKey, hheader, hascii⟩ := h
  refine ⟨"comparing strings with non-ASCII characters is not supported", ?_⟩
  simp [apiKeyProvider, Option.mem_def.mp hkey, hne, Option.mem_def.mp hheader, compareDigest,
    hascii]

theorem apiKeyProvider_answers (h : ¬ ComparesNonAscii env request) (w : AuthWorld) :
    ∃ answer, ((apiKeyProvider env edition request).run w).1 = .ok answer := by
  cases hkey : env.apiKey with
  | none => exact ⟨none, by simp [apiKeyProvider, hkey]⟩
  | some configuredKey =>
  rcases eq_or_ne configuredKey "" with rfl | hne
  · exact ⟨none, by simp [apiKeyProvider, hkey]⟩
  cases hheader : request.apiKey with
  | none => exact ⟨none, by simp [apiKeyProvider, hkey, hne, hheader]⟩
  | some presentedKey =>
    have hascii : isAscii presentedKey = true ∧ isAscii configuredKey = true := by
      by_contra hnot
      exact h ⟨configuredKey, hkey, hne, presentedKey, hheader, hnot⟩
    have hcompared : compareDigest presentedKey configuredKey =
        .ok (decide (presentedKey = configuredKey)) := if_pos hascii
    refine ⟨if presentedKey = configuredKey then some ⟨.service, "api-key", none, edition⟩ else none,
      ?_⟩
    simp [apiKeyProvider, hkey, hne, hheader, hcompared]

theorem loadPlugins_eq (registry : List AuthProvider) (plugins : List PluginOutcome) :
    loadPlugins registry plugins = registry ++ plugins.flatMap PluginOutcome.registered := by
  unfold loadPlugins
  induction plugins generalizing registry with
  | nil => simp
  | cons plugin rest ih => rw [List.foldl_cons, ih, List.flatMap_cons, List.append_assoc]

/-- Where every provider answers, so does the loop, with the principal of a provider. -/
theorem tryProviders_run {providers : List AuthProvider}
    (h : ∀ provider ∈ providers, ∀ w, ∃ answer, ((provider request).run w).1 = .ok answer)
    (w : AuthWorld) :
    ∃ answer, ((tryProviders request providers).run w).1 = .ok answer ∧
      ∀ principal, answer = some principal →
        ∃ provider ∈ providers, ∃ w', ((provider request).run w').1 = .ok (some principal) := by
  induction providers generalizing w with
  | nil => exact ⟨none, rfl, fun _ h => nomatch h⟩
  | cons provider rest ih =>
    obtain ⟨answer, hanswer⟩ := h provider List.mem_cons_self w
    obtain ⟨w', hrun⟩ : ∃ w', (provider request).run w = (.ok answer, w') :=
      ⟨_, Prod.ext hanswer rfl⟩
    cases answer with
    | some principal =>
      refine ⟨some principal, by simp [tryProviders, hrun], ?_⟩
      rintro _ ⟨⟩
      exact ⟨provider, List.mem_cons_self, w, hanswer⟩
    | none =>
      obtain ⟨answer, hrest, hfrom⟩ :=
        ih (fun p hp => h p (List.mem_cons_of_mem provider hp)) w'
      refine ⟨answer, by simp [tryProviders, hrun, hrest], ?_⟩
      intro principal hprincipal
      obtain ⟨p, hp, hproduced⟩ := hfrom principal hprincipal
      exact ⟨p, List.mem_cons_of_mem provider hp, hproduced⟩

/-- Where every provider answers, the resolver fails closed exactly if auth is configured
or some provider is registered. -/
theorem resolve_failsClosed_iff {providers : List AuthProvider} {configured : Bool}
    (h : ∀ provider ∈ providers, ∀ w, ∃ answer, ((provider request).run w).1 = .ok answer)
    (w : AuthWorld) :
    FailsClosed providers request ((resolve providers edition configured request).run w).1 ↔
      configured = true ∨ providers ≠ [] := by
  obtain ⟨answer, hanswer, hfrom⟩ := tryProviders_run h w
  obtain ⟨w', hrun⟩ : ∃ w', (tryProviders request providers).run w = (.ok answer, w') :=
    ⟨_, Prod.ext hanswer rfl⟩
  cases answer with
  | some principal =>
    have hproduced := hfrom principal rfl
    have hok : ((resolve providers edition configured request).run w).1 = .ok principal := by
      simp [resolve, hrun]
    constructor
    · rintro -
      obtain ⟨provider, hprovider, _⟩ := hproduced
      exact Or.inr (List.ne_nil_of_mem hprovider)
    · rintro -
      exact Or.inl ⟨principal, hok, hproduced⟩
  | none =>
    by_cases hclosed : configured = true ∨ providers ≠ []
    · have herror : ((resolve providers edition configured request).run w).1 =
          .error (.unauthorized "No valid credentials were provided.") := by
        simp [resolve, hrun, hclosed]
      exact ⟨fun _ => hclosed, fun _ => Or.inr ⟨_, herror⟩⟩
    · obtain ⟨hconfigured, hproviders⟩ := not_or.mp hclosed
      have hnil : providers = [] := not_not.mp hproviders
      have hopen : ((resolve providers edition configured request).run w).1 =
          .ok (anonymousPrincipal edition) := by
        subst hnil
        simp [resolve, tryProviders, hconfigured]
      refine ⟨?_, fun h => absurd h hclosed⟩
      rintro (⟨_, _, provider, hprovider, _⟩ | ⟨_, herror⟩)
      · exact Or.inr (List.ne_nil_of_mem hprovider)
      · rw [hopen] at herror
        cases herror

theorem lifespanRegistry_eq :
    lifespanRegistry lower env plugins now choice =
      buildRegistry lower env ++
        (if AuthSettings.passwordEnabled lower env then
          [passwordSessionProvider (AuthSettings.edition env) now choice]
        else []) ++ plugins.flatMap PluginOutcome.registered := by
  unfold lifespanRegistry
  rw [loadPlugins_eq]
  split <;> simp

/-- Auth is configured or a provider is registered exactly if something is enabled. -/
theorem anythingEnabled_iff :
    (authConfigured lower env = true ∨ lifespanRegistry lower env plugins now choice ≠ []) ↔
      AnythingEnabled lower env plugins := by
  cases hconfigured : authConfigured lower env with
  | true =>
    have henabled : AuthSettings.modes lower env ≠ [] ∨ isAuthenticationEnabled env = true := by
      simpa [authConfigured] using hconfigured
    refine ⟨fun _ => ?_, fun _ => Or.inl rfl⟩
    rcases henabled with hmodes | hkey
    · exact Or.inl hmodes
    · exact Or.inr (Or.inl hkey)
  | false =>
    obtain ⟨hmodes, hkey⟩ : AuthSettings.modes lower env = [] ∧
        isAuthenticationEnabled env = false := by
      simpa [authConfigured] using hconfigured
    -- The core registers nothing, so what is registered comes from the plugins.
    have hregistry : lifespanRegistry lower env plugins now choice =
        plugins.flatMap PluginOutcome.registered := by
      simp [lifespanRegistry_eq, buildRegistry, AuthSettings.apikeyModeEnabled,
        AuthSettings.passwordEnabled, hmodes, hkey]
    simp [AnythingEnabled, hmodes, hkey, hregistry]

theorem mem_lifespanRegistry {provider : AuthProvider}
    (h : provider ∈ lifespanRegistry lower env plugins now choice) :
    provider = apiKeyProvider env (AuthSettings.edition env) ∨
      provider = passwordSessionProvider (AuthSettings.edition env) now choice ∨
        ∃ plugin ∈ plugins, provider ∈ plugin.registered := by
  rw [lifespanRegistry_eq, buildRegistry] at h
  rcases List.mem_append.mp h with h | h
  · rcases List.mem_append.mp h with h | h
    · split at h
      · exact Or.inl (List.mem_singleton.mp h)
      · cases h
    · split at h
      · exact Or.inr (Or.inl (List.mem_singleton.mp h))
      · cases h
  · exact Or.inr (Or.inr (List.mem_flatMap.mp h))

/-- A configured key makes the API-key provider the first. -/
theorem lifespanRegistry_of_key (lower : String → String) (plugins : List PluginOutcome)
    (now : Py.Timestamp) (choice : Nat) (h : isAuthenticationEnabled env = true) :
    ∃ rest, lifespanRegistry lower env plugins now choice =
      apiKeyProvider env (AuthSettings.edition env) :: rest := by
  rw [lifespanRegistry_eq, buildRegistry, h, Bool.true_or, if_pos rfl, List.append_assoc]
  exact ⟨_, List.singleton_append⟩

end ResolverLemmas

open ResolverLemmas

/-- For every text of `LAVS_AUTH_MODES`, every loading of the plugins and every request:
the resolver of the lifespan fails closed exactly if something is enabled (a recognised
mode, a key, or a provider of a plugin) and no text outside ASCII is compared with the
key. The hypothesis is the contract that a plugin's providers are written to. -/
theorem fails_closed_iff (lower : String → String) (env : AuthEnvironment)
    (plugins : List PluginOutcome) (now : Py.Timestamp) (choice : Nat) (request : AuthRequest)
    (w : AuthWorld)
    (hplugins : ∀ plugin ∈ plugins, ∀ provider ∈ plugin.registered,
      AuthProvider.NeverRaises provider) :
    FailsClosed (lifespanRegistry lower env plugins now choice) request
        ((lifespanResolve lower env plugins now choice request).run w).1 ↔
      AnythingEnabled lower env plugins ∧ ¬ ComparesNonAscii env request := by
  by_cases hcompares : ComparesNonAscii env request
  · refine ⟨?_, fun h => absurd hcompares h.2⟩
    have hkey : isAuthenticationEnabled env = true := by
      obtain ⟨configuredKey, hkey, hne, _⟩ := hcompares
      simp [isAuthenticationEnabled, Option.mem_def.mp hkey, hne]
    obtain ⟨rest, hrest⟩ := lifespanRegistry_of_key lower plugins now choice hkey
    obtain ⟨message, hraises⟩ := apiKeyProvider_raises (AuthSettings.edition env) hcompares w
    have hrun : ((lifespanResolve lower env plugins now choice request).run w).1 =
        .error (.typeError message) := by
      simp [lifespanResolve, resolve, hrest, tryProviders, hraises]
    rw [hrun]
    rintro (⟨_, hok, _⟩ | ⟨_, herror⟩)
    · cases hok
    · cases herror
  · have hanswers : ∀ provider ∈ lifespanRegistry lower env plugins now choice, ∀ w,
        ∃ answer, ((provider request).run w).1 = .ok answer := by
      intro provider hprovider w
      rcases mem_lifespanRegistry hprovider with rfl | rfl | ⟨plugin, hplugin, hprovider⟩
      · exact apiKeyProvider_answers hcompares w
      · obtain ⟨answer, hrun, _⟩ :=
          passwordSessionProvider_run (AuthSettings.edition env) now choice request w
        exact ⟨answer, by rw [hrun]⟩
      · exact hplugins plugin hplugin provider hprovider request w
    rw [lifespanResolve, resolve_failsClosed_iff hanswers w, anythingEnabled_iff,
      and_iff_left hcompares]

namespace Sample

/-- `str.lower` on ASCII. -/
def lower (text : String) : String := String.ofList (text.toList.map Char.toLower)

/-- An environment in which only `LAVS_AUTH_MODES` is set. -/
def authModes (modes : String) : AuthEnvironment := ⟨some modes, none, none, none, none, none⟩

/-- A plugin that raises after it has registered a provider for nobody. -/
def brokenPlugin : PluginOutcome := .failed [fun _ => pure none]

def anonymousRequest : AuthRequest := ⟨none, none⟩

def noUsers : AuthWorld := ⟨AuthStore.empty, []⟩

end Sample

/-- With the password mode, one unknown mode and a broken plugin. -/
theorem fails_closed_sample :
    FailsClosed (lifespanRegistry Sample.lower (Sample.authModes "sso, Password")
        [Sample.brokenPlugin] 0 0) Sample.anonymousRequest
      ((lifespanResolve Sample.lower (Sample.authModes "sso, Password") [Sample.brokenPlugin] 0 0
        Sample.anonymousRequest).run Sample.noUsers).1 := by
  refine (fails_closed_iff _ _ _ _ _ _ _ ?_).mpr ⟨Or.inl (by decide +kernel), ?_⟩
  · intro plugin hplugin provider hprovider request w
    cases List.mem_singleton.mp hplugin
    cases List.mem_singleton.mp hprovider
    exact ⟨none, rfl⟩
  · rintro ⟨_, hkey, _⟩
    cases hkey

/-- A misspelt mode is dropped, and with it the configuration of auth: the request gets
the anonymous principal. -/
theorem fails_open :
    AuthSettings.splitCsv "passwrod" ≠ [] ∧
      ((lifespanResolve Sample.lower (Sample.authModes "passwrod") [] 0 0
        Sample.anonymousRequest).run Sample.noUsers).1 = .ok (anonymousPrincipal "oss") ∧
      ¬ FailsClosed (lifespanRegistry Sample.lower (Sample.authModes "passwrod") [] 0 0)
        Sample.anonymousRequest
        ((lifespanResolve Sample.lower (Sample.authModes "passwrod") [] 0 0
          Sample.anonymousRequest).run Sample.noUsers).1 := by
  have hopen : ((lifespanResolve Sample.lower (Sample.authModes "passwrod") [] 0 0
      Sample.anonymousRequest).run Sample.noUsers).1 = .ok (anonymousPrincipal "oss") := by
    decide +kernel
  have hempty : lifespanRegistry Sample.lower (Sample.authModes "passwrod") [] 0 0 = [] := by
    rfl
  refine ⟨by decide +kernel, hopen, ?_⟩
  rw [hopen, hempty]
  rintro (⟨_, _, _, hprovider, _⟩ | ⟨_, herror⟩)
  · cases hprovider
  · cases herror

end LavsCore
