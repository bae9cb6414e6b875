import LavsCore.Auth.Resolver
import LavsCore.Auth.Run

/-!
# Any provider suffices

The resolver asks its providers in turn. `any_provider_iff`: for the providers of the core,
in any order and number, the first whose credential is valid decides, and without one the
request is refused, exactly if no API key outside ASCII is compared on the way. There
`hmac.compare_digest` raises, and the providers behind it are never asked.
-/

namespace LavsCore

/-- The providers of the core. The database may not be connected; a session is read at an
instant, and with a choice of the database. -/
inductive CoreProvider where
  | apiKey
  | passwordSession (connected : Bool) (now : Py.Timestamp) (choice : Nat)

/-- What is registered: `ApiKeyProvider` or `PasswordSessionProvider`. -/
def CoreProvider.provider (env : AuthEnvironment) (edition : String) :
    CoreProvider → AuthProvider
  | .apiKey => apiKeyProvider env edition
  | .passwordSession connected now choice => fun request =>
      if connected then passwordSessionProvider edition now choice request else return none

section

variable (env : AuthEnvironment) (edition : String) (request : AuthRequest) (w : AuthWorld)

/-- A provider whose credential is valid, with the principal it stands for: the header is
the configured key, or the cookie opens a live session of a user. -/
inductive Credential : CoreProvider → Principal → Prop
  | apiKey {key : String} (hkey : env.apiKey = some key) (hne : key ≠ "")
      (hheader : request.apiKey = some key) :
      Credential .apiKey ⟨.service, "api-key", none, edition⟩
  | session {now : Py.Timestamp} {choice : Nat} {token : String} {s : SessionRow} {user : UserRow}
      (hcookie : request.cookie = some token) (hne : token ≠ "")
      (hs : s ∈ w.db.liveSessions token now) (huser : user ∈ w.db.users.rows)
      (hid : user.id = s.userId) :
      Credential (.passwordSession true now choice) ⟨.user, s.userId, some user.email, edition⟩

/-- No principal for any of the providers. -/
def NoCredential (providers : List CoreProvider) : Prop :=
  ∀ provider ∈ providers, ∀ principal, ¬ Credential env edition request w provider principal

/-- The principal of the first provider whose credential is valid. Without one,
`UnauthorizedError`, or the anonymous principal where auth is not configured. -/
def AnySuffices (configured : Bool) (providers : List CoreProvider)
    (answer : Except AuthError Principal) : Prop :=
  (∃ before provider after principal, providers = before ++ provider :: after ∧
    NoCredential env edition request w before ∧
    Credential env edition request w provider principal ∧ answer = .ok principal) ∨
  (NoCredential env edition request w providers ∧
    ((∃ message, answer = .error (.unauthorized message)) ∨
      configured = false ∧ answer = .ok (anonymousPrincipal edition)))

/-- An `ApiKeyProvider` is asked, and compares a text outside ASCII. -/
def AsksNonAscii (providers : List CoreProvider) : Prop :=
  ComparesNonAscii env request ∧
    ∃ before after, providers = before ++ .apiKey :: after ∧
      NoCredential env edition request w before

/-- A principal only for a valid credential, and one for every valid credential. -/
def Decides (provider : CoreProvider) : Option Principal → Prop
  | some principal => Credential env edition request w provider principal
  | none => ∀ principal, ¬ Credential env edition request w provider principal

variable {env edition request w}

theorem apiKeyProvider_run (h : ¬ ComparesNonAscii env request) :
    ∃ answer, (apiKeyProvider env edition request).run w = (.ok answer, w) ∧
      Decides env edition request w .apiKey answer := by
  cases hkey : env.apiKey with
  | none =>
    refine ⟨none, by simp [apiKeyProvider, hkey], ?_⟩
    rintro _ ⟨hconfigured⟩
    rw [hkey] at hconfigured
    cases hconfigured
  | some configuredKey =>
    rcases eq_or_ne configuredKey "" with rfl | hne
    · refine ⟨none, by simp [apiKeyProvider, hkey], ?_⟩
      rintro _ ⟨hconfigured, hne⟩
      exact hne (Option.some.inj (hkey.symm.trans hconfigured)).symm
    · cases hheader : request.apiKey with
      | none =>
        refine ⟨none, by simp [apiKeyProvider, hkey, hne, hheader], ?_⟩
        rintro _ ⟨-, -, hpresented⟩
        rw [hheader] at hpresented
        cases hpresented
      | some presentedKey =>
        have hascii : isAscii presentedKey = true ∧ isAscii configuredKey = true :=
          not_not.mp fun hnot => h ⟨configuredKey, hkey, hne, presentedKey, hheader, hnot⟩
        have hcompared : compareDigest presentedKey configuredKey =
            .ok (decide (presentedKey = configuredKey)) := if_pos hascii
        rcases eq_or_ne presentedKey configuredKey with rfl | hdiffer
        · refine ⟨some ⟨.service, "api-key", none, edition⟩, ?_, .apiKey hkey hne hheader⟩
          simp [apiKeyProvider, hkey, hne, hheader, hcompared]
        · refine ⟨none, by simp [apiKeyProvider, hkey, hne, hheader, hcompared, hdiffer], ?_⟩
          rintro _ ⟨hconfigured, -, hpresented⟩
          obtain rfl := Option.some.inj (hkey.symm.trans hconfigured)
          exact hdiffer (Option.some.inj (hheader.symm.trans hpresented))

theorem passwordSession_run (connected : Bool) (now : Py.Timestamp) (choice : Nat) :
    ∃ answer, ((CoreProvider.passwordSession connected now choice).provider env edition
        request).run w = (.ok answer, w) ∧
      Decides env edition request w (.passwordSession connected now choice) answer := by
  cases connected with
  | false =>
    refine ⟨none, rfl, ?_⟩
    rintro _ ⟨⟩
  | true =>
    obtain ⟨answer, hrun, houtcome⟩ := passwordSessionProvider_run edition now choice request w
    refine ⟨answer, hrun, ?_⟩
    cases houtcome with
    | absent hcookie =>
      rintro _ (_ | ⟨hcookie', hne⟩)
      rw [hcookie'] at hcookie
      rcases hcookie with hcookie | hcookie
      · cases hcookie
      · exact hne (Option.some.inj hcookie)
    | lapsed hcookie hnone =>
      rintro _ (_ | ⟨hcookie', -, hs⟩)
      obtain rfl := Option.some.inj (hcookie.symm.trans hcookie')
      rw [hnone] at hs
      cases hs
    | resolved hcookie hne hs huser hid => exact .session hcookie hne hs huser hid

theorem coreProvider_run (edition : String) (w : AuthWorld) (provider : CoreProvider)
    (h : provider = .apiKey → ¬ ComparesNonAscii env request) :
    ∃ answer, (provider.provider env edition request).run w = (.ok answer, w) ∧
      Decides env edition request w provider answer := by
  cases provider with
  | apiKey => exact apiKeyProvider_run (h rfl)
  | passwordSession connected now choice => exact passwordSession_run connected now choice

/-! ## The loop -/

/-- The loop ends at the first valid credential, or has asked every provider in vain. -/
theorem tryProviders_decides {providers : List CoreProvider}
    (h : ¬ AsksNonAscii env edition request w providers) :
    ∃ answer, (tryProviders request (providers.map (CoreProvider.provider env edition))).run w
        = (.ok answer, w) ∧
      ((∃ before provider after principal, providers = before ++ provider :: after ∧
          NoCredential env edition request w before ∧
          Credential env edition request w provider principal ∧ answer = some principal) ∨
        NoCredential env edition request w providers ∧ answer = none) := by
  induction providers with
  | nil => exact ⟨none, rfl, Or.inr ⟨fun _ h => (List.not_mem_nil h).elim, rfl⟩⟩
  | cons provider rest ih =>
    have hascii : provider = .apiKey → ¬ ComparesNonAscii env request := by
      rintro rfl hcompares
      exact h ⟨hcompares, [], rest, rfl, fun _ h => (List.not_mem_nil h).elim⟩
    obtain ⟨answer, hrun, hdecides⟩ := coreProvider_run edition w provider hascii
    cases answer with
    | some principal =>
      refine ⟨some principal, by simp [tryProviders, hrun], Or.inl ?_⟩
      exact ⟨[], provider, rest, principal, rfl, fun _ h => absurd h List.not_mem_nil, hdecides,
        rfl⟩
    | none =>
      have hnone : ∀ {providers}, NoCredential env edition request w providers →
          NoCredential env edition request w (provider :: providers) :=
        fun hrest => List.forall_mem_cons.mpr ⟨hdecides, hrest⟩
      have hrest : ¬ AsksNonAscii env edition request w rest := by
        rintro ⟨hcompares, before, after, rfl, hbefore⟩
        exact h ⟨hcompares, provider :: before, after, rfl, hnone hbefore⟩
      obtain ⟨answer, hloop, houtcome⟩ := ih hrest
      refine ⟨answer, by simp [tryProviders, hrun, hloop], ?_⟩
      rcases houtcome with ⟨before, other, after, principal, rfl, hbefore, hfound⟩ | ⟨hall, hanswer⟩
      · exact Or.inl ⟨provider :: before, other, after, principal, rfl, hnone hbefore, hfound⟩
      · exact Or.inr ⟨hnone hall, hanswer⟩

/-- The loop ends in the exception of the provider that compares. -/
theorem tryProviders_raises {providers : List CoreProvider}
    (h : AsksNonAscii env edition request w providers) :
    ∃ message, (tryProviders request (providers.map (CoreProvider.provider env edition))).run w
      = (.error (.typeError message), w) := by
  obtain ⟨hcompares, before, after, rfl, hbefore⟩ := h
  obtain ⟨message, hraises⟩ := ResolverLemmas.apiKeyProvider_raises edition hcompares w
  refine ⟨message, ?_⟩
  induction before with
  | nil =>
    rw [List.nil_append, List.map_cons]
    simp [tryProviders, CoreProvider.provider, hraises]
  | cons provider rest ih =>
    obtain ⟨hprovider, hrest⟩ := List.forall_mem_cons.mp hbefore
    cases provider with
    | apiKey =>
      rw [List.cons_append, List.map_cons]
      simp [tryProviders, CoreProvider.provider, hraises]
    | passwordSession connected now choice =>
      obtain ⟨answer, hrun, hdecides⟩ :=
        @passwordSession_run env edition request w connected now choice
      cases answer with
      | some principal => exact absurd hdecides (hprovider principal)
      | none => simpa [tryProviders, hrun] using ih hrest

end

/-- One valid credential suffices, whichever provider it is for, exactly if the request does not
bear a non-ASCII API key that is asked for before a provider recognises it. -/
theorem any_provider_iff (env : AuthEnvironment) (edition : String) (providers : List CoreProvider)
    (configured : Bool) (request : AuthRequest) (w : AuthWorld) :
    AnySuffices env edition request w configured providers
        ((resolve (providers.map (CoreProvider.provider env edition)) edition configured
          request).run w).1 ↔
      ¬ AsksNonAscii env edition request w providers := by
  constructor
  · intro hsuffices hasks
    obtain ⟨message, hraises⟩ := tryProviders_raises hasks
    have hanswer : ((resolve (providers.map (CoreProvider.provider env edition)) edition configured
        request).run w).1 = .error (.typeError message) := by
      simp [resolve, hraises]
    rw [hanswer] at hsuffices
    rcases hsuffices with ⟨_, _, _, _, _, _, _, hok⟩ | ⟨_, ⟨_, herror⟩ | ⟨_, hok⟩⟩
    · cases hok
    · cases herror
    · cases hok
  · intro hascii
    obtain ⟨answer, hrun, houtcome⟩ := tryProviders_decides hascii
    rcases houtcome with ⟨before, provider, after, principal, hsplit, hbefore, hcredential, rfl⟩ |
        ⟨hnone, rfl⟩
    · exact Or.inl ⟨before, provider, after, principal, hsplit, hbefore, hcredential,
        by simp [resolve, hrun]⟩
    · refine Or.inr ⟨hnone, ?_⟩
      rcases Classical.em (configured = true ∨ providers ≠ []) with hclosed | hopen
      · refine Or.inl ⟨"No valid credentials were provided.", ?_⟩
        simp [resolve, hrun, hclosed]
      · obtain ⟨hconfigured, hproviders⟩ := not_or.mp hopen
        obtain rfl := not_not.mp hproviders
        refine Or.inr ⟨by simpa using hconfigured, ?_⟩
        simp [resolve, tryProviders, hconfigured]

namespace Sample

def keyed : AuthEnvironment := { unset with apiKey := some "secret" }

/-- The cookie of the session, and a header in latin-1. -/
def accented : AuthRequest := { browser with apiKey := some "clé" }

def signedIn : AuthWorld :=
  (authRun (deployment .duckdb) (.init 1782734400000000)
    [signup, .verify verification, login]).world

def providers : List CoreProvider := [.apiKey, .passwordSession true 1782734400000000 0]

end Sample

/-- The cookie opens a session, but the header makes the first provider raise. -/
theorem non_ascii_key_denies_session :
    ((passwordSessionProvider "oss" 1782734400000000 0 Sample.accented).run Sample.signedIn).1
      = .ok (some ⟨.user, "01KW8WHA6STWW5N1VYRSHDTK70", some "engineer@example.com", "oss"⟩) ∧
    ((resolve (Sample.providers.map (CoreProvider.provider Sample.keyed "oss")) "oss" true
      Sample.accented).run Sample.signedIn).1
      = .error (.typeError "comparing strings with non-ASCII characters is not supported") ∧
    ¬ AnySuffices Sample.keyed "oss" Sample.accented Sample.signedIn true Sample.providers
      ((resolve (Sample.providers.map (CoreProvider.provider Sample.keyed "oss")) "oss" true
        Sample.accented).run Sample.signedIn).1 := by
  have hraises : ((resolve (Sample.providers.map (CoreProvider.provider Sample.keyed "oss")) "oss"
      true Sample.accented).run Sample.signedIn).1
      = .error (.typeError "comparing strings with non-ASCII characters is not supported") := by
    decide +kernel
  refine ⟨by decide +kernel, hraises, ?_⟩
  rw [hraises]
  rintro (⟨_, _, _, _, _, _, _, hok⟩ | ⟨_, ⟨_, herror⟩ | ⟨_, hok⟩⟩)
  · cases hok
  · cases herror
  · cases hok

end LavsCore
