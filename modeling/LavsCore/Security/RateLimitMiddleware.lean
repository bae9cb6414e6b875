import LavsCore.Http.Errors
import LavsCore.Python.Text
import LavsCore.Security.LimiterMemory
import Mathlib.Algebra.Order.Group.Unbundled.Basic

/-!
# The rate limit of `/auth/*`

`RateLimitMiddleware` puts the limiter before the application. It reads the settings for every
request, so they may change from one to the next; what it takes from elsewhere is a parameter:
`str.lower`, and `float`, which overflows.
-/

namespace LavsCore

/-! ## Settings -/

/-- The `LAVS_AUTH_RATE_*` variables. -/
structure RateLimitEnvironment where
  limit : Option String
  windowSeconds : Option String
  trustForwardedFor : Option String

/-- What is injected comes before the environment. -/
structure RateLimitSettings where
  limit : Option Int := none
  windowSeconds : Option Int := none
  trustForwardedFor : Option Bool := none
  maxTrackedClients : Int := 1024

namespace RateLimitSettings

/-- `_int_or_default` -/
def intOrDefault (raw : String) (default : Int) : Int := (Py.int raw.toList).getD default

/-- `limit` and `window_seconds`: a variable that is not set or blank counts as its default. -/
def number (injected : Option Int) (raw : Option String) (default : Int) : Int :=
  match injected, raw with
  | some n, _ => n
  | none, none => default
  | none, some raw => if Py.stripText raw.toList = [] then default else intOrDefault raw default

def limitOf (settings : RateLimitSettings) (env : RateLimitEnvironment) : Int :=
  number settings.limit env.limit 0

def windowOf (settings : RateLimitSettings) (env : RateLimitEnvironment) : Int :=
  number settings.windowSeconds env.windowSeconds 60

/-- `_TRUTHY_VALUES` -/
def truthyValues : List String := ["1", "true", "yes", "on"]

def trusts (lower : String → String) (settings : RateLimitSettings) (env : RateLimitEnvironment) :
    Bool :=
  match settings.trustForwardedFor with
  | some trusted => trusted
  | none =>
    lower (String.ofList (Py.stripText (env.trustForwardedFor.getD "").toList)) ∈ truthyValues

def enabled (settings : RateLimitSettings) (env : RateLimitEnvironment) : Bool :=
  settings.limitOf env > 0 && settings.windowOf env > 0

end RateLimitSettings

/-! ## The middleware -/

/-- The connection scope. Bytes are given as the characters of Latin-1. -/
structure Scope where
  type : String
  path : String
  client : Option String
  headers : List (List Char × List Char)

/-- `_forwarded_for`: of the first header of the name, what is before the first comma. -/
def forwardedFor (scope : Scope) : Option String :=
  match scope.headers.find? fun header => header.1.map Char.toLower = "x-forwarded-for".toList with
  | none => none
  | some header =>
    let first := Py.stripText (Py.splitHead ',' header.2)
    if first = [] then none else some (String.ofList first)

/-- A request with the environment and the reading of the clock it meets. -/
structure AuthArrival (T : Type) where
  scope : Scope
  env : RateLimitEnvironment
  now : T

/-- What the middleware does with a request. -/
inductive Passage where
  | passed
  | refused (response : HttpResponse) (retryAfter : Int)

inductive MiddlewareError where
  | limiter (error : ApiError)
  | overflowError (message : String)

structure RateLimitMiddleware (T : Type) where
  settings : RateLimitSettings
  limiter : SlidingWindowLimiter T

/-- The middleware as `add_middleware` makes it, with the default settings or others. -/
def RateLimitMiddleware.init (T : Type) (settings : RateLimitSettings) : RateLimitMiddleware T :=
  ⟨settings, ⟨settings.maxTrackedClients, Table.empty⟩⟩

/-- `_rate_limited_response` -/
def rateLimited (windowSeconds : Int) : Passage :=
  .refused (Failure.domain .rateLimitedError "too many requests"
    [("retry_after_seconds", .int windowSeconds)]).respond windowSeconds

section

variable {T : Type} [LinearOrder T] [Sub T] (lower : String → String) (float : Int → Option T)

/-- `_client_key` -/
def clientKey (settings : RateLimitSettings) (arrival : AuthArrival T) : String :=
  let forwarded :=
    if settings.trusts lower arrival.env then forwardedFor arrival.scope else none
  forwarded.getD (arrival.scope.client.getD "unknown")

/-- The request is one that the limit is for, and the limit is switched on. -/
def guarded (settings : RateLimitSettings) (arrival : AuthArrival T) : Bool :=
  arrival.scope.type = "http" && "/auth/".toList.isPrefixOf arrival.scope.path.toList &&
    settings.enabled arrival.env

/-- `__call__` -/
def RateLimitMiddleware.call (middleware : RateLimitMiddleware T) (arrival : AuthArrival T) :
    Except MiddlewareError (Passage × RateLimitMiddleware T) :=
  if guarded middleware.settings arrival then
    match float (middleware.settings.windowOf arrival.env) with
    | none => .error (.overflowError "int too large to convert to float")
    | some windowSeconds =>
      match middleware.limiter.allow (clientKey lower middleware.settings arrival)
          (middleware.settings.limitOf arrival.env) windowSeconds arrival.now with
      | .error error => .error (.limiter error)
      | .ok (admitted, limiter) =>
        .ok (if admitted then .passed else rateLimited (middleware.settings.windowOf arrival.env),
          { middleware with limiter := limiter })
  else .ok (.passed, middleware)

/-- One request after the other; after one that raises the middleware is as it was. -/
def RateLimitMiddleware.serve (middleware : RateLimitMiddleware T) :
    List (AuthArrival T) →
      List (AuthArrival T × Except MiddlewareError Passage) × RateLimitMiddleware T
  | [] => ([], middleware)
  | arrival :: rest =>
    match middleware.call lower float arrival with
    | .error error =>
      let served := RateLimitMiddleware.serve middleware rest
      ((arrival, .error error) :: served.1, served.2)
    | .ok (passage, middleware) =>
      let served := RateLimitMiddleware.serve middleware rest
      ((arrival, .ok passage) :: served.1, served.2)

/-! ## What it does to a run of requests -/

/-- The request without its headers. -/
def AuthArrival.dropHeaders (arrival : AuthArrival T) : AuthArrival T :=
  { arrival with scope := { arrival.scope with headers := [] } }

namespace RateLimitMiddlewareLemmas

variable {settings : RateLimitSettings} {arrival : AuthArrival T}

theorem call_of_not_guarded (limiter : SlidingWindowLimiter T)
    (h : guarded settings arrival = false) :
    RateLimitMiddleware.call lower float ⟨settings, limiter⟩ arrival =
      .ok (.passed, ⟨settings, limiter⟩) := by
  rw [RateLimitMiddleware.call, if_neg (by simp [h])]

/-- No call changes the settings. -/
theorem call_settings {limiter : SlidingWindowLimiter T} {passage : Passage}
    {after : RateLimitMiddleware T}
    (h : RateLimitMiddleware.call lower float ⟨settings, limiter⟩ arrival = .ok (passage, after)) :
    ∃ limiter', after = ⟨settings, limiter'⟩ := by
  unfold RateLimitMiddleware.call at h
  split at h
  · split at h
    · cases h
    · split at h
      · cases h
      · cases h
        exact ⟨_, rfl⟩
  · cases h
    exact ⟨_, rfl⟩

/-- A request that is not guarded might as well not come to the middleware. -/
theorem serve_guarded (settings : RateLimitSettings) (limiter : SlidingWindowLimiter T)
    (arrivals : List (AuthArrival T)) :
    let served := RateLimitMiddleware.serve lower float ⟨settings, limiter⟩ arrivals
    let alone := RateLimitMiddleware.serve lower float ⟨settings, limiter⟩
      (arrivals.filter (guarded settings))
    served.1.map Prod.fst = arrivals ∧
      (∀ e ∈ served.1, guarded settings e.1 = false → e.2 = .ok .passed) ∧
      served.1.filter (fun e => guarded settings e.1) = alone.1 ∧ served.2 = alone.2 := by
  induction arrivals generalizing limiter with
  | nil => simp [RateLimitMiddleware.serve]
  | cons arrival rest ih =>
    cases hguarded : guarded settings arrival with
    | false =>
      obtain ⟨harrivals, hpassed, hresults, hafter⟩ := ih limiter
      rw [List.filter_cons_of_neg (by simp [hguarded])]
      simp only [RateLimitMiddleware.serve, call_of_not_guarded lower float limiter hguarded]
      refine ⟨congrArg _ harrivals, List.forall_mem_cons.mpr ⟨fun _ => rfl, hpassed⟩, ?_, hafter⟩
      rw [List.filter_cons_of_neg (by simp [hguarded]), hresults]
    | true =>
      rw [List.filter_cons_of_pos hguarded]
      cases hcall : RateLimitMiddleware.call lower float ⟨settings, limiter⟩ arrival with
      | error error =>
        simp only [RateLimitMiddleware.serve, hcall]
        obtain ⟨harrivals, hpassed, hresults, hafter⟩ := ih limiter
        refine ⟨congrArg _ harrivals, List.forall_mem_cons.mpr ⟨?_, hpassed⟩, ?_, hafter⟩
        · simp [hguarded]
        · rw [List.filter_cons_of_pos (by exact hguarded), hresults]
      | ok result =>
        obtain ⟨passage, after⟩ := result
        obtain ⟨limiter', rfl⟩ := call_settings lower float hcall
        simp only [RateLimitMiddleware.serve, hcall]
        obtain ⟨harrivals, hpassed, hresults, hafter⟩ := ih limiter'
        refine ⟨congrArg _ harrivals, List.forall_mem_cons.mpr ⟨?_, hpassed⟩, ?_, hafter⟩
        · simp [hguarded]
        · rw [List.filter_cons_of_pos (by exact hguarded), hresults]

/-- Where the forwarded address is not trusted, the headers are of no influence. -/
theorem call_dropHeaders (limiter : SlidingWindowLimiter T)
    (h : settings.trusts lower arrival.env = false) :
    RateLimitMiddleware.call lower float ⟨settings, limiter⟩ arrival.dropHeaders =
      RateLimitMiddleware.call lower float ⟨settings, limiter⟩ arrival := by
  have hkey : clientKey lower settings arrival.dropHeaders = clientKey lower settings arrival := by
    have htrust : settings.trusts lower arrival.dropHeaders.env = false := h
    rw [clientKey, clientKey, h, htrust]
    rfl
  unfold RateLimitMiddleware.call
  rw [hkey]
  rfl

theorem serve_dropHeaders (limiter : SlidingWindowLimiter T) {arrivals : List (AuthArrival T)}
    (h : ∀ arrival ∈ arrivals, settings.trusts lower arrival.env = false) :
    (RateLimitMiddleware.serve lower float ⟨settings, limiter⟩
        (arrivals.map AuthArrival.dropHeaders)).1.map Prod.snd =
      (RateLimitMiddleware.serve lower float ⟨settings, limiter⟩ arrivals).1.map Prod.snd := by
  induction arrivals generalizing limiter with
  | nil => rfl
  | cons arrival rest ih =>
    obtain ⟨harrival, hrest⟩ := List.forall_mem_cons.mp h
    simp only [List.map_cons, RateLimitMiddleware.serve,
      call_dropHeaders lower float limiter harrival]
    cases hcall : RateLimitMiddleware.call lower float ⟨settings, limiter⟩ arrival with
    | error error => exact congrArg (Except.error error :: ·) (ih limiter hrest)
    | ok result =>
      obtain ⟨passage, after⟩ := result
      obtain ⟨limiter', rfl⟩ := call_settings lower float hcall
      exact congrArg (Except.ok passage :: ·) (ih limiter' hrest)

/-- With its buckets tracked the limiter never raises; only the conversion of the window does. -/
theorem call_tracked {maxKeys : Nat} (hkeys : 1 ≤ maxKeys) (settings : RateLimitSettings)
    {admissions : Admissions T} (h : Tracked maxKeys admissions) (arrival : AuthArrival T) :
    (∃ error, RateLimitMiddleware.call lower float ⟨settings, ⟨maxKeys, admissions⟩⟩ arrival =
        .error error ∧ guarded settings arrival = true ∧
          float (settings.windowOf arrival.env) = none) ∨
      ∃ passage after, RateLimitMiddleware.call lower float ⟨settings, ⟨maxKeys, admissions⟩⟩
          arrival = .ok (passage, ⟨settings, ⟨maxKeys, after⟩⟩) ∧ Tracked maxKeys after ∧
        ¬ (guarded settings arrival = true ∧ float (settings.windowOf arrival.env) = none) := by
  unfold RateLimitMiddleware.call
  cases hguarded : guarded settings arrival with
  | false => exact Or.inr ⟨.passed, admissions, by simp, h, by simp⟩
  | true =>
    simp only [if_true]
    cases hfloat : float (settings.windowOf arrival.env) with
    | none => exact Or.inl ⟨_, rfl, trivial, rfl⟩
    | some windowSeconds =>
      obtain ⟨admitted, after, hallow, hafter⟩ := LimiterMemoryLemmas.tracked_allow h hkeys
        ⟨clientKey lower settings arrival, settings.limitOf arrival.env, windowSeconds, arrival.now⟩
      refine Or.inr ⟨if admitted then .passed else rateLimited (settings.windowOf arrival.env),
        after, ?_, hafter, by simp⟩
      simp only [hallow]

theorem serve_tracked {maxKeys : Nat} (hkeys : 1 ≤ maxKeys) (settings : RateLimitSettings)
    {admissions : Admissions T} (h : Tracked maxKeys admissions) (arrivals : List (AuthArrival T)) :
    (∀ e ∈ (RateLimitMiddleware.serve lower float ⟨settings, ⟨maxKeys, admissions⟩⟩ arrivals).1,
        (∃ error, e.2 = .error error) ↔
          guarded settings e.1 = true ∧ float (settings.windowOf e.1.env) = none) ∧
      ∃ after, (RateLimitMiddleware.serve lower float ⟨settings, ⟨maxKeys, admissions⟩⟩
        arrivals).2 = ⟨settings, ⟨maxKeys, after⟩⟩ ∧ Tracked maxKeys after := by
  induction arrivals generalizing admissions with
  | nil => exact ⟨fun e he => absurd he List.not_mem_nil, admissions, rfl, h⟩
  | cons arrival rest ih =>
    rcases call_tracked lower float hkeys settings h arrival with
      ⟨error, hcall, hoverflow⟩ | ⟨passage, after, hcall, hafter, hno⟩
    · simp only [RateLimitMiddleware.serve, hcall]
      exact ⟨List.forall_mem_cons.mpr ⟨iff_of_true ⟨error, rfl⟩ hoverflow, (ih h).1⟩, (ih h).2⟩
    · simp only [RateLimitMiddleware.serve, hcall]
      refine ⟨List.forall_mem_cons.mpr ⟨iff_of_false ?_ hno, (ih hafter).1⟩, (ih hafter).2⟩
      rintro ⟨error, herror⟩
      cases herror

end RateLimitMiddlewareLemmas

open RateLimitMiddlewareLemmas

/-- Whatever arrives, in whatever environment: a request that is not for `/auth/` or meets the limit
switched off is passed on, and leaves nothing behind that the others could feel; the middleware
raises only where the window is too large for a float; it remembers at most `maxTrackedClients`
clients; and unless the operator trusts the forwarded address, no header has any influence. -/
theorem rate_limit_only_guards_auth (settings : RateLimitSettings)
    (hkeys : 1 ≤ settings.maxTrackedClients) (arrivals : List (AuthArrival T)) :
    let middleware := RateLimitMiddleware.init T settings
    let served := middleware.serve lower float arrivals
    let alone := middleware.serve lower float (arrivals.filter (guarded settings))
    served.1.map Prod.fst = arrivals ∧
      (∀ e ∈ served.1, guarded settings e.1 = false → e.2 = .ok .passed) ∧
      served.1.filter (fun e => guarded settings e.1) = alone.1 ∧ served.2 = alone.2 ∧
      (∀ e ∈ served.1, (∃ error, e.2 = .error error) ↔
        guarded settings e.1 = true ∧ float (settings.windowOf e.1.env) = none) ∧
      (served.2.limiter.admissions.rows.length : Int) ≤ settings.maxTrackedClients ∧
      ((∀ arrival ∈ arrivals, settings.trusts lower arrival.env = false) →
        (middleware.serve lower float (arrivals.map AuthArrival.dropHeaders)).1.map Prod.snd =
          served.1.map Prod.snd) := by
  intro middleware served alone
  obtain ⟨maxKeys, hmax⟩ := Int.eq_ofNat_of_zero_le (Int.le_trans Int.one_nonneg hkeys)
  have hempty : Tracked maxKeys (Table.empty : Admissions T) :=
    ⟨fun e he => absurd he List.not_mem_nil, Nat.zero_le maxKeys⟩
  have hinit : middleware = ⟨settings, ⟨maxKeys, Table.empty⟩⟩ := by
    rw [← hmax]
    rfl
  obtain ⟨harrivals, hpassed, hresults, hafter⟩ := serve_guarded lower float settings
    middleware.limiter arrivals
  obtain ⟨herrors, after, hserved, htracked⟩ := serve_tracked lower float
    (Int.ofNat_le.mp (hmax ▸ hkeys)) settings hempty arrivals
  rw [← hinit] at herrors hserved
  refine ⟨harrivals, hpassed, hresults, hafter, herrors, ?_, serve_dropHeaders lower float _⟩
  rw [show served.2 = _ from hserved, hmax]
  exact Int.ofNat_le.mpr htracked.keys

end

/-- A request from one client, where two requests in a minute are allowed. -/
def AuthArrival.sample (path : String) (now : Int) : AuthArrival Int :=
  ⟨⟨"http", path, some "10.0.0.7", [("X-Forwarded-For".toList, "1.1.1.1".toList)]⟩,
    ⟨some "2", some " 60 ", none⟩, now⟩

/-- A request for a product between two logins. -/
theorem rate_limit_only_guards_auth_between :
    let middleware := RateLimitMiddleware.init Int {}
    let served := middleware.serve id some
      [.sample "/auth/login" 0, .sample "/products" 10, .sample "/auth/login" 20]
    served.1.filter (fun e => guarded {} e.1) =
        (middleware.serve id some [.sample "/auth/login" 0, .sample "/auth/login" 20]).1 ∧
      (served.2.limiter.admissions.rows.length : Int) ≤ 1024 := by
  intro middleware served
  obtain ⟨-, -, halone, -, -, hmemory, -⟩ := rate_limit_only_guards_auth id some {} (by decide)
    [.sample "/auth/login" 0, .sample "/products" 10, .sample "/auth/login" 20]
  have hfilter : [AuthArrival.sample "/auth/login" 0, .sample "/products" 10,
      .sample "/auth/login" 20].filter (guarded {}) =
        [.sample "/auth/login" 0, .sample "/auth/login" 20] := by
    have hfirst : guarded {} (.sample "/auth/login" 0) = true := by decide +kernel
    have hproducts : guarded {} (.sample "/products" 10) = false := by decide +kernel
    have hsecond : guarded {} (.sample "/auth/login" 20) = true := by decide +kernel
    simp [hfirst, hproducts, hsecond]
  exact ⟨hfilter ▸ halone, hmemory⟩

/-! ## The budget of a client -/

open WindowLog

section

variable {T : Type} [AddCommGroup T] [LinearOrder T] (lower : String → String)
  (float : Int → Option T)

def Passage.isPassed : Except MiddlewareError Passage → Bool
  | .ok .passed => true
  | _ => false

/-- The call of the limiter for a request. -/
def limiterCall (settings : RateLimitSettings) (arrival : AuthArrival T) : String × T :=
  (clientKey lower settings arrival, arrival.now)

namespace RateLimitMiddlewareLemmas

variable {settings : RateLimitSettings} {window : Int} {windowSeconds : T}

/-- With fixed settings the middleware answers as its limiter does. -/
theorem serve_outcomes (limit : Nat) (hfloat : float window = some windowSeconds)
    {arrivals : List (AuthArrival T)}
    (hfixed : ∀ arrival ∈ arrivals, guarded settings arrival = true ∧
      settings.limitOf arrival.env = limit ∧ settings.windowOf arrival.env = window)
    {limiter : SlidingWindowLimiter T} {results : List ((String × T) × Bool)}
    (hresults : limiter.outcomes limit windowSeconds (arrivals.map (limiterCall lower settings)) =
      .ok results) :
    (RateLimitMiddleware.serve lower float ⟨settings, limiter⟩ arrivals).1.map
      (fun e => (limiterCall lower settings e.1, Passage.isPassed e.2)) = results := by
  induction arrivals generalizing limiter results with
  | nil =>
    cases hresults
    rfl
  | cons arrival rest ih =>
    obtain ⟨⟨hguarded, hlimit, hwindow⟩, hrest⟩ := List.forall_mem_cons.mp hfixed
    rw [List.map_cons, limiterCall, SlidingWindowLimiter.outcomes] at hresults
    cases hallow : limiter.allow (clientKey lower settings arrival) limit windowSeconds
        arrival.now with
    | error error =>
      rw [hallow] at hresults
      cases hresults
    | ok result =>
      obtain ⟨admitted, after⟩ := result
      cases hafter : after.outcomes limit windowSeconds
          (rest.map (limiterCall lower settings)) with
      | error error =>
        simp only [hallow, bind, Except.bind, hafter] at hresults
        cases hresults
      | ok later =>
        simp only [hallow, bind, Except.bind, hafter] at hresults
        cases hresults
        have hcall : RateLimitMiddleware.call lower float ⟨settings, limiter⟩ arrival =
            .ok (if admitted then .passed else rateLimited window, ⟨settings, after⟩) := by
          simp only [RateLimitMiddleware.call, hguarded, if_true, hwindow, hfloat, hlimit, hallow]
        simp only [RateLimitMiddleware.serve, hcall, List.map_cons, ih hrest hafter]
        cases admitted <;> rfl

end RateLimitMiddlewareLemmas

open RateLimitMiddlewareLemmas

variable [IsOrderedAddMonoid T]

/-- While the settings do not change, the clock does not go back and no more clients are live than
are remembered, the middleware answers like a limiter that forgets nothing: of the requests to
`/auth/` of one client it passes on at most `limit` in any window, and refuses one only if so many
were passed on in the window before it. -/
theorem auth_budget (settings : RateLimitSettings) {limit maxKeys : Nat} {window : Int}
    {windowSeconds : T} (hlimit : 1 ≤ limit) (hkeys : 1 ≤ maxKeys)
    (hmax : settings.maxTrackedClients = maxKeys) (hfloat : float window = some windowSeconds)
    {arrivals : List (AuthArrival T)}
    (hfixed : ∀ arrival ∈ arrivals, guarded settings arrival = true →
      settings.limitOf arrival.env = limit ∧ settings.windowOf arrival.env = window)
    (clock : arrivals.Pairwise fun a b => a.now ≤ b.now)
    (few : FewKeys limit maxKeys windowSeconds
      ((arrivals.filter (guarded settings)).map (limiterCall lower settings))) :
    let served := ((RateLimitMiddleware.init T settings).serve lower float arrivals).1
    let results := (served.filter fun e => guarded settings e.1).map
      fun e => (limiterCall lower settings e.1, Passage.isPassed e.2)
    results = outcomes limit (· - windowSeconds) []
        ((arrivals.filter (guarded settings)).map (limiterCall lower settings)) ∧
      ∀ client t,
        ((times client (admitted results)).filter fun s => t < s ∧ s ≤ t + windowSeconds).length ≤
          limit := by
  intro served results
  have hclock : ((arrivals.filter (guarded settings)).map (limiterCall lower settings)).Pairwise
      fun c d => c.2 ≤ d.2 := List.pairwise_map.mpr (clock.filter _)
  have hideal : results = outcomes limit (· - windowSeconds) []
      ((arrivals.filter (guarded settings)).map (limiterCall lower settings)) := by
    have hguarded := (serve_guarded lower float settings ⟨settings.maxTrackedClients, Table.empty⟩
      arrivals).2.2.1
    show (served.filter fun e => guarded settings e.1).map _ = _
    rw [show served.filter (fun e => guarded settings e.1) = _ from hguarded]
    refine serve_outcomes lower float limit hfloat (fun arrival harrival => ?_) ?_
    · obtain ⟨hmem, hg⟩ := List.mem_filter.mp harrival
      exact ⟨hg, hfixed arrival hmem hg⟩
    · rw [hmax]
      exact outcomes_of_fewKeys (fun _ _ h => sub_le_sub_right h _) hlimit hkeys hclock few
  refine ⟨hideal, fun client t => ?_⟩
  rw [hideal]
  refine length_le_limit hclock client fun s s' hs hs' => ?_
  simp only [decide_eq_true_eq] at hs hs'
  exact (sub_le_iff_le_add.mpr hs'.2).trans_lt hs.1

end

/-- The third login within a minute is refused, the one after it is not. -/
theorem auth_budget_logins :
    (((RateLimitMiddleware.init Int {}).serve id some [.sample "/auth/login" 0,
      .sample "/auth/login" 10, .sample "/auth/login" 20, .sample "/auth/login" 65]).1.filter
        fun e => guarded {} e.1).map (fun e => (limiterCall id {} e.1, Passage.isPassed e.2)) =
      [(("10.0.0.7", 0), true), (("10.0.0.7", 10), true), (("10.0.0.7", 20), false),
        (("10.0.0.7", 65), true)] := by
  have hsettings : ∀ arrival ∈ [AuthArrival.sample "/auth/login" 0, .sample "/auth/login" 10,
      .sample "/auth/login" 20, .sample "/auth/login" 65], guarded {} arrival = true →
        RateLimitSettings.limitOf {} arrival.env = (2 : Nat) ∧
          RateLimitSettings.windowOf {} arrival.env = 60 := by
    decide +kernel
  have few : FewKeys 2 1024 (60 : Int) (([AuthArrival.sample "/auth/login" 0,
      .sample "/auth/login" 10, .sample "/auth/login" 20,
      .sample "/auth/login" 65].filter (guarded {})).map (limiterCall id {})) := by
    decide +kernel
  have hbudget := auth_budget id some {} (by decide) (by decide) rfl rfl hsettings (by decide) few
  exact hbudget.1.trans (by decide +kernel)

end LavsCore
