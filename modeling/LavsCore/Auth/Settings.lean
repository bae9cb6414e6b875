import LavsCore.Auth.Store
import LavsCore.Python.Text

/-!
# Auth settings

`AuthSettings`, `VerificationSettings` and `ApiKeySettings` over the `LAVS_*` variables,
which are read on every access. What the lane takes from elsewhere is a parameter:
`str.lower`, argon2, and the mailer (`Deployment`).
-/

namespace LavsCore

/-- `AuthMode`. -/
inductive AuthMode where
  | password | apikey
  deriving DecidableEq, Repr

def AuthMode.value : AuthMode → String
  | .password => "password"
  | .apikey => "apikey"

/-- `AuthMode(value)`, for a valid value. -/
def AuthMode.ofValue? (value : String) : Option AuthMode :=
  [AuthMode.password, AuthMode.apikey].find? fun mode => mode.value = value

/-- The variables of the process environment; `none` is a variable that is not set. -/
structure AuthEnvironment where
  authModes : Option String
  allowedEmailDomains : Option String
  sessionTtlSeconds : Option String
  edition : Option String
  emailVerificationTtlSeconds : Option String
  apiKey : Option String

/-- What an auth request can end in besides a response. -/
inductive AuthError where
  | domainNotAllowed (message domain : String)
  | conflict (message : String)
  | notFound (message : String)
  | unauthorized (message : String)
  | driver (error : DriverError)
  | valueError (message : String)
  | overflowError (message : String)
  | typeError (message : String)
  | mail (message : String)
  deriving DecidableEq, Repr

/-- `CapturedEmail`; its `to` is a keyword here. -/
structure CapturedEmail where
  recipient : String
  subject : String
  body : String
  deriving DecidableEq, Repr

/-- What the service is linked to: `str.lower`, argon2 (`hash` with its random salt, and
`verify`), the database engine, and a mailer, which may raise. -/
structure Deployment where
  lower : String → String
  hash : String → String → String
  verify : String → String → Bool
  backend : BackendKind
  mailer : CapturedEmail → Option AuthError

/-- `CaptureMailer.send` raises nothing. -/
def captureMailer : CapturedEmail → Option AuthError := fun _ => none

/-! ## AuthSettings -/

namespace AuthSettings

/-- `_split_csv`: trimmed, non-empty items. -/
def splitCsv (raw : String) : List String :=
  (((Py.split ',' raw.toList).map Py.stripText).filter fun item => item ≠ []).map String.ofList

/-- `AuthSettings.modes`. An unrecognised token is ignored. -/
def modes (lower : String → String) (env : AuthEnvironment) : List AuthMode :=
  (splitCsv (env.authModes.getD "")).filterMap fun token => AuthMode.ofValue? (lower token)

def allowedEmailDomains (lower : String → String) (env : AuthEnvironment) : List String :=
  (splitCsv (env.allowedEmailDomains.getD "")).map lower

/-- A number of seconds: the default if the variable is not set or blank. -/
def seconds (default : Int) (raw : Option String) : Except AuthError Int :=
  match raw with
  | none => .ok default
  | some raw =>
    if Py.stripText raw.toList = [] then .ok default
    else
      match Py.int raw.toList with
      | some n => .ok n
      | none => .error (.valueError s!"invalid literal for int() with base 10: '{raw}'")

def sessionTtlSeconds (env : AuthEnvironment) : Except AuthError Int :=
  seconds 604800 env.sessionTtlSeconds

def edition (env : AuthEnvironment) : String :=
  match env.edition with
  | none => "oss"
  | some raw =>
    if Py.stripText raw.toList = [] then "oss" else String.ofList (Py.stripText raw.toList)

def passwordEnabled (lower : String → String) (env : AuthEnvironment) : Bool :=
  (modes lower env).contains .password

def apikeyModeEnabled (lower : String → String) (env : AuthEnvironment) : Bool :=
  (modes lower env).contains .apikey

end AuthSettings

/-- `VerificationSettings.ttl_seconds`. -/
def VerificationSettings.ttlSeconds (env : AuthEnvironment) : Except AuthError Int :=
  AuthSettings.seconds 86400 env.emailVerificationTtlSeconds

/-- `is_authentication_enabled`. -/
def isAuthenticationEnabled (env : AuthEnvironment) : Bool :=
  match env.apiKey with
  | some key => key ≠ ""
  | none => false

/-! ## Times and tokens -/

/-- `datetime.min` and `datetime.max`. -/
def minTime : Int := -62135596800000000

def maxTime : Int := 253402300799999999

/-- `timedelta(seconds=ttl_seconds)`, in microseconds: its days are a C `int`, of nine digits at
most. -/
def timedelta (ttlSeconds : Int) : Except AuthError Int :=
  let days := ttlSeconds / 86400
  if days < -2147483648 ∨ 2147483647 < days then
    .error (.overflowError "Python int too large to convert to C int")
  else if days < -999999999 ∨ 999999999 < days then
    .error (.overflowError s!"days={days}; must have magnitude <= 999999999")
  else .ok (1000000 * ttlSeconds)

/-- `_utc_now() + timedelta(seconds=ttl_seconds)`. -/
def expiry (now : Py.Timestamp) (ttlSeconds : Int) : Except AuthError Int := do
  let delta ← timedelta ttlSeconds
  if minTime ≤ now + delta ∧ now + delta ≤ maxTime then .ok (now + delta)
  else .error (.overflowError "date value out of range")

theorem expiry_ok {now : Py.Timestamp} {ttlSeconds expiresAt : Int}
    (h : expiry now ttlSeconds = .ok expiresAt) : expiresAt = now + 1000000 * ttlSeconds := by
  have hdelta : ∀ delta, timedelta ttlSeconds = .ok delta → delta = 1000000 * ttlSeconds := by
    intro delta hdelta
    unfold timedelta at hdelta
    dsimp only at hdelta
    split at hdelta
    · cases hdelta
    · split at hdelta
      · cases hdelta
      · exact (Except.ok.inj hdelta).symm
  unfold expiry at h
  cases htimedelta : timedelta ttlSeconds with
  | error error =>
    rw [htimedelta] at h
    cases h
  | ok delta =>
    rw [htimedelta] at h
    simp only [bind, Except.bind] at h
    split at h
    · cases h
      rw [hdelta delta htimedelta]
    · cases h

/-- What `generate_token` mints: never the empty text. -/
structure Token where
  text : String
  nonempty : text ≠ ""
  deriving DecidableEq

end LavsCore
