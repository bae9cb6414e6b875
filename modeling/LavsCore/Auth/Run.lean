import LavsCore.Auth.Session
import LavsCore.Lib.History

/-!
# Runs of auth requests

Sign-ups, verifications, logins and logouts one after another, with the clock advancing
in between and an operator who may disable an account. `AuthEffect` lists what a step can
do to the tables; every user row comes from a sign-up of the run (`users_signedUp`).
-/

namespace LavsCore

/-- One step: a request, the clock, or the operator. -/
inductive AuthStep where
  | signup (env : AuthEnvironment) (model : SignupModel) (mint : SignupMint)
  | verify (model : VerifyModel)
  | login (env : AuthEnvironment) (model : LoginModel) (mint : LoginMint)
  | logout (request : AuthRequest)
  | advance (microseconds : Nat)
  | disable (userId : String)

/-- The tables and the mails, at a time. -/
structure Clocked where
  world : AuthWorld
  now : Py.Timestamp

def authExec (d : Deployment) (c : Clocked) : AuthStep → Clocked
  | .signup env model mint => { c with world := ((register d env model mint c.now).run c.world).2 }
  | .verify model => { c with world := ((verify model c.now c.now).run c.world).2 }
  | .login env model mint => { c with world := ((login d env model mint c.now).run c.world).2 }
  | .logout request => { c with world := ((logout request).run c.world).2 }
  | .advance microseconds => { c with now := c.now + microseconds }
  | .disable userId =>
    { c with world := { c.world with db := c.world.db.setUserStatus .disabled userId } }

/-- The state after a run. -/
abbrev authRun (d : Deployment) (c : Clocked) (steps : List AuthStep) : Clocked :=
  History.run (authExec d) c steps

/-- A fresh deployment. -/
def Clocked.init (now : Py.Timestamp) : Clocked := ⟨⟨AuthStore.empty, []⟩, now⟩

/-- The tokens that a step mints. -/
def AuthStep.minted : AuthStep → List String
  | .signup _ _ mint => [mint.token.text]
  | .login _ _ mint => [mint.token.text]
  | _ => []

/-- The tokens that a step mints or that a client presents in it. -/
def AuthStep.tokens : AuthStep → List String
  | .verify model => [model.token]
  | .logout request => request.cookie.toList
  | step => step.minted

/-- The passwords of the requests. -/
def AuthStep.passwords : AuthStep → List String
  | .signup _ model _ => [model.password]
  | .login _ model _ => [model.password]
  | _ => []

/-! ## What a step can do -/

inductive AuthEffect (d : Deployment) (now : Py.Timestamp) (db : AuthStore) :
    AuthStep → AuthStore → Prop
  | unchanged (step : AuthStep) : AuthEffect d now db step db
  | registered {env : AuthEnvironment} {model : SignupModel} {mint : SignupMint} {db' : AuthStore}
      (hinsert : db.insertUser d.backend (newUserRow d env model mint) = .ok db') :
      AuthEffect d now db (.signup env model mint) db'
  | issued {env : AuthEnvironment} {model : SignupModel} {mint : SignupMint}
      {db₁ db' : AuthStore} {expiresAt : Int}
      (hinsert : db.insertUser d.backend (newUserRow d env model mint) = .ok db₁)
      (htoken : db₁.insertToken d.backend (newTokenRow mint expiresAt) = .ok db') :
      AuthEffect d now db (.signup env model mint) db'
  | verified {model : VerifyModel} {token : VerificationTokenRow} (htoken : token ∈ db.tokens.rows)
      (hactive : token.isActive (Py.sha256 model.token) now = true) :
      AuthEffect d now db (.verify model) (db.verified token now)
  | opened {env : AuthEnvironment} {model : LoginModel} {mint : LoginMint} {user : UserRow}
      {expiresAt : Int} {db' : AuthStore} (huser : user ∈ db.users.rows)
      (hactive : user.status = .active)
      (hinsert : db.insertSession d.backend (newSessionRow mint user.id expiresAt) = .ok db') :
      AuthEffect d now db (.login env model mint) db'
  | closed {request : AuthRequest} {token : String} (hcookie : request.cookie = some token) :
      AuthEffect d now db (.logout request) (db.deleteSession (Py.sha256 token))
  | disabled (userId : String) :
      AuthEffect d now db (.disable userId) (db.setUserStatus .disabled userId)

namespace AuthRunLemmas

variable {d : Deployment} {c : Clocked}

theorem logout_run (request : AuthRequest) (w : AuthWorld) :
    (logout request).run w =
      (.ok ⟨⟩, { w with
        db := match request.cookie with
          | some token => if token = "" then w.db else w.db.deleteSession (Py.sha256 token)
          | none => w.db }) := by
  unfold logout
  cases request.cookie with
  | none => rfl
  | some token =>
    dsimp only
    split <;> simp [deleteSession]

/-- A step does to the tables one of the listed effects. -/
theorem authExec_effect (d : Deployment) (c : Clocked) (step : AuthStep) :
    AuthEffect d c.now c.world.db step (authExec d c step).world.db := by
  cases step with
  | signup env model mint =>
    have h := register_run d env model mint c.now c.world
    simp only [authExec]
    generalize (register d env model mint c.now).run c.world = result at h ⊢
    obtain ⟨answer, w'⟩ := result
    cases h with
    | refused error => exact .unchanged _
    | stranded error hinsert => exact .registered hinsert
    | unsent error hinsert htoken => exact .issued hinsert htoken
    | registered hinsert htoken => exact .issued hinsert htoken
  | verify model =>
    have h := verify_run model c.now c.now c.world
    simp only [authExec]
    generalize (verify model c.now c.now).run c.world = result at h ⊢
    obtain ⟨answer, w'⟩ := result
    cases h with
    | invalid _ => exact .unchanged _
    | verified htoken hactive _ _ => exact .verified htoken hactive
  | login env model mint =>
    have h := login_run d env model mint c.now c.world
    simp only [authExec]
    generalize (login d env model mint c.now).run c.world = result at h ⊢
    obtain ⟨answer, w'⟩ := result
    cases h with
    | refused error => exact .unchanged _
    | opened huser _ _ hactive _ hinsert => exact .opened huser hactive hinsert
  | logout request =>
    simp only [authExec, logout_run]
    cases hcookie : request.cookie with
    | none => exact .unchanged _
    | some token =>
      dsimp only
      split
      · exact .unchanged _
      · exact .closed hcookie
  | advance microseconds => exact .unchanged _
  | disable userId => exact .disabled userId

/-- Only the clock step moves the clock. -/
theorem authExec_now (d : Deployment) (c : Clocked) (step : AuthStep) :
    c.now ≤ (authExec d c step).now := by
  cases step with
  | advance microseconds => exact Nat.le_add_right _ _
  | _ => exact Nat.le_refl _

end AuthRunLemmas

open AuthRunLemmas

/-- The account was signed up in one of the steps, with its email and its password. -/
def SignedUp (d : Deployment) (steps : List AuthStep) (user : UserRow) : Prop :=
  ∃ env model mint, .signup env model mint ∈ steps ∧ mint.ulid = user.id ∧
    model.email = user.email ∧ d.hash mint.salt model.password = user.passwordHash

/-- Every account of a fresh deployment was signed up in the run. -/
theorem users_signedUp (d : Deployment) (now : Py.Timestamp) (steps : List AuthStep) :
    ∀ user ∈ (authRun d (.init now) steps).world.db.users.rows, SignedUp d steps user := by
  refine History.run_induction (authExec d)
    (R := fun steps c => ∀ user ∈ c.world.db.users.rows, SignedUp d steps user) ?_ ?_ steps
  · exact fun user huser => absurd huser List.not_mem_nil
  intro steps step ih
  have hkept : ∀ user ∈ (authRun d (.init now) steps).world.db.users.rows,
      SignedUp d (steps ++ [step]) user := by
    intro user huser
    obtain ⟨env, model, mint, hmem, h⟩ := ih user huser
    exact ⟨env, model, mint, List.mem_append_left _ hmem, h⟩
  -- A change of the status leaves what the sign-up wrote.
  have hstatus : ∀ status id, ∀ user ∈
      ((authRun d (.init now) steps).world.db.setUserStatus status id).users.rows,
      SignedUp d (steps ++ [step]) user := by
    intro status id user huser
    obtain ⟨user₀, huser₀, rfl⟩ := List.mem_map.mp huser
    obtain ⟨env, model, mint, hmem, hid, hemail, hhash⟩ := hkept user₀ huser₀
    refine ⟨env, model, mint, hmem, ?_, ?_, ?_⟩
    · exact hid.trans (AuthStore.withUserStatus_id status id user₀).symm
    · exact hemail.trans (AuthStore.withUserStatus_email status id user₀).symm
    · exact hhash.trans (AuthStore.withUserStatus_passwordHash status id user₀).symm
  have hinserted : ∀ {env model mint db}, step = .signup env model mint →
      (authRun d (.init now) steps).world.db.insertUser d.backend (newUserRow d env model mint) =
        .ok db → ∀ user ∈ db.users.rows, SignedUp d (steps ++ [step]) user := by
    rintro env model mint db rfl hinsert user huser
    rw [(AuthStore.insertUser_ok hinsert).rows] at huser
    rcases List.mem_append.mp huser with huser | huser
    · exact hkept user huser
    · cases List.mem_singleton.mp huser
      exact ⟨env, model, mint, List.mem_append_right _ List.mem_cons_self, rfl, rfl, rfl⟩
  have heffect := authExec_effect d (authRun d (.init now) steps) step
  generalize (authExec d (authRun d (.init now) steps) step).world.db = db at heffect ⊢
  cases heffect with
  | unchanged _ => exact hkept
  | registered hinsert => exact hinserted rfl hinsert
  | issued hinsert htoken =>
    rw [(AuthStore.insertToken_ok htoken).users]
    exact hinserted rfl hinsert
  | verified _ _ => exact hstatus _ _
  | opened _ _ hinsert =>
    rw [(AuthStore.insertSession_ok hinsert).users]
    exact hkept
  | closed _ => exact hkept
  | disabled _ => exact hstatus _ _

/-! ## One account -/

namespace Sample

/-- ASCII lower case, and a hash that shows the password. -/
def deployment (backend : BackendKind) : Deployment where
  lower := fun text => String.ofList (text.toList.map Char.toLower)
  hash := fun salt password => salt ++ "$" ++ password
  verify := fun passwordHash password =>
    (passwordHash.toList.dropWhile (· ≠ '$')).drop 1 = password.toList
  backend := backend
  mailer := captureMailer

/-- No variable is set. -/
def unset : AuthEnvironment := ⟨none, none, none, none, none, none⟩

theorem email_shape : matchesEmail "engineer@example.com" = true := by decide +kernel

theorem password_length : 12 ≤ "correct horse".length ∧ "correct horse".length ≤ 128 := by decide

def account : SignupModel := ⟨"engineer@example.com", "correct horse", email_shape, password_length⟩

theorem mailed_ne : "mailed" ≠ "" := by decide

theorem session_ne : "session" ≠ "" := by decide

theorem mailed_length : 1 ≤ "mailed".length ∧ "mailed".length ≤ 256 := by decide

def mailed : Token := ⟨"mailed", mailed_ne⟩

def session : Token := ⟨"session", session_ne⟩

def signup : AuthStep := .signup unset account ⟨"01KW8WHA6STWW5N1VYRSHDTK70", "salt", mailed⟩

def verification : VerifyModel := ⟨"mailed", mailed_length⟩

theorem login_length : 1 ≤ "correct horse".length ∧ "correct horse".length ≤ 128 := by decide

def credentials : LoginModel := ⟨"engineer@example.com", "correct horse", login_length⟩

def login : AuthStep := .login unset credentials ⟨"01KW8WHA6STWW5N1VYRSHDTK80", session⟩

/-- A request with the cookie of the session. -/
def browser : AuthRequest := ⟨some "session", none⟩

end Sample

end LavsCore
