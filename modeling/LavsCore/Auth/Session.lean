import LavsCore.Auth.Signup

/-!
# Sessions

`SessionService`, `PasswordSessionProvider`, and the `login` and `logout` routes. The
cookie carries the raw token; the row carries its digest. `login_run` says when a login
succeeds: the user is active and the password verifies.
-/

namespace LavsCore

open AuthQuery

/-! ## SessionService -/

/-- What a login mints: the id of the session, and the token. -/
structure LoginMint where
  ulid : String
  token : Token

/-- The row that `create_session` inserts. -/
def newSessionRow (mint : LoginMint) (userId : String) (expiresAt : Int) : SessionRow where
  id := mint.ulid
  userId := userId
  tokenHash := Py.sha256 mint.token.text
  expiresAt := expiresAt

/-- `SessionService.create_session`. -/
def createSession (backend : BackendKind) (mint : LoginMint) (userId : String) (ttlSeconds : Int)
    (now : Py.Timestamp) : AuthQuery String := do
  let expiresAt ← Prog.lift (expiry now ttlSeconds)
  insert backend .insertSession fun db =>
    db.insertSession backend (newSessionRow mint userId expiresAt)
  return mint.token.text

/-- The sessions that a token opens at a time. -/
def AuthStore.liveSessions (db : AuthStore) (token : String) (now : Py.Timestamp) :
    List SessionRow :=
  db.sessions.rows.filter (SessionRow.isLive (Py.sha256 token) now)

/-- `SessionService.lookup_active_user_id`. The hash is no key, so the database chooses
among several rows. -/
def lookupActiveUserId (token : String) (now : Py.Timestamp) (choice : Nat) :
    AuthQuery (Option String) := do
  let rows ← select .lookupSession fun db => db.liveSessions token now
  return (rows[choice % rows.length]?).map SessionRow.userId

/-- `SessionService.delete_session`. -/
def deleteSession (token : String) : AuthQuery PUnit :=
  execute .deleteSession fun db => db.deleteSession (Py.sha256 token)

/-! ## PasswordSessionProvider -/

/-- `PrincipalKind`. -/
inductive PrincipalKind where
  | user | service
  deriving DecidableEq, Repr

structure Principal where
  kind : PrincipalKind
  id : String
  email : Option String
  edition : String
  deriving DecidableEq, Repr

/-- The credentials of a request: the `lavs_session` cookie and the `X-API-Key` header. -/
structure AuthRequest where
  cookie : Option String
  apiKey : Option String

/-- `PasswordSessionProvider.authenticate`, with a live database. -/
def passwordSessionProvider (edition : String) (now : Py.Timestamp) (choice : Nat)
    (request : AuthRequest) : AuthQuery (Option Principal) := do
  match request.cookie with
  | none => return none
  | some token =>
    if token = "" then return none
    else
      match ← lookupActiveUserId token now choice with
      | none => return none
      | some userId =>
        match ← select .selectUserById fun db => db.users.lookup userId with
        | [] => return none
        | user :: _ => return some ⟨.user, userId, some user.email, edition⟩

/-! ## Login and logout -/

/-- `LoginModel` after its validators: the email is trimmed and lower-cased. -/
structure LoginModel where
  email : String
  password : String
  password_length : 1 ≤ password.length ∧ password.length ≤ 128

/-- A response that sets the session cookie. -/
structure LoginResponse where
  user : UserResponseModel
  cookie : String
  maxAge : Int
  deriving DecidableEq, Repr

/-- `login`. -/
def login (d : Deployment) (env : AuthEnvironment) (model : LoginModel) (mint : LoginMint)
    (now : Py.Timestamp) : AuthQuery LoginResponse := do
  match ← select .selectUserByEmail fun db => db.usersByEmail model.email with
  | [] => Prog.raise (.unauthorized "invalid credentials")
  | user :: _ =>
    if d.verify user.passwordHash model.password = true ∧ user.status = .active then
      let ttlSeconds ← Prog.lift (AuthSettings.sessionTtlSeconds env)
      let token ← createSession d.backend mint user.id ttlSeconds now
      return ⟨toUserResponse user, token, ttlSeconds⟩
    else Prog.raise (.unauthorized "invalid credentials")

/-- `logout`. -/
def logout (request : AuthRequest) : AuthQuery PUnit :=
  match request.cookie with
  | some token => if token = "" then pure ⟨⟩ else deleteSession token
  | none => pure ⟨⟩

/-- What a login alone answers and leaves. -/
inductive LoginOutcome (d : Deployment) (env : AuthEnvironment) (model : LoginModel)
    (mint : LoginMint) (now : Py.Timestamp) (w : AuthWorld) :
    Except AuthError LoginResponse → AuthWorld → Prop
  | refused (error : AuthError) : LoginOutcome d env model mint now w (.error error) w
  | opened {user : UserRow} {ttlSeconds : Int} {db : AuthStore}
      (huser : user ∈ w.db.users.rows) (hemail : user.email = model.email)
      (hpassword : d.verify user.passwordHash model.password = true)
      (hactive : user.status = .active)
      (httl : AuthSettings.sessionTtlSeconds env = .ok ttlSeconds)
      (hinsert : w.db.insertSession d.backend
        (newSessionRow mint user.id (now + 1000000 * ttlSeconds)) = .ok db) :
      LoginOutcome d env model mint now w
        (.ok ⟨toUserResponse user, mint.token.text, ttlSeconds⟩) { w with db := db }

theorem login_run (d : Deployment) (env : AuthEnvironment) (model : LoginModel) (mint : LoginMint)
    (now : Py.Timestamp) (w : AuthWorld) :
    LoginOutcome d env model mint now w ((login d env model mint now).run w).1
      ((login d env model mint now).run w).2 := by
  have hrun : ∀ answer w', (login d env model mint now).run w = (answer, w') →
      LoginOutcome d env model mint now w answer w' →
      LoginOutcome d env model mint now w ((login d env model mint now).run w).1
        ((login d env model mint now).run w).2 := by
    intro answer w' hrun h
    rw [hrun]
    exact h
  cases hfound : w.db.usersByEmail model.email with
  | nil =>
    refine hrun _ w ?_ (.refused (.unauthorized "invalid credentials"))
    simp [login, hfound]
  | cons user rest =>
  obtain ⟨huser, hemail⟩ := AuthStore.mem_usersByEmail.mp
    (hfound ▸ List.mem_cons_self : user ∈ w.db.usersByEmail model.email)
  by_cases hok : d.verify user.passwordHash model.password = true ∧ user.status = .active
  · cases httl : AuthSettings.sessionTtlSeconds env with
    | error error =>
      refine hrun _ _ ?_ (.refused error)
      simp [login, hfound, hok, httl]
    | ok ttlSeconds =>
    cases hexpiry : expiry now ttlSeconds with
    | error error =>
      refine hrun _ _ ?_ (.refused error)
      simp [login, hfound, hok, httl, createSession, hexpiry]
    | ok expiresAt =>
    cases expiry_ok hexpiry
    cases hinsert : w.db.insertSession d.backend
      (newSessionRow mint user.id (now + 1000000 * ttlSeconds)) with
    | error refusal =>
      refine hrun _ _ ?_ (.refused (.driver (d.backend.raises refusal)))
      simp [login, hfound, hok, httl, createSession, hexpiry, hinsert]
    | ok db =>
      refine hrun _ _ ?_ (.opened huser hemail hok.1 hok.2 httl hinsert)
      simp [login, hfound, hok, httl, createSession, hexpiry, hinsert]
  · refine hrun _ w ?_ (.refused (.unauthorized "invalid credentials"))
    simp [login, hfound, hok]

/-- What the provider answers. A session references its user, so none has vanished. -/
inductive SessionOutcome (edition : String) (now : Py.Timestamp) (request : AuthRequest)
    (w : AuthWorld) : Option Principal → Prop
  | absent (hcookie : request.cookie = none ∨ request.cookie = some "") :
      SessionOutcome edition now request w none
  | lapsed {token : String} (hcookie : request.cookie = some token)
      (hnone : w.db.liveSessions token now = []) : SessionOutcome edition now request w none
  | resolved {token : String} {s : SessionRow} {user : UserRow}
      (hcookie : request.cookie = some token) (hne : token ≠ "")
      (hs : s ∈ w.db.liveSessions token now) (huser : user ∈ w.db.users.rows)
      (hid : user.id = s.userId) :
      SessionOutcome edition now request w (some ⟨.user, s.userId, some user.email, edition⟩)

/-- The provider changes nothing and does not fail. -/
theorem passwordSessionProvider_run (edition : String) (now : Py.Timestamp) (choice : Nat)
    (request : AuthRequest) (w : AuthWorld) :
    ∃ answer, (passwordSessionProvider edition now choice request).run w = (.ok answer, w) ∧
      SessionOutcome edition now request w answer := by
  cases hcookie : request.cookie with
  | none => exact ⟨none, by simp [passwordSessionProvider, hcookie], .absent (Or.inl hcookie)⟩
  | some token =>
  rcases eq_or_ne token "" with rfl | hne
  · exact ⟨none, by simp [passwordSessionProvider, hcookie], .absent (Or.inr hcookie)⟩
  cases hchosen : (w.db.liveSessions token now)[choice % (w.db.liveSessions token now).length]? with
  | none =>
    have hnone : w.db.liveSessions token now = [] := by
      by_contra hne'
      have hpos := List.length_pos_iff.mpr hne'
      exact absurd (Nat.mod_lt choice hpos) (Nat.not_lt.mpr (List.getElem?_eq_none_iff.mp hchosen))
    refine ⟨none, ?_, .lapsed hcookie hnone⟩
    simp [passwordSessionProvider, hcookie, hne, lookupActiveUserId, hnone]
  | some s =>
    have hs : s ∈ w.db.liveSessions token now := List.mem_of_getElem? hchosen
    have hkey := w.db.session_user s (List.mem_of_mem_filter hs)
    obtain ⟨user, huser, hid, hlookup⟩ := Table.lookup_eq_singleton_of_mem_keys hkey
    refine ⟨_, ?_, .resolved hcookie hne hs huser hid⟩
    simp [passwordSessionProvider, hcookie, hne, lookupActiveUserId, hchosen, hlookup]

end LavsCore
