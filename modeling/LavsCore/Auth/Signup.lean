import LavsCore.Auth.Query
import LavsCore.Python.Sha256

/-!
# Sign-up and verification

`SignupService.register` and `VerificationService.verify`. A registration writes two
rows and sends one mail, each in a statement of its own: one that fails after the first
leaves the user behind (`RegisterOutcome`).
-/

namespace LavsCore

open AuthQuery

/-! ## Models -/

/-- `[^@\s]`. -/
def isAddressChar (c : Char) : Bool := c ≠ '@' && !Py.isWhitespace c

/-- `^[^@\s]+@[^@\s]+\.[^@\s]+$`, as `re.fullmatch` applies it. -/
def matchesEmail (email : String) : Bool :=
  match Py.split '@' email.toList with
  | [localPart, domain] =>
    localPart ≠ [] && localPart.all isAddressChar && domain.all isAddressChar &&
      (domain.drop 1).dropLast.contains '.'
  | _ => false

example : matchesEmail "engineer@example.com" = true := by decide +kernel

example : matchesEmail "engineer@.com" = false := by decide +kernel

/-- `SignupModel` after its validators: the email is trimmed and lower-cased. -/
structure SignupModel where
  email : String
  password : String
  email_shape : matchesEmail email = true
  password_length : 12 ≤ password.length ∧ password.length ≤ 128

/-- `VerifyModel`. -/
structure VerifyModel where
  token : String
  token_length : 1 ≤ token.length ∧ token.length ≤ 256

structure UserResponseModel where
  id : String
  email : String
  status : String
  edition : Option String
  deriving DecidableEq, Repr

def toUserResponse (user : UserRow) : UserResponseModel where
  id := user.id
  email := user.email
  status := user.status.value
  edition := user.edition

/-! ## SignupService -/

/-- What a registration mints: the id of the user, the salt of the hash, the token. -/
structure SignupMint where
  ulid : String
  salt : String
  token : Token

def duplicateEmailMessage : String := "This email address cannot be registered."

def domainNotAllowedMessage : String := "This email domain is not permitted for sign-up."

/-- `email.rsplit("@", 1)[-1]`. -/
def emailDomain (email : String) : String :=
  String.ofList ((Py.split '@' email.toList).getLast?.getD [])

/-- The allow-list admits the email. An empty list admits every one. -/
def domainAllowed (lower : String → String) (env : AuthEnvironment) (email : String) : Bool :=
  let allowed := AuthSettings.allowedEmailDomains lower env
  allowed.isEmpty || allowed.contains (emailDomain email)

/-- `_assert_domain_allowed`. -/
def assertDomainAllowed (lower : String → String) (env : AuthEnvironment) (email : String) :
    AuthQuery PUnit :=
  if domainAllowed lower env email then pure ⟨⟩
  else Prog.raise (.domainNotAllowed domainNotAllowedMessage (emailDomain email))

/-- `_assert_email_available`. -/
def assertEmailAvailable (email : String) : AuthQuery PUnit := do
  match ← select .selectUserByEmail fun db => db.usersByEmail email with
  | _ :: _ => Prog.raise (.conflict duplicateEmailMessage)
  | [] => pure ⟨⟩

/-- `except duckdb.ConstraintException, psycopg.errors.UniqueViolation`. -/
def DriverError.isCaught : DriverError → Bool
  | .duckdbConstraintException | .psycopgUniqueViolation => true
  | _ => false

/-- The `ConflictError` in the place of a caught driver error. -/
def conflictOnDuplicate : AuthError → AuthError
  | .driver error => if error.isCaught then .conflict duplicateEmailMessage else .driver error
  | error => error

/-- The row that `create_user` inserts. -/
def newUserRow (d : Deployment) (env : AuthEnvironment) (model : SignupModel)
    (mint : SignupMint) : UserRow where
  id := mint.ulid
  email := model.email
  passwordHash := d.hash mint.salt model.password
  status := .pending
  edition := some (AuthSettings.edition env)

/-- The row that `issue` inserts. -/
def newTokenRow (mint : SignupMint) (expiresAt : Int) : VerificationTokenRow where
  tokenHash := Py.sha256 mint.token.text
  userId := mint.ulid
  expiresAt := expiresAt
  consumedAt := none

/-- `VerificationTokenRepository.issue`. -/
def issueToken (backend : BackendKind) (mint : SignupMint) (ttlSeconds : Int)
    (now : Py.Timestamp) : AuthQuery PUnit := do
  let expiresAt ← Prog.lift (expiry now ttlSeconds)
  insert backend .insertToken fun db => db.insertToken backend (newTokenRow mint expiresAt)

/-- `VerificationEmail`. -/
def verificationEmail (email token : String) : CapturedEmail where
  recipient := email
  subject := "Verify your LAVS account"
  body := "Welcome to LAVS.\n\nUse the following single-use token to verify your account:\n\n" ++
    token ++ "\n\nThe token expires; if it has, request a new one by signing up again."

/-- `SignupService.register`. -/
def register (d : Deployment) (env : AuthEnvironment) (model : SignupModel) (mint : SignupMint)
    (now : Py.Timestamp) : AuthQuery PUnit := do
  assertDomainAllowed d.lower env model.email
  assertEmailAvailable model.email
  (insert d.backend .insertUser fun db =>
    db.insertUser d.backend (newUserRow d env model mint)).mapError conflictOnDuplicate
  let ttlSeconds ← Prog.lift (VerificationSettings.ttlSeconds env)
  issueToken d.backend mint ttlSeconds now
  send d.mailer (verificationEmail model.email mint.token.text)

/-- What a registration alone answers and leaves. -/
inductive RegisterOutcome (d : Deployment) (env : AuthEnvironment) (model : SignupModel)
    (mint : SignupMint) (w : AuthWorld) : Except AuthError PUnit → AuthWorld → Prop
  | refused (error : AuthError) : RegisterOutcome d env model mint w (.error error) w
  | stranded (error : AuthError) {db : AuthStore}
      (hinsert : w.db.insertUser d.backend (newUserRow d env model mint) = .ok db) :
      RegisterOutcome d env model mint w (.error error) { w with db := db }
  | unsent (error : AuthError) {db db' : AuthStore} {expiresAt : Int}
      (hinsert : w.db.insertUser d.backend (newUserRow d env model mint) = .ok db)
      (htoken : db.insertToken d.backend (newTokenRow mint expiresAt) = .ok db') :
      RegisterOutcome d env model mint w (.error error) { w with db := db' }
  | registered {db db' : AuthStore} {expiresAt : Int}
      (hinsert : w.db.insertUser d.backend (newUserRow d env model mint) = .ok db)
      (htoken : db.insertToken d.backend (newTokenRow mint expiresAt) = .ok db') :
      RegisterOutcome d env model mint w (.ok ⟨⟩)
        ⟨db', w.outbox ++ [verificationEmail model.email mint.token.text]⟩

theorem register_run (d : Deployment) (env : AuthEnvironment) (model : SignupModel)
    (mint : SignupMint) (now : Py.Timestamp) (w : AuthWorld) :
    RegisterOutcome d env model mint w ((register d env model mint now).run w).1
      ((register d env model mint now).run w).2 := by
  have hrun : ∀ answer w', (register d env model mint now).run w = (answer, w') →
      RegisterOutcome d env model mint w answer w' →
      RegisterOutcome d env model mint w ((register d env model mint now).run w).1
        ((register d env model mint now).run w).2 := by
    intro answer w' hrun h
    rw [hrun]
    exact h
  cases hallowed : domainAllowed d.lower env model.email with
  | false =>
    refine hrun _ w ?_ (.refused (.domainNotAllowed domainNotAllowedMessage (emailDomain model.email)))
    simp [register, assertDomainAllowed, hallowed]
  | true =>
  cases htaken : w.db.usersByEmail model.email with
  | cons user rest =>
    refine hrun _ w ?_ (.refused (.conflict duplicateEmailMessage))
    simp [register, assertDomainAllowed, hallowed, assertEmailAvailable, htaken]
  | nil =>
  cases hinsert : w.db.insertUser d.backend (newUserRow d env model mint) with
  | error refusal =>
    refine hrun _ w ?_ (.refused (conflictOnDuplicate (.driver (d.backend.raises refusal))))
    simp [register, assertDomainAllowed, hallowed, assertEmailAvailable, htaken, hinsert]
  | ok db =>
  cases httl : VerificationSettings.ttlSeconds env with
  | error error =>
    refine hrun _ _ ?_ (.stranded error hinsert)
    simp [register, assertDomainAllowed, hallowed, assertEmailAvailable, htaken, hinsert, httl]
  | ok ttlSeconds =>
  cases hexpiry : expiry now ttlSeconds with
  | error error =>
    refine hrun _ _ ?_ (.stranded error hinsert)
    simp [register, assertDomainAllowed, hallowed, assertEmailAvailable, htaken, hinsert, httl,
      issueToken, hexpiry]
  | ok expiresAt =>
  cases htoken : db.insertToken d.backend (newTokenRow mint expiresAt) with
  | error refusal =>
    refine hrun _ _ ?_ (.stranded (.driver (d.backend.raises refusal)) hinsert)
    simp [register, assertDomainAllowed, hallowed, assertEmailAvailable, htaken, hinsert, httl,
      issueToken, hexpiry, htoken]
  | ok db' =>
  cases hmail : d.mailer (verificationEmail model.email mint.token.text) with
  | some error =>
    refine hrun _ _ ?_ (.unsent error hinsert htoken)
    simp [register, assertDomainAllowed, hallowed, assertEmailAvailable, htaken, hinsert, httl,
      issueToken, hexpiry, htoken, hmail]
  | none =>
    refine hrun _ _ ?_ (.registered hinsert htoken)
    simp [register, assertDomainAllowed, hallowed, assertEmailAvailable, htaken, hinsert, httl,
      issueToken, hexpiry, htoken, hmail]

/-! ## VerificationService -/

/-- `find_active`: the token hash is a key, so at most one row. -/
def AuthStore.findActive (db : AuthStore) (tokenHash : String) (now : Py.Timestamp) :
    List VerificationTokenRow :=
  db.tokens.rows.filter (VerificationTokenRow.isActive tokenHash now)

def invalidTokenMessage : String := "The verification token is invalid or has expired."

/-- `VerificationService.verify`. It reads the clock for the lookup and again when it
stamps the token. -/
def verify (model : VerifyModel) (foundAt consumedAt : Py.Timestamp) :
    AuthQuery UserResponseModel := do
  let tokenHash := Py.sha256 model.token
  match ← select .findActive fun db => db.findActive tokenHash foundAt with
  | [] => Prog.raise (.notFound invalidTokenMessage)
  | token :: _ =>
    execute .activateUser fun db => db.setUserStatus .active token.userId
    execute .consume fun db => db.consumeToken tokenHash consumedAt
    match ← select .selectUserById fun db => db.users.lookup token.userId with
    | [] => Prog.raise (.notFound invalidTokenMessage)
    | user :: _ => return toUserResponse user

/-- The store after the two updates of a verification. -/
def AuthStore.verified (db : AuthStore) (token : VerificationTokenRow) (consumedAt : Py.Timestamp) :
    AuthStore :=
  (db.setUserStatus .active token.userId).consumeToken token.tokenHash consumedAt

/-- What a verification alone answers and leaves. -/
inductive VerifyOutcome (model : VerifyModel) (foundAt consumedAt : Py.Timestamp) (w : AuthWorld) :
    Except AuthError UserResponseModel → AuthWorld → Prop
  | invalid (hnone : w.db.findActive (Py.sha256 model.token) foundAt = []) :
      VerifyOutcome model foundAt consumedAt w (.error (.notFound invalidTokenMessage)) w
  | verified {token : VerificationTokenRow} {user : UserRow} (htoken : token ∈ w.db.tokens.rows)
      (hactive : token.isActive (Py.sha256 model.token) foundAt = true)
      (huser : user ∈ w.db.users.rows) (hid : user.id = token.userId) :
      VerifyOutcome model foundAt consumedAt w
        (.ok (toUserResponse { user with status := .active }))
        { w with db := w.db.verified token consumedAt }

theorem verify_run (model : VerifyModel) (foundAt consumedAt : Py.Timestamp) (w : AuthWorld) :
    VerifyOutcome model foundAt consumedAt w ((verify model foundAt consumedAt).run w).1
      ((verify model foundAt consumedAt).run w).2 := by
  cases hfound : w.db.findActive (Py.sha256 model.token) foundAt with
  | nil =>
    have hrun : (verify model foundAt consumedAt).run w =
        (.error (.notFound invalidTokenMessage), w) := by
      simp [verify, hfound]
    rw [hrun]
    exact .invalid hfound
  | cons token rest =>
    obtain ⟨htoken, hactive⟩ : token ∈ w.db.tokens.rows ∧
        token.isActive (Py.sha256 model.token) foundAt = true :=
      List.mem_filter.mp (hfound ▸ List.mem_cons_self : token ∈ w.db.findActive _ _)
    have hhash : token.tokenHash = Py.sha256 model.token := by
      simp only [VerificationTokenRow.isActive, Bool.and_eq_true, decide_eq_true_eq] at hactive
      exact hactive.1.1
    -- The token references a user, so the activated row is found.
    obtain ⟨user, huser, hid⟩ := Table.mem_keys.mp (w.db.token_user token htoken)
    have hlookup : (w.db.verified token consumedAt).users.lookup token.userId =
        [{ user with status := .active }] := by
      have hrow : { user with status := .active } ∈ (w.db.verified token consumedAt).users.rows :=
        List.mem_map.mpr ⟨user, huser, by simp [hid]⟩
      rw [← hid]
      exact Table.lookup_eq_singleton hrow
    have hrun : (verify model foundAt consumedAt).run w =
        (.ok (toUserResponse { user with status := .active }),
          { w with db := w.db.verified token consumedAt }) := by
      rw [AuthStore.verified, hhash] at hlookup
      simp [verify, hfound, AuthStore.verified, hhash, hlookup]
    rw [hrun]
    exact .verified htoken hactive huser hid

end LavsCore
