import LavsCore.Auth.Run
import LavsCore.Lib.Interruption

/-!
# Sign-ups that fail

A registration inserts the user, inserts the token and sends the mail, each in a step of its
own, and any of its steps may raise. Nothing undoes the steps before it.

`register_traceless_iff`: a sign-up that raises leaves no trace if and only if it raises before
the user is inserted. One that raises later locks the address out (`register_locks_out`), although
the mail says that a new token is requested by signing up again.
-/

namespace LavsCore

open AuthQuery

namespace AuthQuery

variable {α : Type} (fault : AuthSql → Option AuthError) (w : AuthWorld)

@[simp] theorem run_failing_select (statement : AuthSql) (f : AuthStore → α) :
    ((select statement f).failing fault).run w =
      match fault statement with
      | some error => (.error error, w)
      | none => (.ok (f w.db), w) := by
  rw [select, Prog.query, Prog.run_failing_atomically]
  cases fault statement <;> simp

@[simp] theorem run_failing_insert (backend : BackendKind) (statement : AuthSql)
    (f : AuthStore → Except Refusal AuthStore) :
    ((insert backend statement f).failing fault).run w =
      match fault statement with
      | some error => (.error error, w)
      | none => (insert backend statement f).run w := by
  rw [insert, Prog.run_failing_atomically]
  cases fault statement <;> rfl

@[simp] theorem run_failing_insert_mapError (backend : BackendKind) (statement : AuthSql)
    (f : AuthStore → Except Refusal AuthStore) (g : AuthError → AuthError) :
    (((insert backend statement f).mapError g).failing fault).run w =
      match fault statement with
      | some error => (.error error, w)
      | none => ((insert backend statement f).mapError g).run w := by
  rw [insert, Prog.run_failing_mapError]
  cases fault statement <;> rfl

@[simp] theorem run_failing_send (mailer : CapturedEmail → Option AuthError)
    (mail : CapturedEmail) :
    ((send mailer mail).failing fault).run w =
      match fault .send with
      | some error => (.error error, w)
      | none => (send mailer mail).run w := by
  rw [send, Prog.run_failing_atomically]
  cases fault .send <;> rfl

end AuthQuery

section

variable (d : Deployment) (env : AuthEnvironment) (model : SignupModel) (mint : SignupMint)
  (now : Py.Timestamp) (fault : AuthSql → Option AuthError)

/-! ## What a sign-up comes to -/

/-- The sign-up gets as far as its `INSERT INTO users`, and the constraints admit the row. -/
def AddsUser (db : AuthStore) : Prop :=
  domainAllowed d.lower env model.email = true ∧ fault .selectUserByEmail = none ∧
    fault .insertUser = none ∧ d.backend.Fits model.email ∧ mint.ulid ∉ db.users.keys ∧
    model.email ∉ db.emails

/-- Nothing that follows the `INSERT INTO users` raises. -/
def Delivers (db : AuthStore) : Prop :=
  ((VerificationSettings.ttlSeconds env).bind (expiry now)).isOk = true ∧
    fault .insertToken = none ∧ Py.sha256 mint.token.text ∉ db.tokens.keys ∧
    fault .send = none ∧ d.mailer (verificationEmail model.email mint.token.text) = none

/-- The part of `register` after `create_user`. -/
def deliver : AuthQuery PUnit := do
  let ttlSeconds ← Prog.lift (VerificationSettings.ttlSeconds env)
  issueToken d.backend mint ttlSeconds now
  send d.mailer (verificationEmail model.email mint.token.text)

/-- If the sign-up raises, then the two tables are as before, and a later sign-up for the address
is answered as if there had been none. -/
def LeavesNoTrace (w : AuthWorld) : Prop :=
  ∀ error, (((register d env model mint now).failing fault).run w).1 = .error error →
    let w' := (((register d env model mint now).failing fault).run w).2
    w'.db.users = w.db.users ∧ w'.db.tokens = w.db.tokens ∧
      ∀ d' env' later mint' now', later.email = model.email →
        ((register d' env' later mint' now').run w').1 =
          ((register d' env' later mint' now').run w).1

/-- What follows the insertion of a user keeps the users, and raises unless it delivers. -/
theorem deliver_run (w : AuthWorld) (huser : mint.ulid ∈ w.db.users.keys) :
    ∃ answer w', ((deliver d env model mint now).failing fault).run w = (answer, w') ∧
      w'.db.users = w.db.users ∧ (answer = .ok ⟨⟩ ↔ Delivers d env model mint now fault w.db) := by
  cases httl : VerificationSettings.ttlSeconds env with
  | error error =>
    refine ⟨.error error, w, by simp [deliver, httl], rfl, ?_⟩
    simp [Delivers, httl, Except.bind, Except.isOk, Except.toBool]
  | ok ttlSeconds =>
  cases hexpiry : expiry now ttlSeconds with
  | error error =>
    refine ⟨.error error, w, by simp [deliver, httl, issueToken, hexpiry], rfl, ?_⟩
    simp [Delivers, httl, hexpiry, Except.bind, Except.isOk, Except.toBool]
  | ok expiresAt =>
  have hok : ((VerificationSettings.ttlSeconds env).bind (expiry now)).isOk = true := by
    simp [httl, hexpiry, Except.bind, Except.isOk, Except.toBool]
  cases hfault : fault .insertToken with
  | some error =>
    refine ⟨.error error, w, by simp [deliver, httl, issueToken, hexpiry, hfault], rfl, ?_⟩
    simp [Delivers, hfault]
  | none =>
  cases htoken : w.db.insertToken d.backend (newTokenRow mint expiresAt) with
  | error refusal =>
    refine ⟨.error (.driver (d.backend.raises refusal)), w,
      by simp [deliver, httl, issueToken, hexpiry, hfault, htoken], rfl, ?_⟩
    have hknown : Py.sha256 mint.token.text ∈ w.db.tokens.keys :=
      (AuthStore.insertToken_refused htoken).resolve_right (not_not.mpr huser)
    simp [Delivers, hknown]
  | ok db =>
  obtain ⟨hfresh, _, _, husers, _⟩ := AuthStore.insertToken_ok htoken
  cases hsend : fault .send with
  | some error =>
    refine ⟨.error error, { w with db := db },
      by simp [deliver, httl, issueToken, hexpiry, hfault, htoken, hsend], husers, ?_⟩
    simp [Delivers, hsend]
  | none =>
  cases hmail : d.mailer (verificationEmail model.email mint.token.text) with
  | some error =>
    refine ⟨.error error, { w with db := db },
      by simp [deliver, httl, issueToken, hexpiry, hfault, htoken, hsend, hmail], husers, ?_⟩
    simp [Delivers, hmail]
  | none =>
    refine ⟨.ok ⟨⟩, ⟨db, w.outbox ++ [verificationEmail model.email mint.token.text]⟩,
      by simp [deliver, httl, issueToken, hexpiry, hfault, htoken, hsend, hmail], husers, ?_⟩
    exact ⟨fun _ => ⟨hok, hfault, hfresh, hsend, hmail⟩, fun _ => rfl⟩

variable {d env model mint fault}

/-- A sign-up that does not come to insert the user raises, and leaves everything. -/
theorem register_refused {w : AuthWorld} (h : ¬ AddsUser d env model mint fault w.db) :
    ∃ error, ((register d env model mint now).failing fault).run w = (.error error, w) := by
  cases hallowed : domainAllowed d.lower env model.email with
  | false =>
    refine ⟨.domainNotAllowed domainNotAllowedMessage (emailDomain model.email), ?_⟩
    simp [register, assertDomainAllowed, hallowed]
  | true =>
  cases hselect : fault .selectUserByEmail with
  | some error =>
    refine ⟨error, ?_⟩
    simp [register, assertDomainAllowed, hallowed, assertEmailAvailable, hselect]
  | none =>
  cases htaken : w.db.usersByEmail model.email with
  | cons user rest =>
    refine ⟨.conflict duplicateEmailMessage, ?_⟩
    simp [register, assertDomainAllowed, hallowed, assertEmailAvailable, hselect, htaken]
  | nil =>
  cases hfault : fault .insertUser with
  | some error =>
    refine ⟨error, ?_⟩
    simp [register, assertDomainAllowed, hallowed, assertEmailAvailable, hselect, htaken, hfault]
  | none =>
  cases hinsert : w.db.insertUser d.backend (newUserRow d env model mint) with
  | error refusal =>
    refine ⟨conflictOnDuplicate (.driver (d.backend.raises refusal)), ?_⟩
    simp [register, assertDomainAllowed, hallowed, assertEmailAvailable, hselect, htaken, hfault,
      hinsert]
  | ok db =>
    have hadded := AuthStore.insertUser_ok hinsert
    exact absurd ⟨hallowed, hselect, hfault, hadded.fits, hadded.fresh, hadded.newEmail⟩ h

/-- A sign-up that inserts the user keeps it, whether or not it raises then. -/
theorem register_added {w : AuthWorld} (h : AddsUser d env model mint fault w.db) :
    ∃ answer w', ((register d env model mint now).failing fault).run w = (answer, w') ∧
      w'.db.users.rows = w.db.users.rows ++ [newUserRow d env model mint] ∧
      (answer = .ok ⟨⟩ ↔ Delivers d env model mint now fault w.db) := by
  obtain ⟨hallowed, hselect, hfault, hfits, hfresh, hnew⟩ := h
  obtain ⟨db, hinsert⟩ : ∃ db, w.db.insertUser d.backend (newUserRow d env model mint) = .ok db :=
    AuthStore.insertUser_isOk hfits hfresh hnew
  have hfree := AuthStore.usersByEmail_eq_nil.mpr hnew
  have hrun : ((register d env model mint now).failing fault).run w =
      ((deliver d env model mint now).failing fault).run { w with db := db } := by
    simp [register, deliver, assertDomainAllowed, hallowed, assertEmailAvailable, hselect, hfree,
      hfault, hinsert]
  obtain ⟨_, _, _, hrows, _, htokens⟩ := AuthStore.insertUser_ok hinsert
  have huser : mint.ulid ∈ db.users.keys :=
    Table.mem_keys.mpr ⟨newUserRow d env model mint, by simp [hrows], rfl⟩
  obtain ⟨answer, w', hdeliver, husers, hanswer⟩ :=
    deliver_run d env model mint now fault { w with db := db } huser
  refine ⟨answer, w', hrun.trans hdeliver, husers ▸ hrows, ?_⟩
  simpa only [Delivers, htokens] using hanswer

/-! ## The trace of a sign-up -/

/-- Once the user is inserted, whatever comes then, every later sign-up for the address is refused
by its first check. -/
theorem register_locks_out {w : AuthWorld} (hadds : AddsUser d env model mint fault w.db)
    {d' : Deployment} {env' : AuthEnvironment} {later : SignupModel} (mint' : SignupMint)
    (now' : Py.Timestamp) (hemail : later.email = model.email)
    (hallowed : domainAllowed d'.lower env' later.email = true) :
    ((register d' env' later mint' now').run
      (((register d env model mint now).failing fault).run w).2).1 =
        .error (.conflict duplicateEmailMessage) := by
  obtain ⟨answer, w', hrun, hrows, _⟩ := register_added now hadds
  rw [hrun]
  have htaken : later.email ∈ w'.db.emails :=
    List.mem_map.mpr ⟨newUserRow d env model mint, by simp [hrows], hemail.symm⟩
  cases hfound : w'.db.usersByEmail later.email with
  | nil => exact absurd htaken (AuthStore.usersByEmail_eq_nil.mp hfound)
  | cons user rest =>
    simp [register, assertDomainAllowed, hallowed, assertEmailAvailable, hfound]

end

/-- A sign-up leaves no trace of a failure if and only if it does not insert the user, or nothing
that follows the insertion raises. -/
theorem register_traceless_iff (d : Deployment) (env : AuthEnvironment) (model : SignupModel)
    (mint : SignupMint) (now : Py.Timestamp) (fault : AuthSql → Option AuthError) (w : AuthWorld) :
    LeavesNoTrace d env model mint now fault w ↔
      (AddsUser d env model mint fault w.db → Delivers d env model mint now fault w.db) := by
  by_cases hadds : AddsUser d env model mint fault w.db
  · obtain ⟨answer, w', hrun, hrows, hanswer⟩ := register_added now hadds
    simp only [LeavesNoTrace, hrun, hadds, true_imp_iff, ← hanswer]
    constructor
    · intro h
      cases answer with
      | ok _ => rfl
      | error error =>
        -- The user is still there.
        rw [(h error rfl).1] at hrows
        simp at hrows
    · rintro rfl error herror
      cases herror
  · obtain ⟨error, hrun⟩ := register_refused now hadds
    refine iff_of_true ?_ fun h => absurd h hadds
    intro error' _
    rw [hrun]
    exact ⟨rfl, rfl, fun _ _ _ _ _ _ => rfl⟩

namespace Sample

/-- A mailer that cannot reach its server. -/
def unreachable : CapturedEmail → Option AuthError := fun _ => some (.mail "connection refused")

def mint : SignupMint := ⟨"01KW8WHA6STWW5N1VYRSHDTK70", "salt", mailed⟩

def mintAgain : SignupMint := ⟨"01KW8WHA6STWW5N1VYRSHDTK80", "salt", session⟩

end Sample

/-- The mail cannot be sent, and the next sign-up for the address is refused. -/
theorem register_leaves_trace :
    ¬ LeavesNoTrace { Sample.deployment .duckdb with mailer := Sample.unreachable } Sample.unset
      Sample.account Sample.mint 1782734400000000 (fun _ => none) ⟨.empty, []⟩ := by
  intro h
  have hrefused := (h (.mail "connection refused") (by decide +kernel)).2.2
    (Sample.deployment .duckdb) Sample.unset Sample.account Sample.mintAgain 1782734460000000 rfl
  exact absurd hrefused (by decide +kernel)

end LavsCore
