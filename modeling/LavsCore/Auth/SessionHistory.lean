import LavsCore.Auth.Run
import Mathlib.Data.Set.Function

/-!
# Sessions and their history

A request is authenticated exactly by what happened before it: a login opened the
session, it has not expired, and no logout has closed it. The rows of `sessions` say the same
under the digests of the tokens (`sessions_since`); on the tokens of the run the digest loses
nothing.

The end of a session is the one that its row holds (`authenticates_iff`). MySQL rounds it to the
second, so `session_history`, where a session lasts exactly its time to live, asks that every
login ends a session at an instant that the column keeps; `session_cut_short` is a run where it
does not.
-/

namespace LavsCore

/-- A successful login of the user that mints the token, for a session until a time. -/
def Opens (d : Deployment) (token userId : String) (expiresAt : Int) (c : Clocked)
    (step : AuthStep) : Prop :=
  ∃ env model mint response, step = .login env model mint ∧
    ((login d env model mint c.now).run c.world).1 = .ok response ∧ mint.token.text = token ∧
      response.user.id = userId ∧ expiresAt = c.now + 1000000 * response.maxAge

/-- A logout that bears the token. -/
def LogsOut (token : String) (step : AuthStep) : Prop :=
  ∃ request, step = .logout request ∧ request.cookie = some token

/-- A login opened the session, and no logout has closed it since. -/
abbrev OpenSince (d : Deployment) (token userId : String) (expiresAt : Int) :
    Clocked → List AuthStep → Prop :=
  History.Since (authExec d) (Opens d token userId expiresAt) (LogsOut token)

/-- The token is that of a session of the user that is open and has not expired. -/
def SignedIn (d : Deployment) (c : Clocked) (steps : List AuthStep) (token userId : String) :
    Prop :=
  ∃ expiresAt : Int, (authRun d c steps).now < expiresAt ∧ OpenSince d token userId expiresAt c steps

/-- The same, with the end of the session as the column holds it. -/
def SignedInStored (d : Deployment) (c : Clocked) (steps : List AuthStep)
    (token userId : String) : Prop :=
  ∃ expiresAt : Int, (authRun d c steps).now < d.backend.datetime expiresAt ∧
    OpenSince d token userId expiresAt c steps

/-- If the step is a login with the right password, then the column keeps the end of its
session. -/
def KeepsExpiry (d : Deployment) (c : Clocked) (step : AuthStep) : Prop :=
  ∀ env model mint ttlSeconds, step = .login env model mint →
    (∃ user ∈ c.world.db.users.rows, user.email = model.email ∧
      d.verify user.passwordHash model.password = true ∧ user.status = .active) →
    AuthSettings.sessionTtlSeconds env = .ok ttlSeconds →
      d.backend.datetime (c.now + 1000000 * ttlSeconds) = c.now + 1000000 * ttlSeconds

/-- SHA-256 tells the tokens apart. -/
def DigestsDiffer (tokens : List String) : Prop := Set.InjOn Py.sha256 {t | t ∈ tokens}

instance (tokens : List String) : Decidable (DigestsDiffer tokens) :=
  decidable_of_iff (∀ t ∈ tokens, ∀ t' ∈ tokens, Py.sha256 t = Py.sha256 t' → t = t')
    ⟨fun h _ ht _ ht' => h _ ht _ ht', fun h _ ht _ ht' => h ht ht'⟩

namespace SessionLemmas

variable {d : Deployment} {c : Clocked} {steps : List AuthStep} {step : AuthStep}
  {token userId : String} {expiresAt : Int}

/-- Only a login opens a session. -/
theorem not_opens (hlogin : ∀ env model mint, step ≠ .login env model mint) :
    ¬ Opens d token userId expiresAt c step := by
  rintro ⟨env, model, mint, _, hstep, _⟩
  exact hlogin env model mint hstep

/-- Only a logout closes one. -/
theorem not_logsOut (hlogout : ∀ request, step ≠ .logout request) : ¬ LogsOut token step := by
  rintro ⟨request, hstep, _⟩
  exact hlogout request hstep

/-- A session that is open was opened by a login of the run, with the token it minted. -/
theorem openSince_token (h : OpenSince d token userId expiresAt c steps) :
    token ∈ steps.flatMap AuthStep.tokens ∧ token ≠ "" := by
  obtain ⟨before, _, after, rfl, ⟨env, model, mint, _, rfl, _, rfl, _, _⟩, _⟩ := h
  refine ⟨List.mem_flatMap.mpr ⟨.login env model mint, by simp, ?_⟩, mint.token.nonempty⟩
  exact List.mem_singleton.mpr rfl

theorem openSince_append :
    OpenSince d token userId expiresAt c (steps ++ [step]) ↔
      (OpenSince d token userId expiresAt c steps ∧ ¬ LogsOut token step) ∨
        Opens d token userId expiresAt (authRun d c steps) step :=
  History.since_append

/-- Where the minted tokens are distinct, the token fixes the session. -/
theorem openSince_unique (hfresh : (steps.flatMap AuthStep.minted).Nodup)
    {userId' : String} {expiresAt' : Int} (h : OpenSince d token userId expiresAt c steps)
    (h' : OpenSince d token userId' expiresAt' c steps) : userId = userId' := by
  obtain ⟨before, e, after, rfl, ⟨env, model, mint, response, rfl, hok, rfl, rfl, _⟩, _⟩ := h
  obtain ⟨before', e', after', heq, ⟨env', model', mint', response', rfl, hok', htoken, rfl, _⟩,
    _⟩ := h'
  obtain ⟨rfl, hlogin⟩ := History.split_unique heq hfresh (List.mem_singleton.mpr rfl)
    (List.mem_singleton.mpr htoken.symm)
  cases hlogin
  rw [hok] at hok'
  cases hok'
  rfl

/-- The rows are the open sessions, each under the digest of its token, with its end as the
column holds it. -/
def RowsMatch (d : Deployment) (c : Clocked) (steps : List AuthStep) (db : AuthStore) : Prop :=
  ∀ tokenHash userId storedAt,
    (∃ s ∈ db.sessions.rows,
      s.tokenHash = tokenHash ∧ s.userId = userId ∧ s.expiresAt = storedAt) ↔
    ∃ token expiresAt, Py.sha256 token = tokenHash ∧ d.backend.datetime expiresAt = storedAt ∧
      OpenSince d token userId expiresAt c steps

/-- A step that opens no session and closes none leaves the rows. -/
theorem rowsMatch_quiet {db : AuthStore} (h : RowsMatch d c steps db)
    (hopens : ∀ token userId expiresAt,
      ¬ Opens d token userId expiresAt (authRun d c steps) step)
    (hcloses : ∀ token userId expiresAt, OpenSince d token userId expiresAt c steps →
      ¬ LogsOut token step) : RowsMatch d c (steps ++ [step]) db := by
  intro tokenHash userId storedAt
  rw [h]
  refine exists_congr fun token => exists_congr fun expiresAt =>
    and_congr_right fun _ => and_congr_right fun _ => ?_
  rw [openSince_append, or_iff_left (hopens token userId expiresAt)]
  exact (and_iff_left_of_imp (hcloses token userId expiresAt)).symm

/-- A logout deletes the row of its token, and no other of the tokens in use. -/
theorem rowsMatch_logout {db : AuthStore} {request : AuthRequest} {cookie : String}
    (hcookie : request.cookie = some cookie)
    (hdiffer : DigestsDiffer ((steps ++ [AuthStep.logout request]).flatMap AuthStep.tokens))
    (h : RowsMatch d c steps db) :
    RowsMatch d c (steps ++ [.logout request]) (db.deleteSession (Py.sha256 cookie)) := by
  intro tokenHash userId storedAt
  have hrows : (∃ s ∈ (db.deleteSession (Py.sha256 cookie)).sessions.rows,
        s.tokenHash = tokenHash ∧ s.userId = userId ∧ s.expiresAt = storedAt) ↔
      (∃ s ∈ db.sessions.rows,
        s.tokenHash = tokenHash ∧ s.userId = userId ∧ s.expiresAt = storedAt) ∧
        tokenHash ≠ Py.sha256 cookie := by
    constructor
    · rintro ⟨s, hs, rfl, hrest⟩
      obtain ⟨hs, hne⟩ := List.mem_filter.mp hs
      exact ⟨⟨s, hs, rfl, hrest⟩, of_decide_eq_true hne⟩
    · rintro ⟨⟨s, hs, rfl, hrest⟩, hne⟩
      exact ⟨s, List.mem_filter.mpr ⟨hs, decide_eq_true hne⟩, rfl, hrest⟩
  rw [hrows, h]
  simp only [← exists_and_right]
  refine exists_congr fun token => exists_congr fun expiresAt => ?_
  rw [openSince_append, or_iff_left (not_opens fun _ _ _ hstep => by cases hstep), and_assoc,
    and_assoc]
  refine and_congr_right fun hhash => and_congr_right fun _ => and_congr_right fun hopen => ?_
  have hlogout : LogsOut token (.logout request) ↔ token = cookie := by
    constructor
    · rintro ⟨_, hstep, htoken⟩
      cases hstep
      exact Option.some.inj (htoken.symm.trans hcookie)
    · rintro rfl
      exact ⟨request, rfl, hcookie⟩
  have hmem : token ∈ (steps ++ [AuthStep.logout request]).flatMap AuthStep.tokens := by
    rw [List.flatMap_append]
    exact List.mem_append_left _ (openSince_token hopen).1
  have hmem' : cookie ∈ (steps ++ [AuthStep.logout request]).flatMap AuthStep.tokens :=
    List.mem_flatMap.mpr ⟨.logout request, by simp, by simp [AuthStep.tokens, hcookie]⟩
  rw [← hhash, hlogout, not_iff_not]
  exact ⟨fun heq => hdiffer hmem hmem' heq, fun heq => heq ▸ rfl⟩

/-- A login that succeeds adds the row of the session it opens. -/
theorem rowsMatch_login {db db' : AuthStore} {env : AuthEnvironment} {model : LoginModel}
    {mint : LoginMint} {user : UserRow} {ttlSeconds : Int} (h : RowsMatch d c steps db)
    (hok : ((login d env model mint (authRun d c steps).now).run (authRun d c steps).world).1 =
      .ok ⟨toUserResponse user, mint.token.text, ttlSeconds⟩)
    (hrows : db'.sessions.rows = db.sessions.rows ++
      [(newSessionRow mint user.id
        ((authRun d c steps).now + 1000000 * ttlSeconds)).stored d.backend]) :
    RowsMatch d c (steps ++ [.login env model mint]) db' := by
  intro tokenHash userId storedAt
  have hopens : ∀ token expiresAt, Opens d token userId expiresAt (authRun d c steps)
      (.login env model mint) ↔ mint.token.text = token ∧ user.id = userId ∧
        expiresAt = (authRun d c steps).now + 1000000 * ttlSeconds := by
    intro token expiresAt
    constructor
    · rintro ⟨_, _, _, response, hstep, hok', rfl, rfl, rfl⟩
      cases hstep
      rw [hok] at hok'
      cases hok'
      exact ⟨rfl, rfl, rfl⟩
    · rintro ⟨rfl, rfl, rfl⟩
      exact ⟨env, model, mint, _, rfl, hok, rfl, rfl, rfl⟩
  have hquiet : ∀ token, ¬ LogsOut token (.login env model mint) :=
    fun token => not_logsOut fun _ hstep => by cases hstep
  simp only [openSince_append, hopens, hquiet, not_false_eq_true, and_true, hrows,
    List.mem_append, List.mem_singleton, or_and_right, exists_or, and_or_left]
  refine or_congr (h tokenHash userId storedAt) ?_
  constructor
  · rintro ⟨_, rfl, rfl, rfl, rfl⟩
    exact ⟨mint.token.text, _, rfl, rfl, rfl, rfl, rfl⟩
  · rintro ⟨_, _, rfl, rfl, rfl, rfl, rfl⟩
    exact ⟨_, rfl, rfl, rfl, rfl⟩

/-- A step that is no login and no logout leaves the sessions. -/
theorem authExec_sessions (hlogin : ∀ env model mint, step ≠ .login env model mint)
    (hlogout : ∀ request, step ≠ .logout request) :
    (authExec d c step).world.db.sessions = c.world.db.sessions := by
  have h := AuthRunLemmas.authExec_effect d c step
  generalize (authExec d c step).world.db = db at h ⊢
  cases h with
  | unchanged _ => rfl
  | registered hinsert => exact (AuthStore.insertUser_ok hinsert).sessions
  | issued hinsert htoken =>
    exact (AuthStore.insertToken_ok htoken).sessions.trans
      (AuthStore.insertUser_ok hinsert).sessions
  | verified _ _ => rfl
  | opened _ _ _ => exact absurd rfl (hlogin _ _ _)
  | closed _ => exact absurd rfl (hlogout _)
  | disabled _ => rfl

theorem rowsMatch_congr {db db' : AuthStore} (hsessions : db'.sessions = db.sessions)
    (h : RowsMatch d c steps db) : RowsMatch d c steps db' := by
  intro tokenHash userId storedAt
  rw [hsessions]
  exact h tokenHash userId storedAt

theorem rowsMatch_step (h : RowsMatch d c steps (authRun d c steps).world.db)
    (hdiffer : DigestsDiffer ((steps ++ [step]).flatMap AuthStep.tokens)) :
    RowsMatch d c (steps ++ [step]) (authExec d (authRun d c steps) step).world.db := by
  by_cases hlogin : ∃ env model mint, step = .login env model mint
  · obtain ⟨env, model, mint, rfl⟩ := hlogin
    obtain ⟨answer, hanswer⟩ : ∃ answer, ((login d env model mint (authRun d c steps).now).run
      (authRun d c steps).world).1 = answer := ⟨_, rfl⟩
    obtain ⟨w', hw', houtcome⟩ := Prog.exists_outcome (login_run d env model mint _ _) hanswer
    have hexec : (authExec d (authRun d c steps) (.login env model mint)).world = w' := hw'
    rw [hexec]
    cases houtcome with
    | refused error =>
      refine rowsMatch_quiet h ?_ fun _ _ _ _ => not_logsOut fun _ hstep => by cases hstep
      intro token userId expiresAt hopens
      obtain ⟨_, _, _, response, hstep, hok, _⟩ := hopens
      cases hstep
      rw [hanswer] at hok
      cases hok
    | opened _ _ _ _ _ hinsert =>
      exact rowsMatch_login h hanswer (AuthStore.insertSession_ok hinsert).rows
  by_cases hlogout : ∃ request, step = .logout request
  · obtain ⟨request, rfl⟩ := hlogout
    have hnot : ∀ token userId expiresAt,
        ¬ Opens d token userId expiresAt (authRun d c steps) (.logout request) :=
      fun _ _ _ => not_opens fun _ _ _ hstep => by cases hstep
    have hexec : (authExec d (authRun d c steps) (.logout request)).world.db = _ :=
      congrArg (fun r => r.2.db) (AuthRunLemmas.logout_run request (authRun d c steps).world)
    rw [hexec]
    cases hcookie : request.cookie with
    | none =>
      refine rowsMatch_quiet h hnot ?_
      intro token _ _ _ hcloses
      obtain ⟨_, hstep, htoken⟩ := hcloses
      cases hstep
      rw [hcookie] at htoken
      cases htoken
    | some cookie =>
      rcases eq_or_ne cookie "" with rfl | hne
      · -- No session has the empty token.
        refine rowsMatch_quiet h hnot ?_
        intro token _ _ hopen hcloses
        obtain ⟨_, hstep, htoken⟩ := hcloses
        cases hstep
        rw [hcookie] at htoken
        cases htoken
        exact (openSince_token hopen).2 rfl
      · simp only [hne, if_false]
        exact rowsMatch_logout hcookie hdiffer h
  · have hlogin' : ∀ env model mint, step ≠ .login env model mint := by
      rintro env model mint rfl
      exact hlogin ⟨env, model, mint, rfl⟩
    have hlogout' : ∀ request, step ≠ .logout request := by
      rintro request rfl
      exact hlogout ⟨request, rfl⟩
    exact rowsMatch_congr (authExec_sessions hlogin' hlogout') (rowsMatch_quiet h
      (fun _ _ _ => not_opens hlogin') fun _ _ _ _ => not_logsOut hlogout')

end SessionLemmas

open SessionLemmas

/-- The rows of `sessions` are the sessions that the history has left open. -/
theorem sessions_since (d : Deployment) (now : Py.Timestamp) (steps : List AuthStep)
    (hdiffer : DigestsDiffer (steps.flatMap AuthStep.tokens)) :
    RowsMatch d (.init now) steps (authRun d (.init now) steps).world.db := by
  refine History.run_induction (authExec d)
    (R := fun steps c => DigestsDiffer (steps.flatMap AuthStep.tokens) →
      RowsMatch d (.init now) steps c.world.db) ?_ ?_ steps hdiffer
  · intro _ tokenHash userId storedAt
    refine ⟨?_, ?_⟩
    · rintro ⟨s, hs, _⟩
      exact absurd hs List.not_mem_nil
    · rintro ⟨token, expiresAt, _, _, hopen⟩
      exact absurd hopen History.not_since_nil
  · intro steps step ih hdiffer
    refine rowsMatch_step (ih ?_) hdiffer
    refine Set.InjOn.mono ?_ hdiffer
    intro t ht
    rw [Set.mem_ofPred_eq, List.flatMap_append]
    exact List.mem_append_left _ ht

/-! ## Who is authenticated -/

/-- What `PasswordSessionProvider` answers to a request in a state. -/
def authenticates (edition : String) (choice : Nat) (c : Clocked) (request : AuthRequest) :
    Except AuthError (Option Principal) :=
  ((passwordSessionProvider edition c.now choice request).run c.world).1

/-- A request is authenticated as a user exactly if its token is that of an open session of the
user, until the end that the row of the session holds. -/
theorem authenticates_iff (d : Deployment) (now : Py.Timestamp) (steps : List AuthStep)
    (edition : String) (choice : Nat) (request : AuthRequest) (token userId : String)
    (hcookie : request.cookie = some token) (hfresh : (steps.flatMap AuthStep.minted).Nodup)
    (hdiffer : DigestsDiffer (token :: steps.flatMap AuthStep.tokens)) :
    (∃ principal, authenticates edition choice (authRun d (.init now) steps) request =
        .ok (some principal) ∧ principal.id = userId) ↔
      SignedInStored d (.init now) steps token userId := by
  have hmatch := sessions_since d now steps
    (Set.InjOn.mono (fun _ ht => List.mem_cons_of_mem token ht) hdiffer)
  -- The owner of a live row of the token has an open session under this very token.
  have hsound : ∀ s ∈ (authRun d (.init now) steps).world.db.liveSessions token
      (authRun d (.init now) steps).now, SignedInStored d (.init now) steps token s.userId := by
    intro s hs
    obtain ⟨hrow, hlive⟩ := List.mem_filter.mp hs
    simp only [SessionRow.isLive, Bool.and_eq_true, decide_eq_true_eq] at hlive
    obtain ⟨token', expiresAt, hhash, hstored, hopen⟩ :=
      (hmatch s.tokenHash s.userId s.expiresAt).mp ⟨s, hrow, rfl, rfl, rfl⟩
    have hmem := (openSince_token hopen).1
    cases hdiffer (List.mem_cons_of_mem token hmem) List.mem_cons_self (hhash.trans hlive.1)
    exact ⟨expiresAt, hstored ▸ hlive.2, hopen⟩
  obtain ⟨answer, hrun, houtcome⟩ := passwordSessionProvider_run edition
    (authRun d (.init now) steps).now choice request (authRun d (.init now) steps).world
  rw [authenticates, hrun]
  constructor
  · rintro ⟨principal, hanswer, rfl⟩
    cases hanswer
    cases houtcome with
    | resolved hcookie' _ hs _ _ =>
      cases hcookie.symm.trans hcookie'
      exact hsound _ hs
  · rintro ⟨expiresAt, hlive, hopen⟩
    obtain ⟨s, hrow, hhash, _, hexpires⟩ :=
      (hmatch _ userId _).mpr ⟨token, expiresAt, rfl, rfl, hopen⟩
    have hs : s ∈ (authRun d (.init now) steps).world.db.liveSessions token
        (authRun d (.init now) steps).now := by
      refine List.mem_filter.mpr ⟨hrow, ?_⟩
      simp only [SessionRow.isLive, Bool.and_eq_true, decide_eq_true_eq]
      exact ⟨hhash, hexpires ▸ hlive⟩
    cases houtcome with
    | absent hcookie' =>
      rw [hcookie] at hcookie'
      rcases hcookie' with h | h
      · cases h
      · exact absurd (Option.some.inj h) (openSince_token hopen).2
    | lapsed hcookie' hnone =>
      cases hcookie.symm.trans hcookie'
      rw [hnone] at hs
      exact absurd hs List.not_mem_nil
    | resolved hcookie' _ hs' _ _ =>
      cases hcookie.symm.trans hcookie'
      obtain ⟨_, _, hopen'⟩ := hsound _ hs'
      exact ⟨_, rfl, openSince_unique hfresh hopen' hopen⟩

/-- A login succeeds only for an active user, with the password of the sign-up. -/
theorem login_sound (d : Deployment) (now : Py.Timestamp) (steps : List AuthStep)
    (env : AuthEnvironment) (model : LoginModel) (mint : LoginMint) (response : LoginResponse)
    (hverify : ∀ salt, ∀ p ∈ steps.flatMap AuthStep.passwords,
      d.verify (d.hash salt p) model.password = true → p = model.password)
    (hok : ((login d env model mint (authRun d (.init now) steps).now).run
      (authRun d (.init now) steps).world).1 = .ok response) :
    ∃ user ∈ (authRun d (.init now) steps).world.db.users.rows, user.id = response.user.id ∧
      user.status = .active ∧ ∃ env' model' mint', .signup env' model' mint' ∈ steps ∧
        mint'.ulid = user.id ∧ model'.email = model.email ∧ model'.password = model.password := by
  obtain ⟨w', _, houtcome⟩ := Prog.exists_outcome (login_run d env model mint _ _) hok
  cases houtcome with
  | @opened user _ _ huser hemail hpassword hactive _ _ =>
    obtain ⟨env', model', mint', hsignup, hid, hemail', hhash⟩ :=
      users_signedUp d now steps user huser
    refine ⟨user, huser, rfl, hactive, env', model', mint', hsignup, hid, hemail'.trans hemail, ?_⟩
    rw [← hhash] at hpassword
    exact hverify _ _ (List.mem_flatMap.mpr ⟨_, hsignup, List.mem_singleton.mpr rfl⟩) hpassword

/-- Where the columns keep the ends of the sessions, they are those of the logins. -/
theorem signedInStored_iff {d : Deployment} {c : Clocked} {steps : List AuthStep}
    (hkept : History.Along (authExec d) (KeepsExpiry d) c steps) (token userId : String) :
    SignedInStored d c steps token userId ↔ SignedIn d c steps token userId := by
  refine exists_congr fun expiresAt => and_congr_left fun hopen => ?_
  obtain ⟨before, step, after, rfl, ⟨env, model, mint, response, rfl, hok, _, _, rfl⟩, _⟩ := hopen
  obtain ⟨hlogin, _⟩ := (History.along_append.mp hkept).2
  obtain ⟨w', _, houtcome⟩ := Prog.exists_outcome (login_run d env model mint _ _) hok
  cases houtcome with
  | opened huser hemail hpassword hactive httl _ =>
    rw [hlogin env model mint _ rfl ⟨_, huser, hemail, hpassword, hactive⟩ httl]

/-- For a run of sign-ups, verifications, logins and logouts with the clock advancing, whose
tokens are fresh: a request is authenticated as a user exactly if an earlier login of the user
minted its token, the time to live of that login has not passed, and no logout bore the token
since. A login succeeds only for an active user with the password of the sign-up. -/
def SessionHistory (d : Deployment) (now : Py.Timestamp) (steps : List AuthStep) : Prop :=
  (steps.flatMap AuthStep.minted).Nodup →
    (∀ salt, ∀ p ∈ steps.flatMap AuthStep.passwords,
      ∀ q ∈ steps.flatMap AuthStep.passwords, d.verify (d.hash salt p) q = true → p = q) →
    (∀ edition choice request token userId, request.cookie = some token →
      DigestsDiffer (token :: steps.flatMap AuthStep.tokens) →
        ((∃ principal, authenticates edition choice (authRun d (.init now) steps) request =
            .ok (some principal) ∧ principal.id = userId) ↔
          SignedIn d (.init now) steps token userId)) ∧
      ∀ before env model mint after response, steps = before ++ .login env model mint :: after →
        ((login d env model mint (authRun d (.init now) before).now).run
          (authRun d (.init now) before).world).1 = .ok response →
        ∃ user ∈ (authRun d (.init now) before).world.db.users.rows, user.id = response.user.id ∧
          user.status = .active ∧ ∃ env' model' mint', .signup env' model' mint' ∈ before ∧
            mint'.ulid = user.id ∧ model'.email = model.email ∧ model'.password = model.password

/-- Every run is as it should be in which each login with the right password ends its session at
an instant that the column keeps. -/
theorem session_history (d : Deployment) (now : Py.Timestamp) (steps : List AuthStep)
    (hkept : History.Along (authExec d) (KeepsExpiry d) (.init now) steps) :
    SessionHistory d now steps := by
  intro hfresh hverify
  constructor
  · intro edition choice request token userId hcookie hdiffer
    rw [← signedInStored_iff hkept]
    exact authenticates_iff d now steps edition choice request token userId hcookie hfresh hdiffer
  · rintro before env model mint after response rfl hok
    refine login_sound d now before env model mint response ?_ hok
    intro salt p hp
    refine hverify salt p ?_ model.password ?_
    · rw [List.flatMap_append]
      exact List.mem_append_left _ hp
    · exact List.mem_flatMap.mpr ⟨.login env model mint, by simp, List.mem_singleton.mpr rfl⟩

namespace Sample

/-- A sign-up, its verification, a login, and the time that passes then. -/
def visit (microseconds : Nat) : List AuthStep :=
  [signup, .verify verification, login, .advance microseconds]

theorem visit_passwords (backend : BackendKind) (microseconds : Nat) (salt : String) :
    ∀ p ∈ (visit microseconds).flatMap AuthStep.passwords,
      ∀ q ∈ (visit microseconds).flatMap AuthStep.passwords,
        (deployment backend).verify ((deployment backend).hash salt p) q = true → p = q := by
  intro p hp q hq _
  simp [visit, AuthStep.passwords, signup, login, account, credentials] at hp hq
  exact hp.trans hq.symm

end Sample

/-- A week less a microsecond after the login the session is still open. -/
theorem session_history_sample :
    SignedIn (Sample.deployment .duckdb) (.init 1782734400400000) (Sample.visit 604799999999)
      "session" "01KW8WHA6STWW5N1VYRSHDTK70" := by
  have hkept : History.Along (authExec (Sample.deployment .duckdb))
      (KeepsExpiry (Sample.deployment .duckdb)) (.init 1782734400400000)
        (Sample.visit 604799999999) := by
    refine ⟨?_, ?_, ?_, ?_, True.intro⟩ <;> exact fun _ _ _ _ _ _ _ => rfl
  refine ((session_history (Sample.deployment .duckdb) 1782734400400000 _ hkept
    (by decide +kernel) (Sample.visit_passwords .duckdb _)).1 "oss" 0 Sample.browser "session"
      "01KW8WHA6STWW5N1VYRSHDTK70" rfl (by decide +kernel)).mp ?_
  exact ⟨⟨.user, "01KW8WHA6STWW5N1VYRSHDTK70", some "engineer@example.com", "oss"⟩,
    by decide +kernel, rfl⟩

/-- On MySQL the login at .400 leaves a session that ends with the second before: two tenths of a
second before the time to live has passed the request is not authenticated any more. -/
theorem session_cut_short :
    ¬ SessionHistory (Sample.deployment .mysql) 1782734400400000 (Sample.visit 604799800000) := by
  intro h
  have hiff := (h (by decide +kernel) (Sample.visit_passwords .mysql _)).1 "oss" 0 Sample.browser
    "session" "01KW8WHA6STWW5N1VYRSHDTK70" rfl (by decide +kernel)
  have hnone : authenticates "oss" 0 (authRun (Sample.deployment .mysql) (.init 1782734400400000)
      (Sample.visit 604799800000)) Sample.browser = .ok none := by
    decide +kernel
  obtain ⟨principal, hprincipal, _⟩ := hiff.mpr ⟨1783339200400000, by decide +kernel,
    [Sample.signup, .verify Sample.verification], Sample.login, [.advance 604799800000], rfl,
    ⟨_, _, _, ⟨⟨"01KW8WHA6STWW5N1VYRSHDTK70", "engineer@example.com", "active", some "oss"⟩,
      "session", 604800⟩, rfl, by decide +kernel, rfl, rfl, by decide +kernel⟩, by
        rintro _ hmem ⟨_, rfl, _⟩
        cases List.mem_singleton.mp hmem⟩
  rw [hnone] at hprincipal
  cases hprincipal

end LavsCore
