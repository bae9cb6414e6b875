import LavsCore.Auth.SessionHistory
import LavsCore.Auth.CaptureMailer

/-!
# Accounts and their history

What the rows of `users` and of `email_verification_tokens` say about an account is what
happened to it before. A verification token is good exactly as long as it has not expired and
nobody has presented it since the sign-up that issued it (`tokens_since`), and an account is
active exactly if a verification activated it and the operator has not disabled it since
(`active_since`).

`account_history`: so a verification or a login succeeds exactly if the history says so, and the
token of a sign-up is in the last mail to its address.
-/

namespace LavsCore

/-! ## What happens to an account -/

/-- The ids that a step mints. -/
def AuthStep.ids : AuthStep → List String
  | .signup _ _ mint => [mint.ulid]
  | .login _ _ mint => [mint.ulid]
  | _ => []

/-- A successful sign-up of the user that mints the token, valid until a time: the end of its time
to live, as the column of the engine holds it. -/
def Issues (d : Deployment) (token userId : String) (expiresAt : Int) (c : Clocked)
    (step : AuthStep) : Prop :=
  ∃ env model mint, step = .signup env model mint ∧
    ((register d env model mint c.now).run c.world).1 = .ok ⟨⟩ ∧ mint.token.text = token ∧
      mint.ulid = userId ∧ ((VerificationSettings.ttlSeconds env).bind (expiry c.now)).map
        d.backend.datetime = .ok expiresAt

/-- A verification that presents the token. -/
def Presents (token : String) (step : AuthStep) : Prop :=
  ∃ model, step = .verify model ∧ model.token = token

/-- A sign-up issued the token, and no verification has presented it since. -/
abbrev IssuedSince (d : Deployment) (token userId : String) (expiresAt : Int) :
    Clocked → List AuthStep → Prop :=
  History.Since (authExec d) (Issues d token userId expiresAt) (Presents token)

/-- The token of the user is unused and has not expired. -/
def Pending (d : Deployment) (c : Clocked) (steps : List AuthStep) (token userId : String) : Prop :=
  ∃ expiresAt : Int, (authRun d c steps).now < expiresAt ∧
    IssuedSince d token userId expiresAt c steps

/-- A successful verification for the user. -/
def Activates (userId : String) (c : Clocked) (step : AuthStep) : Prop :=
  ∃ model response, step = .verify model ∧
    ((verify model c.now c.now).run c.world).1 = .ok response ∧ response.id = userId

/-- The operator disables the user. -/
def Disables (userId : String) (step : AuthStep) : Prop := step = .disable userId

/-- A verification activated the account, and the operator has not disabled it since. -/
abbrev ActiveSince (d : Deployment) (userId : String) : Clocked → List AuthStep → Prop :=
  History.Since (authExec d) (Activates userId) (Disables userId)

/-- A pending token of the user was presented, and the operator has not disabled the user since. -/
def Activated (d : Deployment) (c : Clocked) (steps : List AuthStep) (userId : String) : Prop :=
  ∃ before model after, steps = before ++ .verify model :: after ∧
    Pending d c before model.token userId ∧ .disable userId ∉ after

/-- The user signed up with the email, and with a password that the given one verifies. -/
def Enrolled (d : Deployment) (steps : List AuthStep) (userId email password : String) : Prop :=
  ∃ env model mint, .signup env model mint ∈ steps ∧ mint.ulid = userId ∧ model.email = email ∧
    d.verify (d.hash mint.salt model.password) password = true

open MailLemmas

namespace AccountLemmas

variable {d : Deployment} {c : Clocked} {steps : List AuthStep} {step : AuthStep}
  {token userId : String} {expiresAt : Int}

/-! ## Steps -/

/-- A step that is no sign-up and no verification leaves the tokens. -/
theorem authExec_tokens (hsignup : ∀ env model mint, step ≠ .signup env model mint)
    (hverify : ∀ model, step ≠ .verify model) :
    (authExec d c step).world.db.tokens = c.world.db.tokens := by
  have h := AuthRunLemmas.authExec_effect d c step
  generalize (authExec d c step).world.db = db at h ⊢
  cases h with
  | unchanged _ => rfl
  | registered _ => exact absurd rfl (hsignup _ _ _)
  | issued _ _ => exact absurd rfl (hsignup _ _ _)
  | verified _ _ => exact absurd rfl (hverify _)
  | opened _ _ hinsert => exact (AuthStore.insertSession_ok hinsert).tokens
  | closed _ => rfl
  | disabled _ => rfl

/-- A step that besides disables nobody leaves the users. -/
theorem authExec_users (hsignup : ∀ env model mint, step ≠ .signup env model mint)
    (hverify : ∀ model, step ≠ .verify model) (hdisable : ∀ userId, step ≠ .disable userId) :
    (authExec d c step).world.db.users = c.world.db.users := by
  have h := AuthRunLemmas.authExec_effect d c step
  generalize (authExec d c step).world.db = db at h ⊢
  cases h with
  | unchanged _ => rfl
  | registered _ => exact absurd rfl (hsignup _ _ _)
  | issued _ _ => exact absurd rfl (hsignup _ _ _)
  | verified _ _ => exact absurd rfl (hverify _)
  | opened _ _ hinsert => exact (AuthStore.insertSession_ok hinsert).users
  | closed _ => rfl
  | disabled _ => exact absurd rfl (hdisable _)

theorem not_issues (hsignup : ∀ env model mint, step ≠ .signup env model mint) :
    ¬ Issues d token userId expiresAt c step := by
  rintro ⟨env, model, mint, hstep, _⟩
  exact hsignup env model mint hstep

theorem not_presents (hverify : ∀ model, step ≠ .verify model) : ¬ Presents token step := by
  rintro ⟨model, hstep, _⟩
  exact hverify model hstep

theorem not_activates (hverify : ∀ model, step ≠ .verify model) : ¬ Activates userId c step := by
  rintro ⟨model, _, hstep, _⟩
  exact hverify model hstep

theorem issuedSince_append :
    IssuedSince d token userId expiresAt c (steps ++ [step]) ↔
      (IssuedSince d token userId expiresAt c steps ∧ ¬ Presents token step) ∨
        Issues d token userId expiresAt (authRun d c steps) step :=
  History.since_append

theorem activeSince_append :
    ActiveSince d userId c (steps ++ [step]) ↔
      (ActiveSince d userId c steps ∧ ¬ Disables userId step) ∨
        Activates userId (authRun d c steps) step :=
  History.since_append

/-! ## The status of an account -/

/-- The active users are those that the history has left active. -/
def StatusMatch (d : Deployment) (c : Clocked) (steps : List AuthStep) (db : AuthStore) : Prop :=
  ∀ userId, (∃ user ∈ db.users.rows, user.id = userId ∧ user.status = .active) ↔
    ActiveSince d userId c steps

/-- A change of status is one of the row with the id. -/
theorem active_setUserStatus {db : AuthStore} {status : UserStatus} {id : String} :
    (∃ user ∈ (db.setUserStatus status id).users.rows,
        user.id = userId ∧ user.status = .active) ↔
      if userId = id then id ∈ db.users.keys ∧ status = .active
      else ∃ user ∈ db.users.rows, user.id = userId ∧ user.status = .active := by
  rw [AuthStore.setUserStatus_rows]
  constructor
  · rintro ⟨_, hmem, rfl, hactive⟩
    obtain ⟨user, huser, rfl⟩ := List.mem_map.mp hmem
    rw [AuthStore.withUserStatus_id]
    unfold AuthStore.withUserStatus at hactive
    split
    · next heq =>
      rw [if_pos heq] at hactive
      exact ⟨heq ▸ Table.key_mem_keys huser, hactive⟩
    · next hne =>
      rw [if_neg hne] at hactive
      exact ⟨user, huser, rfl, hactive⟩
  · intro h
    split at h
    · next heq =>
      obtain ⟨user, huser, hkey⟩ := Table.mem_keys.mp h.1
      refine ⟨_, List.mem_map_of_mem huser, ?_, ?_⟩
      · rw [AuthStore.withUserStatus_id, hkey, heq]
      · rw [AuthStore.withUserStatus, if_pos hkey]
        exact h.2
    · next hne =>
      obtain ⟨user, huser, hkey, hactive⟩ := h
      have hne' : user.id ≠ id := fun heq => hne (hkey.symm.trans heq)
      refine ⟨_, List.mem_map_of_mem huser, ?_, ?_⟩
      · rw [AuthStore.withUserStatus_id, hkey]
      · rw [AuthStore.withUserStatus, if_neg hne']
        exact hactive

/-- A sign-up makes nobody active: a new user is pending. -/
theorem statusMatch_signup (hmailer : d.mailer = captureMailer) {env : AuthEnvironment}
    {model : SignupModel} {mint : SignupMint}
    (h : StatusMatch d c steps (authRun d c steps).world.db) :
    StatusMatch d c (steps ++ [.signup env model mint])
      (authExec d (authRun d c steps) (.signup env model mint)).world.db := by
  intro userId
  rw [activeSince_append, ← h userId]
  generalize authRun d c steps = c at *
  have hquiet : ¬ Activates userId c (.signup env model mint) :=
    not_activates fun _ hstep => by cases hstep
  have hkeep : ¬ Disables userId (.signup env model mint) := fun hstep => by cases hstep
  rw [or_iff_left hquiet, and_iff_left hkeep]
  have hnew : ∀ {db : AuthStore}, db.users.rows = c.world.db.users.rows ++
      [newUserRow d env model mint] →
      ((∃ user ∈ db.users.rows, user.id = userId ∧ user.status = .active) ↔
        ∃ user ∈ c.world.db.users.rows, user.id = userId ∧ user.status = .active) := by
    intro db hrows
    simp [hrows, newUserRow]
  have houtcome := signup_run hmailer env model mint c.now c.world
  simp only [authExec]
  generalize (register d env model mint c.now).run c.world = result at houtcome ⊢
  obtain ⟨answer, w'⟩ := result
  cases houtcome with
  | refused error => exact Iff.rfl
  | stranded error hinsert => exact hnew (AuthStore.insertUser_ok hinsert).rows
  | issued _ hinsert htoken =>
    exact hnew ((AuthStore.insertToken_ok htoken).users ▸ (AuthStore.insertUser_ok hinsert).rows)

/-- A verification activates the user that it answers. -/
theorem statusMatch_verify {model : VerifyModel}
    (h : StatusMatch d c steps (authRun d c steps).world.db) :
    StatusMatch d c (steps ++ [.verify model])
      (authExec d (authRun d c steps) (.verify model)).world.db := by
  intro userId
  rw [activeSince_append, ← h userId]
  generalize authRun d c steps = c at *
  have hkeep : ¬ Disables userId (.verify model) := fun hstep => by cases hstep
  have hactivates : Activates userId c (.verify model) ↔ ∃ response,
      ((verify model c.now c.now).run c.world).1 = .ok response ∧ response.id = userId := by
    constructor
    · rintro ⟨_, response, hstep, hok, hid⟩
      cases hstep
      exact ⟨response, hok, hid⟩
    · rintro ⟨response, hok, hid⟩
      exact ⟨model, response, rfl, hok, hid⟩
  rw [and_iff_left hkeep, hactivates]
  have houtcome := verify_run model c.now c.now c.world
  simp only [authExec]
  generalize (verify model c.now c.now).run c.world = result at houtcome ⊢
  obtain ⟨answer, w'⟩ := result
  cases houtcome with
  | invalid _ => simp
  | @verified token user htoken _ huser hid =>
    have hknown : token.userId ∈ c.world.db.users.keys := hid ▸ Table.key_mem_keys huser
    refine active_setUserStatus.trans ?_
    rcases eq_or_ne userId token.userId with rfl | hne
    · simp [toUserResponse, hid, hknown]
    · simp [toUserResponse, hne, hid, hne.symm]

/-- The operator takes one user away from the active ones. -/
theorem statusMatch_disable {id : String}
    (h : StatusMatch d c steps (authRun d c steps).world.db) :
    StatusMatch d c (steps ++ [.disable id])
      (authExec d (authRun d c steps) (.disable id)).world.db := by
  intro userId
  rw [activeSince_append, ← h userId]
  have hquiet : ¬ Activates userId (authRun d c steps) (.disable id) :=
    not_activates fun _ hstep => by cases hstep
  have hdisables : Disables userId (.disable id) ↔ userId = id := by
    constructor
    · rintro ⟨⟩
      rfl
    · rintro rfl
      rfl
  rw [or_iff_left hquiet, hdisables]
  refine active_setUserStatus.trans ?_
  rcases eq_or_ne userId id with rfl | hne
  · simp
  · simp [hne]

theorem statusMatch_step (hmailer : d.mailer = captureMailer)
    (h : StatusMatch d c steps (authRun d c steps).world.db) :
    StatusMatch d c (steps ++ [step]) (authExec d (authRun d c steps) step).world.db := by
  by_cases hsignup : ∃ env model mint, step = .signup env model mint
  · obtain ⟨env, model, mint, rfl⟩ := hsignup
    exact statusMatch_signup hmailer h
  by_cases hverify : ∃ model, step = .verify model
  · obtain ⟨model, rfl⟩ := hverify
    exact statusMatch_verify h
  by_cases hdisable : ∃ id, step = .disable id
  · obtain ⟨id, rfl⟩ := hdisable
    exact statusMatch_disable h
  · have hkept : (authExec d (authRun d c steps) step).world.db.users =
        (authRun d c steps).world.db.users :=
      authExec_users (fun env model mint heq => hsignup ⟨env, model, mint, heq⟩)
        (fun model heq => hverify ⟨model, heq⟩) (fun id heq => hdisable ⟨id, heq⟩)
    intro userId
    have hquiet : ¬ Activates userId (authRun d c steps) step :=
      not_activates fun model heq => hverify ⟨model, heq⟩
    have hkeep : ¬ Disables userId step := fun heq => hdisable ⟨userId, heq⟩
    rw [activeSince_append, ← h userId, or_iff_left hquiet, and_iff_left hkeep, hkept]

/-! ## The verification tokens -/

/-- A token that was issued was minted in the run. -/
theorem issuedSince_token (h : IssuedSince d token userId expiresAt c steps) :
    token ∈ steps.flatMap AuthStep.tokens := by
  obtain ⟨before, _, after, rfl, ⟨env, model, mint, rfl, _, rfl, _, _⟩, _⟩ := h
  refine List.mem_flatMap.mpr ⟨.signup env model mint, by simp, ?_⟩
  exact List.mem_singleton.mpr rfl

/-- The row of a token that nobody has used. -/
def Unused (db : AuthStore) (tokenHash userId : String) (expiresAt : Int) : Prop :=
  ∃ t ∈ db.tokens.rows, t.tokenHash = tokenHash ∧ t.userId = userId ∧ t.expiresAt = expiresAt ∧
    t.consumedAt = none

/-- Of the tokens that have not expired, the unused rows are those that the history has left
unpresented. -/
def TokensMatch (d : Deployment) (c : Clocked) (steps : List AuthStep) (s : Clocked) : Prop :=
  ∀ (tokenHash userId : String) (expiresAt : Int), s.now < expiresAt →
    (Unused s.world.db tokenHash userId expiresAt ↔
      ∃ token, Py.sha256 token = tokenHash ∧ IssuedSince d token userId expiresAt c steps)

theorem unused_findActive {db : AuthStore} {now : Py.Timestamp} {tokenHash : String}
    (hlive : now < expiresAt) :
    Unused db tokenHash userId expiresAt ↔ ∃ t ∈ db.findActive tokenHash now,
      t.userId = userId ∧ t.expiresAt = expiresAt := by
  simp only [AuthStore.findActive, List.mem_filter, VerificationTokenRow.isActive,
    Bool.and_eq_true, decide_eq_true_eq, Option.isNone_iff_eq_none]
  constructor
  · rintro ⟨t, ht, hhash, hid, rfl, hunused⟩
    exact ⟨t, ⟨ht, ⟨hhash, hunused⟩, hlive⟩, hid, rfl⟩
  · rintro ⟨t, ⟨ht, ⟨hhash, hunused⟩, _⟩, hid, hexpires⟩
    exact ⟨t, ht, hhash, hid, hexpires, hunused⟩

/-- A verification uses up the token it presents, and no other. -/
theorem unused_verified {model : VerifyModel} {now : Py.Timestamp} {w : AuthWorld}
    {tokenHash : String} (hlive : now < expiresAt) :
    Unused ((verify model now now).run w).2.db tokenHash userId expiresAt ↔
      Unused w.db tokenHash userId expiresAt ∧ tokenHash ≠ Py.sha256 model.token := by
  have houtcome := verify_run model now now w
  generalize (verify model now now).run w = result at houtcome ⊢
  obtain ⟨answer, w'⟩ := result
  cases houtcome with
  | invalid hnone =>
    refine (and_iff_left_of_imp ?_).symm
    rintro hunused rfl
    obtain ⟨t, ht, _⟩ := (unused_findActive hlive).mp hunused
    rw [hnone] at ht
    exact List.not_mem_nil ht
  | @verified row user hrow hactive _ _ =>
    have hhash : row.tokenHash = Py.sha256 model.token := by
      simp only [VerificationTokenRow.isActive, Bool.and_eq_true, decide_eq_true_eq] at hactive
      exact hactive.1.1
    have hrows : (w.db.verified row now).tokens.rows =
        w.db.tokens.rows.map (AuthStore.withConsumed row.tokenHash now) := rfl
    unfold Unused
    rw [hrows, hhash]
    constructor
    · rintro ⟨_, hmem, rfl, rfl, rfl, hunused⟩
      obtain ⟨t, ht, rfl⟩ := List.mem_map.mp hmem
      unfold AuthStore.withConsumed at hunused ⊢
      split at hunused
      · cases hunused
      · next hne =>
        rw [if_neg hne]
        exact ⟨⟨t, ht, rfl, rfl, rfl, hunused⟩, hne⟩
    · rintro ⟨⟨t, ht, rfl, rfl, rfl, hunused⟩, hne⟩
      have hkept : AuthStore.withConsumed (Py.sha256 model.token) now t = t := if_neg hne
      exact ⟨t, hkept ▸ List.mem_map_of_mem ht, rfl, rfl, rfl, hunused⟩

theorem issues_signup {env : AuthEnvironment} {model : SignupModel} {mint : SignupMint} :
    Issues d token userId expiresAt c (.signup env model mint) ↔
      ((register d env model mint c.now).run c.world).1 = .ok ⟨⟩ ∧ mint.token.text = token ∧
        mint.ulid = userId ∧ ((VerificationSettings.ttlSeconds env).bind (expiry c.now)).map
          d.backend.datetime = .ok expiresAt := by
  constructor
  · rintro ⟨_, _, _, hstep, h⟩
    cases hstep
    exact h
  · intro h
    exact ⟨env, model, mint, rfl, h⟩

/-- A sign-up that is answered adds the row of its token. -/
theorem tokensMatch_signup (hmailer : d.mailer = captureMailer) {env : AuthEnvironment}
    {model : SignupModel} {mint : SignupMint} (h : TokensMatch d c steps (authRun d c steps)) :
    TokensMatch d c (steps ++ [.signup env model mint])
      (authExec d (authRun d c steps) (.signup env model mint)) := by
  intro tokenHash userId expiresAt hlive
  have hold := h tokenHash userId expiresAt hlive
  have hkeep : ∀ token, ¬ Presents token (.signup env model mint) :=
    fun token => not_presents fun _ hstep => by cases hstep
  simp only [issuedSince_append, hkeep, not_false_eq_true, and_true, and_or_left, exists_or,
    ← hold, issues_signup]
  have houtcome := signup_run hmailer env model mint (authRun d c steps).now
    (authRun d c steps).world
  simp only [authExec]
  generalize (authRun d c steps) = s at *
  generalize (register d env model mint s.now).run s.world = result at houtcome ⊢
  obtain ⟨answer, w'⟩ := result
  cases houtcome with
  | refused error => simp
  | stranded error hinsert => simp [Unused, (AuthStore.insertUser_ok hinsert).tokens]
  | @issued expiresAt' _ _ hexpiry hinsert htoken =>
    have hrows := (AuthStore.insertToken_ok htoken).rows
    rw [(AuthStore.insertUser_ok hinsert).tokens] at hrows
    simp only [Unused, hrows, List.mem_append, List.mem_singleton, or_and_right, exists_or,
      exists_eq_left, newTokenRow, VerificationTokenRow.stored, hexpiry, Except.map, true_and,
      and_true, Except.ok.injEq]
    refine or_congr Iff.rfl ?_
    constructor
    · rintro ⟨rfl, rfl, rfl⟩
      exact ⟨mint.token.text, rfl, rfl, rfl, rfl⟩
    · rintro ⟨_, rfl, rfl, rfl, rfl⟩
      exact ⟨rfl, rfl, rfl⟩

/-- A verification takes its token away from the unused ones. -/
theorem tokensMatch_verify {model : VerifyModel}
    (hdiffer : DigestsDiffer ((steps ++ [AuthStep.verify model]).flatMap AuthStep.tokens))
    (h : TokensMatch d c steps (authRun d c steps)) :
    TokensMatch d c (steps ++ [.verify model])
      (authExec d (authRun d c steps) (.verify model)) := by
  intro tokenHash userId expiresAt hlive
  have hquiet : ∀ token, ¬ Issues d token userId expiresAt (authRun d c steps) (.verify model) :=
    fun token => not_issues fun _ _ _ hstep => by cases hstep
  have hpresents : ∀ token, Presents token (.verify model) ↔ model.token = token := by
    intro token
    constructor
    · rintro ⟨_, hstep, htoken⟩
      cases hstep
      exact htoken
    · intro htoken
      exact ⟨model, rfl, htoken⟩
  refine (unused_verified hlive).trans ?_
  rw [h tokenHash userId expiresAt hlive, ← exists_and_right]
  refine exists_congr fun token => ?_
  rw [issuedSince_append, or_iff_left (hquiet token), hpresents, and_assoc]
  refine and_congr_right fun hhash => and_congr_right fun hissued => ?_
  have hmem : token ∈ (steps ++ [AuthStep.verify model]).flatMap AuthStep.tokens := by
    rw [List.flatMap_append]
    exact List.mem_append_left _ (issuedSince_token hissued)
  have hmem' : model.token ∈ (steps ++ [AuthStep.verify model]).flatMap AuthStep.tokens :=
    List.mem_flatMap.mpr ⟨.verify model, by simp, List.mem_singleton.mpr rfl⟩
  rw [← hhash, not_iff_not]
  exact ⟨fun heq => (hdiffer hmem hmem' heq).symm, fun heq => heq ▸ rfl⟩

theorem tokensMatch_step (hmailer : d.mailer = captureMailer)
    (hdiffer : DigestsDiffer ((steps ++ [step]).flatMap AuthStep.tokens))
    (h : TokensMatch d c steps (authRun d c steps)) :
    TokensMatch d c (steps ++ [step]) (authExec d (authRun d c steps) step) := by
  by_cases hsignup : ∃ env model mint, step = .signup env model mint
  · obtain ⟨env, model, mint, rfl⟩ := hsignup
    exact tokensMatch_signup hmailer h
  by_cases hverify : ∃ model, step = .verify model
  · obtain ⟨model, rfl⟩ := hverify
    exact tokensMatch_verify hdiffer h
  · have hsignup' : ∀ env model mint, step ≠ .signup env model mint :=
      fun env model mint heq => hsignup ⟨env, model, mint, heq⟩
    have hverify' : ∀ model, step ≠ .verify model := fun model heq => hverify ⟨model, heq⟩
    intro tokenHash userId expiresAt hlive
    have hkeep : ∀ token, ¬ Presents token step := fun _ => not_presents hverify'
    have hquiet : ∀ token, ¬ Issues d token userId expiresAt (authRun d c steps) step :=
      fun _ => not_issues hsignup'
    simp only [issuedSince_append, hkeep, hquiet, not_false_eq_true, and_true, or_false]
    have hnow := AuthRunLemmas.authExec_now d (authRun d c steps) step
    rw [← h tokenHash userId expiresAt ((Int.ofNat_le.mpr hnow).trans_lt hlive), Unused, Unused,
      authExec_tokens hsignup' hverify']

/-! ## The ids of the sessions -/

/-- Every session was opened under an id of the run. -/
theorem sessions_ids (d : Deployment) (now : Py.Timestamp) (steps : List AuthStep) :
    ∀ s ∈ (authRun d (.init now) steps).world.db.sessions.rows,
      s.id ∈ steps.flatMap AuthStep.ids := by
  refine History.run_induction (authExec d)
    (R := fun steps c => ∀ s ∈ c.world.db.sessions.rows, s.id ∈ steps.flatMap AuthStep.ids)
    ?_ ?_ steps
  · exact fun s hs => absurd hs List.not_mem_nil
  intro steps step ih s hs
  rw [List.flatMap_append, List.mem_append]
  have heffect := AuthRunLemmas.authExec_effect d (authRun d (.init now) steps) step
  generalize (authExec d (authRun d (.init now) steps) step).world.db = db at heffect hs
  cases heffect with
  | unchanged _ => exact Or.inl (ih s hs)
  | registered hinsert => exact Or.inl (ih s ((AuthStore.insertUser_ok hinsert).sessions ▸ hs))
  | issued hinsert htoken =>
    rw [(AuthStore.insertToken_ok htoken).sessions,
      (AuthStore.insertUser_ok hinsert).sessions] at hs
    exact Or.inl (ih s hs)
  | verified _ _ => exact Or.inl (ih s hs)
  | opened _ _ hinsert =>
    rw [(AuthStore.insertSession_ok hinsert).rows] at hs
    rcases List.mem_append.mp hs with hs | hs
    · exact Or.inl (ih s hs)
    · right
      rw [List.mem_singleton.mp hs, List.flatMap_cons]
      exact List.mem_append_left _ List.mem_cons_self
  | closed _ => exact Or.inl (ih s (List.mem_of_mem_filter hs))
  | disabled _ => exact Or.inl (ih s hs)

/-! ## Logins -/

/-- A login under a new id succeeds exactly for the active user with the email, if the password
verifies and the session has an end. -/
theorem login_isOk {env : AuthEnvironment} {model : LoginModel} {mint : LoginMint}
    {now : Py.Timestamp} {w : AuthWorld} (hfresh : mint.ulid ∉ w.db.sessions.keys) :
    (∃ response, ((login d env model mint now).run w).1 = .ok response ∧
        response.user.id = userId) ↔
      (∃ user ∈ w.db.users.rows, user.id = userId ∧ user.email = model.email ∧
        d.verify user.passwordHash model.password = true ∧ user.status = .active) ∧
        ((AuthSettings.sessionTtlSeconds env).bind (expiry now)).isOk = true := by
  cases hfound : w.db.usersByEmail model.email with
  | nil =>
    refine iff_of_false (by simp [login, hfound]) ?_
    rintro ⟨⟨user, huser, _, hemail, _⟩, _⟩
    have hmem := AuthStore.mem_usersByEmail.mpr ⟨huser, hemail⟩
    rw [hfound] at hmem
    exact List.not_mem_nil hmem
  | cons user rest =>
  have hlength := w.db.length_usersByEmail_le model.email
  rw [hfound, List.length_cons] at hlength
  obtain rfl : rest = [] := List.eq_nil_of_length_eq_zero (by omega)
  have huser : ∀ user', user' ∈ w.db.users.rows ∧ user'.email = model.email ↔ user' = user := by
    intro user'
    rw [← AuthStore.mem_usersByEmail, hfound, List.mem_singleton]
  obtain ⟨hmem, hemail⟩ := (huser user).mpr rfl
  have hrow : (∃ user' ∈ w.db.users.rows, user'.id = userId ∧ user'.email = model.email ∧
        d.verify user'.passwordHash model.password = true ∧ user'.status = .active) ↔
      user.id = userId ∧ d.verify user.passwordHash model.password = true ∧
        user.status = .active := by
    constructor
    · rintro ⟨user', hmem', hid, hemail', hok⟩
      cases (huser user').mp ⟨hmem', hemail'⟩
      exact ⟨hid, hok⟩
    · rintro ⟨hid, hok⟩
      exact ⟨user, hmem, hid, hemail, hok⟩
  rw [hrow]
  by_cases hok : d.verify user.passwordHash model.password = true ∧ user.status = .active
  · rw [and_iff_left hok]
    cases httl : AuthSettings.sessionTtlSeconds env with
    | error error =>
      simp [login, hfound, hok, httl, Except.bind, Except.isOk, Except.toBool]
    | ok ttlSeconds =>
    cases hexpiry : expiry now ttlSeconds with
    | error error =>
      simp [login, hfound, hok, httl, createSession, hexpiry, Except.bind, Except.isOk,
        Except.toBool]
    | ok expiresAt =>
    obtain ⟨db', hinsert⟩ : ∃ db', w.db.insertSession d.backend
      (newSessionRow mint user.id expiresAt) = .ok db' :=
        AuthStore.insertSession_isOk hfresh (Table.key_mem_keys hmem)
    simp [login, hfound, hok, httl, createSession, hexpiry, hinsert, Except.bind, Except.isOk,
      Except.toBool, toUserResponse]
  · refine iff_of_false (by simp [login, hfound, hok]) ?_
    rintro ⟨⟨_, hok'⟩, _⟩
    exact hok hok'

/-- Where the ids are distinct, a sign-up is fixed by the id that it mints. -/
theorem signup_unique (hids : (steps.flatMap AuthStep.ids).Nodup) {env env' : AuthEnvironment}
    {model model' : SignupModel} {mint mint' : SignupMint}
    (h : .signup env model mint ∈ steps) (h' : .signup env' model' mint' ∈ steps)
    (hid : mint.ulid = mint'.ulid) : model = model' ∧ mint = mint' := by
  obtain ⟨before, after, rfl⟩ := List.append_of_mem h
  obtain ⟨before', after', heq⟩ := List.append_of_mem h'
  obtain ⟨_, hsignup⟩ := History.split_unique heq hids (List.mem_singleton.mpr rfl)
    (List.mem_singleton.mpr hid)
  cases hsignup
  exact ⟨rfl, rfl⟩

end AccountLemmas

open AccountLemmas

/-- The unused tokens are those that the history has left unpresented. -/
theorem tokens_since (d : Deployment) (hmailer : d.mailer = captureMailer) (now : Py.Timestamp)
    (steps : List AuthStep) (hdiffer : DigestsDiffer (steps.flatMap AuthStep.tokens)) :
    TokensMatch d (.init now) steps (authRun d (.init now) steps) := by
  refine History.run_induction (authExec d)
    (R := fun steps c => DigestsDiffer (steps.flatMap AuthStep.tokens) →
      TokensMatch d (.init now) steps c) ?_ ?_ steps hdiffer
  · intro _ tokenHash userId expiresAt _
    constructor
    · rintro ⟨t, ht, _⟩
      exact absurd ht List.not_mem_nil
    · rintro ⟨token, _, hissued⟩
      exact absurd hissued History.not_since_nil
  · intro steps step ih hdiffer
    refine tokensMatch_step hmailer hdiffer (ih (Set.InjOn.mono ?_ hdiffer))
    intro token htoken
    rw [Set.mem_ofPred_eq, List.flatMap_append]
    exact List.mem_append_left _ htoken

/-- The active users are those that the history has left active. -/
theorem active_since (d : Deployment) (hmailer : d.mailer = captureMailer) (now : Py.Timestamp)
    (steps : List AuthStep) :
    StatusMatch d (.init now) steps (authRun d (.init now) steps).world.db := by
  refine History.run_induction (authExec d)
    (R := fun steps c => StatusMatch d (.init now) steps c.world.db) ?_ ?_ steps
  · intro userId
    constructor
    · rintro ⟨user, huser, _⟩
      exact absurd huser List.not_mem_nil
    · intro hactive
      exact absurd hactive History.not_since_nil
  · exact fun steps step ih => statusMatch_step hmailer ih

section

variable (d : Deployment) (hmailer : d.mailer = captureMailer) (now : Py.Timestamp)
  (steps : List AuthStep)

include hmailer

/-- A token verifies exactly if it is pending. -/
theorem verify_iff (model : VerifyModel) (consumedAt : Py.Timestamp) (userId : String)
    (hdiffer : DigestsDiffer (model.token :: steps.flatMap AuthStep.tokens)) :
    (∃ response, ((verify model (authRun d (.init now) steps).now consumedAt).run
        (authRun d (.init now) steps).world).1 = .ok response ∧ response.id = userId) ↔
      Pending d (.init now) steps model.token userId := by
  have hmatch := tokens_since d hmailer now steps
    (Set.InjOn.mono (fun _ ht => List.mem_cons_of_mem model.token ht) hdiffer)
  have houtcome := verify_run model (authRun d (.init now) steps).now consumedAt
    (authRun d (.init now) steps).world
  generalize (verify model (authRun d (.init now) steps).now consumedAt).run
    (authRun d (.init now) steps).world = result at houtcome ⊢
  obtain ⟨answer, w'⟩ := result
  cases houtcome with
  | invalid hnone =>
    refine iff_of_false ?_ ?_
    · rintro ⟨response, hok, _⟩
      cases hok
    · rintro ⟨expiresAt, hlive, hissued⟩
      have hunused := (hmatch _ userId expiresAt hlive).mpr ⟨model.token, rfl, hissued⟩
      obtain ⟨t, ht, _⟩ := (unused_findActive hlive).mp hunused
      rw [hnone] at ht
      exact List.not_mem_nil ht
  | @verified row user hrow hactive _ hid =>
    simp only [VerificationTokenRow.isActive, Bool.and_eq_true, decide_eq_true_eq,
      Option.isNone_iff_eq_none] at hactive
    obtain ⟨⟨hhash, hunused⟩, hlive⟩ := hactive
    have hanswer : (∃ response, (.ok (toUserResponse { user with status := .active }) :
        Except AuthError UserResponseModel) = .ok response ∧ response.id = userId) ↔
        row.userId = userId := by
      simp [toUserResponse, hid]
    rw [hanswer]
    constructor
    · rintro rfl
      obtain ⟨token, htoken, hissued⟩ := (hmatch row.tokenHash row.userId row.expiresAt hlive).mp
        ⟨row, hrow, rfl, rfl, rfl, hunused⟩
      have hmem := List.mem_cons_of_mem model.token (issuedSince_token hissued)
      cases hdiffer hmem List.mem_cons_self (htoken.trans hhash)
      exact ⟨row.expiresAt, hlive, hissued⟩
    · rintro ⟨expiresAt, hlive', hissued⟩
      obtain ⟨row', hrow', hhash', rfl, _⟩ :=
        (hmatch _ userId expiresAt hlive').mpr ⟨model.token, rfl, hissued⟩
      rw [Table.eq_of_key_eq hrow hrow' (hhash.trans hhash'.symm)]

/-- An account is active exactly if a verification of a pending token activated it. -/
theorem activeSince_iff (userId : String)
    (hdiffer : DigestsDiffer (steps.flatMap AuthStep.tokens)) :
    ActiveSince d userId (.init now) steps ↔ Activated d (.init now) steps userId := by
  have hpending : ∀ {before model after}, steps = before ++ .verify model :: after →
      ((∃ response, ((verify model (authRun d (.init now) before).now
          (authRun d (.init now) before).now).run (authRun d (.init now) before).world).1 =
            .ok response ∧ response.id = userId) ↔
        Pending d (.init now) before model.token userId) := by
    rintro before model after rfl
    refine verify_iff d hmailer now before model _ userId (Set.InjOn.mono ?_ hdiffer)
    intro token htoken
    rw [Set.mem_ofPred_eq, List.flatMap_append, List.flatMap_cons]
    rcases List.mem_cons.mp htoken with rfl | htoken
    · exact List.mem_append_right _ (List.mem_append_left _ (List.mem_singleton.mpr rfl))
    · exact List.mem_append_left _ htoken
  constructor
  · rintro ⟨before, _, after, rfl, ⟨model, response, rfl, hok, hid⟩, hkeep⟩
    refine ⟨before, model, after, rfl, (hpending rfl).mp ⟨response, hok, hid⟩, ?_⟩
    exact fun hmem => hkeep _ hmem rfl
  · rintro ⟨before, model, after, rfl, htoken, hkeep⟩
    obtain ⟨response, hok, hid⟩ := (hpending rfl).mpr htoken
    refine ⟨before, _, after, rfl, ⟨model, response, rfl, hok, hid⟩, ?_⟩
    rintro _ hmem rfl
    exact hkeep hmem

/-- A login succeeds exactly for who signed up with the email and the password and is active. -/
theorem login_iff (hids : (steps.flatMap AuthStep.ids).Nodup)
    (hdiffer : DigestsDiffer (steps.flatMap AuthStep.tokens)) (env : AuthEnvironment)
    (model : LoginModel) (mint : LoginMint) (userId : String)
    (hfresh : mint.ulid ∉ steps.flatMap AuthStep.ids) :
    (∃ response, ((login d env model mint (authRun d (.init now) steps).now).run
        (authRun d (.init now) steps).world).1 = .ok response ∧ response.user.id = userId) ↔
      Enrolled d steps userId model.email model.password ∧
        Activated d (.init now) steps userId ∧
          ((AuthSettings.sessionTtlSeconds env).bind
            (expiry (authRun d (.init now) steps).now)).isOk = true := by
  have hunused : mint.ulid ∉ (authRun d (.init now) steps).world.db.sessions.keys := by
    intro hmem
    obtain ⟨s, hs, hid⟩ := Table.mem_keys.mp hmem
    exact hfresh (hid ▸ sessions_ids d now steps s hs)
  rw [login_isOk hunused, ← and_assoc, ← activeSince_iff d hmailer now steps userId hdiffer,
    ← active_since d hmailer now steps userId]
  refine and_congr_left fun _ => ?_
  constructor
  · rintro ⟨user, huser, rfl, hemail, hpassword, hactive⟩
    obtain ⟨env', model', mint', hmem, hid, hemail', hhash⟩ := users_signedUp d now steps user huser
    refine ⟨⟨env', model', mint', hmem, hid, hemail'.trans hemail, ?_⟩, user, huser, rfl, hactive⟩
    rw [hhash]
    exact hpassword
  · rintro ⟨⟨env', model', mint', hmem, rfl, hemail, hpassword⟩, user, huser, hid, hactive⟩
    obtain ⟨_, _, _, hmem', hid', hemail', hhash⟩ := users_signedUp d now steps user huser
    obtain ⟨rfl, rfl⟩ := signup_unique hids hmem hmem' (hid.symm.trans hid'.symm)
    refine ⟨user, huser, hid, hemail'.symm.trans hemail, ?_, hactive⟩
    rw [← hhash]
    exact hpassword

end

/-- For every run of sign-ups, verifications, logins and logouts with the mailer of the core, with
the clock advancing and the operator disabling accounts: a verification succeeds exactly for a token
that a sign-up answered with success issued, that has not expired (on MySQL its end is rounded to
the second) and that nobody has presented since; a login exactly for who signed up with the email
and the password, had such a token verified and was not disabled since, if the session has an end;
and the mail of a sign-up is the last one to its address, until a hundred more are sent. -/
theorem account_history (d : Deployment) (hmailer : d.mailer = captureMailer)
    (now : Py.Timestamp) (steps : List AuthStep) (hids : (steps.flatMap AuthStep.ids).Nodup) :
    (∀ model consumedAt userId,
      DigestsDiffer (model.token :: steps.flatMap AuthStep.tokens) →
        ((∃ response, ((verify model (authRun d (.init now) steps).now consumedAt).run
            (authRun d (.init now) steps).world).1 = .ok response ∧ response.id = userId) ↔
          Pending d (.init now) steps model.token userId)) ∧
      (∀ env model mint userId, DigestsDiffer (steps.flatMap AuthStep.tokens) →
        mint.ulid ∉ steps.flatMap AuthStep.ids →
          ((∃ response, ((login d env model mint (authRun d (.init now) steps).now).run
              (authRun d (.init now) steps).world).1 = .ok response ∧
                response.user.id = userId) ↔
            Enrolled d steps userId model.email model.password ∧
              Activated d (.init now) steps userId ∧
                ((AuthSettings.sessionTtlSeconds env).bind
                  (expiry (authRun d (.init now) steps).now)).isOk = true)) ∧
      ∀ before env model mint after, steps = before ++ .signup env model mint :: after →
        ((register d env model mint (authRun d (.init now) before).now).run
            (authRun d (.init now) before).world).1 = .ok ⟨⟩ →
          CaptureMailer.lastFor (authRun d (.init now) steps).world.outbox model.email =
            if (authRun d (.init now) steps).world.outbox.length ≤
                (authRun d (.init now) before).world.outbox.length + CaptureMailer.maxMessages
              then some (verificationEmail model.email mint.token.text) else none := by
  refine ⟨?_, ?_, ?_⟩
  · intro model consumedAt userId hdiffer
    exact verify_iff d hmailer now steps model consumedAt userId hdiffer
  · intro env model mint userId hdiffer hfresh
    exact login_iff d hmailer now steps hids hdiffer env model mint userId hfresh
  · intro before env model mint after hsteps hok
    exact lastFor_signup hmailer now hsteps hok

/-- A day later the token has been used: the account is active, and its owner may log in. -/
theorem account_history_sample :
    Activated (Sample.deployment .duckdb) (.init 1782734400000000)
      [Sample.signup, .verify Sample.verification, .advance 86400000000]
      "01KW8WHA6STWW5N1VYRSHDTK70" :=
  (((account_history (Sample.deployment .duckdb) rfl 1782734400000000
      [Sample.signup, .verify Sample.verification, .advance 86400000000]
      (by decide +kernel)).2.1 Sample.unset Sample.credentials
        ⟨"01KW8WHA6STWW5N1VYRSHDTK80", Sample.session⟩ "01KW8WHA6STWW5N1VYRSHDTK70"
        (by decide +kernel) (by decide +kernel)).mp
    ⟨⟨⟨"01KW8WHA6STWW5N1VYRSHDTK70", "engineer@example.com", "active", some "oss"⟩,
      "session", 604800⟩, by decide +kernel, rfl⟩).2.1

end LavsCore
