import LavsCore.Auth.SignupTrace
import LavsCore.Lib.BoundedQueue

/-!
# Verification mails

The mailer of the core keeps the mails in memory, in a ring of a hundred. A sign-up sends its token
in the last of its steps (`signup_run`), and an address is mailed once, since it stays registered.

`lastFor_signup`: so the token of a sign-up is in the last mail to its address, until a hundred more
are sent.
-/

namespace LavsCore

open AuthQuery

/-! ## CaptureMailer -/

namespace CaptureMailer

/-- `_DEFAULT_MAX_MESSAGES`. -/
def maxMessages : Nat := 100

/-- The ring buffer after some mails: each drops the oldest one from a full ring. -/
def messages (outbox : List CapturedEmail) : List CapturedEmail :=
  dropOldestAll maxMessages [] outbox

/-- `last_for`. -/
def lastFor (outbox : List CapturedEmail) (recipient : String) : Option CapturedEmail :=
  (messages outbox).reverse.find? fun mail => mail.recipient = recipient

end CaptureMailer

namespace MailLemmas

variable {d : Deployment}

/-! ## One sign-up -/

/-- With the mailer of the core, a sign-up issues its token and mails it, or it does neither. -/
inductive SignupOutcome (d : Deployment) (env : AuthEnvironment) (model : SignupModel)
    (mint : SignupMint) (now : Py.Timestamp) (w : AuthWorld) :
    Except AuthError PUnit → AuthWorld → Prop
  | refused (error : AuthError) : SignupOutcome d env model mint now w (.error error) w
  | stranded (error : AuthError) {db : AuthStore}
      (hinsert : w.db.insertUser d.backend (newUserRow d env model mint) = .ok db) :
      SignupOutcome d env model mint now w (.error error) { w with db := db }
  | issued {expiresAt : Int} {db db' : AuthStore}
      (hexpiry : (VerificationSettings.ttlSeconds env).bind (expiry now) = .ok expiresAt)
      (hinsert : w.db.insertUser d.backend (newUserRow d env model mint) = .ok db)
      (htoken : db.insertToken d.backend (newTokenRow mint expiresAt) = .ok db') :
      SignupOutcome d env model mint now w (.ok ⟨⟩)
        ⟨db', w.outbox ++ [verificationEmail model.email mint.token.text]⟩

theorem signup_run (hmailer : d.mailer = captureMailer) (env : AuthEnvironment)
    (model : SignupModel) (mint : SignupMint) (now : Py.Timestamp) (w : AuthWorld) :
    SignupOutcome d env model mint now w ((register d env model mint now).run w).1
      ((register d env model mint now).run w).2 := by
  have hrun : ∀ answer w', (register d env model mint now).run w = (answer, w') →
      SignupOutcome d env model mint now w answer w' →
      SignupOutcome d env model mint now w ((register d env model mint now).run w).1
        ((register d env model mint now).run w).2 := by
    intro answer w' hrun h
    rw [hrun]
    exact h
  cases hallowed : domainAllowed d.lower env model.email with
  | false =>
    refine hrun (.error (.domainNotAllowed domainNotAllowedMessage (emailDomain model.email))) w ?_
      (.refused _)
    simp [register, assertDomainAllowed, hallowed]
  | true =>
  cases htaken : w.db.usersByEmail model.email with
  | cons user rest =>
    refine hrun (.error (.conflict duplicateEmailMessage)) w ?_ (.refused _)
    simp [register, assertDomainAllowed, hallowed, assertEmailAvailable, htaken]
  | nil =>
  cases hinsert : w.db.insertUser d.backend (newUserRow d env model mint) with
  | error refusal =>
    refine hrun (.error (conflictOnDuplicate (.driver (d.backend.raises refusal)))) w ?_
      (.refused _)
    simp [register, assertDomainAllowed, hallowed, assertEmailAvailable, htaken, hinsert]
  | ok db =>
  -- The rest runs on the store that has the user.
  have hrest : (register d env model mint now).run w =
      (deliver d env model mint now).run { w with db := db } := by
    simp [register, deliver, assertDomainAllowed, hallowed, assertEmailAvailable, htaken, hinsert]
  cases httl : VerificationSettings.ttlSeconds env with
  | error error =>
    refine hrun (.error error) _ ?_ (.stranded error hinsert)
    simp [hrest, deliver, httl]
  | ok ttlSeconds =>
  cases hexpiry : expiry now ttlSeconds with
  | error error =>
    refine hrun (.error error) _ ?_ (.stranded error hinsert)
    simp [hrest, deliver, httl, issueToken, hexpiry]
  | ok expiresAt =>
  cases htoken : db.insertToken d.backend (newTokenRow mint expiresAt) with
  | error refusal =>
    refine hrun (.error (.driver (d.backend.raises refusal))) _ ?_ (.stranded _ hinsert)
    simp [hrest, deliver, httl, issueToken, hexpiry, htoken]
  | ok db' =>
    refine hrun (.ok ⟨⟩) _ ?_ (.issued (by rw [httl]; exact hexpiry) hinsert htoken)
    simp [hrest, deliver, httl, issueToken, hexpiry, htoken, hmailer, captureMailer]

/-! ## The mails -/

/-- More mails are sent, to nobody who was registered before. -/
def Sends (c c' : Clocked) : Prop :=
  c.world.db.emails ⊆ c'.world.db.emails ∧
    ∃ mails, c'.world.outbox = c.world.outbox ++ mails ∧
      ∀ mail ∈ mails, mail.recipient ∉ c.world.db.emails

theorem Sends.quiet {c c' : Clocked} (hemails : c'.world.db.emails = c.world.db.emails)
    (houtbox : c'.world.outbox = c.world.outbox) : Sends c c' :=
  ⟨hemails ▸ List.Subset.refl _, [], by rw [houtbox, List.append_nil], by simp⟩

theorem Sends.trans {c c' c'' : Clocked} (h : Sends c c') (h' : Sends c' c'') : Sends c c'' := by
  obtain ⟨hemails, mails, houtbox, hnew⟩ := h
  obtain ⟨hemails', mails', houtbox', hnew'⟩ := h'
  refine ⟨List.Subset.trans hemails hemails', mails ++ mails', ?_, ?_⟩
  · rw [houtbox', houtbox, List.append_assoc]
  · intro mail hmail
    rcases List.mem_append.mp hmail with hmail | hmail
    · exact hnew mail hmail
    · exact fun hknown => hnew' mail hmail (hemails hknown)

theorem emails_insertUser {db db' : AuthStore} {env : AuthEnvironment} {model : SignupModel}
    {mint : SignupMint} (h : db.insertUser d.backend (newUserRow d env model mint) = .ok db') :
    db'.emails = db.emails ++ [model.email] := by
  rw [AuthStore.emails, (AuthStore.insertUser_ok h).rows, List.map_append]
  rfl

theorem authExec_sends (hmailer : d.mailer = captureMailer) (c : Clocked) (step : AuthStep) :
    Sends c (authExec d c step) := by
  cases step with
  | signup env model mint =>
    have houtcome := signup_run hmailer env model mint c.now c.world
    simp only [authExec]
    generalize (register d env model mint c.now).run c.world = result at houtcome ⊢
    obtain ⟨answer, w'⟩ := result
    cases houtcome with
    | refused error => exact .quiet rfl rfl
    | stranded error hinsert =>
      exact ⟨emails_insertUser hinsert ▸ List.subset_append_left _ _, [],
        (List.append_nil _).symm, by simp⟩
    | @issued _ db db' _ hinsert htoken =>
      have hemails : db'.emails = c.world.db.emails ++ [model.email] := by
        rw [AuthStore.emails, (AuthStore.insertToken_ok htoken).users]
        exact emails_insertUser hinsert
      refine ⟨?_, [verificationEmail model.email mint.token.text], rfl, ?_⟩
      · exact hemails ▸ List.subset_append_left _ _
      · intro mail hmail
        cases List.mem_singleton.mp hmail
        exact (AuthStore.insertUser_ok hinsert).newEmail
  | verify model =>
    have houtcome := verify_run model c.now c.now c.world
    simp only [authExec]
    generalize (verify model c.now c.now).run c.world = result at houtcome ⊢
    obtain ⟨answer, w'⟩ := result
    cases houtcome with
    | invalid _ => exact .quiet rfl rfl
    | verified _ _ _ _ => exact .quiet (AuthStore.setUserStatus_emails _ _ _) rfl
  | login env model mint =>
    have houtcome := login_run d env model mint c.now c.world
    simp only [authExec]
    generalize (login d env model mint c.now).run c.world = result at houtcome ⊢
    obtain ⟨answer, w'⟩ := result
    cases houtcome with
    | refused error => exact .quiet rfl rfl
    | opened _ _ _ _ _ hinsert =>
      exact .quiet (congrArg (fun users => users.rows.map UserRow.email)
        (AuthStore.insertSession_ok hinsert).users) rfl
  | logout request =>
    have hrun := AuthRunLemmas.logout_run request c.world
    refine .quiet ?_ (congrArg (fun result => result.2.outbox) hrun)
    refine (congrArg (fun result => result.2.db.emails) hrun).trans ?_
    dsimp only
    split
    · split <;> rfl
    · rfl
  | advance microseconds => exact .quiet rfl rfl
  | disable userId => exact .quiet (AuthStore.setUserStatus_emails _ _ _) rfl

/-- What a run sends goes to nobody who was registered before it. -/
theorem authRun_sends (hmailer : d.mailer = captureMailer) (c : Clocked) (steps : List AuthStep) :
    Sends c (authRun d c steps) := by
  induction steps generalizing c with
  | nil => exact .quiet rfl rfl
  | cons step rest ih => exact (authExec_sends hmailer c step).trans (ih (authExec d c step))

theorem lastFor_eq (outbox : List CapturedEmail) (recipient : String) :
    CaptureMailer.lastFor outbox recipient =
      (outbox.reverse.take CaptureMailer.maxMessages).find? fun mail =>
        mail.recipient = recipient := by
  rw [CaptureMailer.lastFor, CaptureMailer.messages,
    dropOldestAll_eq_rtake (by decide) outbox (Nat.zero_le _), List.nil_append,
    List.rtake_eq_reverse_take_reverse, List.reverse_reverse]

/-- The last mail to an address is found until the buffer is full of later ones. -/
theorem lastFor_append {before mails : List CapturedEmail} {mail : CapturedEmail}
    (hlast : ∀ mail' ∈ mails, mail'.recipient ≠ mail.recipient) :
    CaptureMailer.lastFor (before ++ [mail] ++ mails) mail.recipient =
      if mails.length < CaptureMailer.maxMessages then some mail else none := by
  have hnone : ∀ mails' ⊆ mails,
      mails'.find? (fun mail' => mail'.recipient = mail.recipient) = none := by
    intro mails' hsub
    refine List.find?_eq_none.mpr fun mail' hmail' => ?_
    simpa using hlast mail' (hsub hmail')
  have hreverse : mails.reverse ⊆ mails := fun _ hmail => List.mem_reverse.mp hmail
  rw [lastFor_eq, List.reverse_append, List.reverse_append, List.reverse_singleton,
    List.singleton_append, List.take_append, List.length_reverse, List.find?_append,
    hnone _ (List.Subset.trans (List.take_subset _ _) hreverse), Option.none_or]
  split
  · next hroom =>
    obtain ⟨room, hroom'⟩ : ∃ room, CaptureMailer.maxMessages - mails.length = room + 1 :=
      ⟨_, (Nat.succ_pred_eq_of_pos (Nat.sub_pos_of_lt hroom)).symm⟩
    rw [hroom', List.take_succ_cons, List.find?_cons_of_pos (by simp)]
  · next hfull =>
    rw [Nat.sub_eq_zero_of_le (Nat.not_lt.mp hfull)]
    rfl

end MailLemmas

open MailLemmas

/-- The mail of a sign-up is the last one to its address, until the buffer is full of later
ones. -/
theorem lastFor_signup (hmailer : d.mailer = captureMailer) (now : Py.Timestamp)
    {steps before after : List AuthStep} {env : AuthEnvironment}
    {model : SignupModel} {mint : SignupMint}
    (hsteps : steps = before ++ .signup env model mint :: after)
    (hok : ((register d env model mint (authRun d (.init now) before).now).run
      (authRun d (.init now) before).world).1 = .ok ⟨⟩) :
    CaptureMailer.lastFor (authRun d (.init now) steps).world.outbox model.email =
      if (authRun d (.init now) steps).world.outbox.length ≤
          (authRun d (.init now) before).world.outbox.length + CaptureMailer.maxMessages
        then some (verificationEmail model.email mint.token.text) else none := by
  have hrun : authRun d (.init now) steps =
      authRun d (authExec d (authRun d (.init now) before) (.signup env model mint)) after := by
    rw [hsteps, authRun, History.run_append, History.run_cons]
  have hsent : (authExec d (authRun d (.init now) before) (.signup env model mint)).world.outbox =
        (authRun d (.init now) before).world.outbox ++
          [verificationEmail model.email mint.token.text] ∧
      model.email ∈
        (authExec d (authRun d (.init now) before) (.signup env model mint)).world.db.emails := by
    have houtcome := signup_run hmailer env model mint (authRun d (.init now) before).now
      (authRun d (.init now) before).world
    simp only [authExec]
    generalize (register d env model mint (authRun d (.init now) before).now).run
      (authRun d (.init now) before).world = result at houtcome hok ⊢
    obtain ⟨answer, w'⟩ := result
    cases hok
    cases houtcome with
    | @issued _ db db' _ hinsert htoken =>
      refine ⟨rfl, ?_⟩
      have hemails : db'.emails =
          (authRun d (.init now) before).world.db.emails ++ [model.email] := by
        rw [AuthStore.emails, (AuthStore.insertToken_ok htoken).users]
        exact emails_insertUser hinsert
      exact hemails ▸ List.mem_append_right _ List.mem_cons_self
  obtain ⟨_, mails, houtbox, hnew⟩ := authRun_sends hmailer
    (authExec d (authRun d (.init now) before) (.signup env model mint)) after
  rw [← hrun, hsent.1] at houtbox
  have hlast : ∀ mail ∈ mails, mail.recipient ≠ model.email := by
    rintro mail hmail heq
    exact hnew mail hmail (heq ▸ hsent.2)
  have hcount : mails.length < CaptureMailer.maxMessages ↔
      (authRun d (.init now) steps).world.outbox.length ≤
        (authRun d (.init now) before).world.outbox.length + CaptureMailer.maxMessages := by
    rw [houtbox, List.length_append, List.length_append, List.length_singleton]
    omega
  rw [← if_congr hcount rfl rfl, houtbox]
  exact lastFor_append hlast

end LavsCore
