import LavsCore.Auth.SessionHistory

/-!
# Disabling an account

The operator sets the status to `disabled`. A login looks at the status; a session and a
verification token do not. Whoever holds one of these when the account is disabled goes
on (`disabled_not_final`). `disabled_final`: disabling is final in every run that disables
accounts only while nothing is outstanding for them.
-/

namespace LavsCore

/-- A session of the user that has not expired. -/
def HasSession (db : AuthStore) (now : Py.Timestamp) (userId : String) : Prop :=
  ∃ s ∈ db.sessions.rows, s.userId = userId ∧ now < s.expiresAt

/-- A verification token of the user that is neither consumed nor expired. -/
def HasToken (db : AuthStore) (now : Py.Timestamp) (userId : String) : Prop :=
  ∃ t ∈ db.tokens.rows, t.userId = userId ∧ t.consumedAt = none ∧ now < t.expiresAt

instance (db : AuthStore) (now : Py.Timestamp) (userId : String) :
    Decidable (HasSession db now userId) :=
  inferInstanceAs (Decidable (∃ s ∈ db.sessions.rows, _))

instance (db : AuthStore) (now : Py.Timestamp) (userId : String) :
    Decidable (HasToken db now userId) :=
  inferInstanceAs (Decidable (∃ t ∈ db.tokens.rows, _))

/-- The step disables nobody who has a session or a verification token. -/
def DisablesClean (c : Clocked) : AuthStep → Prop
  | .disable userId => ¬ HasSession c.world.db c.now userId ∧ ¬ HasToken c.world.db c.now userId
  | _ => True

instance (c : Clocked) : (step : AuthStep) → Decidable (DisablesClean c step)
  | .disable _ => inferInstanceAs (Decidable (_ ∧ _))
  | .signup _ _ _ => isTrue trivial
  | .verify _ => isTrue trivial
  | .login _ _ _ => isTrue trivial
  | .logout _ => isTrue trivial
  | .advance _ => isTrue trivial

/-- The user is not active, and no request is authenticated as the user. -/
def LockedOut (c : Clocked) (userId : String) : Prop :=
  (∀ user ∈ c.world.db.users.rows, user.id = userId → user.status ≠ .active) ∧
    ∀ edition choice request principal,
      authenticates edition choice c request = .ok (some principal) → principal.id ≠ userId

/-- The account is disabled, and nothing is outstanding for it. -/
structure Frozen (db : AuthStore) (now : Py.Timestamp) (userId : String) : Prop where
  known : userId ∈ db.users.keys
  disabled : ∀ user ∈ db.users.rows, user.id = userId → user.status = .disabled
  noSession : ¬ HasSession db now userId
  noToken : ¬ HasToken db now userId

namespace DisablingLemmas

variable {d : Deployment} {c : Clocked} {db db' : AuthStore} {now now' : Py.Timestamp}
  {userId : String}

/-- A frozen account is locked out. -/
theorem lockedOut (h : Frozen c.world.db c.now userId) : LockedOut c userId := by
  constructor
  · intro user huser hid hactive
    rw [h.disabled user huser hid] at hactive
    cases hactive
  · rintro edition choice request principal hanswer rfl
    obtain ⟨answer, hrun, houtcome⟩ :=
      passwordSessionProvider_run edition c.now choice request c.world
    rw [authenticates, hrun] at hanswer
    cases hanswer
    cases houtcome with
    | resolved _ _ hs _ _ =>
      obtain ⟨hrow, hlive⟩ := List.mem_filter.mp hs
      simp only [SessionRow.isLive, Bool.and_eq_true, decide_eq_true_eq] at hlive
      exact h.noSession ⟨_, hrow, rfl, hlive.2⟩

/-- What has expired or was consumed stays so. -/
theorem frozen_later (h : Frozen db now userId) (hnow : now ≤ now') : Frozen db now' userId := by
  refine ⟨h.known, h.disabled, ?_, ?_⟩
  · rintro ⟨s, hs, hid, hlive⟩
    exact h.noSession ⟨s, hs, hid, lt_of_le_of_lt (Int.ofNat_le.mpr hnow) hlive⟩
  · rintro ⟨t, ht, hid, hconsumed, hlive⟩
    exact h.noToken ⟨t, ht, hid, hconsumed, lt_of_le_of_lt (Int.ofNat_le.mpr hnow) hlive⟩

theorem frozen_insertUser {backend : BackendKind} {row : UserRow} (h : Frozen db now userId)
    (hinsert : db.insertUser backend row = .ok db') :
    Frozen db' now userId ∧ row.id ≠ userId := by
  have hrow := AuthStore.insertUser_ok hinsert
  have hne : row.id ≠ userId := by
    rintro rfl
    exact hrow.fresh h.known
  refine ⟨⟨?_, ?_, ?_, ?_⟩, hne⟩
  · rw [Table.keys, hrow.rows, List.map_append]
    exact List.mem_append_left _ h.known
  · intro user huser hid
    rw [hrow.rows] at huser
    rcases List.mem_append.mp huser with huser | huser
    · exact h.disabled user huser hid
    · exact absurd hid (List.mem_singleton.mp huser ▸ hne)
  · rw [HasSession, hrow.sessions]
    exact h.noSession
  · rw [HasToken, hrow.tokens]
    exact h.noToken

/-- A status is only set to `disabled`, or for another user. -/
theorem frozen_setUserStatus {status : UserStatus} {id : String} (h : Frozen db now userId)
    (hstatus : status = .disabled ∨ id ≠ userId) :
    Frozen (db.setUserStatus status id) now userId := by
  refine ⟨?_, ?_, h.noSession, h.noToken⟩
  · rw [AuthStore.setUserStatus_keys]
    exact h.known
  · intro user huser hid
    obtain ⟨user₀, huser₀, rfl⟩ := List.mem_map.mp huser
    have hid₀ : user₀.id = userId := (AuthStore.withUserStatus_id status id user₀).symm.trans hid
    show (AuthStore.withUserStatus status id user₀).status = .disabled
    unfold AuthStore.withUserStatus
    split
    · next hmarked =>
      rcases hstatus with rfl | hne
      · rfl
      · exact absurd (hmarked.symm.trans hid₀) hne
    · exact h.disabled user₀ huser₀ hid₀

/-- No step gives a frozen account a session, a token or another status. -/
theorem frozen_effect {step : AuthStep} (h : Frozen db now userId)
    (heffect : AuthEffect d now db step db') : Frozen db' now userId := by
  cases heffect with
  | unchanged _ => exact h
  | registered hinsert => exact (frozen_insertUser h hinsert).1
  | issued hinsert htoken =>
    obtain ⟨h₁, hne⟩ := frozen_insertUser h hinsert
    have hrow := AuthStore.insertToken_ok htoken
    refine ⟨hrow.users ▸ h₁.known, hrow.users ▸ h₁.disabled, ?_, ?_⟩
    · rw [HasSession, hrow.sessions]
      exact h₁.noSession
    · rintro ⟨t, ht, hid, hlive⟩
      rw [hrow.rows] at ht
      rcases List.mem_append.mp ht with ht | ht
      · exact h₁.noToken ⟨t, ht, hid, hlive⟩
      · cases List.mem_singleton.mp ht
        exact hne hid
  | @verified model token htoken hactive =>
    have hne : token.userId ≠ userId := by
      intro hid
      simp only [VerificationTokenRow.isActive, Bool.and_eq_true, decide_eq_true_eq,
        Option.isNone_iff_eq_none] at hactive
      exact h.noToken ⟨token, htoken, hid, hactive.1.2, hactive.2⟩
    have h₁ : Frozen (db.setUserStatus .active token.userId) now userId :=
      frozen_setUserStatus h (Or.inr hne)
    refine ⟨h₁.known, h₁.disabled, h₁.noSession, ?_⟩
    rintro ⟨t, ht, hid, hconsumed, hlive⟩
    rw [AuthStore.verified, AuthStore.consumeToken_rows] at ht
    obtain ⟨t₀, ht₀, rfl⟩ := List.mem_map.mp ht
    rw [AuthStore.withConsumed_userId] at hid
    rw [AuthStore.withConsumed_expiresAt] at hlive
    unfold AuthStore.withConsumed at hconsumed
    split at hconsumed
    · cases hconsumed
    · exact h.noToken ⟨t₀, ht₀, hid, hconsumed, hlive⟩
  | @opened _ _ _ user _ _ huser hactive hinsert =>
    have hne : user.id ≠ userId := by
      intro hid
      rw [h.disabled user huser hid] at hactive
      cases hactive
    have hrow := AuthStore.insertSession_ok hinsert
    refine ⟨hrow.users ▸ h.known, hrow.users ▸ h.disabled, ?_, ?_⟩
    · rintro ⟨s, hs, hid, hlive⟩
      rw [hrow.rows] at hs
      rcases List.mem_append.mp hs with hs | hs
      · exact h.noSession ⟨s, hs, hid, hlive⟩
      · cases List.mem_singleton.mp hs
        exact hne hid
    · rw [HasToken, hrow.tokens]
      exact h.noToken
  | closed _ =>
    refine ⟨h.known, h.disabled, ?_, h.noToken⟩
    rintro ⟨s, hs, hrest⟩
    exact h.noSession ⟨s, List.mem_of_mem_filter hs, hrest⟩
  | disabled id => exact frozen_setUserStatus h (Or.inl rfl)

end DisablingLemmas

open DisablingLemmas

/-- In every run that disables accounts only while they have no session and no
verification token outstanding, an account that has been disabled stays locked out, in
every state that the run reaches. -/
theorem disabled_final (d : Deployment) (c : Clocked) (before after : List AuthStep)
    (userId : String) (hclean : History.Along (authExec d) DisablesClean c
      (before ++ .disable userId :: after))
    (hknown : userId ∈ (authRun d c before).world.db.users.keys) :
    LockedOut (authRun d c (before ++ .disable userId :: after)) userId := by
  obtain ⟨_, ⟨hsession, htoken⟩, _⟩ := History.along_append.mp hclean
  have hdisabled : Frozen (authExec d (authRun d c before) (.disable userId)).world.db
      (authRun d c before).now userId := by
    refine ⟨?_, ?_, hsession, htoken⟩
    · exact (AuthStore.setUserStatus_keys _ _ _).symm ▸ hknown
    · intro user huser hid
      obtain ⟨user₀, _, rfl⟩ := List.mem_map.mp huser
      have hid₀ : user₀.id = userId :=
        (AuthStore.withUserStatus_id .disabled userId user₀).symm.trans hid
      show (AuthStore.withUserStatus .disabled userId user₀).status = .disabled
      rw [AuthStore.withUserStatus, if_pos hid₀]
  rw [authRun, History.run_append, History.run_cons]
  refine lockedOut ?_
  refine History.run_invariant (authExec d) (J := fun c => Frozen c.world.db c.now userId)
    hdisabled ?_
  intro c step _ h
  exact frozen_later (frozen_effect h (AuthRunLemmas.authExec_effect d c step))
    (AuthRunLemmas.authExec_now d c step)

/-- The account is verified, and disabled before it has logged in. -/
theorem disabled_final_sample :
    LockedOut (authRun (Sample.deployment .postgres) (.init 1782734400000000)
      ([Sample.signup, .verify Sample.verification] ++ .disable "01KW8WHA6STWW5N1VYRSHDTK70" ::
        [.verify Sample.verification, Sample.login, .advance 60000000]))
      "01KW8WHA6STWW5N1VYRSHDTK70" :=
  disabled_final _ _ _ _ _ (by decide +kernel) (by decide +kernel)

/-- A session that is open when the account is disabled goes on, and a verification token
that is outstanding activates the account again. -/
theorem disabled_not_final :
    ¬ LockedOut (authRun (Sample.deployment .postgres) (.init 1782734400000000)
      ([Sample.signup, .verify Sample.verification, Sample.login] ++
        .disable "01KW8WHA6STWW5N1VYRSHDTK70" :: [])) "01KW8WHA6STWW5N1VYRSHDTK70" ∧
    ¬ LockedOut (authRun (Sample.deployment .postgres) (.init 1782734400000000)
      ([Sample.signup] ++ .disable "01KW8WHA6STWW5N1VYRSHDTK70" ::
        [.verify Sample.verification])) "01KW8WHA6STWW5N1VYRSHDTK70" := by
  constructor
  · intro h
    exact h.2 "oss" 0 Sample.browser
      ⟨.user, "01KW8WHA6STWW5N1VYRSHDTK70", some "engineer@example.com", "oss"⟩
      (by decide +kernel) rfl
  · intro h
    exact h.1 ⟨"01KW8WHA6STWW5N1VYRSHDTK70", "engineer@example.com", "salt$correct horse", .active,
      some "oss"⟩ (by decide +kernel) rfl rfl

end LavsCore
