import LavsCore.Auth.Store

/-!
# What the auth statements do

One lemma for each `INSERT`: the row was admitted by the constraints, it is the last row
of its table, and the other tables are as before. The updates and the deletion touch one
table by definition.
-/

namespace LavsCore

namespace AuthStore

variable {db db' : AuthStore}

/-! ## Inserts -/

structure UserInserted (db : AuthStore) (backend : BackendKind) (row : UserRow) (db' : AuthStore) :
    Prop where
  fits : backend.Fits row.email
  fresh : row.id ∉ db.users.keys
  newEmail : row.email ∉ db.emails
  rows : db'.users.rows = db.users.rows ++ [row]
  sessions : db'.sessions = db.sessions
  tokens : db'.tokens = db.tokens

theorem insertUser_ok {backend : BackendKind} {row : UserRow}
    (h : db.insertUser backend row = .ok db') : UserInserted db backend row db' := by
  unfold insertUser at h
  split at h
  · next hfits =>
    split at h
    · cases h
    · next hid =>
      split at h
      · cases h
      · next hemail =>
        cases h
        exact ⟨hfits, hid, hemail, rfl, rfl, rfl⟩
  · cases h

theorem insertUser_isOk {backend : BackendKind} {row : UserRow} (hfits : backend.Fits row.email)
    (hid : row.id ∉ db.users.keys) (hemail : row.email ∉ db.emails) :
    ∃ db', db.insertUser backend row = .ok db' := by
  unfold insertUser
  rw [if_pos hfits, dif_neg hid, dif_neg hemail]
  exact ⟨_, rfl⟩

/-- An email that fits its column is refused for a key only. -/
theorem insertUser_error {backend : BackendKind} {row : UserRow} {refusal : Refusal}
    (hfits : backend.Fits row.email) (h : db.insertUser backend row = .error refusal) :
    refusal = .primaryKey "users" ∨ refusal = .unique "users" := by
  unfold insertUser at h
  rw [if_pos hfits] at h
  split at h
  · cases h
    exact Or.inl rfl
  · split at h
    · cases h
      exact Or.inr rfl
    · cases h

/-- What refuses an email that fits is a key that is in use. -/
theorem insertUser_refused {backend : BackendKind} {row : UserRow} {refusal : Refusal}
    (hfits : backend.Fits row.email) (h : db.insertUser backend row = .error refusal) :
    row.id ∈ db.users.keys ∨ row.email ∈ db.emails := by
  by_contra hnone
  obtain ⟨hid, hemail⟩ := not_or.mp hnone
  obtain ⟨db', hdb'⟩ := insertUser_isOk hfits hid hemail
  cases hdb'.symm.trans h

structure SessionInserted (db : AuthStore) (backend : BackendKind) (row : SessionRow)
    (db' : AuthStore) : Prop where
  fresh : row.id ∉ db.sessions.keys
  user : row.userId ∈ db.users.keys
  rows : db'.sessions.rows = db.sessions.rows ++ [row.stored backend]
  users : db'.users = db.users
  tokens : db'.tokens = db.tokens

theorem insertSession_ok {backend : BackendKind} {row : SessionRow}
    (h : db.insertSession backend row = .ok db') : SessionInserted db backend row db' := by
  unfold insertSession at h
  split at h
  · cases h
  · next hid =>
    split at h
    · next huser =>
      cases h
      exact ⟨hid, huser, rfl, rfl, rfl⟩
    · cases h

theorem insertSession_isOk {backend : BackendKind} {row : SessionRow}
    (hid : row.id ∉ db.sessions.keys) (huser : row.userId ∈ db.users.keys) :
    ∃ db', db.insertSession backend row = .ok db' := by
  unfold insertSession
  rw [dif_neg hid, dif_pos huser]
  exact ⟨_, rfl⟩

structure TokenInserted (db : AuthStore) (backend : BackendKind) (row : VerificationTokenRow)
    (db' : AuthStore) : Prop where
  fresh : row.tokenHash ∉ db.tokens.keys
  user : row.userId ∈ db.users.keys
  rows : db'.tokens.rows = db.tokens.rows ++ [row.stored backend]
  users : db'.users = db.users
  sessions : db'.sessions = db.sessions

theorem insertToken_ok {backend : BackendKind} {row : VerificationTokenRow}
    (h : db.insertToken backend row = .ok db') : TokenInserted db backend row db' := by
  unfold insertToken at h
  split at h
  · cases h
  · next hkey =>
    split at h
    · next huser =>
      cases h
      exact ⟨hkey, huser, rfl, rfl, rfl⟩
    · cases h

theorem insertToken_isOk {backend : BackendKind} {row : VerificationTokenRow}
    (hkey : row.tokenHash ∉ db.tokens.keys) (huser : row.userId ∈ db.users.keys) :
    ∃ db', db.insertToken backend row = .ok db' := by
  unfold insertToken
  rw [dif_neg hkey, dif_pos huser]
  exact ⟨_, rfl⟩

theorem insertToken_refused {backend : BackendKind} {row : VerificationTokenRow}
    {refusal : Refusal} (h : db.insertToken backend row = .error refusal) :
    row.tokenHash ∈ db.tokens.keys ∨ row.userId ∉ db.users.keys := by
  by_contra hnone
  obtain ⟨hkey, huser⟩ := not_or.mp hnone
  obtain ⟨db', hdb'⟩ := insertToken_isOk hkey (not_not.mp huser)
  cases hdb'.symm.trans h

/-! ## Updates -/

/-- What `setUserStatus` does to one row. -/
def withUserStatus (status : UserStatus) (id : String) (u : UserRow) : UserRow :=
  if u.id = id then { u with status := status } else u

@[simp] theorem withUserStatus_id (status : UserStatus) (id : String) (u : UserRow) :
    (withUserStatus status id u).id = u.id := by
  unfold withUserStatus
  split <;> rfl

@[simp] theorem withUserStatus_email (status : UserStatus) (id : String) (u : UserRow) :
    (withUserStatus status id u).email = u.email := by
  unfold withUserStatus
  split <;> rfl

@[simp] theorem withUserStatus_passwordHash (status : UserStatus) (id : String) (u : UserRow) :
    (withUserStatus status id u).passwordHash = u.passwordHash := by
  unfold withUserStatus
  split <;> rfl

@[simp] theorem setUserStatus_rows (db : AuthStore) (status : UserStatus) (id : String) :
    (db.setUserStatus status id).users.rows = db.users.rows.map (withUserStatus status id) := rfl

@[simp] theorem setUserStatus_keys (db : AuthStore) (status : UserStatus) (id : String) :
    (db.setUserStatus status id).users.keys = db.users.keys := by
  simp [setUserStatus]

@[simp] theorem setUserStatus_emails (db : AuthStore) (status : UserStatus) (id : String) :
    (db.setUserStatus status id).emails = db.emails := by
  simp [emails]

/-- What `consumeToken` does to one row. -/
def withConsumed (tokenHash : String) (now : Py.Timestamp) (t : VerificationTokenRow) :
    VerificationTokenRow :=
  if t.tokenHash = tokenHash then { t with consumedAt := some now } else t

@[simp] theorem consumeToken_rows (db : AuthStore) (tokenHash : String) (now : Py.Timestamp) :
    (db.consumeToken tokenHash now).tokens.rows =
      db.tokens.rows.map (withConsumed tokenHash now) := rfl

@[simp] theorem withConsumed_tokenHash (tokenHash : String) (now : Py.Timestamp)
    (t : VerificationTokenRow) : (withConsumed tokenHash now t).tokenHash = t.tokenHash := by
  unfold withConsumed
  split <;> rfl

@[simp] theorem withConsumed_userId (tokenHash : String) (now : Py.Timestamp)
    (t : VerificationTokenRow) : (withConsumed tokenHash now t).userId = t.userId := by
  unfold withConsumed
  split <;> rfl

@[simp] theorem withConsumed_expiresAt (tokenHash : String) (now : Py.Timestamp)
    (t : VerificationTokenRow) : (withConsumed tokenHash now t).expiresAt = t.expiresAt := by
  unfold withConsumed
  split <;> rfl

/-! ## Reads -/

theorem mem_usersByEmail {email : String} {u : UserRow} :
    u ∈ db.usersByEmail email ↔ u ∈ db.users.rows ∧ u.email = email := by
  simp [usersByEmail]

theorem usersByEmail_eq_nil {email : String} : db.usersByEmail email = [] ↔ email ∉ db.emails := by
  rw [List.eq_nil_iff_forall_not_mem, emails, List.mem_map]
  simp only [mem_usersByEmail, not_exists, not_and]

/-- The email is a key: no second row has it. -/
theorem length_usersByEmail_le (db : AuthStore) (email : String) :
    (db.usersByEmail email).length ≤ 1 := by
  have hnodup : ((db.usersByEmail email).map UserRow.email).Nodup :=
    db.email_unique.sublist (List.filter_sublist.map UserRow.email)
  have hall : ∀ e ∈ (db.usersByEmail email).map UserRow.email, e = email := by
    intro e he
    obtain ⟨u, hu, rfl⟩ := List.mem_map.mp he
    exact (mem_usersByEmail.mp hu).2
  rw [List.eq_replicate_of_mem hall, List.length_map] at hnodup
  exact List.nodup_replicate.mp hnodup

end AuthStore

end LavsCore
