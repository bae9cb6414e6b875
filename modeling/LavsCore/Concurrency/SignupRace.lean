import LavsCore.Auth.Run
import LavsCore.Concurrency.AuthServers
import LavsCore.Lib.Outcomes

/-!
# One address, signed up several times at once

The availability check of a sign-up can be overtaken by another sign-up. Then the unique
key refuses the second row, and the driver of the engine says so in an exception of its
own: `register` catches those of DuckDB and PostgreSQL. With PyMySQL and pymssql the
exception escapes (`signup_race_escapes`). `signup_race_interleaved`: in every other
schedule exactly one call succeeds and all others end in the same `ConflictError`.
-/

namespace LavsCore

open AuthQuery

/-- A call of `register`. -/
structure SignupCall where
  env : AuthEnvironment
  model : SignupModel
  mint : SignupMint
  now : Py.Timestamp

/-- Calls that have just arrived, each at a process of its own. -/
def SignupCall.start (d : Deployment) (w : AuthWorld) (calls : List SignupCall) :
    AuthServers PUnit :=
  ⟨w, calls.map fun call => register d call.env call.model call.mint call.now⟩

/-- `register` catches what the driver raises for a duplicate key. -/
def BackendKind.catchesDuplicates (backend : BackendKind) : Bool :=
  (backend.raises (.unique "users")).isCaught

example : BackendKind.catchesDuplicates .postgres = true ∧
    BackendKind.catchesDuplicates .mysql = false := by decide

/-- A sign-up of the email as the service is set up for it: the domain is admitted, the
email fits its column, and the lifetime of the token is a number of seconds that leads to
a date. -/
structure SignupCall.Sound (d : Deployment) (email : String) (call : SignupCall) : Prop where
  sameEmail : call.model.email = email
  allowed : domainAllowed d.lower call.env email = true
  fits : d.backend.Fits email
  expires : ∃ ttlSeconds expiresAt, VerificationSettings.ttlSeconds call.env = .ok ttlSeconds ∧
    expiry call.now ttlSeconds = .ok expiresAt

/-- What the calls mint is new: no id and no digest of a token is in use or minted twice. -/
structure FreshMints (db : AuthStore) (mints : List SignupMint) : Prop where
  ids : (mints.map SignupMint.ulid).Nodup
  newIds : ∀ mint ∈ mints, mint.ulid ∉ db.users.keys
  digests : (mints.map fun mint => Py.sha256 mint.token.text).Nodup
  newDigests : ∀ mint ∈ mints, Py.sha256 mint.token.text ∉ db.tokens.keys

/-- The driver error of a duplicate is caught, or call `i` does not insert the email while
it is registered. -/
def NoEscape (d : Deployment) (email : String) (c : AuthServers PUnit) (i : Nat) : Prop :=
  c.label i = some .insertUser →
    d.backend.catchesDuplicates = true ∨ email ∉ c.state.db.emails

instance (d : Deployment) (email : String) (c : AuthServers PUnit) (i : Nat) :
    Decidable (NoEscape d email c i) :=
  inferInstanceAs (Decidable (_ → _))

/-! ## The protocol of a call -/

/-- How far a call has come. -/
inductive SignupStage where
  | idle | looked | inserted | issued | mailed | lost | escaped
  deriving DecidableEq

/-- A call by what it has minted, and its stage. -/
structure SignupPhase where
  mint : SignupMint
  stage : SignupStage

/-- The call has inserted its user. -/
def SignupStage.isWinner : SignupStage → Bool
  | .inserted | .issued | .mailed => true
  | _ => false

/-- The call has not tried to insert its user. -/
def SignupStage.isWaiting : SignupStage → Bool
  | .idle | .looked => true
  | _ => false

/-- The steps of a call for the email. -/
inductive SignupStep (d : Deployment) (email : String) :
    SignupPhase → AuthSql → AuthWorld → SignupPhase → AuthWorld → Prop
  | taken {mint : SignupMint} {w : AuthWorld} (htaken : email ∈ w.db.emails) :
      SignupStep d email ⟨mint, .idle⟩ .selectUserByEmail w ⟨mint, .lost⟩ w
  | free {mint : SignupMint} {w : AuthWorld} :
      SignupStep d email ⟨mint, .idle⟩ .selectUserByEmail w ⟨mint, .looked⟩ w
  | insert {mint : SignupMint} {w : AuthWorld} {row : UserRow} {db : AuthStore}
      (hid : row.id = mint.ulid) (hemail : row.email = email)
      (hinsert : w.db.insertUser d.backend row = .ok db) :
      SignupStep d email ⟨mint, .looked⟩ .insertUser w ⟨mint, .inserted⟩ { w with db := db }
  | conflict {mint : SignupMint} {w : AuthWorld}
      (hrefused : mint.ulid ∈ w.db.users.keys ∨ email ∈ w.db.emails) :
      SignupStep d email ⟨mint, .looked⟩ .insertUser w ⟨mint, .lost⟩ w
  | escape {mint : SignupMint} {w : AuthWorld}
      (hrefused : mint.ulid ∈ w.db.users.keys ∨ email ∈ w.db.emails)
      (huncaught : d.backend.catchesDuplicates = false) :
      SignupStep d email ⟨mint, .looked⟩ .insertUser w ⟨mint, .escaped⟩ w
  | issue {mint : SignupMint} {w : AuthWorld} {row : VerificationTokenRow} {db : AuthStore}
      (hhash : row.tokenHash = Py.sha256 mint.token.text)
      (hinsert : w.db.insertToken d.backend row = .ok db) :
      SignupStep d email ⟨mint, .inserted⟩ .insertToken w ⟨mint, .issued⟩ { w with db := db }
  | unissued {mint : SignupMint} {w : AuthWorld}
      (hrefused : Py.sha256 mint.token.text ∈ w.db.tokens.keys ∨ mint.ulid ∉ w.db.users.keys) :
      SignupStep d email ⟨mint, .inserted⟩ .insertToken w ⟨mint, .escaped⟩ w
  | send {mint : SignupMint} {w : AuthWorld} :
      SignupStep d email ⟨mint, .issued⟩ .send w ⟨mint, .mailed⟩
        { w with outbox := w.outbox ++ [verificationEmail email mint.token.text] }

/-- How a call ends in its phase. -/
def SignupEnd (q : SignupPhase) (r : Except AuthError PUnit) : Prop :=
  match q.stage with
  | .mailed => r = .ok ⟨⟩
  | .lost => r = .error (.conflict duplicateEmailMessage)
  | .escaped => True
  | _ => False

namespace SignupRaceLemmas

variable {d : Deployment} {email : String} {mint : SignupMint}

theorem assertEmailAvailable_keeps :
    (assertEmailAvailable email).Keeps (SignupStep d email) (fun _ => True)
      (fun q r => (q = ⟨mint, .looked⟩ ∧ r = .ok ⟨⟩) ∨
        (q = ⟨mint, .lost⟩ ∧ r = .error (.conflict duplicateEmailMessage))) ⟨mint, .idle⟩ := by
  unfold assertEmailAvailable
  refine Prog.keeps_bind (M := fun q r => (q = ⟨mint, .looked⟩ ∧ r = .ok []) ∨
    (q = ⟨mint, .lost⟩ ∧ ∃ user rest, r = .ok (user :: rest))) (Prog.keeps_query ?_) ?_ ?_
  · intro w _
    cases hfound : w.db.usersByEmail email with
    | nil => exact ⟨_, .free, Or.inl ⟨rfl, congrArg Except.ok hfound⟩⟩
    | cons user rest =>
      have htaken : email ∈ w.db.emails := by
        by_contra hnot
        rw [AuthStore.usersByEmail_eq_nil.mpr hnot] at hfound
        cases hfound
      exact ⟨_, .taken htaken, Or.inr ⟨rfl, user, rest, congrArg Except.ok hfound⟩⟩
  · rintro q' rows (⟨rfl, hrows⟩ | ⟨rfl, user, rest, hrows⟩)
    · cases hrows
      exact Or.inl ⟨rfl, rfl⟩
    · cases hrows
      exact Or.inr ⟨rfl, rfl⟩
  · rintro q' e (⟨_, h⟩ | ⟨_, _, _, h⟩)
    · cases h
    · cases h

/-- The driver error of a duplicate becomes the conflict, if it is caught. -/
theorem conflictOnDuplicate_raises {backend : BackendKind} {refusal : Refusal}
    (hrefusal : refusal = .primaryKey "users" ∨ refusal = .unique "users") :
    conflictOnDuplicate (.driver (backend.raises refusal)) =
      if backend.catchesDuplicates then .conflict duplicateEmailMessage
      else .driver (backend.raises refusal) := by
  rcases hrefusal with rfl | rfl <;> cases backend <;> rfl

theorem insertUser_keeps {row : UserRow} (hid : row.id = mint.ulid) (hemail : row.email = email)
    (hfits : d.backend.Fits email) :
    ((insert d.backend .insertUser fun db => db.insertUser d.backend row).mapError
      conflictOnDuplicate).Keeps (SignupStep d email) (fun _ => True)
      (fun q r => (q = ⟨mint, .inserted⟩ ∧ r = .ok ⟨⟩) ∨
        (q = ⟨mint, .lost⟩ ∧ r = .error (.conflict duplicateEmailMessage)) ∨
        (q = ⟨mint, .escaped⟩ ∧ ∃ e, r = .error e)) ⟨mint, .looked⟩ := by
  subst hemail
  refine Prog.keeps_mapError (Prog.keeps_atomically ?_ ?_)
  · intro w r _ hr
    split at hr
    · next db hdb =>
      cases hr
      exact ⟨_, .insert hid rfl hdb, Or.inl ⟨rfl, rfl⟩⟩
    · cases hr
  · intro w e _ he
    split at he
    · cases he
    · next refusal hrefused =>
      cases he
      have hkeys : mint.ulid ∈ w.db.users.keys ∨ row.email ∈ w.db.emails :=
        hid ▸ AuthStore.insertUser_refused hfits hrefused
      have herror :=
        @conflictOnDuplicate_raises d.backend _ (AuthStore.insertUser_error hfits hrefused)
      cases hcatches : d.backend.catchesDuplicates with
      | true =>
        refine ⟨_, .conflict hkeys, Or.inr (Or.inl ⟨rfl, ?_⟩)⟩
        rw [hcatches, if_pos rfl] at herror
        exact congrArg Except.error herror
      | false => exact ⟨_, .escape hkeys hcatches, Or.inr (Or.inr ⟨rfl, _, rfl⟩)⟩

theorem issueToken_keeps {ttlSeconds expiresAt : Int} {now : Py.Timestamp}
    (hexpiry : expiry now ttlSeconds = .ok expiresAt) :
    (issueToken d.backend mint ttlSeconds now).Keeps (SignupStep d email) (fun _ => True)
      (fun q r => (q = ⟨mint, .issued⟩ ∧ r = .ok ⟨⟩) ∨ (q = ⟨mint, .escaped⟩ ∧ ∃ e, r = .error e))
      ⟨mint, .inserted⟩ := by
  rw [issueToken, hexpiry]
  refine Prog.keeps_atomically ?_ ?_
  · intro w r _ hr
    split at hr
    · next db hdb =>
      cases hr
      exact ⟨_, .issue rfl hdb, Or.inl ⟨rfl, rfl⟩⟩
    · cases hr
  · intro w e _ he
    split at he
    · cases he
    · next refusal hrefused =>
      cases he
      exact ⟨_, .unissued (AuthStore.insertToken_refused hrefused), Or.inr ⟨rfl, _, rfl⟩⟩

theorem register_keeps {call : SignupCall} (hmailer : d.mailer = captureMailer)
    (h : call.Sound d email) :
    (register d call.env call.model call.mint call.now).Keeps (SignupStep d email)
      (fun _ => True) SignupEnd ⟨call.mint, .idle⟩ := by
  obtain ⟨env, model, mint, now⟩ := call
  obtain ⟨hemail, hallowed, hfits, ttlSeconds, expiresAt, httl, hexpiry⟩ := h
  dsimp only at hemail hallowed httl hexpiry ⊢
  subst hemail
  unfold register
  rw [assertDomainAllowed, if_pos hallowed]
  refine Prog.keeps_lift (a := PUnit.unit) rfl ?_
  refine Prog.keeps_bind assertEmailAvailable_keeps ?_ ?_
  · rintro q' _ (⟨rfl, _⟩ | ⟨_, h⟩)
    · refine Prog.keeps_bind (insertUser_keeps rfl rfl hfits) ?_ ?_
      · rintro q' _ (⟨rfl, _⟩ | ⟨_, h⟩ | ⟨_, _, h⟩)
        · refine Prog.keeps_lift httl (Prog.keeps_bind (issueToken_keeps hexpiry) ?_ ?_)
          · rintro q' _ (⟨rfl, _⟩ | ⟨_, _, h⟩)
            · refine Prog.keeps_atomically ?_ ?_
              · intro w r _ hr
                rw [hmailer] at hr
                cases hr
                exact ⟨_, .send, rfl⟩
              · intro w e _ he
                rw [hmailer] at he
                cases he
            · cases h
          · rintro q' e (⟨_, h⟩ | ⟨rfl, _⟩)
            · cases h
            · exact trivial
        · cases h
        · cases h
      · rintro q' e (⟨_, h⟩ | ⟨rfl, h⟩ | ⟨rfl, _⟩)
        · cases h
        · exact h
        · exact trivial
    · cases h
  · rintro q' e (⟨_, h⟩ | ⟨rfl, h⟩)
    · cases h
    · exact h

end SignupRaceLemmas

/-! ## The invariant -/

/-- What a call relies on: what it is going to insert is new, and its user exists when it
issues the token. No call has escaped. -/
structure SignupPhase.Holds (q : SignupPhase) (w : AuthWorld) : Prop where
  newId : q.stage.isWaiting = true → q.mint.ulid ∉ w.db.users.keys
  inserted : q.stage = .inserted → q.mint.ulid ∈ w.db.users.keys
  newDigest : q.stage.isWaiting = true ∨ q.stage = .inserted →
    Py.sha256 q.mint.token.text ∉ w.db.tokens.keys
  caught : q.stage ≠ .escaped

/-- The race is open: the email is not registered, and every call is waiting. -/
def RaceOpen (email : String) (outbox : List CapturedEmail) (w : AuthWorld)
    (phases : List SignupPhase) : Prop :=
  email ∉ w.db.emails ∧ w.outbox = outbox ∧ ∀ q ∈ phases, q.stage.isWaiting = true

/-- Call `k` has won the race: it has inserted the email, and only it sends a mail. -/
def WonBy (email : String) (outbox : List CapturedEmail) (w : AuthWorld)
    (phases : List SignupPhase) (k : Nat) : Prop :=
  ∃ q, phases[k]? = some q ∧ q.stage.isWinner = true ∧ email ∈ w.db.emails ∧
    (∀ j r, j ≠ k → phases[j]? = some r → r.stage.isWinner = false) ∧
      w.outbox = outbox ++
        if q.stage = .mailed then [verificationEmail email q.mint.token.text] else []

structure SignupInvariant (mints : List SignupMint) (email : String)
    (outbox : List CapturedEmail) (w : AuthWorld) (phases : List SignupPhase) : Prop where
  mints : phases.map SignupPhase.mint = mints
  holds : ∀ q ∈ phases, q.Holds w
  race : RaceOpen email outbox w phases ∨ ∃ k, WonBy email outbox w phases k

namespace SignupRaceLemmas

variable {d : Deployment} {email : String} {q q' : SignupPhase} {l : AuthSql} {w w' : AuthWorld}

theorem step_mint (h : SignupStep d email q l w q' w') : q'.mint = q.mint := by
  cases h <;> rfl

/-- A step adds no keys but those that its call has minted, and removes none. -/
theorem step_userKeys (h : SignupStep d email q l w q' w') (key : String) :
    (key ∈ w.db.users.keys → key ∈ w'.db.users.keys) ∧
      (key ∈ w'.db.users.keys → key ∈ w.db.users.keys ∨ key = q.mint.ulid) := by
  cases h with
  | insert hid _ hinsert =>
    have hrows := (AuthStore.insertUser_ok hinsert).rows
    simp only [Table.keys, hrows, List.map_append, List.mem_append, List.map_cons, List.map_nil,
      List.mem_singleton, hid]
    exact ⟨Or.inl, id⟩
  | issue _ hinsert =>
    dsimp only
    rw [(AuthStore.insertToken_ok hinsert).users]
    exact ⟨id, Or.inl⟩
  | _ => exact ⟨id, Or.inl⟩

theorem step_digests (h : SignupStep d email q l w q' w') (hash : String) :
    hash ∈ w'.db.tokens.keys →
      hash ∈ w.db.tokens.keys ∨ hash = Py.sha256 q.mint.token.text := by
  cases h with
  | insert _ _ hinsert =>
    dsimp only
    rw [(AuthStore.insertUser_ok hinsert).tokens]
    exact Or.inl
  | issue hhash hinsert =>
    have hrows := (AuthStore.insertToken_ok hinsert).rows
    simp only [Table.keys, hrows, List.map_append, List.mem_append, List.map_cons, List.map_nil,
      List.mem_singleton, VerificationTokenRow.stored, hhash]
    exact id
  | _ => exact Or.inl

/-- A step of another call, with other mints, breaks nothing that a call relies on. -/
theorem holds_stable {r : SignupPhase} (h : SignupStep d email q l w q' w')
    (hid : r.mint.ulid ≠ q.mint.ulid)
    (hdigest : Py.sha256 r.mint.token.text ≠ Py.sha256 q.mint.token.text) (hr : r.Holds w) :
    r.Holds w' := by
  refine ⟨?_, ?_, ?_, hr.caught⟩
  · intro hwaiting hmem
    exact ((step_userKeys h _).2 hmem).elim (hr.newId hwaiting) hid
  · intro hstage
    exact (step_userKeys h _).1 (hr.inserted hstage)
  · intro hstage hmem
    exact (step_digests h _ hmem).elim (hr.newDigest hstage) hdigest

/-- A call that neither waits for its insert nor for its token has nothing to keep. -/
theorem holds_of_done (hwaiting : q.stage.isWaiting = false) (hinserted : q.stage ≠ .inserted)
    (hcaught : q.stage ≠ .escaped) : q.Holds w := by
  have hnot : ¬ q.stage.isWaiting = true := by simp [hwaiting]
  exact ⟨fun h => absurd h hnot, fun h => absurd h hinserted,
    fun h => absurd h (not_or.mpr ⟨hnot, hinserted⟩), hcaught⟩

/-- A refused row has a user key in use: under the condition the call does not escape. -/
theorem step_holds (h : SignupStep d email q l w q' w')
    (hallowed : l = .insertUser → d.backend.catchesDuplicates = true ∨ email ∉ w.db.emails)
    (hq : q.Holds w) : q'.Holds w' := by
  cases h with
  | taken _ => exact holds_of_done rfl (by simp) (by simp)
  | free => exact ⟨hq.newId, by simp, fun _ => hq.newDigest (Or.inl rfl), by simp⟩
  | @insert mint _ row db hid _ hinsert =>
    refine ⟨fun h => absurd h Bool.false_ne_true, fun _ => ?_, fun _ => ?_, by simp⟩
    · have hmem : row.id ∈ db.users.keys := by
        rw [Table.keys, (AuthStore.insertUser_ok hinsert).rows]
        exact List.mem_map.mpr ⟨row, by simp, rfl⟩
      exact hid ▸ hmem
    · have hnew := hq.newDigest (Or.inl rfl)
      rwa [← (AuthStore.insertUser_ok hinsert).tokens] at hnew
  | conflict _ => exact holds_of_done rfl (by simp) (by simp)
  | escape hrefused huncaught =>
    rcases hallowed rfl with hcaught | hfree
    · rw [huncaught] at hcaught
      cases hcaught
    · exact absurd hrefused (not_or.mpr ⟨hq.newId rfl, hfree⟩)
  | issue _ _ => exact holds_of_done rfl (by simp) (by simp)
  | unissued hrefused =>
    exact absurd hrefused (not_or.mpr ⟨hq.newDigest (Or.inr rfl), not_not.mpr (hq.inserted rfl)⟩)
  | send => exact holds_of_done rfl (by simp) (by simp)

/-- A loser, or a call that is still waiting, leaves the winner in its place. -/
theorem wonBy_other {outbox : List CapturedEmail} {phases : List SignupPhase} {i k : Nat}
    (hi : phases[i]? = some q) (hq : q.stage.isWinner = false) (hq' : q'.stage.isWinner = false)
    (hemails : email ∈ w.db.emails → email ∈ w'.db.emails) (houtbox : w'.outbox = w.outbox)
    (h : WonBy email outbox w phases k) : WonBy email outbox w' (phases.set i q') k := by
  obtain ⟨winner, hk, hwinner, hmem, hothers, hsent⟩ := h
  have hne : i ≠ k := by
    rintro rfl
    rw [hi] at hk
    cases hk
    rw [hq] at hwinner
    cases hwinner
  refine ⟨winner, ?_, hwinner, hemails hmem, ?_, houtbox.trans hsent⟩
  · rw [List.getElem?_set_ne hne]
    exact hk
  · intro j r hj hr
    rcases eq_or_ne j i with rfl | hji
    · rw [List.getElem?_set_self (List.getElem?_eq_some_iff.mp hi).1] at hr
      cases hr
      exact hq'
    · rw [List.getElem?_set_ne (Ne.symm hji)] at hr
      exact hothers j r hj hr

/-- A step of the winner. -/
theorem wonBy_self {outbox : List CapturedEmail} {phases : List SignupPhase} {i k : Nat}
    (hi : phases[i]? = some q) (hq : q.stage.isWinner = true) (hq' : q'.stage.isWinner = true)
    (hemails : email ∈ w.db.emails → email ∈ w'.db.emails)
    (houtbox : ∀ sent, w.outbox = outbox ++ (if q.stage = .mailed then sent else []) →
      w'.outbox = outbox ++
        if q'.stage = .mailed then [verificationEmail email q'.mint.token.text] else [])
    (h : WonBy email outbox w phases k) : WonBy email outbox w' (phases.set i q') k := by
  obtain ⟨winner, hk, hwinner, hmem, hothers, hsent⟩ := h
  obtain rfl : i = k := by
    by_contra hne
    rw [hothers i q hne hi] at hq
    cases hq
  rw [hi] at hk
  cases hk
  refine ⟨q', List.getElem?_set_self (List.getElem?_eq_some_iff.mp hi).1, hq', hemails hmem, ?_,
    houtbox _ hsent⟩
  intro j r hj hr
  rw [List.getElem?_set_ne (Ne.symm hj)] at hr
  exact hothers j r hj hr

/-- The first insert of the email decides the race. -/
theorem race_step {outbox : List CapturedEmail} {phases : List SignupPhase} {i : Nat}
    (hi : phases[i]? = some q) (h : SignupStep d email q l w q' w') (hq : q.Holds w)
    (hq' : q'.Holds w')
    (hrace : RaceOpen email outbox w phases ∨ ∃ k, WonBy email outbox w phases k) :
    RaceOpen email outbox w' (phases.set i q') ∨ ∃ k, WonBy email outbox w' (phases.set i q') k := by
  have hlt := (List.getElem?_eq_some_iff.mp hi).1
  cases h with
  | taken htaken =>
    rcases hrace with ⟨hfree, _⟩ | ⟨k, hwon⟩
    · exact absurd htaken hfree
    · exact Or.inr ⟨k, wonBy_other hi rfl rfl id rfl hwon⟩
  | free =>
    rcases hrace with ⟨hfree, houtbox, hwaiting⟩ | ⟨k, hwon⟩
    · refine Or.inl ⟨hfree, houtbox, ?_⟩
      intro r hr
      rcases List.mem_or_eq_of_mem_set hr with hr | rfl
      · exact hwaiting r hr
      · rfl
    · exact Or.inr ⟨k, wonBy_other hi rfl rfl id rfl hwon⟩
  | @insert mint _ row db _ hemail hinsert =>
    have hrow := AuthStore.insertUser_ok hinsert
    rcases hrace with ⟨_, houtbox, hwaiting⟩ | ⟨k, _, _, _, hmem, _⟩
    · refine Or.inr ⟨i, ⟨mint, .inserted⟩, List.getElem?_set_self hlt, rfl, ?_, ?_, ?_⟩
      · rw [AuthStore.emails, hrow.rows, ← hemail]
        exact List.mem_map.mpr ⟨row, by simp, rfl⟩
      · intro j r hj hr
        rw [List.getElem?_set_ne (Ne.symm hj)] at hr
        have hwaits := hwaiting r (List.mem_of_getElem? hr)
        revert hwaits
        cases r.stage <;> simp [SignupStage.isWaiting, SignupStage.isWinner]
      · simpa using houtbox
    · exact absurd (hemail ▸ hmem) hrow.newEmail
  | conflict hrefused =>
    rcases hrace with ⟨hfree, _⟩ | ⟨k, hwon⟩
    · exact absurd hrefused (not_or.mpr ⟨hq.newId rfl, hfree⟩)
    · exact Or.inr ⟨k, wonBy_other hi rfl rfl id rfl hwon⟩
  | escape _ _ => exact absurd rfl hq'.caught
  | issue _ hinsert =>
    rcases hrace with ⟨_, _, hwaiting⟩ | ⟨k, hwon⟩
    · cases hwaiting _ (List.mem_of_getElem? hi)
    · refine Or.inr ⟨k, wonBy_self hi rfl rfl ?_ ?_ hwon⟩
      · rw [AuthStore.emails, AuthStore.emails, (AuthStore.insertToken_ok hinsert).users]
        exact id
      · intro _ hsent
        simpa using hsent
  | unissued _ => exact absurd rfl hq'.caught
  | send =>
    rcases hrace with ⟨_, _, hwaiting⟩ | ⟨k, hwon⟩
    · cases hwaiting _ (List.mem_of_getElem? hi)
    · refine Or.inr ⟨k, wonBy_self (w := w) hi rfl rfl id ?_ hwon⟩
      intro _ hsent
      simp only [reduceCtorEq, if_false, List.append_nil] at hsent
      simp [hsent]

/-- A column of the phases that a step leaves. -/
theorem map_set_of_eq {α : Type} {f : SignupPhase → α} {phases : List SignupPhase} {i : Nat}
    (hi : phases[i]? = some q) (hf : f q' = f q) : (phases.set i q').map f = phases.map f := by
  refine List.ext_getElem? fun j => ?_
  rw [List.getElem?_map, List.getElem?_map, List.getElem?_set]
  split
  · next heq =>
    subst heq
    obtain ⟨hlt, hget⟩ := List.getElem?_eq_some_iff.mp hi
    simp [hlt, hf, hget]
  · rfl

theorem invariant_step {mints : List SignupMint} (hids : (mints.map SignupMint.ulid).Nodup)
    (hdigests : (mints.map fun mint => Py.sha256 mint.token.text).Nodup)
    (outbox : List CapturedEmail) (c : AuthServers PUnit) (phases : List SignupPhase) (i : Nat)
    (l : AuthSql) (q q' : SignupPhase) (w' : AuthWorld)
    (h : Config.Moves (SignupStep d email) (NoEscape d email) c phases i l q q' w')
    (hinv : SignupInvariant mints email outbox c.state phases) :
    SignupInvariant mints email outbox w' (phases.set i q') := by
  obtain ⟨hlabel, hi, hallowed, hstep⟩ := h
  have hq := hinv.holds q (List.mem_of_getElem? hi)
  have hq' : q'.Holds w' := step_holds hstep (fun hl => hallowed (hl ▸ hlabel)) hq
  refine ⟨?_, ?_, race_step hi hstep hq hq' hinv.race⟩
  · rw [map_set_of_eq hi (step_mint hstep)]
    exact hinv.mints
  · intro r hr
    obtain ⟨j, hj⟩ := List.mem_iff_getElem?.mp hr
    rcases eq_or_ne j i with rfl | hji
    · rw [List.getElem?_set_self (List.getElem?_eq_some_iff.mp hi).1] at hj
      cases hj
      exact hq'
    · rw [List.getElem?_set_ne (Ne.symm hji)] at hj
      -- Another call has other mints.
      have hdiffer : ∀ f : SignupMint → String, (mints.map f).Nodup → f r.mint ≠ f q.mint := by
        intro f hnodup heq
        rw [← hinv.mints, List.map_map] at hnodup
        have hget : ∀ {k : Nat} {p : SignupPhase}, phases[k]? = some p →
            (phases.map (f ∘ SignupPhase.mint))[k]? = some (f p.mint) := by
          intro k p hk
          rw [List.getElem?_map, hk]
          rfl
        refine hji ((List.getElem?_inj ?_ hnodup).mp ((hget hj).trans (heq ▸ (hget hi).symm)))
        exact (List.getElem?_eq_some_iff.mp (hget hj)).1
      exact holds_stable hstep (hdiffer SignupMint.ulid hids)
        (hdiffer (fun mint => Py.sha256 mint.token.text) hdigests)
        (hinv.holds r (List.mem_of_getElem? hj))

/-- A call that ends without an escape has mailed, or has lost. -/
theorem end_cases {q : SignupPhase} {w : AuthWorld} {r : Except AuthError PUnit}
    (hend : SignupEnd q r) (hq : q.Holds w) :
    (q.stage = .mailed ∧ r = .ok ⟨⟩) ∨
      (q.stage = .lost ∧ r = .error (.conflict duplicateEmailMessage)) := by
  obtain ⟨mint, stage⟩ := q
  cases stage with
  | mailed => exact Or.inl ⟨rfl, hend⟩
  | lost => exact Or.inr ⟨rfl, hend⟩
  | escaped => exact absurd rfl hq.caught
  | idle => exact False.elim hend
  | looked => exact False.elim hend
  | inserted => exact False.elim hend
  | issued => exact False.elim hend

end SignupRaceLemmas

open SignupRaceLemmas

/-! ## Every interleaving -/

/-- What the race of sign-ups for one email must end in: exactly one user has the email,
exactly one call succeeds, every other call ends in the generic conflict, and the only
mail sent is that of the call that succeeds. -/
def OneSignup (email : String) (outbox : List CapturedEmail) (calls : List SignupCall)
    (c : AuthServers PUnit) : Prop :=
  (c.state.db.usersByEmail email).length = 1 ∧
    ∃ k call, calls[k]? = some call ∧ c.outcome k = some (.ok ⟨⟩) ∧
      (∀ j < calls.length, j ≠ k →
        c.outcome j = some (.error (.conflict duplicateEmailMessage))) ∧
      c.state.outbox = outbox ++ [verificationEmail email call.mint.token.text]

theorem not_oneSignup_of_driver {email : String} {outbox : List CapturedEmail}
    {calls : List SignupCall} {c : AuthServers PUnit} {i : Nat} {error : DriverError}
    (hi : i < calls.length) (hescaped : c.outcome i = some (.error (.driver error))) :
    ¬ OneSignup email outbox calls c := by
  rintro ⟨_, k, _, _, hwon, hothers, _⟩
  rcases eq_or_ne i k with rfl | hne
  · cases hescaped.symm.trans hwon
  · cases hescaped.symm.trans (hothers i hi hne)

/-- On every engine, for any number of sign-ups of one email that is not registered: in
every interleaving in which no duplicate escapes, once all calls have ended exactly one has
succeeded. The calls mint fresh ids and tokens, and the mailer is the one the lifespan
installs. -/
theorem signup_race_interleaved (d : Deployment) (w : AuthWorld) (email : String)
    (calls : List SignupCall) (schedule : List Nat) (hmailer : d.mailer = captureMailer)
    (hcalls : calls ≠ []) (hsound : ∀ call ∈ calls, call.Sound d email)
    (hfree : email ∉ w.db.emails) (hfresh : FreshMints w.db (calls.map SignupCall.mint))
    (hescape : (SignupCall.start d w calls).Along (NoEscape d email) schedule)
    (hfinished : ((SignupCall.start d w calls).exec schedule).Finished) :
    OneSignup email w.outbox calls ((SignupCall.start d w calls).exec schedule) := by
  have hstart : (SignupCall.start d w calls).KeepsPhases (SignupStep d email) (fun _ => True)
      SignupEnd (calls.map fun call => ⟨call.mint, .idle⟩) := by
    refine List.forall₂_map_left_iff.mpr (List.forall₂_map_right_iff.mpr ?_)
    exact List.forall₂_same.mpr fun call hcall => register_keeps hmailer (hsound call hcall)
  have hinv : SignupInvariant (calls.map SignupCall.mint) email w.outbox w
      (calls.map fun call => ⟨call.mint, .idle⟩) := by
    refine ⟨by simp [Function.comp_def], ?_, Or.inl ⟨hfree, rfl, by simp [SignupStage.isWaiting]⟩⟩
    intro q hq
    obtain ⟨call, hcall, rfl⟩ := List.mem_map.mp hq
    have hmint : call.mint ∈ calls.map SignupCall.mint := List.mem_map_of_mem hcall
    exact ⟨fun _ => hfresh.newIds _ hmint, nofun, fun _ => hfresh.newDigests _ hmint, nofun⟩
  obtain ⟨phases, hphases, hends⟩ := Config.exec_keeps (fun _ _ _ => trivial)
    (invariant_step hfresh.ids hfresh.digests w.outbox) schedule hstart hinv hescape
  have hended : ∀ j q, phases[j]? = some q →
      (q.stage = .mailed ∧
        ((SignupCall.start d w calls).exec schedule).outcome j = some (.ok ⟨⟩)) ∨
      (q.stage = .lost ∧ ((SignupCall.start d w calls).exec schedule).outcome j =
        some (.error (.conflict duplicateEmailMessage))) := by
    intro j q hj
    obtain ⟨r, houtcome, hend⟩ := hphases.outcome hfinished hj
    rw [houtcome]
    rcases end_cases hend (hends.holds q (List.mem_of_getElem? hj)) with ⟨hstage, rfl⟩ | ⟨hstage, rfl⟩
    · exact Or.inl ⟨hstage, rfl⟩
    · exact Or.inr ⟨hstage, rfl⟩
  have hlength : phases.length = calls.length := by
    simpa using congrArg List.length hends.mints
  rcases hends.race with ⟨_, _, hwaiting⟩ | ⟨k, q, hk, hwinner, hmem, hothers, houtbox⟩
  · -- No call has ended before the race is decided.
    obtain ⟨q, hq⟩ := List.exists_mem_of_ne_nil phases fun hnil => by
      rw [hnil] at hlength
      exact hcalls (List.eq_nil_of_length_eq_zero hlength.symm)
    obtain ⟨j, hj⟩ := List.mem_iff_getElem?.mp hq
    have hwaits := hwaiting q hq
    rcases hended j q hj with ⟨hstage, _⟩ | ⟨hstage, _⟩ <;> rw [hstage] at hwaits <;> cases hwaits
  · have hmailed : q.stage = .mailed ∧
        ((SignupCall.start d w calls).exec schedule).outcome k = some (.ok ⟨⟩) := by
      rcases hended k q hk with h | ⟨hstage, _⟩
      · exact h
      · rw [hstage] at hwinner
        cases hwinner
    have hmint : (calls.map SignupCall.mint)[k]? = some q.mint := by
      rw [← hends.mints, List.getElem?_map, hk]
      rfl
    rw [List.getElem?_map] at hmint
    obtain ⟨call, hcall, hcallMint⟩ := Option.map_eq_some_iff.mp hmint
    refine ⟨?_, k, call, hcall, hmailed.2, ?_, ?_⟩
    · refine le_antisymm (AuthStore.length_usersByEmail_le _ _) (List.length_pos_iff.mpr ?_)
      exact fun hnil => AuthStore.usersByEmail_eq_nil.mp hnil hmem
    · intro j hj hne
      obtain ⟨r, hr⟩ : ∃ r, phases[j]? = some r :=
        ⟨_, List.getElem?_eq_getElem (hlength ▸ hj)⟩
      have hloser := hothers j r hne hr
      rcases hended j r hr with ⟨hstage, _⟩ | ⟨_, houtcome⟩
      · rw [hstage] at hloser
        cases hloser
      · exact houtcome
    · rw [houtbox, if_pos hmailed.1, hcallMint]

namespace Sample

theorem rival_ne : "rival" ≠ "" := by decide

def rivalToken : Token := ⟨"rival", rival_ne⟩

/-- Two sign-ups of the account, each with mints of its own. -/
def racers : List SignupCall :=
  [⟨unset, account, ⟨"01KW8WHA6STWW5N1VYRSHDTK70", "salt", mailed⟩, 1782734400000000⟩,
    ⟨unset, account, ⟨"01KW8WHA6STWW5N1VYRSHDTK71", "pepper", rivalToken⟩, 1782734400000001⟩]

/-- Both racers look before either inserts, and the second inserts first. -/
def overtaking : List Nat := [0, 1, 1, 0, 1, 1]

theorem racers_sound (backend : BackendKind) (hfits : backend.Fits account.email) :
    ∀ call ∈ racers, call.Sound (deployment backend) account.email := by
  intro call hcall
  simp only [racers, List.mem_cons, List.not_mem_nil, or_false] at hcall
  rcases hcall with rfl | rfl
  · exact ⟨rfl, rfl, hfits, 86400, 1782820800000000, rfl, by decide +kernel⟩
  · exact ⟨rfl, rfl, hfits, 86400, 1782820800000001, rfl, by decide +kernel⟩

theorem racers_fresh : FreshMints .empty (racers.map SignupCall.mint) :=
  ⟨by decide, by decide, by decide +kernel, by decide +kernel⟩

end Sample

/-- On PostgreSQL the racer that inserts second ends in the conflict. -/
theorem signup_race_interleaved_sample :
    OneSignup "engineer@example.com" [] Sample.racers
      ((SignupCall.start (Sample.deployment .postgres) ⟨.empty, []⟩ Sample.racers).exec
        Sample.overtaking) :=
  signup_race_interleaved (Sample.deployment .postgres) ⟨.empty, []⟩ "engineer@example.com"
    Sample.racers Sample.overtaking rfl (by decide) (Sample.racers_sound .postgres (by decide))
    (by decide) Sample.racers_fresh (by decide +kernel) (by decide +kernel)

/-- On MySQL and on SQL Server the same schedule lets the exception of the driver out. -/
theorem signup_race_escapes :
    (((SignupCall.start (Sample.deployment .mysql) ⟨.empty, []⟩ Sample.racers).exec
        Sample.overtaking).outcome 0 = some (.error (.driver .pymysqlIntegrityError)) ∧
      ¬ OneSignup "engineer@example.com" [] Sample.racers
        ((SignupCall.start (Sample.deployment .mysql) ⟨.empty, []⟩ Sample.racers).exec
          Sample.overtaking)) ∧
    ((SignupCall.start (Sample.deployment .mssql) ⟨.empty, []⟩ Sample.racers).exec
        Sample.overtaking).outcome 0 = some (.error (.driver .pymssqlIntegrityError)) ∧
      ¬ OneSignup "engineer@example.com" [] Sample.racers
        ((SignupCall.start (Sample.deployment .mssql) ⟨.empty, []⟩ Sample.racers).exec
          Sample.overtaking) := by
  have hmysql : ((SignupCall.start (Sample.deployment .mysql) ⟨.empty, []⟩ Sample.racers).exec
      Sample.overtaking).outcome 0 = some (.error (.driver .pymysqlIntegrityError)) := by
    decide +kernel
  have hmssql : ((SignupCall.start (Sample.deployment .mssql) ⟨.empty, []⟩ Sample.racers).exec
      Sample.overtaking).outcome 0 = some (.error (.driver .pymssqlIntegrityError)) := by
    decide +kernel
  exact ⟨⟨hmysql, not_oneSignup_of_driver (i := 0) (by decide) hmysql⟩,
    hmssql, not_oneSignup_of_driver (i := 0) (by decide) hmssql⟩

end LavsCore
