import LavsCore.Auth.Run
import LavsCore.Concurrency.AuthServers

/-!
# One verification token, presented several times at once

A verification finds the token, activates the user and consumes the token, in three
statements. Two that find the token before either has consumed it both return the user
(`verified_twice`). `single_use_interleaved`: if every lookup runs while no other call
stands between its lookup and its consumption, at most one call returns a user.
-/

namespace LavsCore

open AuthQuery

/-- A verification, with the clock at its lookup and at its consumption. -/
structure VerifyCall where
  foundAt : Py.Timestamp
  consumedAt : Py.Timestamp

/-- Calls with one token that have just arrived, each at a server of its own. -/
def VerifyCall.start (w : AuthWorld) (model : VerifyModel) (calls : List VerifyCall) :
    AuthServers UserResponseModel :=
  ⟨w, calls.map fun call => verify model call.foundAt call.consumedAt⟩

/-- The statements of a call that has found the token and not consumed it yet. -/
def AuthSql.consumes : AuthSql → Bool
  | .activateUser | .consume => true
  | _ => false

/-- Call `i` stands between its lookup and its consumption. -/
def HoldsToken (c : AuthServers UserResponseModel) (i : Nat) : Prop :=
  ∃ l ∈ c.label i, l.consumes = true

instance (c : AuthServers UserResponseModel) (i : Nat) : Decidable (HoldsToken c i) :=
  inferInstanceAs (Decidable (∃ l ∈ c.label i, l.consumes = true))

/-- The next step of call `i` looks the token up only if no other call is in between. -/
def FindsAlone (c : AuthServers UserResponseModel) (i : Nat) : Prop :=
  c.label i = some .findActive → ∀ j < c.procs.length, j ≠ i → ¬ HoldsToken c j

instance (c : AuthServers UserResponseModel) (i : Nat) : Decidable (FindsAlone c i) :=
  inferInstanceAs (Decidable (_ → _))

/-! ## The protocol of a call -/

/-- Where a call stands. -/
inductive VerifyPhase where
  | idle | found | activated | consumed
  deriving DecidableEq

/-- The steps of a call on the token with a hash. -/
inductive VerifyStep (tokenHash : String) :
    VerifyPhase → AuthSql → AuthWorld → VerifyPhase → AuthWorld → Prop
  | miss {w : AuthWorld} : VerifyStep tokenHash .idle .findActive w .idle w
  | find {w : AuthWorld} {t : VerificationTokenRow} (ht : t ∈ w.db.tokens.rows)
      (hhash : t.tokenHash = tokenHash) (hconsumed : t.consumedAt = none) :
      VerifyStep tokenHash .idle .findActive w .found w
  | activate {w : AuthWorld} (userId : String) :
      VerifyStep tokenHash .found .activateUser w .activated
        { w with db := w.db.setUserStatus .active userId }
  | consume {w : AuthWorld} (now : Py.Timestamp) :
      VerifyStep tokenHash .activated .consume w .consumed
        { w with db := w.db.consumeToken tokenHash now }
  | read {w : AuthWorld} : VerifyStep tokenHash .consumed .selectUserById w .consumed w

/-- A call that returns a user has consumed the token. -/
def VerifyEnd (q : VerifyPhase) (_ : UserResponseModel) : Prop := q = .consumed

/-- No row of the token is left to be found. -/
def Spent (tokenHash : String) (db : AuthStore) : Prop :=
  ∀ t ∈ db.tokens.rows, t.tokenHash = tokenHash → t.consumedAt ≠ none

/-- At most one call has found the token, and if it has consumed it, the token is spent. -/
def OneHolder (tokenHash : String) (w : AuthWorld) (phases : List (Option VerifyPhase)) : Prop :=
  (∀ (i j : Nat) (q q' : VerifyPhase), phases[i]? = some (some q) → phases[j]? = some (some q') →
    q ≠ .idle → q' ≠ .idle → i = j) ∧
  (some .consumed ∈ phases → Spent tokenHash w.db)

namespace VerifyRaceLemmas

theorem verify_follows (model : VerifyModel) (call : VerifyCall) :
    (verify model call.foundAt call.consumedAt).Follows (VerifyStep (Py.sha256 model.token))
      (fun _ => True) VerifyEnd .idle := by
  unfold verify
  refine Prog.follows_bind
    (M := fun q' rows => (rows = [] ∧ q' = .idle) ∨ q' = .found) (follows_select ?_) ?_
  · intro w _
    cases hfound : w.db.findActive (Py.sha256 model.token) call.foundAt with
    | nil => exact ⟨.idle, .miss, Or.inl ⟨rfl, rfl⟩⟩
    | cons t rest =>
      obtain ⟨ht, hactive⟩ := List.mem_filter.mp
        (hfound ▸ List.mem_cons_self : t ∈ w.db.findActive (Py.sha256 model.token) call.foundAt)
      simp only [VerificationTokenRow.isActive, Bool.and_eq_true, decide_eq_true_eq,
        Option.isNone_iff_eq_none] at hactive
      exact ⟨.found, .find ht hactive.1.1 hactive.1.2, Or.inr rfl⟩
  · rintro q' rows h
    cases rows with
    | nil => exact Prog.follows_raise _ _
    | cons token rest =>
      obtain rfl : q' = .found := h.resolve_left fun h => List.cons_ne_nil _ _ h.1
      refine Prog.follows_bind (follows_execute fun w _ => .activate token.userId) ?_
      rintro q' _ rfl
      refine Prog.follows_bind (follows_execute fun w _ => .consume call.consumedAt) ?_
      rintro q' _ rfl
      refine Prog.follows_bind (M := fun q' _ => q' = .consumed)
        (follows_select fun w _ => ⟨.consumed, .read, rfl⟩) ?_
      rintro q' users rfl
      cases users with
      | nil => exact Prog.follows_raise _ _
      | cons user rest => exact rfl

theorem verify_raisesOnly (model : VerifyModel) (call : VerifyCall) :
    (verify model call.foundAt call.consumedAt).RaisesOnly
      (fun e => e = .notFound invalidTokenMessage) := by
  unfold verify
  refine Prog.raisesOnly_bind (Prog.raisesOnly_query _ _) ?_
  rintro (_ | ⟨token, rest⟩)
  · exact rfl
  refine Prog.raisesOnly_bind (raisesOnly_execute _ _) fun _ => ?_
  refine Prog.raisesOnly_bind (raisesOnly_execute _ _) fun _ => ?_
  refine Prog.raisesOnly_bind (Prog.raisesOnly_query _ _) ?_
  rintro (_ | ⟨user, rest⟩)
  · exact rfl
  · exact trivial

variable {tokenHash : String} {w w' : AuthWorld} {q q' : VerifyPhase} {l : AuthSql}

theorem spent_consumeToken (db : AuthStore) (now : Py.Timestamp) :
    Spent tokenHash (db.consumeToken tokenHash now) := by
  intro t ht hhash
  rw [AuthStore.consumeToken_rows] at ht
  obtain ⟨t₀, _, rfl⟩ := List.mem_map.mp ht
  rw [AuthStore.withConsumed_tokenHash] at hhash
  rw [AuthStore.withConsumed, if_pos hhash]
  exact Option.some_ne_none now

/-- A token that is spent stays spent. -/
theorem step_spent (h : VerifyStep tokenHash q l w q' w') (hspent : Spent tokenHash w.db) :
    Spent tokenHash w'.db := by
  cases h with
  | miss => exact hspent
  | find _ _ _ => exact hspent
  | activate userId => exact hspent
  | consume now => exact spent_consumeToken _ now
  | read => exact hspent

/-- The consumption spends the token. -/
theorem step_consumes (h : VerifyStep tokenHash q l w .consumed w')
    (hold : q = .consumed → Spent tokenHash w.db) : Spent tokenHash w'.db := by
  cases h with
  | consume now => exact spent_consumeToken _ now
  | read => exact hold rfl

/-- A call that has found the token and not consumed it is about to. -/
theorem holdsToken_of_phase {c : AuthServers UserResponseModel}
    {phases : List (Option VerifyPhase)}
    (hc : c.InPhases (VerifyStep tokenHash) (fun _ => True) VerifyEnd phases) {j : Nat}
    {r : VerifyPhase} (hj : phases[j]? = some (some r)) (hr : r = .found ∨ r = .activated) :
    j < c.procs.length ∧ HoldsToken c j := by
  obtain ⟨hlt, l, q', s', hlabel, hstep⟩ := hc.label_of_phase trivial hj
    (fun _ hend => by rcases hr with rfl | rfl <;> cases hend)
  refine ⟨hlt, l, hlabel, ?_⟩
  cases hstep with
  | miss => rcases hr with h | h <;> cases h
  | find _ _ _ => rcases hr with h | h <;> cases h
  | activate _ => rfl
  | consume _ => rfl
  | read => rcases hr with h | h <;> cases h

/-- A call that is past its lookup after a step is the only one. -/
theorem others_idle {c : AuthServers UserResponseModel} {phases : List (Option VerifyPhase)}
    {i : Nat} {w' : AuthWorld}
    (h : Config.Takes (VerifyStep tokenHash) (fun _ => True) VerifyEnd FindsAlone c phases i l q q'
      w') (hinv : OneHolder tokenHash c.state phases) (hq' : q' ≠ .idle) {j : Nat} (hne : j ≠ i)
    {r : VerifyPhase} (hj : phases[j]? = some (some r)) : r = .idle := by
  by_contra hr
  by_cases hq : q = .idle
  · -- The step is a lookup that finds the token, so no other call holds it or has spent it.
    obtain ⟨hinPhases, hlabel, _, hallowed, hstep⟩ := h
    subst hq
    cases hstep with
    | miss => exact hq' rfl
    | find ht hhash hconsumed =>
      have hheld : r = .found ∨ r = .activated → False := by
        intro hheld
        obtain ⟨hlt, hholds⟩ := holdsToken_of_phase hinPhases hj hheld
        exact hallowed hlabel j hlt hne hholds
      cases r with
      | idle => exact hr rfl
      | found => exact hheld (Or.inl rfl)
      | activated => exact hheld (Or.inr rfl)
      | consumed => exact hinv.2 (List.mem_of_getElem? hj) _ ht hhash hconsumed
  · exact hne (hinv.1 j i r q hj h.phase hr hq)

/-- A step under the condition keeps the invariant. -/
theorem oneHolder_step (c : AuthServers UserResponseModel) (phases : List (Option VerifyPhase))
    (i : Nat) (l : AuthSql) (q q' : VerifyPhase) (w' : AuthWorld)
    (h : Config.Takes (VerifyStep tokenHash) (fun _ => True) VerifyEnd FindsAlone c phases i l q q'
      w') (hinv : OneHolder tokenHash c.state phases) (phase : Option VerifyPhase)
    (hphase : phase = some q' ∨ phase = none) : OneHolder tokenHash w' (phases.set i phase) := by
  have hself : (phases.set i phase)[i]? = some phase :=
    List.getElem?_set_self (List.getElem?_eq_some_iff.mp h.phase).1
  have hentered : ∀ r, (phases.set i phase)[i]? = some (some r) → r = q' := by
    intro r hr
    rw [hself] at hr
    rcases hphase with rfl | rfl
    · exact (Option.some.inj (Option.some.inj hr)).symm
    · cases hr
  have hother : ∀ j, j ≠ i → (phases.set i phase)[j]? = phases[j]? := fun j hj =>
    List.getElem?_set_ne (Ne.symm hj)
  constructor
  · intro a b ra rb ha hb hra hrb
    rcases eq_or_ne a i with rfl | hai
    · rcases eq_or_ne b a with rfl | hba
      · rfl
      · rw [hother b hba] at hb
        exact absurd (others_idle h hinv (hentered ra ha ▸ hra) hba hb) hrb
    · rw [hother a hai] at ha
      rcases eq_or_ne b i with rfl | hbi
      · exact absurd (others_idle h hinv (hentered rb hb ▸ hrb) hai ha) hra
      · rw [hother b hbi] at hb
        exact hinv.1 a b ra rb ha hb hra hrb
  · intro hmem
    obtain ⟨j, hj⟩ := List.mem_iff_getElem?.mp hmem
    rcases eq_or_ne j i with rfl | hji
    · have hstep := h.step
      rw [← hentered .consumed hj] at hstep
      refine step_consumes hstep ?_
      rintro rfl
      exact hinv.2 (List.mem_of_getElem? h.phase)
    · rw [hother j hji] at hj
      exact step_spent h.step (hinv.2 (List.mem_of_getElem? hj))

end VerifyRaceLemmas

open VerifyRaceLemmas

/-! ## Every interleaving -/

/-- From every store: however the statements of any number of verifications of one token
interleave, at most one call returns a user and all others end in the generic
`NotFoundError`, if each lookup runs while no other call is between its lookup and its
consumption. -/
theorem single_use_interleaved (w : AuthWorld) (model : VerifyModel) (calls : List VerifyCall)
    (schedule : List Nat)
    (halone : (VerifyCall.start w model calls).Along FindsAlone schedule) :
    (∀ i j user user', ((VerifyCall.start w model calls).exec schedule).outcome i = some (.ok user) →
      ((VerifyCall.start w model calls).exec schedule).outcome j = some (.ok user') → i = j) ∧
    ∀ i error, ((VerifyCall.start w model calls).exec schedule).outcome i = some (.error error) →
      error = .notFound invalidTokenMessage := by
  constructor
  · intro i j user user' hi hj
    obtain ⟨phases, hphases, hidle⟩ := Config.exists_inPhases
      (c := VerifyCall.start w model calls) (q := VerifyPhase.idle)
      (P := VerifyStep (Py.sha256 model.token)) (I := fun _ => True) (F := VerifyEnd) (by
        intro p hp
        obtain ⟨call, _, rfl⟩ := List.mem_map.mp hp
        exact verify_follows model call)
    have hstart : OneHolder (Py.sha256 model.token) w phases := by
      constructor
      · intro a _ ra _ ha _ hra _
        exact absurd (hidle ra (List.mem_of_getElem? ha)) hra
      · intro hmem
        cases hidle _ hmem
    obtain ⟨phases', hphases', hinv⟩ := Config.exec_invariant (fun _ _ _ => trivial)
      oneHolder_step schedule hphases hstart halone
    obtain ⟨q, hq, rfl⟩ := hphases'.outcome hi
    obtain ⟨q', hq', rfl⟩ := hphases'.outcome hj
    exact hinv.1 i j _ _ hq hq' (by decide) (by decide)
  · intro i error hi
    have hall := Config.exec_raisesOnly (E := fun e => e = .notFound invalidTokenMessage) schedule
      (c := VerifyCall.start w model calls) (by
        intro p hp
        obtain ⟨call, _, rfl⟩ := List.mem_map.mp hp
        exact verify_raisesOnly model call)
    unfold Config.outcome at hi
    split at hi
    · next r hr =>
      cases hi
      exact hall _ (List.mem_of_getElem? hr)
    · cases hi

namespace Sample

/-- The account is signed up and its token mailed. -/
def signedUp : AuthWorld :=
  (authRun (deployment .postgres) (.init 1782734400000000) [signup]).world

def presented : VerifyCall := ⟨1782734400000001, 1782734400000002⟩

end Sample

/-- The second call looks the token up after the first has consumed it. -/
theorem single_use_interleaved_sample :
    (∀ i j user user', ((VerifyCall.start Sample.signedUp Sample.verification
        [Sample.presented, Sample.presented]).exec [0, 0, 0, 1, 0]).outcome i = some (.ok user) →
      ((VerifyCall.start Sample.signedUp Sample.verification
        [Sample.presented, Sample.presented]).exec [0, 0, 0, 1, 0]).outcome j = some (.ok user') →
      i = j) ∧
    ∀ i error, ((VerifyCall.start Sample.signedUp Sample.verification
        [Sample.presented, Sample.presented]).exec [0, 0, 0, 1, 0]).outcome i = some (.error error) →
      error = .notFound invalidTokenMessage :=
  single_use_interleaved _ _ _ _ (by decide +kernel)

/-- Two calls that take turns, statement by statement, both return the user. -/
theorem verified_twice :
    ((VerifyCall.start Sample.signedUp Sample.verification
      [Sample.presented, Sample.presented]).exec [0, 1, 0, 1, 0, 1, 0, 1]).outcome 0 =
        some (.ok ⟨"01KW8WHA6STWW5N1VYRSHDTK70", "engineer@example.com", "active", some "oss"⟩) ∧
    ((VerifyCall.start Sample.signedUp Sample.verification
      [Sample.presented, Sample.presented]).exec [0, 1, 0, 1, 0, 1, 0, 1]).outcome 1 =
        some (.ok ⟨"01KW8WHA6STWW5N1VYRSHDTK70", "engineer@example.com", "active", some "oss"⟩) :=
  ⟨by decide +kernel, by decide +kernel⟩

end LavsCore
