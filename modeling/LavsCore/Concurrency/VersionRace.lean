import LavsCore.Concurrency.Servers
import LavsCore.Invariants.VersionHistory

/-!
# Versions of one component, created and rolled back at the same time

Several servers work on one database, and each statement is one step. A call makes a
version active in two steps: it supersedes the active version of the component, and then
it activates its own. Two calls that stand between these steps together leave two active
versions (`two_active_versions`). `at_most_one_active_interleaved`: if every activating
statement runs while no other call stands there, there is at most one in every state.
-/

namespace LavsCore

open Store GrowthLemmas VersionHistoryLemmas Query

/-- A call on versions. -/
inductive VersionCall where
  | create (eventBus : Bool) (data : CreateVersionModel) (env : Env)
  | rollback (eventBus : Bool) (data : RollbackVersionRequest) (env : Env)

def VersionCall.program : VersionCall → Query VersionResponseModel
  | .create eventBus data env => createVersion eventBus data env
  | .rollback eventBus data env => rollbackVersion eventBus data env

/-- Calls that have just arrived, each at a server of its own. -/
def VersionCall.start (w : World) (calls : List VersionCall) : Servers VersionResponseModel :=
  ⟨w, calls.map VersionCall.program⟩

/-- The statements that make a version active. A call executes one right after it has
superseded the active version. -/
def Sql.activates : Sql → Bool
  | .insertVersion | .markStatus .active => true
  | _ => false

/-- Call `i` stands between its superseding and its activating statement. -/
def InWindow (c : Servers VersionResponseModel) (i : Nat) : Prop :=
  ∃ l ∈ c.label i, l.activates = true

instance (c : Servers VersionResponseModel) (i : Nat) : Decidable (InWindow c i) :=
  inferInstanceAs (Decidable (∃ l ∈ c.label i, l.activates = true))

/-- The next step of call `i` activates a version only if no other call is in between. -/
def ActivatesAlone (c : Servers VersionResponseModel) (i : Nat) : Prop :=
  InWindow c i → ∀ j < c.procs.length, j ≠ i → ¬ InWindow c j

instance (c : Servers VersionResponseModel) (i : Nat) :
    Decidable (ActivatesAlone c i) :=
  inferInstanceAs (Decidable (_ → _))

/-! ## The protocol of a call -/

/-- Where a call stands: it has chosen the version that it rolls back to, or it has
superseded the active version of a component. -/
inductive VersionPhase where
  | idle
  | chosen (componentId previous : String)
  | window (componentId : String) (previous : Option String)

def VersionPhase.isWindow : VersionPhase → Bool
  | .window _ _ => true
  | _ => false

/-- The steps of a call, with what they do to the store. -/
inductive VersionStep : VersionPhase → Sql → World → VersionPhase → World → Prop
  | quiet {q : VersionPhase} {l : Sql} {w w' : World} (hq : q.isWindow = false)
      (hl : l.activates = false) (hdb : w'.db = w.db) : VersionStep q l w q w'
  | choose {w : World} {v : VersionRow} (hv : v ∈ w.db.versions.rows) :
      VersionStep .idle .selectPrevious w (.chosen v.componentId v.id) w
  | markRolledBack {w : World} (c previous id : String) :
      VersionStep (.chosen c previous) (.markStatus .rolledBack) w (.chosen c previous)
        { w with db := w.db.markStatus .rolledBack id }
  | supersedeForNew {w : World} (c : String) :
      VersionStep .idle .supersedeActive w (.window c none) { w with db := w.db.supersedeActive c }
  | supersedeForPrevious {w : World} (c previous : String) :
      VersionStep (.chosen c previous) .supersedeActive w (.window c (some previous))
        { w with db := w.db.supersedeActive c }
  | insert {w : World} {row : VersionRow} {db : Store} (hactive : row.status = some .active)
      (hinsert : w.db.insertVersion row = .ok db) :
      VersionStep (.window row.componentId none) .insertVersion w .idle { w with db := db }
  | refused {w : World} (c : String) :
      VersionStep (.window c none) .insertVersion w .idle w
  | reactivate {w : World} (c previous : String) :
      VersionStep (.window c (some previous)) (.markStatus .active) w .idle
        { w with db := w.db.markStatus .active previous }

/-- A call ends outside the window. -/
def VersionEnd {α : Type} (q : VersionPhase) (_ : α) : Prop := q.isWindow = false

/-- The call keeps to the protocol from the phase on. -/
abbrev FollowsVersion {α : Type} (p : Query α) (q : VersionPhase) : Prop :=
  p.Follows VersionStep (fun _ => True) VersionEnd q

namespace VersionRaceLemmas

variable {α : Type}

/-- Outside the window a statement that only reads keeps the phase. -/
theorem stays_read {q : VersionPhase} (hq : q.isWindow = false) {l : Sql}
    (hl : l.activates = false) (f : Store → α) :
    (select l f).Stays VersionStep (fun _ => True) q :=
  stays_select fun _ _ => .quiet hq hl rfl

/-- What follows the activation touches no version. -/
theorem stays_event (eventBus : Bool) (event : DomainEvent) :
    (publish eventBus event).Stays VersionStep (fun _ => True) .idle :=
  stays_publish fun _ _ => .quiet rfl rfl rfl

theorem stays_eventProduct (eventBus : Bool) (componentId : String) :
    (eventProduct eventBus componentId).Stays VersionStep (fun _ => True) .idle := by
  unfold eventProduct
  split
  · refine (stays_read rfl rfl _).bind ?_
    rintro (_ | ⟨component, rest⟩)
    · exact Prog.follows_raise _ _
    · exact Prog.stays_pure _
  · exact Prog.stays_pure _

theorem createVersion_follows (eventBus : Bool) (data : CreateVersionModel) (env : Env) :
    FollowsVersion (createVersion eventBus data env) .idle := by
  unfold createVersion
  refine (stays_read rfl rfl _).bind ?_
  rintro (_ | ⟨component, rest⟩)
  · exact Prog.follows_raise _ _
  dsimp only
  refine Prog.follows_bind (follows_execute fun w _ => .supersedeForNew data.componentId) ?_
  rintro q' _ rfl
  -- The three numbers take no step: the next one is the `INSERT`.
  refine Prog.follows_lift fun major _ => ?_
  refine Prog.follows_lift fun minor _ => ?_
  refine Prog.follows_lift fun patch _ => ?_
  refine Prog.follows_bind (M := fun q' _ => q' = .idle) (follows_insert ?_ ?_) ?_
  · intro w db _ hinsert
    obtain ⟨_, hinserted⟩ := insertVersionOn_ok hinsert
    exact ⟨.idle, @VersionStep.insert w (newVersionRow data env major minor patch) db rfl hinserted,
      rfl⟩
  · exact fun w _ => ⟨.idle, .refused data.componentId⟩
  · rintro q' _ rfl
    refine (stays_read rfl rfl _).bind fun rows => ?_
    refine (stays_firstRow rows).bind fun created => ?_
    refine Prog.follows_lift fun version _ => ?_
    exact (stays_event _ _).bind fun _ => rfl

/-- From the choice of the predecessor on. -/
theorem rollback_follows (eventBus : Bool) (target previous : VersionResponseModel) :
    FollowsVersion (do
      execute (.markStatus .rolledBack) fun db => db.markStatus .rolledBack target.id
      execute .supersedeActive fun db => db.supersedeActive target.componentId
      execute (.markStatus .active) fun db => db.markStatus .active previous.id
      let reactivatedRow ←
        firstRow (← select .selectVersion fun db => db.versions.lookup previous.id)
      let reactivated ← Prog.lift (toVersionResponse reactivatedRow)
      let productId ← eventProduct eventBus target.componentId
      publish eventBus (versionRolledBack productId target reactivated)
      return reactivated) (.chosen target.componentId previous.id) := by
  refine Prog.follows_bind (follows_execute fun w _ => .markRolledBack _ _ target.id) ?_
  rintro q' _ rfl
  refine Prog.follows_bind (follows_execute fun w _ => .supersedeForPrevious _ _) ?_
  rintro q' _ rfl
  refine Prog.follows_bind (follows_execute fun w _ => .reactivate _ _) ?_
  rintro q' _ rfl
  refine (stays_read rfl rfl _).bind fun rows => ?_
  refine (stays_firstRow rows).bind fun reactivatedRow => ?_
  refine Prog.follows_lift fun reactivated _ => ?_
  refine (stays_eventProduct _ _).bind fun productId => ?_
  exact (stays_event _ _).bind fun _ => rfl

theorem rollbackVersion_follows (eventBus : Bool) (data : RollbackVersionRequest) (env : Env) :
    FollowsVersion (rollbackVersion eventBus data env) .idle := by
  unfold rollbackVersion
  refine (stays_read rfl rfl _).bind ?_
  rintro (_ | ⟨targetRow, rest⟩)
  · exact Prog.follows_raise _ _
  dsimp only
  refine Prog.follows_lift fun target hread => ?_
  have htarget : target.componentId = targetRow.componentId := by
    obtain ⟨_, _, _, rfl⟩ := toVersionResponse_ok_iff.mp hread
    rfl
  refine Prog.follows_bind
    (M := fun q' rows => (rows = [] ∧ q' = .idle) ∨
      ∃ v rest, rows = v :: rest ∧ q' = .chosen target.componentId v.id) (follows_select ?_) ?_
  · intro w _
    cases hprevious : selectPrevious w.db targetRow env.choice with
    | nil => exact ⟨.idle, .quiet rfl rfl rfl, Or.inl ⟨rfl, rfl⟩⟩
    | cons v rest =>
      obtain ⟨hv, hcomponent, _⟩ := mem_selectPrevious (hprevious ▸ List.mem_cons_self : v ∈ _)
      refine ⟨.chosen target.componentId v.id, ?_, Or.inr ⟨v, rest, rfl, rfl⟩⟩
      rw [htarget, ← hcomponent]
      exact .choose hv
  · rintro q' rows (⟨rfl, rfl⟩ | ⟨v, rest, rfl, rfl⟩)
    · exact Prog.follows_raise _ _
    dsimp only
    refine Prog.follows_lift fun previous hread => ?_
    have hprevious : v.id = previous.id := by
      obtain ⟨_, _, _, rfl⟩ := toVersionResponse_ok_iff.mp hread
      rfl
    rw [hprevious]
    exact rollback_follows eventBus target previous

/-- The calls start idle. -/
theorem start_inPhases (w : World) (calls : List VersionCall) :
    ∃ phases, (VersionCall.start w calls).InPhases VersionStep (fun _ => True) VersionEnd phases ∧
      ∀ q, some q ∈ phases → q = .idle := by
  refine Config.exists_inPhases ?_
  intro p hp
  obtain ⟨call, _, rfl⟩ := List.mem_map.mp hp
  cases call with
  | create eventBus data env => exact createVersion_follows eventBus data env
  | rollback eventBus data env => exact rollbackVersion_follows eventBus data env

end VersionRaceLemmas

/-! ## What holds in each phase -/

/-- What a call relies on: the version it rolls back to is a version of the component,
and in the window the component has no active version. -/
def VersionPhase.Holds : VersionPhase → World → Prop
  | .idle, _ => True
  | .chosen c previous, w => ∃ v ∈ w.db.versions.rows, v.id = previous ∧ v.componentId = c
  | .window c none, w => w.db.activeVersions c = []
  | .window c (some previous), w =>
    w.db.activeVersions c = [] ∧ ∃ v ∈ w.db.versions.rows, v.id = previous ∧ v.componentId = c

namespace VersionRaceLemmas

variable {w w' : World} {q q' : VersionPhase} {l : Sql}

/-- No step takes a version away or moves it to another component. -/
theorem step_keeps_version (h : VersionStep q l w q' w') {v : VersionRow}
    (hv : v ∈ w.db.versions.rows) :
    ∃ v' ∈ w'.db.versions.rows, v'.id = v.id ∧ v'.componentId = v.componentId := by
  have hset : ∀ (status : VersionStatus) (where? : VersionRow → Bool),
      ∃ v' ∈ (w.db.setStatus status where?).versions.rows,
        v'.id = v.id ∧ v'.componentId = v.componentId := fun status where? =>
    ⟨_, List.mem_map_of_mem hv, withStatus_id status where? v, withStatus_componentId status where? v⟩
  cases h with
  | quiet _ _ hdb => exact ⟨v, hdb ▸ hv, rfl, rfl⟩
  | choose _ => exact ⟨v, hv, rfl, rfl⟩
  | markRolledBack _ _ _ => exact hset _ _
  | supersedeForNew _ => exact hset _ _
  | supersedeForPrevious _ _ => exact hset _ _
  | insert _ hinsert =>
    refine ⟨v, ?_, rfl, rfl⟩
    show v ∈ Table.rows _
    rw [(insertVersion_ok hinsert).rows]
    exact List.mem_append_left _ hv
  | refused _ => exact ⟨v, hv, rfl, rfl⟩
  | reactivate _ _ => exact hset _ _

/-- A step that does not activate makes no version active. -/
theorem step_length_activeVersions (h : VersionStep q l w q' w') (hl : l.activates = false)
    (c : String) : (w'.db.activeVersions c).length ≤ (w.db.activeVersions c).length := by
  have hsupersede : ∀ d, ((w.db.supersedeActive d).activeVersions c).length ≤
      (w.db.activeVersions c).length := by
    intro d
    rcases eq_or_ne c d with rfl | hne
    · rw [activeVersions_supersede_self]
      exact Nat.zero_le _
    · rw [activeVersions_supersede_of_ne _ hne]
  cases h with
  | quiet _ _ hdb => rw [hdb]
  | choose _ => exact Nat.le_refl _
  | markRolledBack _ _ id =>
    rw [activeVersions_mark_sublist (by decide)]
    exact List.length_filter_le _ _
  | supersedeForNew d => exact hsupersede d
  | supersedeForPrevious d _ => exact hsupersede d
  | insert _ _ => cases hl
  | refused _ => cases hl
  | reactivate _ _ => cases hl

/-- An activation in the window leaves one active version of its component, and the
other components as they were. -/
theorem step_activates (h : VersionStep q l w q' w') (hl : l.activates = true)
    (hq : q.Holds w) (hinv : w.db.AtMostOneActive) : w'.db.AtMostOneActive := by
  cases h with
  | quiet _ hl' _ => simp [hl'] at hl
  | choose _ => cases hl
  | markRolledBack _ _ _ => cases hl
  | supersedeForNew _ => cases hl
  | supersedeForPrevious _ _ => cases hl
  | @insert _ row db _ hinsert =>
    intro c
    have hnone : w.db.activeVersions row.componentId = [] := hq
    rw [activeVersions_insert (insertVersion_ok hinsert), List.length_append]
    rcases eq_or_ne c row.componentId with rfl | hne
    · rw [hnone]
      split <;> simp
    · simp [VersionRow.isActiveOf, Ne.symm hne, hinv c]
  | refused _ => exact hinv
  | reactivate d previous =>
    obtain ⟨hnone, v, hv, rfl, rfl⟩ := hq
    intro c
    rcases eq_or_ne c v.componentId with rfl | hne
    · rw [activeVersions_mark_active hv hnone]
      exact Nat.le_refl 1
    · rw [activeVersions_mark_of_ne hv hne]
      exact hinv c

/-- The next step of a call in the window is its activation. -/
theorem inWindow_of_phase {c : Servers VersionResponseModel} {phases : List (Option VersionPhase)}
    (hc : c.InPhases VersionStep (fun _ => True) VersionEnd phases) {j : Nat} {r : VersionPhase}
    (hj : phases[j]? = some (some r)) (hr : r.isWindow = true) :
    j < c.procs.length ∧ InWindow c j := by
  obtain ⟨hlt, l, q', w', hlabel, hstep⟩ := hc.label_of_phase trivial hj
    (fun _ hend => by simp [VersionEnd, hr] at hend)
  refine ⟨hlt, l, hlabel, ?_⟩
  cases hstep with
  | quiet hq _ _ => simp [hr] at hq
  | choose _ => cases hr
  | markRolledBack _ _ _ => cases hr
  | supersedeForNew _ => cases hr
  | supersedeForPrevious _ _ => cases hr
  | insert _ _ => rfl
  | refused _ => rfl
  | reactivate _ _ => rfl

/-- A step enters its next phase with what holds there. -/
theorem step_holds (h : VersionStep q l w q' w') (hq : q.Holds w) : q'.Holds w' := by
  cases h with
  | quiet hq' _ hdb =>
    cases q with
    | idle => trivial
    | chosen c previous =>
      obtain ⟨v, hv, hid, hc⟩ := hq
      exact ⟨v, hdb ▸ hv, hid, hc⟩
    | window _ _ => cases hq'
  | @choose _ v hv => exact ⟨v, hv, rfl, rfl⟩
  | markRolledBack c previous id =>
    obtain ⟨v, hv, rfl, rfl⟩ := hq
    exact step_keeps_version (.markRolledBack v.componentId v.id id) hv
  | supersedeForNew c => exact activeVersions_supersede_self _ c
  | supersedeForPrevious c previous =>
    obtain ⟨v, hv, rfl, rfl⟩ := hq
    exact ⟨activeVersions_supersede_self _ _,
      step_keeps_version (.supersedeForPrevious v.componentId v.id) hv⟩
  | insert _ _ => trivial
  | refused _ => trivial
  | reactivate _ _ => trivial

/-- A step of another call that leaves the windows alone breaks nothing. -/
theorem holds_stable {r : VersionPhase} (h : VersionStep q l w q' w')
    (hwindow : r.isWindow = true → l.activates = false) (hr : r.Holds w) : r.Holds w' := by
  have hnone : ∀ {c : String}, l.activates = false → w.db.activeVersions c = [] →
      w'.db.activeVersions c = [] := by
    intro c hl hc
    have hlen := step_length_activeVersions h hl c
    rw [hc] at hlen
    exact List.eq_nil_of_length_eq_zero (Nat.le_zero.mp hlen)
  have hkept : ∀ {c previous : String},
      (∃ v ∈ w.db.versions.rows, v.id = previous ∧ v.componentId = c) →
        ∃ v ∈ w'.db.versions.rows, v.id = previous ∧ v.componentId = c := by
    rintro c previous ⟨v, hv, rfl, rfl⟩
    exact step_keeps_version h hv
  match r, hr with
  | .idle, _ => exact trivial
  | .chosen c previous, hr => exact hkept hr
  | .window c none, hr => exact hnone (hwindow rfl) hr
  | .window c (some previous), hr => exact ⟨hnone (hwindow rfl) hr.1, hkept hr.2⟩

/-- A step of a call that activates alone. -/
abbrev VersionTakes := Config.Takes VersionStep (fun _ => True)
  (VersionEnd (α := VersionResponseModel)) ActivatesAlone

theorem race_step (c : Servers VersionResponseModel) (phases : List (Option VersionPhase)) (i : Nat)
    (l : Sql) (q q' : VersionPhase) (w' : World) (h : VersionTakes c phases i l q q' w')
    (hinv : c.state.db.AtMostOneActive) (hq : q.Holds c.state) :
    w'.db.AtMostOneActive ∧ q'.Holds w' := by
  refine ⟨?_, step_holds h.step hq⟩
  cases hl : l.activates with
  | true => exact step_activates h.step hl hq hinv
  | false =>
    intro componentId
    exact (step_length_activeVersions h.step hl componentId).trans (hinv componentId)

theorem race_stable (c : Servers VersionResponseModel) (phases : List (Option VersionPhase)) (i : Nat)
    (l : Sql) (q q' : VersionPhase) (w' : World) (h : VersionTakes c phases i l q q' w')
    (_ : c.state.db.AtMostOneActive) (_ : q.Holds c.state) (j : Nat) (hne : j ≠ i)
    (r : VersionPhase) (hj : phases[j]? = some (some r)) (hr : r.Holds c.state) : r.Holds w' := by
  refine holds_stable h.step ?_ hr
  intro hwindow
  -- Call `j` is in the window, so the step of call `i` is not an activation.
  obtain ⟨hlt, hj'⟩ := inWindow_of_phase h.inPhases hj hwindow
  by_contra hl
  exact h.allowed ⟨l, h.label, Bool.eq_true_of_not_eq_false hl⟩ j hlt hne hj'

end VersionRaceLemmas

open VersionRaceLemmas

/-! ## Every interleaving -/

/-- From a store in which no component has two active versions: however the statements
of any number of creations and rollbacks interleave, no component ever has two active
versions, if each activating statement runs while no other call is between its own
superseding and activating statement. -/
theorem at_most_one_active_interleaved (w : World) (calls : List VersionCall)
    (schedule : List Nat) (h : w.db.AtMostOneActive)
    (halone : (VersionCall.start w calls).Along ActivatesAlone schedule) :
    ((VersionCall.start w calls).exec schedule).state.db.AtMostOneActive := by
  obtain ⟨phases, hphases, hidle⟩ := start_inPhases w calls
  have hstart : Config.Asserts (fun w => w.db.AtMostOneActive) VersionPhase.Holds w phases := by
    refine ⟨h, ?_⟩
    intro q hq
    cases hidle q hq
    trivial
  obtain ⟨_, _, hactive, _⟩ := Config.exec_stable (fun _ _ => trivial) race_step race_stable schedule
    hphases hstart halone
  exact hactive

namespace Sample

/-- Two new versions of `api`. -/
def create12 : VersionCall := .create true api12 (env 22)

def create13 : VersionCall := .create true api13 (env 23)

/-- The rollback of 1.1.0. -/
def rollback : VersionCall := .rollback true { versionId := id 21 } (env 31)

end Sample

/-- A creation between the statements of a rollback. -/
theorem at_most_one_active_interleaved_sample :
    ((VersionCall.start Sample.versioned [Sample.create12, Sample.rollback]).exec
      [1, 0, 1, 0, 1, 0, 0, 1, 1, 1, 1, 1, 0]).state.db.AtMostOneActive :=
  at_most_one_active_interleaved _ _ _ (atMostOneActive_run atMostOneActive_empty _)
    (by decide +kernel)

/-- Two creations on `api` that take turns, statement by statement: both supersede 1.1.0
before either inserts its own version, and both stay active. -/
theorem two_active_versions :
    Sample.versioned.db.AtMostOneActive ∧
      ((VersionCall.start Sample.versioned [Sample.create12, Sample.create13]).exec
        [0, 1, 0, 1, 0, 1, 0, 1, 0, 1]).Finished ∧
      (((VersionCall.start Sample.versioned [Sample.create12, Sample.create13]).exec
        [0, 1, 0, 1, 0, 1, 0, 1, 0, 1]).state.db.activeVersions (Sample.id 11)).length = 2 :=
  ⟨atMostOneActive_run atMostOneActive_empty _, by decide +kernel, by decide +kernel⟩

end LavsCore
