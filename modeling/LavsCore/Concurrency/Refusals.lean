import LavsCore.Concurrency.Interference

/-!
# Calls that are refused, and calls that crash

Any number of the calls that write run at the same time, each at a server of its own, and each
statement is one step.

`refused_call_traceless`: a call that ends in `NotFoundError` or `ConflictError` might as well
not have been sent. `no_call_crashes`: whatever is interleaved, no call trips over a row that it
has read or written. The one exception is an edge that is removed before its insertion has been
read back.
-/

namespace LavsCore

open Store GrowthLemmas Query InterferenceLemmas

/-- Calls that have just arrived, each at a server of its own. -/
def Call.start (w : World) (requests : List Request) : Servers Response :=
  ⟨w, requests.map fun r => r.1.program r.2⟩

def Call.isRemoval : Call → Bool
  | .removeDependency _ _ => true
  | _ => false

namespace RefusalsLemmas

variable {legible removing : Prop} {w : World}

theorem lookup_cons {α κ : Type} [DecidableEq κ] {key : α → κ} {t : Table α key} {k : κ}
    {row : α} {rest : List α} (h : t.lookup k = row :: rest) : row ∈ t.rows ∧ key row = k :=
  Table.mem_lookup.mp (h ▸ List.mem_cons_self)

theorem isOk_base : (parseCore "0.0.0").isOk = true := by decide

theorem createProduct_settles (data : CreateProductModel) (env : Env) :
    (createProduct data env).Settles legible removing w := by
  unfold createProduct
  refine settles_select_bind fun w₁ _ => ?_
  split
  · exact settles_raise rfl
  · refine settles_insert_bind fun w₂ db _ hinsert => ⟨later_insertProduct isOk_base hinsert, ?_⟩
    refine finishes_select_bind fun w₃ hw₃ => ?_
    have hid : env.ulid ∈ w₃.db.products.keys := by
      refine hw₃.product_keys (Table.mem_keys.mpr ⟨newProductRow data env, ?_, rfl⟩)
      rw [(insertProduct_ok hinsert).rows]
      exact List.mem_append_right _ List.mem_cons_self
    obtain ⟨row, _, _, hlookup⟩ := Table.lookup_eq_singleton_of_mem_keys hid
    rw [hlookup]
    exact finishes_pure _

theorem createComponent_settles (data : CreateComponentModel) (env : Env) :
    (createComponent data env).Settles legible removing w := by
  unfold createComponent
  refine settles_select_bind fun w₁ _ => ?_
  split
  · exact settles_raise rfl
  · exact settles_insert_bind fun w₂ db _ hinsert => ⟨later_insertComponent hinsert, finishes_pure _⟩

/-- A legible row makes a response; no row makes a domain error. -/
theorem endsLate_unreadable {α : Type} {row : VersionRow} {e : ApiError}
    (hrow : legible → (toVersionResponse row).isOk = true) (he : toVersionResponse row = .error e) :
    EndsLate legible removing (.error e : Except ApiError α) := by
  rintro _ ⟨⟩
  refine ⟨?_, fun hlegible => ?_⟩
  · unfold toVersionResponse at he
    split at he
    · cases he
      rfl
    · split at he
      · cases he
      · cases he
        rfl
  · have hok := hrow hlegible
    rw [he] at hok
    cases hok

theorem endsEarly_unreadable {α : Type} {row : VersionRow} {e : ApiError}
    (hrow : legible → (toVersionResponse row).isOk = true) (he : toVersionResponse row = .error e) :
    EndsEarly legible (.error e : Except ApiError α) := by
  rintro _ ⟨⟩ hlegible
  have hok := hrow hlegible
  rw [he] at hok
  cases hok

/-- The read back of a version that is there. -/
theorem finishes_version {β : Type} {id : String} {f : VersionResponseModel → Query β}
    (hlegible : legible → w.db.Legible) (hid : id ∈ w.db.versions.keys)
    (h : ∀ version w', Later removing w w' → (f version).Finishes legible removing w') :
    Query.Finishes legible removing (do
      let row ← firstRow (← select .selectVersion fun db => db.versions.lookup id)
      let version ← Prog.lift (toVersionResponse row)
      f version) w := by
  refine finishes_select_bind fun w₁ hw₁ => ?_
  obtain ⟨row, hrow, _, hlookup⟩ := Table.lookup_eq_singleton_of_mem_keys (hw₁.version_keys hid)
  rw [hlookup]
  show Query.Finishes legible removing (Prog.lift (toVersionResponse row) >>= f) w₁
  refine Prog.meets_lift_bind (fun version _ => h version w₁ hw₁) fun e he _ _ => ?_
  exact endsLate_unreadable (fun hl => (hw₁.legible (hlegible hl)).versions row hrow) he

theorem isOk_newVersionRow (data : CreateVersionModel) (env : Env) (major minor patch : Nat) :
    (toVersionResponse (newVersionRow data env major minor patch)).isOk = true := by
  rw [toVersionResponse_ok_iff.mpr ⟨.active, rfl, negativeFields_natCast rfl rfl rfl, rfl⟩]
  rfl

theorem createVersion_settles (eventBus : Bool) (data : CreateVersionModel) (env : Env)
    (hlegible : legible → w.db.Legible) :
    (createVersion eventBus data env).Settles legible removing w := by
  obtain ⟨major, minor, patch, hmajor, hminor, hpatch⟩ := data.numbers_ok
  unfold createVersion
  refine settles_select_bind fun w₁ hw₁ => ?_
  split
  · exact settles_raise rfl
  refine settles_execute_bind fun w₂ hw₂ => ⟨later_setStatus _ _, ?_⟩
  refine finishes_lift_bind hmajor (finishes_lift_bind hminor (finishes_lift_bind hpatch ?_))
  refine finishes_insert_bind ?_
  intro w₃ db hw₃ hinsert
  obtain ⟨_, hok⟩ := insertVersionOn_ok hinsert
  have hinserted : Later removing w₃ { w₃ with db := db } :=
    later_insertVersion (isOk_newVersionRow data env major minor patch) hok
  refine ⟨hinserted, ?_⟩
  have hid : env.ulid ∈ db.versions.keys := by
    refine Table.mem_keys.mpr ⟨newVersionRow data env major minor patch, ?_, rfl⟩
    rw [(insertVersion_ok hok).rows]
    exact List.mem_append_right _ List.mem_cons_self
  have hw : Later removing w { w₃ with db := db } :=
    ((hw₁.trans hw₂).trans (later_setStatus _ _)).trans (hw₃.trans hinserted)
  refine finishes_version (w := { w₃ with db := db }) (fun hl => hw.legible (hlegible hl)) hid ?_
  exact fun _ _ _ => finishes_publish

/-- The product of the event is found. -/
theorem eventProduct_finishes {eventBus : Bool} {componentId : String}
    (hid : componentId ∈ w.db.components.keys) :
    (eventProduct eventBus componentId).Finishes legible removing w := by
  cases eventBus with
  | false => exact finishes_pure _
  | true =>
    refine finishes_select_bind fun w₁ hw₁ => ?_
    obtain ⟨component, _, _, hlookup⟩ :=
      Table.lookup_eq_singleton_of_mem_keys (hw₁.component_keys hid)
    rw [hlookup]
    exact finishes_pure _

theorem rollbackVersion_settles (eventBus : Bool) (data : RollbackVersionRequest) (env : Env)
    (hlegible : legible → w.db.Legible) :
    (rollbackVersion eventBus data env).Settles legible removing w := by
  unfold rollbackVersion
  refine settles_select_bind fun w₁ hw₁ => ?_
  split
  · exact settles_raise rfl
  · next targetRow rest hlookup =>
    obtain ⟨htarget, -⟩ := lookup_cons hlookup
    refine Prog.commits_lift_bind (fun target hread => ?_) fun e he _ _ =>
      endsEarly_unreadable (fun hl => (hw₁.legible (hlegible hl)).versions _ htarget) he
    refine settles_select_bind fun w₂ hw₂ => ?_
    split
    · exact settles_raise rfl
    · next previousRow rest' hprevious =>
      obtain ⟨hrow, -⟩ := mem_selectPrevious (hprevious ▸ List.mem_cons_self : previousRow ∈ _)
      have hlater₂ := hw₁.trans hw₂
      refine Prog.commits_lift_bind (fun previous hreadPrevious => ?_) fun e he _ _ =>
        endsEarly_unreadable (fun hl => (hlater₂.legible (hlegible hl)).versions _ hrow) he
      obtain ⟨_, _, _, htargetEq⟩ := toVersionResponse_ok_iff.mp hread
      obtain ⟨_, _, _, hpreviousEq⟩ := toVersionResponse_ok_iff.mp hreadPrevious
      have hid : previous.id ∈ w₂.db.versions.keys := by
        rw [hpreviousEq]
        exact Table.key_mem_keys hrow
      have hcomponent : target.componentId ∈ w₁.db.components.keys := by
        rw [htargetEq]
        exact w₁.db.version_component targetRow htarget
      refine settles_execute_bind fun w₃ hw₃ => ⟨later_setStatus _ _, ?_⟩
      refine finishes_execute_bind fun w₄ hw₄ => ⟨later_setStatus _ _, ?_⟩
      refine finishes_execute_bind fun w₅ hw₅ => ⟨later_setStatus _ _, ?_⟩
      have hlater : Later removing w₂ { w₅ with db := w₅.db.markStatus .active previous.id } :=
        ((hw₃.trans (later_setStatus _ _)).trans (hw₄.trans (later_setStatus _ _))).trans
          (hw₅.trans (later_setStatus _ _))
      refine finishes_version (fun hl => (hlater₂.trans hlater).legible (hlegible hl))
        (hlater.version_keys hid) fun reactivated w₆ hw₆ => ?_
      have hlater₆ := hw₂.trans (hlater.trans hw₆)
      refine finishes_bind (eventProduct_finishes (hlater₆.component_keys hcomponent)) ?_
      exact fun _ _ _ => finishes_publish

theorem assertComponent_onlyReads (productId componentId : String) :
    (assertComponent productId componentId).OnlyReads legible removing w := by
  unfold assertComponent
  refine onlyReads_select_bind fun w₁ _ => ?_
  split
  · exact onlyReads_raise rfl
  · exact onlyReads_refuseIf rfl

theorem addDependency_settles (eventBus : Bool) (data : CreateDependencyRequest) (env : Env) :
    (addDependency eventBus data env).Settles legible removing w := by
  unfold addDependency
  refine settles_select_bind fun w₁ _ => settles_refuseIf rfl fun _ => ?_
  refine settles_bind (assertComponent_onlyReads _ _) fun _ w₂ _ => ?_
  refine settles_bind (assertComponent_onlyReads _ _) fun _ w₃ _ => ?_
  refine settles_refuseIf rfl fun _ => ?_
  refine settles_select_bind fun w₄ _ => settles_refuseIf rfl fun _ => ?_
  refine settles_select_bind fun w₅ _ => settles_refuseIf rfl fun _ => ?_
  refine settles_insert_bind fun w₆ db _ hinsert => ⟨later_insertDependency hinsert, ?_⟩
  refine finishes_select_bind fun w₇ hw₇ => ?_
  split
  · next hlookup =>
    rintro w₈ - _ ⟨⟩
    refine ⟨rfl, fun _ => Or.inr ⟨?_, rfl⟩⟩
    -- Without removals the edge would still be there.
    by_contra hnone
    refine Table.lookup_eq_nil.mp hlookup (hw₇.dependency_keys hnone ?_)
    refine Table.mem_keys.mpr ⟨newDependencyRow data env, ?_, rfl⟩
    rw [(insertDependency_ok hinsert).rows]
    exact List.mem_append_right _ List.mem_cons_self
  · exact finishes_publish

theorem removeDependency_settles (hremoving : removing) (eventBus : Bool)
    (data : RemoveDependencyRequest) :
    (removeDependency eventBus data).Settles legible removing w := by
  unfold removeDependency
  refine settles_select_bind fun w₁ _ => ?_
  split
  · exact settles_raise rfl
  · refine settles_execute_bind fun w₂ _ => ⟨later_deleteDependency hremoving _, ?_⟩
    exact publish_finishes

/-! ### The cut -/

/-- The replay, if there is one, is a release. -/
theorem settles_findReplay {β : Type} {data : CutReleaseRequest} {env : Env}
    {f : Option ReleaseRow → Query β}
    (h : ∀ existing w', Later removing w w' → (∀ row ∈ existing, row ∈ w'.db.releases.rows) →
      (f existing).Settles legible removing w') :
    (findReplay data env >>= f).Settles legible removing w := by
  unfold findReplay
  split
  · exact h none w (Later.refl w) (by simp)
  · refine settles_select_bind fun w₁ hw₁ => h _ w₁ hw₁ fun row hrow => ?_
    exact (List.mem_filter.mp (List.mem_of_getElem? hrow)).1

/-- The load of a release that is there. -/
theorem loadRelease_reads {releaseId : String} (hid : releaseId ∈ w.db.releases.keys) :
    (loadRelease releaseId).Commits (Later removing) (fun r _ => ∃ release, r = .ok release)
      (fun _ _ => False) w := by
  unfold loadRelease
  refine Prog.commits_query_bind fun w₁ hw₁ => Prog.commits_query_bind fun w₂ hw₂ => ?_
  obtain ⟨row, _, _, hlookup⟩ :=
    Table.lookup_eq_singleton_of_mem_keys ((hw₁.trans hw₂).release_keys hid)
  dsimp only
  rw [hlookup]
  exact fun _ _ => ⟨_, rfl⟩

theorem loadRelease_settles {releaseId : String} (hid : releaseId ∈ w.db.releases.keys)
    (created : Bool) :
    Query.Settles legible removing (do
      let release ← loadRelease releaseId
      return (⟨release, created⟩ : CutReleaseResult)) w := by
  refine settles_bind ((loadRelease_reads hid).mono ?_ fun _ _ => id) fun _ _ _ => settles_pure _
  rintro _ _ ⟨release, rfl⟩
  exact endsEarly_ok

theorem loadRelease_finishes {releaseId : String} (hid : releaseId ∈ w.db.releases.keys)
    (created : Bool) :
    Query.Finishes legible removing (do
      let release ← loadRelease releaseId
      return (⟨release, created⟩ : CutReleaseResult)) w := by
  refine finishes_bind ((loadRelease_reads hid).meets.mono ?_) fun _ _ _ => finishes_pure _
  rintro _ _ (⟨release, rfl⟩ | hnone)
  · exact endsLate_ok
  · exact hnone.elim

theorem derive_onlyReads (productId bumpPolicy : String) (active : List ActiveComponent)
    (latestReleaseId : Option String) :
    (derive productId bumpPolicy active latestReleaseId).OnlyReads legible removing w := by
  unfold derive
  split
  · exact onlyReads_pure _
  · have hprior : (priorManifest latestReleaseId).OnlyReads legible removing w := by
      cases latestReleaseId with
      | none => exact onlyReads_pure _
      | some releaseId =>
        exact onlyReads_select .selectPriorManifest fun db => db.priorManifest releaseId
    refine onlyReads_bind hprior fun prior w₁ _ => ?_
    refine onlyReads_select_bind fun w₂ _ => ?_
    exact onlyReads_pure _

/-- The rows of the manifest. -/
theorem finishes_manifest (releaseId : String) (changes : Dict String String)
    (active : List ActiveComponent) :
    Query.Finishes legible removing
      (forM active fun record => insert .insertReleaseComponent fun db =>
        db.insertReleaseComponent (newManifestRow releaseId changes record)) w := by
  induction active generalizing w with
  | nil => exact finishes_pure _
  | cons record rest ih =>
    refine finishes_insert_bind (l := .insertReleaseComponent)
      (g := fun db => db.insertReleaseComponent (newManifestRow releaseId changes record)) ?_
    exact fun w₁ db _ hinsert => ⟨later_insertReleaseComponent hinsert, ih⟩

/-- The version that a cut starts from can be parsed. -/
theorem parse_currentVersion (h : w.db.Legible) {product : ProductRow}
    (hproduct : product ∈ w.db.products.rows) {latest : Option ReleaseRow}
    (hlatest : ∀ r ∈ latest, r ∈ w.db.releases.rows) :
    ∃ core, parseCore (currentVersion product latest) = .ok core := by
  have hok : (parseCore (currentVersion product latest)).isOk = true := by
    cases latest with
    | none => exact h.products product hproduct
    | some r => exact h.releases r (hlatest r rfl)
  cases hparse : parseCore (currentVersion product latest) with
  | ok core => exact ⟨core, rfl⟩
  | error e =>
    rw [hparse] at hok
    cases hok

theorem cutRelease_settles (data : CutReleaseRequest) (env : Env)
    (hlegible : legible → w.db.Legible) :
    (cutRelease data env).Settles legible removing w := by
  unfold cutRelease
  refine settles_select_bind fun w₁ hw₁ => ?_
  split
  · exact settles_raise rfl
  next product rest hlookup =>
  obtain ⟨hproduct, -⟩ := lookup_cons hlookup
  refine settles_findReplay fun existing w₂ hw₂ hexisting => ?_
  split
  · next row => exact loadRelease_settles (Table.key_mem_keys (hexisting row rfl)) false
  refine settles_select_bind fun w₃ hw₃ => settles_refuseIf rfl fun _ => ?_
  refine settles_select_bind fun w₄ hw₄ => ?_
  generalize hlatestEq : w₄.db.latestRelease data.productId = latest
  have hlatest : ∀ r ∈ latest, r ∈ w₄.db.releases.rows := by
    rintro r rfl
    exact (latestRelease_mem hlatestEq).1
  refine settles_bind (derive_onlyReads _ _ _ _) fun derived w₅ hw₅ => ?_
  have hw : Later removing w₁ w₄ := hw₂.trans (hw₃.trans hw₄)
  refine Prog.commits_lift_bind (fun version hversion => ?_) fun e he _ _ => ?_
  · refine settles_insert_bind fun w₆ db hw₆ hinsert => ⟨later_insertRelease ?_ hinsert, ?_⟩
    · intro hdb
      have hwhole := (hw.trans hw₅).trans hw₆
      obtain ⟨core, hcore⟩ := parse_currentVersion hdb (hwhole.products.subset hproduct)
        fun r hr => (hw₅.trans hw₆).releases.subset (hlatest r hr)
      have hparse : parseCore version = .ok (bumpCore derived.bumpLevel core) :=
        apply_bump_core hcore hversion
      show (parseCore version).isOk = true
      rw [hparse]
      rfl
    · have hid : env.ulid ∈ db.releases.keys := by
        refine Table.mem_keys.mpr ⟨newReleaseRow data env version derived, ?_, rfl⟩
        rw [(insertRelease_ok hinsert).rows]
        exact List.mem_append_right _ List.mem_cons_self
      refine finishes_bind (finishes_manifest _ _ _) fun _ w₇ hw₇ => ?_
      exact loadRelease_finishes (hw₇.release_keys hid) true
  · rintro _ ⟨⟩ hl
    obtain ⟨core, hcore⟩ := parse_currentVersion ((hw₁.trans hw).legible (hlegible hl))
      (hw.products.subset hproduct) hlatest
    exact Or.inr (Or.inr (apply_bump_error hcore he))

theorem program_settles (r : Request) (hlegible : legible → w.db.Legible)
    (hremoving : r.1.isRemoval = true → removing) :
    (r.1.program r.2).Settles legible removing w := by
  obtain ⟨call, env⟩ := r
  -- The answer is wrapped by `Response`.
  have hwrap : ∀ {α : Type} (f : α → Response) {p : Query α}, p.Settles legible removing w →
      (f <$> p).Settles legible removing w := by
    intro α f p hp
    refine Prog.commits_bind hp ?_ ?_ ?_ ?_
    · exact fun _ _ _ => settles_pure _
    · exact fun _ _ => endsEarly_error
    · exact fun _ _ _ => finishes_pure _
    · exact fun _ _ => endsLate_error
  cases call with
  | createProduct data => exact hwrap _ (createProduct_settles data env)
  | createComponent data => exact hwrap _ (createComponent_settles data env)
  | createVersion eventBus data =>
    exact hwrap _ (createVersion_settles eventBus data env hlegible)
  | rollbackVersion eventBus data =>
    exact hwrap _ (rollbackVersion_settles eventBus data env hlegible)
  | addDependency eventBus data => exact hwrap _ (addDependency_settles eventBus data env)
  | removeDependency eventBus data =>
    exact hwrap _ (removeDependency_settles (hremoving rfl) eventBus data)
  | cutRelease data => exact hwrap _ (cutRelease_settles data env hlegible)

theorem start_commits (legible removing : Prop) (requests : List Request)
    (hlegible : legible → w.db.Legible)
    (hremoving : ∀ r ∈ requests, r.1.isRemoval = true → removing) :
    (Call.start w requests).Commits (Later removing) (fun _ r _ => EndsEarly legible r)
      (fun _ r _ => EndsLate legible removing r) := by
  intro i p hp
  have hmem : p ∈ (Call.start w requests).procs := List.mem_of_getElem? hp
  obtain ⟨r, hr, rfl⟩ := List.mem_map.mp hmem
  exact Or.inl (program_settles r hlegible (hremoving r hr))

end RefusalsLemmas

open RefusalsLemmas

/-- A call that is refused with a domain error might as well not have been sent: without its
steps the schedule leaves the same store and the same events, and the other calls end alike. -/
theorem refused_call_traceless (w : World) (requests : List Request) (schedule : List Nat)
    (i : Nat) (error : ApiError) (hdomain : error.isDomain = true)
    (houtcome : ((Call.start w requests).exec schedule).outcome i = some (.error error)) :
    let c := (Call.start w requests).exec schedule
    let c' := (Call.start w requests).exec (schedule.filter (· ≠ i))
    c'.state = c.state ∧ ∀ j ≠ i, c'.outcome j = c.outcome j := by
  have hall := start_commits (w := w) False True requests False.elim
    fun _ _ _ => trivial
  have hlate : ∀ s : World, ¬ EndsLate False True (.error error : Except ApiError Response) := by
    intro s hend
    rw [(hend error rfl).1] at hdomain
    cases hdomain
  obtain ⟨hstate, hprocs⟩ := Config.exec_without hall hlate houtcome
  refine ⟨hstate, fun j hj => ?_⟩
  unfold Config.outcome
  rw [hprocs j hj]

/-- The error that a call has ended with. -/
def errorOf {α : Type} : Option (Except ApiError α) → Option ApiError
  | some (.error error) => some error
  | _ => none

theorem eq_of_errorOf {α : Type} {o : Option (Except ApiError α)} {error : ApiError}
    (h : errorOf o = some error) : o = some (.error error) := by
  unfold errorOf at h
  split at h
  · cases h
    rfl
  · cases h

namespace Sample

/-- Two calls that create a product of the same name. -/
def twins : List Request := [(.createProduct aurora, env 10), (.createProduct aurora, env 13)]

/-- The first one inserts its row before the second one looks for the name. -/
def twinSchedule : List Nat := [0, 0, 1, 0]

end Sample

theorem refused_call_traceless_twins :
    ((Call.start World.init Sample.twins).exec [0, 0, 0]).state =
      ((Call.start World.init Sample.twins).exec Sample.twinSchedule).state := by
  have hrefused : errorOf (((Call.start World.init Sample.twins).exec
      Sample.twinSchedule).outcome 1) =
        some (.conflict "A product named 'Aurora' already exists." [("name", "Aurora")]) := by
    decide +kernel
  exact (refused_call_traceless World.init Sample.twins Sample.twinSchedule 1 _ rfl
    (eq_of_errorOf hrefused)).1

namespace Sample

/-- An edge is added while another call removes it. -/
def edgeRace : List Request :=
  [(.addDependency true ⟨id 10, id 11, id 12⟩, env 40),
   (.removeDependency true ⟨id 10, id 11, id 12⟩, env 41)]

/-- The removal runs between the insertion of the edge and the read back. -/
def edgeRaceSchedule : List Nat := [0, 0, 0, 0, 0, 0, 1, 1, 1, 0]

end Sample

/-- The exception is real. -/
example :
    errorOf (((Call.start (run World.init Sample.setup) Sample.edgeRace).exec
      Sample.edgeRaceSchedule).outcome 0) = some edgeNotFound := by
  decide +kernel

end LavsCore
