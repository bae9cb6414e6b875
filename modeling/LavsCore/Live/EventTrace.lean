import LavsCore.Lib.History
import LavsCore.Live.Endpoints
import LavsCore.Queries.Impact

/-!
# Events mirror commits

A request of the API writes, with the bus of the service, or only reads.

`events_mirror_commits`: in every run, from every store, the events published for a product
are one for each request that creates or rolls back a version of it, adds or removes an
edge of it, or cuts a fresh release of it, in this order; each names the rows that are there
afterwards, or were there before. Whatever fails, reads or replays a cut publishes nothing.
-/

namespace LavsCore

open Store CacheSimulationLemmas

/-! ## Requests -/

/-- The routes that read. -/
inductive ReadCall where
  | timeline (productId : String)
  | graph (productId : String)
  | impact (data : ImpactRequest)
  | releases (productId : String)
  | release (releaseId : String)

/-- What a read leaves. -/
def ReadCall.exec (w : World) : ReadCall → World
  | .timeline productId => ((getTimeline productId).run w).2
  | .graph productId => ((getProductGraph productId).run w).2
  | .impact data => ((readImpact data).run w).2
  | .releases productId => ((listReleasesByProduct productId).run w).2
  | .release releaseId => ((getReleaseById releaseId).run w).2

/-- The call is made as the routes make it: with the bus, where the query takes one. -/
def Call.wired : Call → Bool
  | .createProduct _ | .createComponent _ | .cutRelease _ => true
  | call => call.live

inductive ApiRequest where
  | write (call : Call) (env : Env) (wired : call.wired = true)
  | read (call : ReadCall)

/-- What a request leaves. -/
def serve (w : World) : ApiRequest → World
  | .write call env _ => respond w (call, env)
  | .read call => call.exec w

/-! ## Commits -/

namespace Store

/-- The call is about the product: it names it, or a component or a version of it. -/
def Concerns (db : Store) (productId : String) : Call → Prop
  | .createVersion _ data => db.OwnsComponent productId data.componentId
  | .rollbackVersion _ data =>
      ∃ v ∈ db.versions.rows, v.id = data.versionId ∧ db.OwnsComponent productId v.componentId
  | .addDependency _ data => data.productId = productId
  | .removeDependency _ data => data.productId = productId
  | .cutRelease data => data.productId = productId
  | .createProduct _ | .createComponent _ => False

end Store

/-- The call succeeds; a cut is fresh. -/
def succeeds : Except ApiError Response → Bool
  | .ok (.release result) => result.created
  | .ok _ => true
  | .error _ => false

/-- The request writes, succeeds and is about the product. -/
def Commits (productId : String) (w : World) : ApiRequest → Prop
  | .write call env _ =>
      w.db.Concerns productId call ∧ succeeds (outcome w (call, env)) = true
  | .read _ => False

/-- The event of a call, and the rows it names: rows of the product, in the store after the
call, or before it where the call removes them. -/
inductive Names (productId : String) (db db' : Store) : Call → DomainEvent → Prop
  | created {data : CreateVersionModel} {row : VersionRow} (hrow : row ∈ db'.versions.rows)
      (hnew : row.id ∉ db.versions.keys) (hof : row.componentId = data.componentId)
      (howns : db'.OwnsComponent productId row.componentId) :
      Names productId db db' (.createVersion true data) (versionCreated productId (versionView row))
  | rolledBack {data : RollbackVersionRequest} {target previous : VersionRow}
      (htarget : target ∈ db'.versions.rows) (hid : target.id = data.versionId)
      (hrolled : target.status = some .rolledBack) (hprevious : previous ∈ db'.versions.rows)
      (hof : previous.componentId = target.componentId) (hactive : previous.status = some .active)
      (howns : db'.OwnsComponent productId target.componentId) :
      Names productId db db' (.rollbackVersion true data)
        (versionRolledBack productId (versionView target) (versionView previous))
  | added {data : CreateDependencyRequest} {row : DependencyRow}
      (hrow : row ∈ db'.dependencies.rows) (hnew : row.id ∉ db.dependencies.keys)
      (hkey : row.key = (productId, data.fromComponentId, data.toComponentId)) :
      Names productId db db' (.addDependency true data)
        (dependencyAdded productId (toDependencyResponse row))
  | removed {data : RemoveDependencyRequest} {edge : DependencyRow}
      (hrow : edge ∈ db.dependencies.rows) (hgone : edge.id ∉ db'.dependencies.keys)
      (hkey : edge.key = (productId, data.fromComponentId, data.toComponentId)) :
      Names productId db db' (.removeDependency true data) (dependencyRemoved data edge.id)
  | cut {data : CutReleaseRequest} {row : ReleaseRow} (hrow : row ∈ db'.releases.rows)
      (hnew : row.id ∉ db.releases.keys) (hproduct : row.productId = productId) :
      Names productId db db' (.cutRelease data) (releaseCut productId (db'.cutView row))

/-- One event for each commit of the product, and none for the other requests. -/
inductive Mirrored (productId : String) : World → List ApiRequest → List DomainEvent → Prop
  | done (w : World) : Mirrored productId w [] []
  | commit {w : World} {call : Call} {env : Env} {wired : call.wired = true}
      {rest : List ApiRequest} {event : DomainEvent} {events : List DomainEvent}
      (hcommits : Commits productId w (.write call env wired))
      (hnames : Names productId w.db (respond w (call, env)).db call event)
      (hrest : Mirrored productId (respond w (call, env)) rest events) :
      Mirrored productId w (.write call env wired :: rest) (event :: events)
  | silent {w : World} {request : ApiRequest} {rest : List ApiRequest} {events : List DomainEvent}
      (hnot : ¬ Commits productId w request)
      (hrest : Mirrored productId (serve w request) rest events) :
      Mirrored productId w (request :: rest) events

/-- The request reads, fails, or replays a cut. -/
def Silent (w : World) : ApiRequest → Prop
  | .write call env _ => (∃ error, outcome w (call, env) = .error error) ∨
      ∃ release, outcome w (call, env) = .ok (.release ⟨release, false⟩)
  | .read _ => True

/-! ## Reads -/

namespace EventTraceLemmas

open Query Prog

theorem readOnly_select {α : Type} (statement : Sql) (f : Store → α) :
    ReadOnly (select statement f) := readOnly_query _ _

theorem readOnly_refuseIf (refused : Bool) (error : ApiError) :
    ReadOnly (refuseIf refused error) := by
  cases refused with
  | false => exact readOnly_pure _
  | true => exact readOnly_raise _

theorem readOnly_readManifests (releaseIds : List String) :
    ReadOnly (readManifests releaseIds) := by
  unfold readManifests readManifestsIn
  split
  · exact readOnly_pure _
  · exact (readOnly_select _ _).bind fun _ => readOnly_pure _

theorem readCall_exec (w : World) (call : ReadCall) : call.exec w = w := by
  cases call with
  | timeline productId =>
    refine ReadOnly.bind ?_ (fun timeline => ?_) w
    · refine (readOnly_select _ _).bind fun products => ?_
      cases products with
      | nil => exact readOnly_pure _
      | cons product rest =>
        refine (readOnly_select _ _).bind fun rows => (readOnly_lift _).bind fun grouped => ?_
        exact (readOnly_select _ _).bind fun _ => readOnly_pure _
    · cases timeline with
      | none => exact readOnly_raise _
      | some timeline => exact readOnly_pure _
  | graph productId =>
    refine ReadOnly.bind (readOnly_select _ _) (fun products => ?_) w
    refine (readOnly_refuseIf _ _).bind fun _ => (readOnly_select _ _).bind fun components => ?_
    exact (readOnly_select _ _).bind fun _ => readOnly_pure _
  | impact data =>
    refine ReadOnly.bind (readOnly_select _ _) (fun products => ?_) w
    refine (readOnly_refuseIf _ _).bind fun _ => (readOnly_select _ _).bind fun component => ?_
    refine (readOnly_refuseIf _ _).bind fun _ => (readOnly_select _ _).bind fun ids => ?_
    exact (readOnly_select _ _).bind fun _ => readOnly_pure _
  | releases productId =>
    refine ReadOnly.bind (readOnly_select _ _) (fun products => ?_) w
    refine (readOnly_refuseIf _ _).bind fun _ => (readOnly_select _ _).bind fun rows => ?_
    exact (readOnly_readManifests _).bind fun _ => readOnly_pure _
  | release releaseId =>
    refine ReadOnly.bind (readOnly_select _ _) (fun rows => ?_) w
    cases rows with
    | nil => exact readOnly_raise _
    | cons row rest => exact (readOnly_readManifests _).bind fun _ => readOnly_pure _

/-! ## One write -/

/-- A call that succeeds (`ok`) publishes one event, for the product it is about. -/
def PublishesFor (productId : String) (w : World) (call : Call) (ok : Bool) (w' : World) : Prop :=
  (w.db.Concerns productId call ∧ ok = true ∧ ∃ event,
    w'.published = w.published ++ [event] ∧ event.productId = productId ∧
      Names productId w.db w'.db call event) ∨
  (¬ (w.db.Concerns productId call ∧ ok = true) ∧ ∃ new,
    w'.published = w.published ++ new ∧ ∀ event ∈ new, event.productId ≠ productId)

section

variable {productId : String} {w w' : World} {env : Env}

/-- A call that fails publishes nothing. -/
theorem publishesFor_failed {call : Call} (h : w'.published = w.published) :
    PublishesFor productId w call false w' :=
  Or.inr ⟨fun h => Bool.noConfusion h.2, [], h.trans (List.append_nil _).symm,
    fun _ h => (List.not_mem_nil h).elim⟩

/-- A call whose event is for a product that decides whether the call is about this one. -/
theorem publishesFor_ok {call : Call} {event : DomainEvent}
    (hpublished : w'.published = w.published ++ [event])
    (hconcerns : w.db.Concerns productId call ↔ event.productId = productId)
    (hnames : event.productId = productId → Names productId w.db w'.db call event) :
    PublishesFor productId w call true w' := by
  rcases Classical.em (event.productId = productId) with hproduct | hproduct
  · exact Or.inl ⟨hconcerns.mpr hproduct, rfl, event, hpublished, hproduct, hnames hproduct⟩
  · refine Or.inr ⟨fun h => hproduct (hconcerns.mp h.1), [event], hpublished, fun e he => ?_⟩
    rw [List.mem_singleton.mp he]
    exact hproduct

/-- The product that a known component belongs to. -/
theorem ownsComponent_iff {db : Store} {component : ComponentRow} {componentId : String}
    (hcomponent : component ∈ db.components.rows) (hid : component.id = componentId) :
    db.OwnsComponent productId componentId ↔ component.productId = productId := by
  constructor
  · rintro ⟨c, hc, hcid, rfl⟩
    rw [Table.eq_of_key_eq hcomponent hc (hid.trans hcid.symm)]
  · exact fun hproduct => ⟨component, hcomponent, hid, hproduct⟩

theorem publishesFor_createVersion {data : CreateVersionModel}
    {answer : Except ApiError VersionResponseModel}
    (h : CreateVersionOutcome true data env w answer w') :
    PublishesFor productId w (.createVersion true data) answer.isOk w' := by
  cases h with
  | unknown _ => exact publishesFor_failed rfl
  | refused _ _ _ _ _ => exact publishesFor_failed rfl
  | created hcomponent hid hmajor hminor hpatch hinsert hread =>
    obtain ⟨-, rfl⟩ := toVersionResponse_eq_ok.mp hread
    have hinserted := insertVersion_ok hinsert
    have howns : w.db.OwnsComponent productId data.componentId ↔ _ :=
      ownsComponent_iff hcomponent hid
    refine publishesFor_ok rfl howns ?_
    rintro rfl
    refine .created ?_ ?_ rfl ?_
    · rw [hinserted.rows]
      exact List.mem_append_right _ List.mem_cons_self
    · have hfresh := hinserted.admitted.2.1
      rwa [supersedeActive_eq, setStatus_keys] at hfresh
    · obtain ⟨c, hc, hcid, hcp⟩ := howns.mpr rfl
      exact ⟨c, hinserted.components ▸ hc, hcid, hcp⟩

theorem publishesFor_addDependency {data : CreateDependencyRequest}
    {answer : Except ApiError DependencyResponseModel}
    (h : AddDependencyOutcome true data env w answer w') :
    PublishesFor productId w (.addDependency true data) answer.isOk w' := by
  cases h with
  | rejected _ _ => exact publishesFor_failed rfl
  | refused _ _ => exact publishesFor_failed rfl
  | added _ hinsert =>
    have hinserted := insertDependency_ok hinsert
    refine publishesFor_ok rfl Iff.rfl ?_
    rintro rfl
    refine .added ?_ hinserted.fresh rfl
    rw [hinserted.rows]
    exact List.mem_append_right _ List.mem_cons_self

theorem publishesFor_removeDependency {data : RemoveDependencyRequest}
    {answer : Except ApiError PUnit} (h : RemoveDependencyOutcome true data w answer w') :
    PublishesFor productId w (.removeDependency true data) answer.isOk w' := by
  cases h with
  | unknown _ => exact publishesFor_failed rfl
  | removed hrow hkey =>
    refine publishesFor_ok rfl Iff.rfl ?_
    rintro rfl
    refine .removed hrow (fun hmem => ?_) hkey
    obtain ⟨edge, hedge, hid⟩ := Table.mem_keys.mp hmem
    exact of_decide_eq_true (List.mem_filter.mp hedge).2 hid

/-- What a rollback makes of its target and of the predecessor. -/
theorem rolledBack_status {db : Store} {target previous : VersionRow}
    (htarget : target ∈ db.versions.rows) (hprevious : previous ∈ db.versions.rows)
    (hne : previous.id ≠ target.id) :
    { target with status := some .rolledBack } ∈ (db.rollback target previous).versions.rows ∧
      { previous with status := some .active } ∈ (db.rollback target previous).versions.rows := by
  constructor
  · have hmarked : withStatus .rolledBack (fun v => v.id = target.id) target
        = { target with status := some .rolledBack } := withStatus_of_pos (by simp)
    have hkept : withStatus .superseded (VersionRow.isActiveOf target.componentId)
        { target with status := some .rolledBack }
        = { target with status := some .rolledBack } :=
      withStatus_of_not (by simp [VersionRow.isActiveOf])
    have hrow : rolledBackRow target previous target
        = { target with status := some .rolledBack } := by
      rw [rolledBackRow, hmarked, hkept]
      exact withStatus_of_not (decide_eq_false (Ne.symm hne))
    rw [rollback_rows, ← hrow]
    exact List.mem_map_of_mem htarget
  · exact (Table.mem_lookup.mp (rollback_lookup hprevious ▸ List.mem_cons_self)).1

theorem publishesFor_rollbackVersion (data : RollbackVersionRequest) :
    PublishesFor productId w (.rollbackVersion true data)
      ((rollbackVersion true data env).run w).1.isOk ((rollbackVersion true data env).run w).2 := by
  cases hanswer : ((rollbackVersion true data env).run w).1 with
  | error error =>
    obtain ⟨new, hnew, hcompletes⟩ :=
      EndpointLemmas.publishesOne_rollbackVersion (rollbackVersion_run true data env w)
    rw [hanswer] at hcompletes
    cases new with
    | none => exact publishesFor_failed (hnew.trans (List.append_nil _))
    | some event => exact Bool.noConfusion (hcompletes (Option.some_ne_none event)).2
  | ok version =>
    obtain ⟨target, htarget, hid, previous, hprevious, component, hcomponent, hcid, hrun⟩ :=
      rollbackVersion_ok hanswer
    obtain ⟨hrow, hof, hne, -⟩ := mem_selectPrevious hprevious
    obtain ⟨hrolled, hactive⟩ := rolledBack_status htarget hrow hne
    rw [hrun]
    have howns : w.db.OwnsComponent productId target.componentId ↔ _ :=
      ownsComponent_iff hcomponent hcid
    refine publishesFor_ok rfl ?_ ?_
    · constructor
      · rintro ⟨v, hv, hvid, hvowns⟩
        cases Table.eq_of_key_eq htarget hv (hid.trans hvid.symm)
        exact howns.mp hvowns
      · exact fun hproduct => ⟨target, htarget, hid, howns.mpr hproduct⟩
    · rintro rfl
      show Names _ _ _ _ (versionRolledBack component.productId
        (versionView { target with status := some .rolledBack }) _)
      exact .rolledBack hrolled hid rfl hactive hof rfl (howns.mpr rfl)

theorem publishesFor_cutRelease (data : CutReleaseRequest) :
    PublishesFor productId w (.cutRelease data)
      (succeeds ((Response.release <$> cutRelease data env).run w).1)
      (respond w (.cutRelease data, env)) := by
  have hrun := cutRelease_run data env w
  have hpublished := EndpointLemmas.cutRelease_published data env w
  rw [EndpointLemmas.respond_cut, Prog.run_map]
  cases hp : (cutRelease data env).run w with
  | mk answer w' =>
    rw [hp] at hrun hpublished
    change CutReleaseOutcome data env w answer w' at hrun
    have hfailed : ∀ {events : List DomainEvent}, events = [] →
        w'.published ++ events = w.published := by
      rintro _ rfl
      rw [List.append_nil]
      exact hpublished
    cases hrun with
    | cut hproduct hid hreplay hactive hversion hinsert hmanifest =>
      refine publishesFor_ok rfl Iff.rfl ?_
      rintro rfl
      exact .cut (mem_releases_of_manifest hinsert hmanifest) (insertRelease_ok hinsert).fresh rfl
    | _ => exact publishesFor_failed (hfailed rfl)

theorem succeeds_map {α : Type} (f : α → Response) (hf : ∀ a, succeeds (.ok (f a)) = true)
    (p : Query α) (w : World) : succeeds ((f <$> p).run w).1 = (p.run w).1.isOk := by
  rw [Prog.run_map]
  rcases p.run w with ⟨_ | a, _⟩
  · rfl
  · exact hf a

/-- A call that is about no product publishes nothing. -/
theorem publishesFor_none {call : Call} {ok : Bool} (hnone : ¬ w.db.Concerns productId call)
    (h : w'.published = w.published) : PublishesFor productId w call ok w' :=
  Or.inr ⟨fun h => hnone h.1, [], h.trans (List.append_nil _).symm,
    fun _ h => (List.not_mem_nil h).elim⟩

theorem publishesFor_respond (productId : String) (w : World) (call : Call) (env : Env)
    (wired : call.wired = true) :
    PublishesFor productId w call (succeeds (outcome w (call, env))) (respond w (call, env)) := by
  -- below the wrapping of the answer
  have hwrap : ∀ {α : Type} (f : α → Response) (p : Query α),
      (∀ a, succeeds (.ok (f a)) = true) →
      PublishesFor productId w call (p.run w).1.isOk (p.run w).2 →
        PublishesFor productId w call (succeeds ((f <$> p).run w).1) ((f <$> p).run w).2 := by
    intro α f p hf h
    rw [succeeds_map f hf, (RunLemmas.answered_map f p w).1]
    exact h
  cases call with
  | createProduct data =>
    refine publishesFor_none id ?_
    show ((Response.product <$> createProduct data env).run w).2.published = _
    rw [(RunLemmas.answered_map _ _ w).1]
    have hrun := createProduct_run data env w
    generalize ((createProduct data env).run w).1 = answer at hrun
    generalize ((createProduct data env).run w).2 = w' at hrun ⊢
    cases hrun <;> rfl
  | createComponent data =>
    refine publishesFor_none id ?_
    show ((Response.component <$> createComponent data env).run w).2.published = _
    rw [(RunLemmas.answered_map _ _ w).1]
    have hrun := createComponent_run data env w
    generalize ((createComponent data env).run w).1 = answer at hrun
    generalize ((createComponent data env).run w).2 = w' at hrun ⊢
    cases hrun <;> rfl
  | createVersion eventBus data =>
    obtain rfl : eventBus = true := wired
    exact hwrap _ _ (fun _ => rfl) (publishesFor_createVersion (createVersion_run true data env w))
  | rollbackVersion eventBus data =>
    obtain rfl : eventBus = true := wired
    exact hwrap _ _ (fun _ => rfl) (publishesFor_rollbackVersion data)
  | addDependency eventBus data =>
    obtain rfl : eventBus = true := wired
    exact hwrap _ _ (fun _ => rfl) (publishesFor_addDependency (addDependency_run true data env w))
  | removeDependency eventBus data =>
    obtain rfl : eventBus = true := wired
    exact hwrap _ _ (fun _ => rfl)
      (publishesFor_removeDependency (removeDependency_run true data w))
  | cutRelease data => exact publishesFor_cutRelease data

/-- A call that does not succeed publishes for no product. -/
theorem published_of_not_succeeds (w : World) (call : Call) (env : Env)
    (wired : call.wired = true) (h : succeeds (outcome w (call, env)) = false) :
    (respond w (call, env)).published = w.published := by
  have hnew : ∀ productId, ∃ new, (respond w (call, env)).published = w.published ++ new ∧
      ∀ event ∈ new, event.productId ≠ productId := by
    intro productId
    rcases publishesFor_respond productId w call env wired with ⟨-, hok, -⟩ | ⟨-, hnew⟩
    · rw [h] at hok
      cases hok
    · exact hnew
  obtain ⟨new, hpublished, -⟩ := hnew ""
  cases new with
  | nil => exact hpublished.trans (List.append_nil _)
  | cons event rest =>
    -- it is published for its own product
    obtain ⟨other, hother, hnone⟩ := hnew event.productId
    have hsame := List.append_cancel_left (hpublished.symm.trans hother)
    exact absurd rfl (hnone event (hsame ▸ List.mem_cons_self))

/-! ## Whole runs -/

theorem mirrored_run (productId : String) (w : World) (requests : List ApiRequest) :
    ∃ events, Mirrored productId w requests events ∧
      (History.run serve w requests).published.filter (fun e => e.productId = productId) =
        w.published.filter (fun e => e.productId = productId) ++ events := by
  induction requests generalizing w with
  | nil => exact ⟨[], .done w, (List.append_nil _).symm⟩
  | cons request rest ih =>
    obtain ⟨events, hmirrored, hevents⟩ := ih (serve w request)
    rw [History.run_cons, hevents]
    cases request with
    | read call =>
      refine ⟨events, .silent id hmirrored, ?_⟩
      rw [serve, readCall_exec]
    | write call env wired =>
      rcases publishesFor_respond productId w call env wired with
        ⟨hconcerns, hok, event, hpublished, hproduct, hnames⟩ | ⟨hnot, new, hpublished, hother⟩
      · refine ⟨event :: events, .commit ⟨hconcerns, hok⟩ hnames hmirrored, ?_⟩
        rw [serve, hpublished, List.filter_append, List.filter_singleton, decide_eq_true hproduct]
        simp
      · refine ⟨events, .silent hnot hmirrored, ?_⟩
        have hnone : new.filter (fun e => decide (e.productId = productId)) = [] :=
          List.filter_eq_nil_iff.mpr fun e he => by simpa using hother e he
        rw [serve, hpublished, List.filter_append, hnone, List.append_nil]

end

end EventTraceLemmas

open EventTraceLemmas

/-- In every run of requests the events of a product are those of its writes that are committed,
one for each and in their order; and a request that fails, or replays a release, publishes
nothing. -/
theorem events_mirror_commits (db : Store) (requests : List ApiRequest) :
    (∀ productId, Mirrored productId ⟨db, []⟩ requests
      ((History.run serve ⟨db, []⟩ requests).published.filter
        fun event => event.productId = productId)) ∧
    ∀ request, Silent (History.run serve ⟨db, []⟩ requests) request →
      (serve (History.run serve ⟨db, []⟩ requests) request).published =
        (History.run serve ⟨db, []⟩ requests).published := by
  constructor
  · intro productId
    obtain ⟨events, hmirrored, hevents⟩ := mirrored_run productId ⟨db, []⟩ requests
    rw [List.filter_nil, List.nil_append] at hevents
    rwa [hevents]
  · intro request hsilent
    cases request with
    | read call => rw [serve, readCall_exec]
    | write call env wired =>
      refine published_of_not_succeeds _ call env wired ?_
      rcases hsilent with ⟨error, herror⟩ | ⟨release, hreplay⟩
      · rw [herror]
        rfl
      · rw [hreplay]
        rfl

end LavsCore
