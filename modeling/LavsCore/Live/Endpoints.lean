import LavsCore.Invariants.ReleaseLedger
import LavsCore.Live.CacheSimulation

/-!
# What the client caches, and what tells it to ask again

The routes behind the three query keys (`answer`), the routes that write (`respond`), and
the events of a write for one product (`announced`).

`served_respond`: for a known product every route goes on answering, whatever is written.
`answer_respond`: a write that completes, and that is not the creation of a product or a
component, announces every answer it changes. The creation of a component announces
nothing, and neither does a write that fails half-way.
-/

namespace LavsCore

open Store CacheSimulationLemmas ReleaseLedgerLemmas

/-! ## Routes -/

/-- The route behind a query key. -/
def endpoint (productId : String) : (key : QueryKey) → Query key.Data
  | .timeline => getTimeline productId
  | .graph => getProductGraph productId
  | .releases => listReleasesByProduct productId

/-- What the route answers. -/
def answer (productId : String) (key : QueryKey) (w : World) : Except ApiError key.Data :=
  ((endpoint productId key).run w).1

/-- A route that writes. A cut publishes in the route, every other call in its query. -/
def respond (w : World) (r : Request) : World :=
  match r.1 with
  | .cutRelease data => ((postRelease data r.2).run w).2
  | _ => exec w r

/-- The events that a write publishes for a product. -/
def announced (productId : String) (w : World) (r : Request) : List DomainEvent :=
  ((respond w r).published.drop w.published.length).filter fun event => event.productId = productId

/-- The query key that an event is for, if the client can read it. -/
def eventKey (event : DomainEvent) : Option QueryKey := (parseEvent event).map ProductEvent.key

/-- The calls that publish: all but the creation of products and components, on a service
with a bus. -/
def Call.publishes : Call → Bool
  | .cutRelease _ => true
  | call => call.live

/-! ## Views -/

namespace Store

/-- The releases of a product, newest first. -/
def ledgerView (db : Store) (productId : String) : List ReleaseResponseModel :=
  (db.releasesOf productId).map db.readView

/-- The product is known, every version can be shown, and every manifest is sound. -/
structure Served (db : Store) (productId : String) : Prop where
  known : productId ∈ db.products.keys
  shown : ∀ v ∈ db.versions.rows, v.Shown
  sound : db.ManifestSound

end Store

namespace EndpointLemmas

variable {productId : String} {w : World} {db db' : Store}

theorem answer_timeline {product : ProductRow} (hproduct : product ∈ w.db.products.rows)
    (hserved : w.db.Served product.id) :
    answer product.id .timeline w = .ok (w.db.timelineView product) :=
  getTimeline_ok_iff.mpr ⟨product, hproduct, rfl,
    fun v hv => hserved.shown v (mem_versionsOf.mp hv).1, rfl⟩

theorem answer_graph (hserved : w.db.Served productId) :
    answer productId .graph w = .ok (w.db.graphView productId) :=
  getProductGraph_ok_iff.mpr ⟨hserved.known, rfl⟩

theorem answer_releases (hserved : w.db.Served productId) :
    answer productId .releases w = .ok (w.db.ledgerView productId) := by
  show ((listReleasesByProduct productId).run w).1 = _
  rw [run_listReleasesByProduct hserved.known]
  rfl

/-- For a known product every route answers. -/
theorem exists_answer (hserved : w.db.Served productId) (key : QueryKey) :
    ∃ data, answer productId key w = .ok data := by
  obtain ⟨product, hproduct, rfl⟩ := Table.mem_keys.mp hserved.known
  cases key with
  | timeline => exact ⟨_, answer_timeline hproduct hserved⟩
  | graph => exact ⟨_, answer_graph hserved⟩
  | releases => exact ⟨_, answer_releases hserved⟩

/-! ## What does not change an answer -/

/-- The ledger shows releases that are there as it showed them. -/
theorem ledgerView_of_extends (h : db.Extends db') (hsound : db.ManifestSound)
    (hreleases : db'.releasesOf productId = db.releasesOf productId) :
    db'.ledgerView productId = db.ledgerView productId := by
  rw [ledgerView, ledgerView, hreleases]
  refine List.map_congr_left fun row hrow => ?_
  exact readView_of_extends h hsound (mem_releasesOf.mp hrow).1

/-- A timeline whose components keep their versions. -/
theorem timelineView_of_versions {product : ProductRow}
    (hcomponents : db'.components = db.components)
    (hversions : ∀ c ∈ db.componentsOf product.id,
      (db'.versions.rows.filter fun v => v.componentId = c.id) =
        db.versions.rows.filter fun v => v.componentId = c.id) :
    db'.timelineView product = db.timelineView product := by
  rw [Store.timelineView, Store.timelineView, componentsOf_congr hcomponents]
  congr 1
  refine List.map_congr_left fun c hc => ?_
  rw [Store.componentView, versionsOfComponent, hversions c hc]
  rfl

/-- The component of another product is none of this one. -/
theorem ne_of_componentsOf {component c : ComponentRow}
    (hcomponent : component ∈ db.components.rows) (hproduct : component.productId ≠ productId)
    (hc : c ∈ db.componentsOf productId) : component.id ≠ c.id := by
  obtain ⟨hrow, hcp⟩ := mem_componentsOf.mp hc
  intro hid
  exact hproduct (Table.eq_of_key_eq hcomponent hrow hid ▸ hcp)

/-- A rollback does not concern the other components. -/
theorem filter_rolledBack_of_ne {target previous : VersionRow} {choice : Nat}
    (htarget : target ∈ db.versions.rows) (hprevious : previous ∈ selectPrevious db target choice)
    {componentId : String} (hne : target.componentId ≠ componentId) :
    ((db.rollback target previous).versions.rows.filter fun v => v.componentId = componentId) =
      db.versions.rows.filter fun v => v.componentId = componentId := by
  obtain ⟨hprow, hpc, _⟩ := mem_selectPrevious hprevious
  rw [rollback_rows, List.filter_map]
  simp only [Function.comp_def, rolledBackRow_componentId]
  refine (List.map_congr_left fun v hv => ?_).trans (List.map_id _)
  obtain ⟨hrow, hvc⟩ := List.mem_filter.mp hv
  have hvid : v.componentId = componentId := of_decide_eq_true hvc
  have hvt : v.id ≠ target.id := by
    intro hid
    exact hne (Table.eq_of_key_eq hrow htarget hid ▸ hvid)
  have hvp : v.id ≠ previous.id := by
    intro hid
    exact hne (hpc.symm.trans (Table.eq_of_key_eq hrow hprow hid ▸ hvid))
  have hactive : v.isActiveOf target.componentId = false := by
    simp [VersionRow.isActiveOf, hvid, Ne.symm hne]
  exact rolledBackRow_of_not hvt hvp hactive

/-! ## Writes through the routes -/

/-- What the route of a cut publishes, by what the query answers. -/
def cutEvents (productId : String) : Except ApiError CutReleaseResult → List DomainEvent
  | .ok result => if result.created then [releaseCut productId result.release] else []
  | .error _ => []

/-- The route of a cut does what the query does, and publishes a fresh release. -/
theorem respond_cut (w : World) (data : CutReleaseRequest) (env : Env) :
    respond w (.cutRelease data, env) =
      { ((cutRelease data env).run w).2 with
        published := ((cutRelease data env).run w).2.published ++
          cutEvents data.productId ((cutRelease data env).run w).1 } := by
  show ((postRelease data env).run w).2 = _
  cases hrun : (cutRelease data env).run w with
  | mk answer w' =>
    cases answer with
    | error error => simp [postRelease, hrun, cutEvents]
    | ok result =>
      cases hcreated : result.created with
      | false => simp [postRelease, hrun, hcreated, cutEvents]
      | true => simp [postRelease, hrun, hcreated, cutEvents]

/-- A cut alone publishes nothing. -/
theorem cutRelease_published (data : CutReleaseRequest) (env : Env) (w : World) :
    ((cutRelease data env).run w).2.published = w.published := by
  have h := cutRelease_run data env w
  generalize ((cutRelease data env).run w).1 = answer at h
  generalize ((cutRelease data env).run w).2 = w' at h ⊢
  cases h <;> rfl

theorem respond_db (w : World) (r : Request) : (respond w r).db = (exec w r).db := by
  obtain ⟨call, env⟩ := r
  cases call with
  | cutRelease data =>
    rw [respond_cut, exec, Call.program, (RunLemmas.answered_map _ _ w).1]
  | _ => rfl

theorem isOk_map {α β : Type} (f : α → β) (p : Query α) (w : World) :
    ((f <$> p).run w).1.isOk = (p.run w).1.isOk := by
  rw [Prog.run_map]
  rcases p.run w with ⟨_ | _, _⟩ <;> rfl

/-! ## What a write publishes -/

/-- One event at most is published, and only by a call that publishes and completes. -/
def PublishesOne {α : Type} (publishes : Bool) (w : World) (answer : Except ApiError α)
    (w' : World) : Prop :=
  ∃ new : Option DomainEvent, w'.published = w.published ++ new.toList ∧
    (new ≠ none → publishes = true ∧ answer.isOk = true)

section PublishesOne

variable {α : Type} {w w' : World} {env : Env} {publishes eventBus : Bool}

theorem publishesOne_none {answer : Except ApiError α} (h : w'.published = w.published) :
    PublishesOne publishes w answer w' :=
  ⟨none, h.trans (List.append_nil _).symm, fun h => absurd rfl h⟩

theorem publishesOne_bus {db : Store} {event : DomainEvent} {a : α} :
    PublishesOne eventBus w (.ok a) ⟨db, w.published ++ if eventBus then [event] else []⟩ := by
  cases eventBus with
  | false => exact ⟨none, rfl, fun h => absurd rfl h⟩
  | true => exact ⟨some event, rfl, fun _ => ⟨rfl, rfl⟩⟩

theorem publishesOne_map {β : Type} (f : α → β) {p : Query α}
    (h : PublishesOne publishes w (p.run w).1 (p.run w).2) :
    PublishesOne publishes w ((f <$> p).run w).1 ((f <$> p).run w).2 := by
  rw [PublishesOne, isOk_map, (RunLemmas.answered_map f p w).1]
  exact h

theorem publishesOne_createProduct {data : CreateProductModel}
    {answer : Except ApiError ProductResponseModel}
    (h : CreateProductOutcome data env w answer w') : PublishesOne false w answer w' := by
  cases h <;> exact publishesOne_none rfl

theorem publishesOne_createComponent {data : CreateComponentModel}
    {answer : Except ApiError ComponentResponseModel}
    (h : CreateComponentOutcome data env w answer w') : PublishesOne false w answer w' := by
  cases h <;> exact publishesOne_none rfl

theorem publishesOne_createVersion {data : CreateVersionModel}
    {answer : Except ApiError VersionResponseModel}
    (h : CreateVersionOutcome eventBus data env w answer w') :
    PublishesOne eventBus w answer w' := by
  cases h with
  | created _ _ _ _ _ _ _ => exact publishesOne_bus
  | _ => exact publishesOne_none rfl

theorem publishesOne_rollbackVersion {data : RollbackVersionRequest}
    {answer : Except ApiError VersionResponseModel}
    (h : RollbackVersionOutcome eventBus data w answer w') :
    PublishesOne eventBus w answer w' := by
  cases h with
  | rolledBack _ _ _ _ _ _ _ => exact publishesOne_bus
  | _ => exact publishesOne_none rfl

theorem publishesOne_addDependency {data : CreateDependencyRequest}
    {answer : Except ApiError DependencyResponseModel}
    (h : AddDependencyOutcome eventBus data env w answer w') :
    PublishesOne eventBus w answer w' := by
  cases h with
  | added _ _ => exact publishesOne_bus
  | _ => exact publishesOne_none rfl

theorem publishesOne_removeDependency {data : RemoveDependencyRequest}
    {answer : Except ApiError PUnit} (h : RemoveDependencyOutcome eventBus data w answer w') :
    PublishesOne eventBus w answer w' := by
  cases h with
  | removed _ _ => exact publishesOne_bus
  | _ => exact publishesOne_none rfl

end PublishesOne

theorem publishesOne_respond (w : World) (r : Request) :
    PublishesOne r.1.publishes w (outcome w r) (respond w r) := by
  obtain ⟨call, env⟩ := r
  cases call with
  | createProduct data =>
    exact publishesOne_map _ (publishesOne_createProduct (createProduct_run data env w))
  | createComponent data =>
    exact publishesOne_map _ (publishesOne_createComponent (createComponent_run data env w))
  | createVersion eventBus data =>
    exact publishesOne_map _ (publishesOne_createVersion (createVersion_run eventBus data env w))
  | rollbackVersion eventBus data =>
    exact publishesOne_map _
      (publishesOne_rollbackVersion (rollbackVersion_run eventBus data env w))
  | addDependency eventBus data =>
    exact publishesOne_map _ (publishesOne_addDependency (addDependency_run eventBus data env w))
  | removeDependency eventBus data =>
    exact publishesOne_map _
      (publishesOne_removeDependency (removeDependency_run eventBus data w))
  | cutRelease data =>
    rw [PublishesOne, respond_cut, cutRelease_published data env w, outcome, Call.program,
      isOk_map]
    cases ((cutRelease data env).run w).1 with
    | error error => exact ⟨none, rfl, fun h => absurd rfl h⟩
    | ok result =>
      obtain ⟨new, hnew, _⟩ : PublishesOne result.created w (.ok result) ⟨w.db, w.published ++
        if result.created then [releaseCut data.productId result.release] else []⟩ :=
          publishesOne_bus
      exact ⟨new, hnew, fun _ => ⟨rfl, rfl⟩⟩

/-- What a write announces for a product, if it does. -/
theorem announced_cases (productId : String) (w : World) (r : Request) :
    announced productId w r = [] ∨
      ∃ event, announced productId w r = [event] ∧ r.1.publishes = true ∧
        (outcome w r).isOk = true := by
  obtain ⟨new, hnew, hcompletes⟩ := publishesOne_respond w r
  rw [announced, hnew, List.drop_left]
  cases new with
  | none => exact Or.inl rfl
  | some event =>
    by_cases hproduct : event.productId = productId
    · exact Or.inr ⟨event, by simp [hproduct], hcompletes (Option.some_ne_none event)⟩
    · exact Or.inl (by simp [hproduct])

section ShownVersions

variable {w' : World} {env : Env}

theorem shown_setStatus {status : VersionStatus} {where? : VersionRow → Bool}
    (h : ∀ v ∈ db.versions.rows, v.Shown) :
    ∀ v ∈ (db.setStatus status where?).versions.rows, v.Shown := by
  intro v hv
  obtain ⟨v₀, hv₀, rfl⟩ := List.mem_map.mp hv
  exact shown_withStatus (h v₀ hv₀)

theorem versions_createProduct {data : CreateProductModel}
    {answer : Except ApiError ProductResponseModel}
    (h : CreateProductOutcome data env w answer w') : w'.db.versions = w.db.versions := by
  cases h with
  | failed _ => rfl
  | created hinsert => exact (insertProduct_ok hinsert).versions

theorem versions_createComponent {data : CreateComponentModel}
    {answer : Except ApiError ComponentResponseModel}
    (h : CreateComponentOutcome data env w answer w') : w'.db.versions = w.db.versions := by
  cases h with
  | failed _ => rfl
  | created hinsert => exact (insertComponent_ok hinsert).versions

theorem versions_addDependency {eventBus : Bool} {data : CreateDependencyRequest}
    {answer : Except ApiError DependencyResponseModel}
    (h : AddDependencyOutcome eventBus data env w answer w') : w'.db.versions = w.db.versions := by
  cases h with
  | rejected _ _ => rfl
  | refused _ _ => rfl
  | added _ hinsert => exact (insertDependency_ok hinsert).versions

theorem versions_removeDependency {eventBus : Bool} {data : RemoveDependencyRequest}
    {answer : Except ApiError PUnit} (h : RemoveDependencyOutcome eventBus data w answer w') :
    w'.db.versions = w.db.versions := by
  cases h with
  | unknown _ => rfl
  | removed _ _ => rfl

theorem versions_cutRelease {data : CutReleaseRequest}
    {answer : Except ApiError CutReleaseResult} (h : CutReleaseOutcome data env w answer w') :
    w'.db.versions = w.db.versions := by
  cases h with
  | halted _ _ _ _ _ hinsert _ hdone _ => exact VersionHistoryLemmas.cut_versions hinsert hdone
  | cut _ _ _ _ _ hinsert hmanifest => exact VersionHistoryLemmas.cut_versions hinsert hmanifest
  | _ => rfl

theorem shown_createVersion {eventBus : Bool} {data : CreateVersionModel}
    {answer : Except ApiError VersionResponseModel} (hshown : ∀ v ∈ w.db.versions.rows, v.Shown)
    (h : CreateVersionOutcome eventBus data env w answer w') :
    ∀ v ∈ w'.db.versions.rows, v.Shown := by
  cases h with
  | unknown _ => exact hshown
  | refused _ _ _ _ _ => exact shown_setStatus hshown
  | created _ _ _ _ _ hinsert hread =>
    intro v hv
    rw [(insertVersion_ok hinsert).rows, List.mem_append, List.mem_singleton] at hv
    rcases hv with hv | rfl
    · exact shown_setStatus hshown v hv
    · exact (toVersionResponse_eq_ok.mp hread).1

theorem shown_rollbackVersion {eventBus : Bool} {data : RollbackVersionRequest}
    {answer : Except ApiError VersionResponseModel} (hshown : ∀ v ∈ w.db.versions.rows, v.Shown)
    (h : RollbackVersionOutcome eventBus data w answer w') :
    ∀ v ∈ w'.db.versions.rows, v.Shown := by
  cases h with
  | unknown _ => exact hshown
  | noPrior => exact hshown
  | unreadable _ _ => exact hshown
  | rolledBack _ _ _ _ _ _ _ => exact shown_setStatus (shown_setStatus (shown_setStatus hshown))

/-- The versions that a call writes can be shown. -/
theorem shown_exec (h : ∀ v ∈ w.db.versions.rows, v.Shown) (r : Request) :
    ∀ v ∈ (exec w r).db.versions.rows, v.Shown := by
  obtain ⟨call, env⟩ := r
  have hsame : ∀ {w' : World}, w'.db.versions = w.db.versions →
      ∀ v ∈ w'.db.versions.rows, v.Shown :=
    fun heq v hv => h v (heq ▸ hv)
  cases call with
  | createProduct data =>
    rw [exec, Call.program, (RunLemmas.answered_map _ _ w).1]
    exact hsame (versions_createProduct (createProduct_run data env w))
  | createComponent data =>
    rw [exec, Call.program, (RunLemmas.answered_map _ _ w).1]
    exact hsame (versions_createComponent (createComponent_run data env w))
  | createVersion eventBus data =>
    rw [exec, Call.program, (RunLemmas.answered_map _ _ w).1]
    exact shown_createVersion h (createVersion_run eventBus data env w)
  | rollbackVersion eventBus data =>
    rw [exec, Call.program, (RunLemmas.answered_map _ _ w).1]
    exact shown_rollbackVersion h (rollbackVersion_run eventBus data env w)
  | addDependency eventBus data =>
    rw [exec, Call.program, (RunLemmas.answered_map _ _ w).1]
    exact hsame (versions_addDependency (addDependency_run eventBus data env w))
  | removeDependency eventBus data =>
    rw [exec, Call.program, (RunLemmas.answered_map _ _ w).1]
    exact hsame (versions_removeDependency (removeDependency_run eventBus data w))
  | cutRelease data =>
    rw [exec, Call.program, (RunLemmas.answered_map _ _ w).1]
    exact hsame (versions_cutRelease (cutRelease_run data env w))

end ShownVersions

end EndpointLemmas

open EndpointLemmas

/-- A write keeps every route of a known product answering. -/
theorem served_respond {productId : String} {w : World} (h : w.db.Served productId) (r : Request) :
    (respond w r).db.Served productId := by
  rw [respond_db]
  have hchange := (exec_change w r).weaken
  have hextends := extends_step hchange
  refine ⟨?_, shown_exec h.shown r, manifestSound_step h.sound hchange⟩
  obtain ⟨product, hproduct, hid⟩ := Table.mem_keys.mp h.known
  exact Table.mem_keys.mpr ⟨product, hextends.products.subset hproduct, hid⟩

theorem shown_run {w : World} (h : ∀ v ∈ w.db.versions.rows, v.Shown) (requests : List Request) :
    ∀ v ∈ (run w requests).db.versions.rows, v.Shown := by
  induction requests generalizing w with
  | nil => exact h
  | cons r rest ih => exact ih (shown_exec h r)

/-- Every version that the calls have written can be shown. -/
theorem shown_reachable (requests : List Request) :
    ∀ v ∈ (run World.init requests).db.versions.rows, v.Shown :=
  shown_run (fun _ hv => absurd hv List.not_mem_nil) requests

theorem served_run (requests : List Request) {productId : String}
    (hknown : productId ∈ (run World.init requests).db.products.keys) :
    (run World.init requests).db.Served productId :=
  ⟨hknown, shown_reachable requests, manifestSound_run manifestSound_empty requests⟩

namespace EndpointLemmas

variable {productId : String} {w w' : World}

/-! ## Answers that a write leaves alone -/

section Unchanged

variable (hserved : w.db.Served productId) (hserved' : w'.db.Served productId)
include hserved hserved'

theorem answer_timeline_congr (hproducts : w'.db.products = w.db.products)
    (hcomponents : w'.db.components = w.db.components)
    (hversions : ∀ c ∈ w.db.componentsOf productId,
      (w'.db.versions.rows.filter fun v => v.componentId = c.id) =
        w.db.versions.rows.filter fun v => v.componentId = c.id) :
    answer productId .timeline w' = answer productId .timeline w := by
  obtain ⟨product, hproduct, rfl⟩ := Table.mem_keys.mp hserved.known
  rw [answer_timeline hproduct hserved, answer_timeline (hproducts ▸ hproduct) hserved',
    timelineView_of_versions hcomponents hversions]

theorem answer_graph_congr (hcomponents : w'.db.components = w.db.components)
    (hdependencies : w'.db.dependenciesOf productId = w.db.dependenciesOf productId) :
    answer productId .graph w' = answer productId .graph w := by
  rw [answer_graph hserved, answer_graph hserved', Store.graphView, Store.graphView,
    componentsOf_congr hcomponents, hdependencies]

theorem answer_releases_congr (hextends : w.db.Extends w'.db)
    (hreleases : w'.db.releasesOf productId = w.db.releasesOf productId) :
    answer productId .releases w' = answer productId .releases w := by
  rw [answer_releases hserved, answer_releases hserved',
    ledgerView_of_extends hextends hserved.sound hreleases]

/-- The answers are read off the store. -/
theorem answer_of_db (h : w'.db = w.db) (key : QueryKey) :
    answer productId key w' = answer productId key w := by
  cases key with
  | timeline =>
    exact answer_timeline_congr hserved hserved' (by rw [h]) (by rw [h]) fun _ _ => by rw [h]
  | graph => exact answer_graph_congr hserved hserved' (by rw [h]) (by rw [h])
  | releases =>
    exact answer_releases_congr hserved hserved' (h ▸ Extends.refl w.db) (by rw [h])

end Unchanged

theorem dependenciesOf_congr {db db' : Store} (h : db'.dependencies = db.dependencies) :
    db'.dependenciesOf productId = db.dependenciesOf productId := by
  rw [Store.dependenciesOf, h, Store.dependenciesOf]

theorem releasesOf_congr {db db' : Store} (h : db'.releases = db.releases) :
    db'.releasesOf productId = db.releasesOf productId := by
  rw [Store.releasesOf, h, Store.releasesOf]

/-- A write of the live kinds changes an answer of the product of its event only, and there
only the one under the key of the event. -/
theorem answer_of_liveChange {r : Request} {event : DomainEvent}
    (hserved : w.db.Served productId) (hserved' : w'.db.Served productId)
    (hextends : w.db.Extends w'.db) (hchange : LiveChange r w.db event w'.db) (key : QueryKey) :
    answer productId key w' = answer productId key w ∨
      event.productId = productId ∧ eventKey event = some key := by
  obtain ⟨db', published⟩ := w'
  cases hchange with
  | @created component row _ _ hcomponent hid _ hinsert _ =>
    have hinserted := insertVersion_ok hinsert
    cases key with
    | timeline =>
      by_cases hproduct : component.productId = productId
      · exact Or.inr ⟨hproduct, by rw [eventKey, parseEvent_versionCreated]; rfl⟩
      · refine Or.inl (answer_timeline_congr hserved hserved' hinserted.products
          hinserted.components fun c hc => filter_created_of_ne hinsert ?_)
        exact hid ▸ ne_of_componentsOf hcomponent hproduct hc
    | graph =>
      exact Or.inl (answer_graph_congr hserved hserved' hinserted.components
        (dependenciesOf_congr hinserted.dependencies))
    | releases =>
      exact Or.inl (answer_releases_congr hserved hserved' hextends
        (releasesOf_congr hinserted.releases))
  | @rolledBack component target previous _ hcomponent hid htarget hprevious =>
    cases key with
    | timeline =>
      by_cases hproduct : component.productId = productId
      · exact Or.inr ⟨hproduct, rfl⟩
      · refine Or.inl (answer_timeline_congr hserved hserved' rfl rfl fun c hc =>
          filter_rolledBack_of_ne htarget hprevious ?_)
        exact hid ▸ ne_of_componentsOf hcomponent hproduct hc
    | graph => exact Or.inl (answer_graph_congr hserved hserved' rfl rfl)
    | releases => exact Or.inl (answer_releases_congr hserved hserved' hextends rfl)
  | @added row _ _ hinsert =>
    have hinserted := insertDependency_ok hinsert
    cases key with
    | timeline =>
      refine Or.inl (answer_timeline_congr hserved hserved' hinserted.products
        hinserted.components fun c _ => ?_)
      rw [hinserted.versions]
    | graph =>
      by_cases hproduct : row.productId = productId
      · exact Or.inr ⟨hproduct, rfl⟩
      · refine Or.inl (answer_graph_congr hserved hserved' hinserted.components ?_)
        rw [Store.dependenciesOf, Store.dependenciesOf, hinserted.rows, List.filter_append]
        simp [hproduct]
    | releases =>
      exact Or.inl (answer_releases_congr hserved hserved' hextends
        (releasesOf_congr hinserted.releases))
  | @removed data edge _ hedge hproduct =>
    cases key with
    | timeline => exact Or.inl (answer_timeline_congr hserved hserved' rfl rfl fun _ _ => rfl)
    | graph =>
      by_cases hdata : data.productId = productId
      · exact Or.inr ⟨hdata, rfl⟩
      · refine Or.inl (answer_graph_congr hserved hserved' rfl ?_)
        rw [Store.dependenciesOf, Store.dependenciesOf]
        congr 1
        show ((w.db.dependencies.rows.filter _).filter _) = _
        rw [List.filter_filter]
        refine List.filter_congr fun d hd => ?_
        by_cases hid : d.id = edge.id
        · cases Table.eq_of_key_eq hd hedge hid
          simp [hproduct, hdata]
        · simp [hid]
    | releases => exact Or.inl (answer_releases_congr hserved hserved' hextends rfl)

/-- A cut changes the ledger of its product, and publishes the release if it is fresh. -/
theorem answer_of_cut {data : CutReleaseRequest} {env : Env} {result : CutReleaseResult}
    (hserved : w.db.Served productId) (hserved' : w'.db.Served productId)
    (hextends : w.db.Extends w'.db)
    (hcut : CutReleaseOutcome data env w (.ok result) w') (key : QueryKey) :
    answer productId key w' = answer productId key w ∨
      result.created = true ∧ data.productId = productId ∧ key = .releases := by
  cases hcut with
  | replayed _ => exact Or.inl rfl
  | @cut product version db db' hproduct hid _ _ _ hinsert hmanifest =>
    have hrelease := insertRelease_ok hinsert
    have hrows := insertManifest_ok hmanifest
    have hcomponents : db'.components = w.db.components :=
      hrows.components.trans hrelease.components
    have hversions : db'.versions = w.db.versions := hrows.versions.trans hrelease.versions
    cases key with
    | timeline =>
      refine Or.inl (answer_timeline_congr hserved hserved'
        (hrows.products.trans hrelease.products) hcomponents fun c _ => ?_)
      rw [hversions]
    | graph =>
      exact Or.inl (answer_graph_congr hserved hserved' hcomponents
        (dependenciesOf_congr (hrows.dependencies.trans hrelease.dependencies)))
    | releases =>
      by_cases hdata : data.productId = productId
      · exact Or.inr ⟨rfl, hdata, rfl⟩
      · refine Or.inl (answer_releases_congr hserved hserved' hextends ?_)
        rw [Store.releasesOf, Store.releasesOf, hrows.releases, hrelease.rows, List.filter_append]
        simp [newReleaseRow, hdata]

end EndpointLemmas

/-- A write that completes, on a service with a bus, announces every answer that it changes,
unless it creates a product or a component. -/
theorem answer_respond {productId : String} {w : World} {r : Request}
    (hserved : w.db.Served productId) (hpublishes : r.1.publishes = true)
    (hok : (outcome w r).isOk = true) (key : QueryKey) :
    answer productId key (respond w r) = answer productId key w ∨
      ∃ event, announced productId w r = [event] ∧ eventKey event = some key := by
  have hserved' := served_respond hserved r
  have hextends : w.db.Extends (respond w r).db := by
    rw [respond_db]
    exact extends_step (exec_change w r)
  have hannounced : ∀ {event : DomainEvent}, (respond w r).published = w.published ++ [event] →
      event.productId = productId → announced productId w r = [event] := by
    intro event hpublished hproduct
    rw [announced, hpublished, List.drop_left]
    simp [hproduct]
  by_cases hcut : ∃ data, r.1 = .cutRelease data
  · obtain ⟨data, hdata⟩ := hcut
    obtain ⟨call, env⟩ := r
    obtain rfl : call = .cutRelease data := hdata
    have hdb : (respond w (.cutRelease data, env)).db = ((cutRelease data env).run w).2.db := by
      rw [respond_cut]
    have hpublished : (respond w (.cutRelease data, env)).published =
        w.published ++ cutEvents data.productId ((cutRelease data env).run w).1 := by
      rw [respond_cut, cutRelease_published data env w]
    have hwrapped : ((cutRelease data env).run w).1.isOk = true :=
      (isOk_map Response.release _ w).symm.trans hok
    cases hanswer : ((cutRelease data env).run w).1 with
    | error error =>
      rw [hanswer] at hwrapped
      cases hwrapped
    | ok result =>
      have hrun := cutRelease_run data env w
      rw [hanswer] at hrun hpublished
      have hserved'' : ((cutRelease data env).run w).2.db.Served productId := hdb ▸ hserved'
      rw [answer_of_db hserved'' hserved' hdb]
      refine (answer_of_cut hserved hserved'' (hdb ▸ hextends) hrun key).imp_right ?_
      rintro ⟨hcreated, hproduct, rfl⟩
      rw [cutEvents, if_pos hcreated] at hpublished
      exact ⟨_, hannounced hpublished hproduct, by rw [eventKey, parseEvent_releaseCut]; rfl⟩
  · have hlive : r.1.live = true := by
      cases hcall : r.1 with
      | cutRelease data => exact absurd ⟨data, hcall⟩ hcut
      | _ => simpa [Call.publishes, hcall] using hpublishes
    have hrespond : respond w r = exec w r := by
      rw [respond]
      split
      · next data hcall => exact absurd ⟨data, hcall⟩ hcut
      · rfl
    obtain ⟨event, hpublished, hchange⟩ := live_change hlive hok
    rw [← hrespond] at hpublished hchange
    refine (answer_of_liveChange hserved hserved' hextends hchange key).imp_right ?_
    rintro ⟨hproduct, hkey⟩
    exact ⟨event, hannounced hpublished hproduct, hkey⟩

end LavsCore
