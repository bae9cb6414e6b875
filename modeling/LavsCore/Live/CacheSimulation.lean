import LavsCore.Invariants.VersionHistory
import LavsCore.Live.EventCache

/-!
# The reducers simulate the server

Every successful creation, rollback, addition or removal publishes one event (`live_change`).
Folded into the answers from before the call it gives the answers from after the call, up to
the order of lists, with one exception (`live_cache_iff`): a rollback supersedes every other
active version of the component, and its event names only the version that is rolled back
and the one that is active again.
-/

namespace LavsCore

open Store

/-! ## Equality up to order -/

/-- The same component, with its versions in any order. -/
def SameComponent (c c' : ComponentWithVersionsResponseModel) : Prop :=
  c.versions.Perm c'.versions ∧ { c with versions := c'.versions } = c'

/-- The same product and the same components, in any order. -/
def SameTimeline (t t' : TimelineResponseModel) : Prop :=
  t.product = t'.product ∧
    ∃ components, components.Perm t.components ∧ List.Forall₂ SameComponent components t'.components

/-- The same nodes and the same edges, in any order. -/
def SameGraph (g g' : GraphResponseModel) : Prop :=
  g.productId = g'.productId ∧ g.nodes.Perm g'.nodes ∧ g.edges.Perm g'.edges

theorem SameGraph.refl (g : GraphResponseModel) : SameGraph g g :=
  ⟨rfl, List.Perm.refl _, List.Perm.refl _⟩

theorem SameComponent.refl (c : ComponentWithVersionsResponseModel) : SameComponent c c :=
  ⟨List.Perm.refl _, rfl⟩

theorem sameTimeline_map {α : Type} {product : ProductResponseModel} {rows : List α}
    {f g : α → ComponentWithVersionsResponseModel} (h : ∀ c ∈ rows, SameComponent (f c) (g c)) :
    SameTimeline ⟨product, rows.map f⟩ ⟨product, rows.map g⟩ := by
  refine ⟨rfl, rows.map f, List.Perm.refl _, ?_⟩
  rw [List.forall₂_map_left_iff, List.forall₂_map_right_iff, List.forall₂_same]
  exact h

theorem SameTimeline.refl (t : TimelineResponseModel) : SameTimeline t t :=
  ⟨rfl, t.components, List.Perm.refl _, List.forall₂_same.mpr fun c _ => SameComponent.refl c⟩

/-- A version that one timeline shows is shown by the other. -/
theorem SameTimeline.exists_version {t t' : TimelineResponseModel} (h : SameTimeline t t')
    {c : ComponentWithVersionsResponseModel} (hc : c ∈ t.components) {v : VersionResponseModel}
    (hv : v ∈ c.versions) : ∃ c' ∈ t'.components, v ∈ c'.versions := by
  obtain ⟨_, components, hperm, hsame⟩ := h
  obtain ⟨i, hi, rfl⟩ := List.mem_iff_getElem.mp (hperm.mem_iff.mpr hc)
  have hi' : i < t'.components.length := hsame.length_eq ▸ hi
  exact ⟨t'.components[i], List.getElem_mem hi', (hsame.get hi hi').1.mem_iff.mp hv⟩

/-! ## What a call publishes -/

/-- The calls of the four kinds, with a bus. -/
def Call.live : Call → Bool
  | .createVersion eventBus _ => eventBus
  | .rollbackVersion eventBus _ => eventBus
  | .addDependency eventBus _ => eventBus
  | .removeDependency eventBus _ => eventBus
  | _ => false

/-- What a successful call makes of the store, and what it publishes. -/
inductive LiveChange (r : Request) (db : Store) : DomainEvent → Store → Prop
  | created {component : ComponentRow} {row : VersionRow} {db' : Store}
      (hcall : ∃ data, r.1 = .createVersion true data) (hcomponent : component ∈ db.components.rows)
      (hid : component.id = row.componentId) (hactive : row.status = some .active)
      (hinsert : (db.supersedeActive row.componentId).insertVersion row = .ok db')
      (hshown : row.Shown) :
      LiveChange r db (versionCreated component.productId (versionView row)) db'
  | rolledBack {component : ComponentRow} {target previous : VersionRow}
      (hcall : r.1 = .rollbackVersion true ⟨target.id⟩)
      (hcomponent : component ∈ db.components.rows)
      (hid : component.id = target.componentId) (htarget : target ∈ db.versions.rows)
      (hprevious : previous ∈ selectPrevious db target r.2.choice) :
      LiveChange r db
        (versionRolledBack component.productId (versionView target)
          (versionView { previous with status := some .active }))
        (db.rollback target previous)
  | added {row : DependencyRow} {db' : Store} (hcall : ∃ data, r.1 = .addDependency true data)
      (hinsert : db.insertDependency row = .ok db') :
      LiveChange r db (dependencyAdded row.productId (toDependencyResponse row)) db'
  | removed {data : RemoveDependencyRequest} {edge : DependencyRow}
      (hcall : r.1 = .removeDependency true data) (hedge : edge ∈ db.dependencies.rows)
      (hproduct : edge.productId = data.productId) :
      LiveChange r db (dependencyRemoved data edge.id) (db.deleteDependency edge.id)

namespace CacheSimulationLemmas

/-- A rollback that succeeds, with its predecessor and the product of its event. -/
theorem rollbackVersion_ok {data : RollbackVersionRequest} {env : Env} {w : World}
    {version : VersionResponseModel} (h : ((rollbackVersion true data env).run w).1 = .ok version) :
    ∃ target ∈ w.db.versions.rows, target.id = data.versionId ∧
      ∃ previous ∈ selectPrevious w.db target env.choice,
        ∃ component ∈ w.db.components.rows, component.id = target.componentId ∧
          ((rollbackVersion true data env).run w).2 =
            ⟨w.db.rollback target previous, w.published ++
              [versionRolledBack component.productId (versionView target)
                (versionView { previous with status := some .active })]⟩ := by
  by_cases hknown : data.versionId ∈ w.db.versions.keys
  case neg => simp [rollbackVersion, Table.lookup_eq_nil.mpr hknown] at h
  obtain ⟨target, htarget, hid, hlookup⟩ := Table.lookup_eq_singleton_of_mem_keys hknown
  cases hread : toVersionResponse target with
  | error error => simp [rollbackVersion, hlookup, hread] at h
  | ok found =>
    cases hprevious : selectPrevious w.db target env.choice with
    | nil => simp [rollbackVersion, hlookup, hread, hprevious] at h
    | cons previous rest =>
      cases hreadPrevious : toVersionResponse previous with
      | error error => simp [rollbackVersion, hlookup, hread, hprevious, hreadPrevious] at h
      | ok shown =>
        obtain ⟨component, hcomponent, hcid, hfound⟩ :=
          Table.lookup_eq_singleton_of_mem_keys (w.db.version_component target htarget)
        have hmem : previous ∈ selectPrevious w.db target env.choice :=
          hprevious ▸ List.mem_cons_self
        refine ⟨target, htarget, hid, previous, hmem, component, hcomponent, hcid, ?_⟩
        obtain ⟨hshown, rfl⟩ := toVersionResponse_eq_ok.mp hread
        obtain ⟨hshownPrevious, rfl⟩ := toVersionResponse_eq_ok.mp hreadPrevious
        have hreactivated : toVersionResponse { previous with status := some .active } =
            .ok (versionView { previous with status := some .active }) :=
          toVersionResponse_eq_ok.mpr ⟨⟨Option.some_ne_none _, hshownPrevious.2⟩, rfl⟩
        have hstore : ((w.db.markStatus .rolledBack target.id).supersedeActive
            target.componentId).markStatus .active previous.id =
              w.db.rollback target previous := rfl
        have hcomponents : (w.db.rollback target previous).components = w.db.components := rfl
        simp [rollbackVersion, hlookup, hread, hprevious, hreadPrevious, versionView, hstore,
          rollback_lookup (mem_selectPrevious hmem).1, hreactivated, eventProduct, hcomponents,
          hfound]

end CacheSimulationLemmas

open CacheSimulationLemmas

/-- A successful call publishes one event, about what it changed. -/
theorem live_change {w : World} {r : Request} (hlive : r.1.live = true)
    (hok : (outcome w r).isOk = true) :
    ∃ event, (exec w r).published = w.published ++ [event] ∧
      LiveChange r w.db event (exec w r).db := by
  obtain ⟨call, env⟩ := r
  unfold outcome at hok
  -- The answer is wrapped by `Response`; below it the query succeeded.
  have hwrap : ∀ {α : Type} (f : α → Response) (p : Query α),
      ((f <$> p).run w).1.isOk = true →
        ∃ a, (p.run w).1 = .ok a ∧ ((f <$> p).run w).2 = (p.run w).2 := by
    intro α f p h
    rw [Prog.run_map] at h ⊢
    cases hp : p.run w with
    | mk answer w' =>
      rw [hp] at h
      cases answer with
      | error error => cases h
      | ok a => exact ⟨a, rfl, rfl⟩
  cases call with
  | createProduct data => cases hlive
  | createComponent data => cases hlive
  | cutRelease data => cases hlive
  | createVersion eventBus data =>
    obtain rfl : eventBus = true := hlive
    obtain ⟨version, hversion, hstate⟩ := hwrap _ _ hok
    have hrun := createVersion_run true data env w
    rw [exec, Call.program, hstate]
    rw [hversion] at hrun
    generalize ((createVersion true data env).run w).2 = w' at hrun
    cases hrun with
    | created hcomponent hid hmajor hminor hpatch hinsert hread =>
      obtain ⟨hshown, rfl⟩ := toVersionResponse_eq_ok.mp hread
      exact ⟨_, rfl, .created ⟨data, rfl⟩ hcomponent hid rfl hinsert hshown⟩
  | rollbackVersion eventBus data =>
    obtain rfl : eventBus = true := hlive
    obtain ⟨version, hversion, hstate⟩ := hwrap _ _ hok
    obtain ⟨target, htarget, hid, previous, hprevious, component, hcomponent, hcid, hrun⟩ :=
      rollbackVersion_ok hversion
    rw [exec, Call.program, hstate, hrun]
    exact ⟨_, rfl, .rolledBack (by rw [hid]) hcomponent hcid htarget hprevious⟩
  | addDependency eventBus data =>
    obtain rfl : eventBus = true := hlive
    obtain ⟨dependency, hdependency, hstate⟩ := hwrap _ _ hok
    have hrun := addDependency_run true data env w
    rw [exec, Call.program, hstate]
    rw [hdependency] at hrun
    generalize ((addDependency true data env).run w).2 = w' at hrun
    cases hrun with
    | added _ hinsert => exact ⟨_, rfl, .added ⟨data, rfl⟩ hinsert⟩
  | removeDependency eventBus data =>
    obtain rfl : eventBus = true := hlive
    obtain ⟨_, hremoved, hstate⟩ := hwrap _ _ hok
    have hrun := removeDependency_run true data w
    rw [exec, Call.program, hstate]
    rw [hremoved] at hrun
    generalize ((removeDependency true data).run w).2 = w' at hrun
    cases hrun with
    | removed hedge hkey =>
      exact ⟨_, rfl, .removed rfl hedge (congrArg Prod.fst hkey)⟩

/-! ## What the reducers and the statements do to one version -/

namespace CacheSimulationLemmas

variable {db db' : Store}

/-- A rollback, row by row. -/
def rolledBackRow (target previous v : VersionRow) : VersionRow :=
  withStatus .active (fun v => v.id = previous.id)
    (withStatus .superseded (VersionRow.isActiveOf target.componentId)
      (withStatus .rolledBack (fun v => v.id = target.id) v))

theorem rollback_rows (db : Store) (target previous : VersionRow) :
    (db.rollback target previous).versions.rows =
      db.versions.rows.map (rolledBackRow target previous) := by
  simp only [Store.rollback, markStatus_eq, supersedeActive_eq, setStatus_rows, List.map_map]
  rfl

@[simp] theorem rolledBackRow_id (target previous v : VersionRow) :
    (rolledBackRow target previous v).id = v.id := by
  simp [rolledBackRow]

@[simp] theorem rolledBackRow_componentId (target previous v : VersionRow) :
    (rolledBackRow target previous v).componentId = v.componentId := by
  simp [rolledBackRow]

/-- Every other row stays as it is. -/
theorem rolledBackRow_of_not {target previous v : VersionRow} (htarget : v.id ≠ target.id)
    (hprevious : v.id ≠ previous.id) (hactive : v.isActiveOf target.componentId = false) :
    rolledBackRow target previous v = v := by
  have hmarked : withStatus .rolledBack (fun v => v.id = target.id) v = v :=
    withStatus_of_not (decide_eq_false htarget)
  rw [rolledBackRow, hmarked, withStatus_of_not hactive]
  exact withStatus_of_not (decide_eq_false hprevious)

theorem versionView_withStatus {status : VersionStatus} {where? : VersionRow → Bool}
    {v : VersionRow} (h : where? v = true) :
    versionView (withStatus status where? v) = { versionView v with status := status } := by
  rw [withStatus_of_pos h]
  rfl

/-- `_SUPERSEDE_ACTIVE` is what `addVersionToComponent` does to the versions it demotes. -/
theorem versionView_supersede {v : VersionRow} (hshown : v.Shown) :
    versionView (withStatus .superseded (VersionRow.isActiveOf v.componentId) v) =
      if (versionView v).status = .active then { versionView v with status := .superseded }
      else versionView v := by
  obtain ⟨status, hstatus⟩ := Option.ne_none_iff_exists'.mp hshown.1
  by_cases hactive : status = .active
  · rw [versionView_withStatus (by simp [VersionRow.isActiveOf, hstatus, hactive])]
    simp [versionView, hstatus, hactive]
  · rw [withStatus_of_not (by simp [VersionRow.isActiveOf, hstatus, hactive])]
    simp [versionView, hstatus, hactive]

/-- The three updates of a rollback on a row that they do not supersede are what
`applyVersionRolledBack` does to it. -/
theorem versionView_rolledBack {target previous v : VersionRow} {event : VersionRolledBackEvent}
    (htarget : event.versionId = target.id) (hprevious : event.reactivatedVersionId = previous.id)
    (hne : previous.id ≠ target.id)
    (hkept : v.isActiveOf target.componentId = true → v.id = target.id ∨ v.id = previous.id) :
    versionView (rolledBackRow target previous v) = rollBackVersion event (versionView v) := by
  have hid : (versionView v).id = v.id := rfl
  unfold rollBackVersion
  rw [hid, htarget, hprevious, rolledBackRow]
  by_cases hvt : v.id = target.id
  · have hactive : VersionRow.isActiveOf target.componentId { v with status := some .rolledBack } =
        false := by
      simp [VersionRow.isActiveOf]
    rw [if_pos hvt, withStatus_of_pos (v := v) (by simpa using hvt), withStatus_of_not hactive,
      withStatus_of_not (by simpa [hvt] using hne.symm)]
    rfl
  · rw [if_neg hvt, withStatus_of_not (v := v) (by simpa using hvt)]
    by_cases hvp : v.id = previous.id
    · rw [if_pos hvp, versionView_withStatus (by simpa using hvp)]
      unfold withStatus
      split <;> rfl
    · have hactive : v.isActiveOf target.componentId = false := by
        cases h : v.isActiveOf target.componentId with
        | false => rfl
        | true => exact absurd (hkept h) (not_or.mpr ⟨hvt, hvp⟩)
      rw [if_neg hvp, withStatus_of_not hactive, withStatus_of_not (by simpa using hvp)]

/-- A row that a rollback supersedes. -/
theorem rolledBackRow_status {target previous v : VersionRow}
    (hactive : v.isActiveOf target.componentId = true) (hvt : v.id ≠ target.id)
    (hvp : v.id ≠ previous.id) :
    (rolledBackRow target previous v).status = some .superseded := by
  rw [rolledBackRow, withStatus_of_not (v := v) (by simpa using hvt), withStatus_of_pos hactive,
    withStatus_of_not (by simpa using hvp)]

/-! ## Views before and after -/

theorem versionsOfComponent_perm (db : Store) (componentId : String) :
    ((db.versionsOfComponent componentId).map versionView).Perm
      ((db.versions.rows.filter fun v => v.componentId = componentId).map versionView) :=
  (orderBy_perm _ _).map versionView

theorem componentsOf_congr (h : db'.components = db.components) (productId : String) :
    db'.componentsOf productId = db.componentsOf productId := by
  rw [Store.componentsOf, h, Store.componentsOf]

/-- The timeline reads the components and the versions. -/
theorem timelineView_congr (hcomponents : db'.components = db.components)
    (hversions : db'.versions = db.versions) (product : ProductRow) :
    db'.timelineView product = db.timelineView product := by
  have hview : db'.componentView = db.componentView := by
    funext c
    rw [Store.componentView, Store.versionsOfComponent, hversions]
    rfl
  rw [Store.timelineView, componentsOf_congr hcomponents, hview, Store.timelineView]

/-- The graph reads the components and the edges. -/
theorem graphView_congr (hcomponents : db'.components = db.components)
    (hdependencies : db'.dependencies = db.dependencies) (productId : String) :
    db'.graphView productId = db.graphView productId := by
  rw [Store.graphView, componentsOf_congr hcomponents, Store.dependenciesOf, hdependencies]
  rfl

/-- The versions of a product, component by component. -/
theorem shown_iff {productId : String} :
    db.Shown productId ↔ ∀ c ∈ db.componentsOf productId, ∀ v ∈ db.versions.rows,
      v.componentId = c.id → v.Shown := by
  constructor
  · intro h c hc v hv hid
    exact h v (mem_versionsOf.mpr ⟨hv, c, hc, hid.symm⟩)
  · intro h v hv
    obtain ⟨hrow, c, hc, hid⟩ := mem_versionsOf.mp hv
    exact h c hc v hrow hid.symm

theorem shown_withStatus {status : VersionStatus} {where? : VersionRow → Bool} {v : VersionRow}
    (h : v.Shown) : (withStatus status where? v).Shown := by
  unfold withStatus
  split
  · exact ⟨nofun, h.2⟩
  · exact h

/-- The versions of one component after a creation. -/
theorem filter_created {row : VersionRow}
    (hinsert : (db.supersedeActive row.componentId).insertVersion row = .ok db')
    (componentId : String) :
    (db'.versions.rows.filter fun v => v.componentId = componentId) =
      (db.versions.rows.filter fun v => v.componentId = componentId).map
        (withStatus .superseded (VersionRow.isActiveOf row.componentId)) ++
        if row.componentId = componentId then [row] else [] := by
  rw [(insertVersion_ok hinsert).rows, supersedeActive_eq, setStatus_rows, List.filter_append,
    List.filter_map, List.filter_singleton]
  simp only [Function.comp_def, withStatus_componentId]
  by_cases hid : row.componentId = componentId
  · simp [hid]
  · simp [hid]

/-- A creation does not concern the other components. -/
theorem filter_created_of_ne {row : VersionRow}
    (hinsert : (db.supersedeActive row.componentId).insertVersion row = .ok db')
    {componentId : String} (hne : row.componentId ≠ componentId) :
    (db'.versions.rows.filter fun v => v.componentId = componentId) =
      db.versions.rows.filter fun v => v.componentId = componentId := by
  rw [filter_created hinsert, if_neg hne, List.append_nil]
  refine (List.map_congr_left fun v hv => ?_).trans (List.map_id _)
  have hvid : v.componentId = componentId := of_decide_eq_true (List.mem_filter.mp hv).2
  exact withStatus_of_not (by simp [VersionRow.isActiveOf, hvid, Ne.symm hne])

/-- `applyVersionCreated` follows a creation. -/
theorem simulates_created {row : VersionRow} {product : ProductRow}
    (hactive : row.status = some .active)
    (hinsert : (db.supersedeActive row.componentId).insertVersion row = .ok db')
    (hrow : row.Shown) (hshown : db.Shown product.id) :
    db'.Shown product.id ∧
      SameTimeline
        (applyVersionCreated (db.timelineView product) ⟨row.componentId, versionView row⟩)
        (db'.timelineView product) := by
  have hinserted := insertVersion_ok hinsert
  have hcomponents : db'.components = db.components := hinserted.components
  have hrows : db'.versions.rows = db.versions.rows.map
      (withStatus .superseded (VersionRow.isActiveOf row.componentId)) ++ [row] := hinserted.rows
  constructor
  · rw [shown_iff, componentsOf_congr hcomponents]
    intro c hc v hv hid
    rw [hrows, List.mem_append, List.mem_map, List.mem_singleton] at hv
    rcases hv with ⟨v, hv, rfl⟩ | rfl
    · exact shown_withStatus (shown_iff.mp hshown c hc v hv (by simpa using hid))
    · exact hrow
  · rw [applyVersionCreated, Store.timelineView, Store.timelineView, componentsOf_congr hcomponents,
      List.map_map]
    refine sameTimeline_map fun c hc => ?_
    have hbefore := versionsOfComponent_perm db c.id
    have hafter := versionsOfComponent_perm db' c.id
    by_cases hid : c.id = row.componentId
    · -- The component of the new version.
      rw [Function.comp_apply, if_neg (by simpa [Store.componentView, toComponentWithVersions])]
      refine ⟨List.Perm.trans ?_ hafter.symm, rfl⟩
      rw [filter_created hinsert, if_pos hid.symm, List.map_append, List.map_map]
      refine List.Perm.append ((hbefore.map _).trans (List.Perm.of_eq ?_)) (List.Perm.of_eq ?_)
      · rw [List.map_map]
        refine List.map_congr_left fun v hv => ?_
        obtain ⟨hv, hvc⟩ := List.mem_filter.mp hv
        have hvid : v.componentId = c.id := of_decide_eq_true hvc
        rw [Function.comp_apply, Function.comp_apply, ← hid, ← hvid,
          versionView_supersede (shown_iff.mp hshown c hc v hv hvid)]
      · simp [versionView, hactive]
    · rw [Function.comp_apply, if_pos (by simpa [Store.componentView, toComponentWithVersions])]
      rw [filter_created_of_ne hinsert (Ne.symm hid)] at hafter
      exact ⟨hbefore.trans hafter.symm, rfl⟩

/-- There is one predecessor at most. -/
theorem selectPrevious_unique {target previous v : VersionRow} {choice : Nat}
    (hprevious : previous ∈ selectPrevious db target choice)
    (hv : v ∈ selectPrevious db target choice) : v = previous := by
  rw [selectPrevious, Option.mem_toList] at hprevious hv
  exact Option.some.inj (hv.symm.trans hprevious)

/-- `applyVersionRolledBack` follows a rollback exactly if the rollback supersedes no
version. -/
theorem simulates_rolledBack {component : ComponentRow} {target previous : VersionRow}
    {choice : Nat} {product : ProductRow} (hcomponent : component ∈ db.componentsOf product.id)
    (hid : component.id = target.componentId)
    (hprevious : previous ∈ selectPrevious db target choice) (hshown : db.Shown product.id) :
    (db.rollback target previous).Shown product.id ∧
      (SameTimeline
          (applyVersionRolledBack (db.timelineView product)
            ⟨target.componentId, target.id, previous.id⟩)
          ((db.rollback target previous).timelineView product) ↔
        ∀ v ∈ db.activeVersions target.componentId,
          v.id = target.id ∨ v ∈ selectPrevious db target choice) := by
  obtain ⟨hprow, _, hne, _, _⟩ := mem_selectPrevious hprevious
  have hcomponents : (db.rollback target previous).componentsOf product.id =
      db.componentsOf product.id := rfl
  refine ⟨?_, ?_, ?_⟩
  · rw [shown_iff, hcomponents, rollback_rows]
    intro c hc v hv hvid
    obtain ⟨v₀, hv₀, rfl⟩ := List.mem_map.mp hv
    exact shown_withStatus (shown_withStatus (shown_withStatus
      (shown_iff.mp hshown c hc v₀ hv₀ (by simpa using hvid))))
  · -- A version that is superseded behind the client's back is still active there.
    intro hsame v hv
    obtain ⟨hrow, hvc, hstatus⟩ := mem_activeVersions.mp hv
    by_contra hnot
    obtain ⟨hvt, hvprevious⟩ := not_or.mp hnot
    have hvp : v.id ≠ previous.id :=
      fun h => hvprevious (Table.eq_of_key_eq hrow hprow h ▸ hprevious)
    have hkept : rollBackVersion ⟨target.componentId, target.id, previous.id⟩ (versionView v) =
        versionView v := (if_neg hvt).trans (if_neg hvp)
    obtain ⟨c', hc', hmem⟩ := hsame.exists_version
      (List.mem_map_of_mem (List.mem_map_of_mem hcomponent))
      (List.mem_map_of_mem (a := versionView v)
        (List.mem_map_of_mem (mem_versionsOfComponent.mpr ⟨hrow, hvc.trans hid.symm⟩)))
    obtain ⟨c, _, rfl⟩ := List.mem_map.mp hc'
    obtain ⟨v', hv', hview⟩ := List.mem_map.mp hmem
    have hrow' := (mem_versionsOfComponent.mp hv').1
    rw [rollback_rows] at hrow'
    obtain ⟨v₀, hv₀, rfl⟩ := List.mem_map.mp hrow'
    rw [hkept] at hview
    have hvid : v₀.id = v.id := by
      simpa [versionView] using congrArg VersionResponseModel.id hview
    cases Table.eq_of_key_eq hv₀ hrow hvid
    have hsuperseded : (rolledBackRow target previous v).status = some .superseded :=
      rolledBackRow_status (by simp [VersionRow.isActiveOf, hvc, hstatus]) hvt hvp
    have hactive := congrArg VersionResponseModel.status hview
    simp [versionView, hsuperseded, hstatus] at hactive
  · intro hcovers
    rw [applyVersionRolledBack, Store.timelineView, Store.timelineView, hcomponents, List.map_map]
    refine sameTimeline_map fun c hc => ⟨?_, rfl⟩
    have hafter := versionsOfComponent_perm (db.rollback target previous) c.id
    rw [rollback_rows, List.filter_map] at hafter
    refine (((versionsOfComponent_perm db c.id).map _).trans (List.Perm.of_eq ?_)).trans hafter.symm
    simp only [Function.comp_def, rolledBackRow_componentId, List.map_map]
    refine List.map_congr_left fun v hv => ?_
    refine (versionView_rolledBack rfl rfl hne fun hactive => ?_).symm
    have hv' : v ∈ db.activeVersions target.componentId :=
      List.mem_filter.mpr ⟨(List.mem_filter.mp hv).1, hactive⟩
    refine (hcovers v hv').imp_right fun h => ?_
    exact congrArg VersionRow.id (selectPrevious_unique hprevious h)

/-- `applyDependencyAdded` follows an addition. -/
theorem simulates_added {row : DependencyRow} (hinsert : db.insertDependency row = .ok db') :
    SameGraph (applyDependencyAdded (db.graphView row.productId) ⟨toDependencyResponse row⟩)
      (db'.graphView row.productId) := by
  have hinserted := insertDependency_ok hinsert
  have hfresh : ((db.graphView row.productId).edges.any fun edge =>
      edge.id = (toDependencyResponse row).id) = false := by
    rw [List.any_eq_false]
    intro edge hedge
    obtain ⟨d, hd, rfl⟩ := List.mem_map.mp hedge
    have hrow : d ∈ db.dependencies.rows := List.mem_of_mem_filter (mem_orderBy.mp hd)
    rw [decide_eq_true_eq]
    intro hid
    have hkey : d.id = row.id := hid
    exact hinserted.fresh (hkey ▸ Table.key_mem_keys hrow)
  rw [applyDependencyAdded, if_neg (by simp [hfresh])]
  refine ⟨rfl, ?_, ?_⟩
  · rw [Store.graphView, Store.graphView, componentsOf_congr hinserted.components]
  · have hbefore : (db.dependenciesOf row.productId ++ [row]).Perm
        ((db.dependencies.rows.filter fun d => d.productId = row.productId) ++ [row]) :=
      (orderBy_perm _ _).append_right [row]
    have hafter : (db'.dependenciesOf row.productId).Perm
        ((db.dependencies.rows.filter fun d => d.productId = row.productId) ++ [row]) := by
      refine (orderBy_perm _ _).trans (List.Perm.of_eq ?_)
      rw [hinserted.rows, List.filter_append]
      simp
    have hperm := (hbefore.trans hafter.symm).map toDependencyResponse
    rwa [List.map_append] at hperm

/-- `applyDependencyRemoved` follows a removal. -/
theorem simulates_removed (data : RemoveDependencyRequest) (edgeId : String) :
    SameGraph
      (applyDependencyRemoved (db.graphView data.productId)
        ⟨⟨edgeId, data.productId, data.fromComponentId, data.toComponentId⟩⟩)
      ((db.deleteDependency edgeId).graphView data.productId) := by
  refine ⟨rfl, List.Perm.refl _, ?_⟩
  show ((List.map toDependencyResponse _).filter _).Perm (List.map _ _)
  rw [List.filter_map]
  refine List.Perm.map _ ?_
  refine (((orderBy_perm _ _).filter _).trans (List.Perm.of_eq ?_)).trans (orderBy_perm _ _).symm
  show _ = ((db.dependencies.rows.filter _).filter _)
  rw [List.filter_filter, List.filter_filter]
  exact List.filter_congr fun d _ => Bool.and_comm _ _

end CacheSimulationLemmas

/-! ## One call -/

/-- A rollback supersedes no version behind the back of its event: every active version of
the component is the one that is rolled back, or the predecessor. -/
def CoversActive (db : Store) (r : Request) : Prop :=
  match r.1 with
  | .rollbackVersion _ data => ∀ target ∈ db.versions.rows, target.id = data.versionId →
      ∀ v ∈ db.activeVersions target.componentId,
        v.id = target.id ∨ v ∈ selectPrevious db target r.2.choice
  | _ => True

/-- For every store and every successful creation, rollback, addition or removal: the event
it publishes takes the cached timeline and graph from what the server answered before the
call to what it answers after it, up to the order of lists, exactly if the call is not a
rollback that supersedes a version its event does not name. -/
theorem live_cache_iff (w : World) (r : Request) (hlive : r.1.live = true)
    (hok : (outcome w r).isOk = true) :
    ∃ event live, (exec w r).published = w.published ++ [event] ∧ parseEvent event = some live ∧
      ∀ timeline graph, ((getTimeline event.productId).run w).1 = .ok timeline →
        ((getProductGraph event.productId).run w).1 = .ok graph →
          ∃ timeline' graph', ((getTimeline event.productId).run (exec w r)).1 = .ok timeline' ∧
            ((getProductGraph event.productId).run (exec w r)).1 = .ok graph' ∧
            (SameTimeline (live.reduce .timeline timeline) timeline' ∧
                SameGraph (live.reduce .graph graph) graph' ↔ CoversActive w.db r) := by
  obtain ⟨event, hpublished, hchange⟩ := live_change hlive hok
  simp only [getTimeline_ok_iff, getProductGraph_ok_iff]
  refine ⟨event, ?_⟩
  generalize (exec w r).db = db' at hchange ⊢
  cases hchange with
  | @created component row _ hcall hcomponent hid hactive hinsert hrow =>
    refine ⟨_, hpublished, parseEvent_versionCreated _ _, ?_⟩
    rintro timeline graph ⟨product, hproduct, hpid, hshown, rfl⟩ ⟨hknown, rfl⟩
    have hinserted := insertVersion_ok hinsert
    have hproducts : db'.products = w.db.products := hinserted.products
    obtain ⟨hshown', hsame⟩ := simulates_created hactive hinsert hrow (hpid ▸ hshown)
    refine ⟨_, _, ⟨product, hproducts ▸ hproduct, hpid, hpid ▸ hshown', rfl⟩,
      ⟨hproducts ▸ hknown, rfl⟩, iff_of_true ⟨hsame, ?_⟩ ?_⟩
    · rw [graphView_congr hinserted.components hinserted.dependencies]
      exact SameGraph.refl _
    · obtain ⟨data, hdata⟩ := hcall
      rw [CoversActive, hdata]
      trivial
  | @rolledBack component target previous hcall hcomponent hid htarget hprevious =>
    refine ⟨_, hpublished, parseEvent_versionRolledBack _ _ _, ?_⟩
    rintro timeline graph ⟨product, hproduct, hpid, hshown, rfl⟩ ⟨hknown, rfl⟩
    obtain ⟨hshown', hiff⟩ := simulates_rolledBack
      (mem_componentsOf.mpr ⟨hcomponent, hpid.symm⟩) hid hprevious (hpid ▸ hshown)
    refine ⟨_, _, ⟨product, hproduct, hpid, hpid ▸ hshown', rfl⟩, ⟨hknown, rfl⟩, ?_⟩
    have hcovers : CoversActive w.db r ↔ ∀ v ∈ w.db.activeVersions target.componentId,
        v.id = target.id ∨ v ∈ selectPrevious w.db target r.2.choice := by
      rw [CoversActive, hcall]
      constructor
      · exact fun h => h target htarget rfl
      · intro h target' htarget' htid
        rw [Table.eq_of_key_eq htarget' htarget htid]
        exact h
    rw [hcovers, ← hiff]
    exact and_iff_left (SameGraph.refl _)
  | @added row _ hcall hinsert =>
    refine ⟨_, hpublished, parseEvent_dependencyAdded _ _, ?_⟩
    rintro timeline graph ⟨product, hproduct, hpid, hshown, rfl⟩ ⟨hknown, rfl⟩
    have hinserted := insertDependency_ok hinsert
    refine ⟨_, _, ⟨product, hinserted.products ▸ hproduct, hpid, ?_, rfl⟩,
      ⟨hinserted.products ▸ hknown, rfl⟩, iff_of_true ⟨?_, simulates_added hinsert⟩ ?_⟩
    · rw [shown_iff, componentsOf_congr hinserted.components, hinserted.versions]
      exact shown_iff.mp hshown
    · rw [timelineView_congr hinserted.components hinserted.versions]
      exact SameTimeline.refl _
    · obtain ⟨data, hdata⟩ := hcall
      rw [CoversActive, hdata]
      trivial
  | @removed data edge hcall hedge _ =>
    refine ⟨_, hpublished, parseEvent_dependencyRemoved _ _, ?_⟩
    rintro timeline graph ⟨product, hproduct, hpid, hshown, rfl⟩ ⟨hknown, rfl⟩
    refine ⟨_, _, ⟨product, hproduct, hpid, hshown, rfl⟩, ⟨hknown, rfl⟩,
      iff_of_true ⟨SameTimeline.refl _, simulates_removed data edge.id⟩ ?_⟩
    rw [CoversActive, hcall]
    trivial

namespace Sample

/-- `api` has the versions 1.0.0, 1.1.0 and 1.2.0, of which 1.2.0 is active. -/
def threeVersions : World := run versioned [(.createVersion true api12, env 23)]

/-- 1.1.0, which is not the active version, is rolled back. -/
def rollback11 : Request := (.rollbackVersion true { versionId := id 21 }, env 40)

/-- The row of the product. -/
def auroraRow : ProductRow := ⟨id 10, "Aurora", none, "0.0.0", "default", 1782734400000010⟩

end Sample

theorem live_cache_iff_sample :
    ∃ event live, (exec Sample.threeVersions Sample.rollback11).published =
        Sample.threeVersions.published ++ [event] ∧ parseEvent event = some live ∧
      ∀ timeline graph,
        ((getTimeline event.productId).run Sample.threeVersions).1 = .ok timeline →
        ((getProductGraph event.productId).run Sample.threeVersions).1 = .ok graph →
          ∃ timeline' graph',
            ((getTimeline event.productId).run (exec Sample.threeVersions Sample.rollback11)).1 =
              .ok timeline' ∧
            ((getProductGraph event.productId).run
              (exec Sample.threeVersions Sample.rollback11)).1 = .ok graph' ∧
            (SameTimeline (live.reduce .timeline timeline) timeline' ∧
                SameGraph (live.reduce .graph graph) graph' ↔
              CoversActive Sample.threeVersions.db Sample.rollback11) :=
  live_cache_iff Sample.threeVersions Sample.rollback11 rfl (by decide +kernel)

/-- The server supersedes 1.2.0, and the client, told about 1.1.0 and 1.0.0, goes on showing
it as active. -/
theorem live_cache_diverges :
    Sample.threeVersions.db.AtMostOneActive ∧
      (exec Sample.threeVersions Sample.rollback11).published.getLast?.bind parseEvent =
        some (.versionRolledBack ⟨Sample.id 11, Sample.id 21, Sample.id 20⟩) ∧
      ∃ timeline timeline',
        ((getTimeline (Sample.id 10)).run Sample.threeVersions).1 = .ok timeline ∧
        ((getTimeline (Sample.id 10)).run (exec Sample.threeVersions Sample.rollback11)).1 =
          .ok timeline' ∧
        ¬ SameTimeline
          (applyVersionRolledBack timeline ⟨Sample.id 11, Sample.id 21, Sample.id 20⟩)
          timeline' := by
  refine ⟨?_, by decide +kernel, Sample.threeVersions.db.timelineView Sample.auroraRow,
    (exec Sample.threeVersions Sample.rollback11).db.timelineView Sample.auroraRow, ?_, ?_, ?_⟩
  · have hversioned := atMostOneActive_run atMostOneActive_empty (w := World.init)
      (Sample.setup ++ Sample.versions)
    exact atMostOneActive_run hversioned [(.createVersion true Sample.api12, Sample.env 23)]
  · exact getTimeline_ok_iff.mpr
      ⟨Sample.auroraRow, by decide +kernel, rfl, by decide +kernel, rfl⟩
  · exact getTimeline_ok_iff.mpr
      ⟨Sample.auroraRow, by decide +kernel, rfl, by decide +kernel, rfl⟩
  · intro hsame
    have hshown : ∀ c ∈ (applyVersionRolledBack
        (Sample.threeVersions.db.timelineView Sample.auroraRow)
        ⟨Sample.id 11, Sample.id 21, Sample.id 20⟩).components, ∀ v ∈ c.versions,
        ∃ c' ∈ ((exec Sample.threeVersions Sample.rollback11).db.timelineView
          Sample.auroraRow).components, v ∈ c'.versions :=
      fun c hc v hv => hsame.exists_version hc hv
    exact absurd hshown (by decide +kernel)

end LavsCore
