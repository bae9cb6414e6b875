import LavsCore.Invariants.ReleaseLedger

/-!
# The ledger in the order of creation

`newestVersion rows c` is the version of a component that was created last. A run that rolls
nothing back and whose calls are all answered keeps the newest version of every component
active, and each of its releases pins the newest versions of a prefix of the version table
(`chronicle_run`). `createdAt_run`: the creation times are those of the calls that create
versions.
-/

namespace LavsCore

/-- The version of a component that was created last. -/
def newestVersion (rows : List VersionRow) (componentId : String) : Option VersionRow :=
  (rows.filter fun v => v.componentId = componentId).getLast?

namespace Store

/-- The versions in the order of their creation, without their status. -/
def created (db : Store) : List VersionRow := db.versions.rows.map VersionRow.fixed

/-- The release pins the newest of the versions `past` for each component of its product. -/
structure Freezes (db : Store) (row : ReleaseRow) (past : List VersionRow) : Prop where
  past_created : past <+: db.created
  pinned : ∃ rc ∈ db.releaseComponents.rows, rc.releaseId = row.id
  pins : ∀ componentId versionId,
    (∃ rc ∈ db.releaseComponents.rows.filter (fun rc => rc.releaseId = row.id),
        rc.componentId = componentId ∧ rc.versionId = versionId) ↔
      db.OwnsComponent row.productId componentId ∧
        ∃ v, newestVersion past componentId = some v ∧ v.id = versionId

/-- The newest versions are the active ones, and every release pins what was the newest. -/
structure Chronicle (db : Store) : Prop where
  active : ∀ c, (db.activeVersions c).map VersionRow.fixed = (newestVersion db.created c).toList
  frozen : ∀ row ∈ db.releases.rows, ∃ past, db.Freezes row past

end Store

open Store GrowthLemmas ReleaseLedgerLemmas VersionHistoryLemmas

/-- The call takes a version back. -/
def Call.isRollback : Call → Bool
  | .rollbackVersion _ _ => true
  | _ => false

/-- The call submits a version. -/
def Call.isSubmission : Call → Bool
  | .createVersion _ _ => true
  | _ => false

/-- What an answered call does that rolls nothing back. -/
inductive Advance (r : Request) (db db' : Store) : Prop
  | aside (hversions : db'.versions = db.versions) (hreleases : db'.releases = db.releases) :
      Advance r db db'
  | version {row : VersionRow} (hcall : r.1.isSubmission = true) (htime : row.createdAt = r.2.now)
      (hactive : row.status = some .active)
      (hinsert : (db.supersedeActive row.componentId).insertVersion row = .ok db') :
      Advance r db db'
  | cut {product : ProductRow} {row : ReleaseRow} {db₁ : Store}
      (hproduct : row.productId = product.id) (hactive : db.activeComponents product.id ≠ [])
      (hinsert : db.insertRelease row = .ok db₁)
      (hmanifest : insertManifest (db.newManifest product row.id) db₁ = .ok db') :
      Advance r db db'

namespace CreationOrderLemmas

variable {db db' : Store} {w w' : World} {r : Request} {env : Env}

/-! ## The newest version -/

theorem newestVersion_append (rows : List VersionRow) (v : VersionRow) (c : String) :
    newestVersion (rows ++ [v]) c = if v.componentId = c then some v else newestVersion rows c := by
  by_cases hc : v.componentId = c
  · simp [newestVersion, List.filter_append, hc]
  · simp [newestVersion, List.filter_append, hc]

theorem mem_of_newestVersion {rows : List VersionRow} {c : String} {v : VersionRow}
    (h : newestVersion rows c = some v) : v ∈ rows ∧ v.componentId = c := by
  have hmem := List.mem_of_getLast? h
  rw [List.mem_filter, decide_eq_true_eq] at hmem
  exact hmem

theorem mem_created {v : VersionRow} :
    v ∈ db.created ↔ ∃ u ∈ db.versions.rows, u.fixed = v := List.mem_map

/-! ## What the calls do -/

theorem advance_createProduct {data : CreateProductModel}
    {answer : Except ApiError ProductResponseModel}
    (h : CreateProductOutcome data env w answer w') : Advance r w.db w'.db := by
  cases h with
  | failed error => exact .aside rfl rfl
  | created hinsert =>
    exact .aside (insertProduct_ok hinsert).versions (insertProduct_ok hinsert).releases

theorem advance_createComponent {data : CreateComponentModel}
    {answer : Except ApiError ComponentResponseModel}
    (h : CreateComponentOutcome data env w answer w') : Advance r w.db w'.db := by
  cases h with
  | failed error => exact .aside rfl rfl
  | created hinsert =>
    exact .aside (insertComponent_ok hinsert).versions (insertComponent_ok hinsert).releases

theorem advance_createVersion {eventBus : Bool} {data : CreateVersionModel}
    {answer : Except ApiError VersionResponseModel}
    (h : CreateVersionOutcome eventBus data env w answer w') (hok : Answered answer) :
    Advance (.createVersion eventBus data, env) w.db w'.db := by
  cases h with
  | unknown _ => exact .aside rfl rfl
  | refused _ _ _ _ _ => exact Bool.noConfusion hok
  | created _ _ _ _ _ hinsert _ => exact .version rfl rfl rfl hinsert

theorem advance_addDependency {eventBus : Bool} {data : CreateDependencyRequest}
    {answer : Except ApiError DependencyResponseModel}
    (h : AddDependencyOutcome eventBus data env w answer w') : Advance r w.db w'.db := by
  cases h with
  | rejected _ _ => exact .aside rfl rfl
  | refused _ _ => exact .aside rfl rfl
  | added _ hinsert =>
    exact .aside (insertDependency_ok hinsert).versions (insertDependency_ok hinsert).releases

theorem advance_removeDependency {eventBus : Bool} {data : RemoveDependencyRequest}
    {answer : Except ApiError PUnit} (h : RemoveDependencyOutcome eventBus data w answer w') :
    Advance r w.db w'.db := by
  cases h with
  | unknown _ => exact .aside rfl rfl
  | removed _ _ => exact .aside rfl rfl

theorem advance_cutRelease {data : CutReleaseRequest} {answer : Except ApiError CutReleaseResult}
    (h : CutReleaseOutcome data env w answer w') (hok : Answered answer) :
    Advance r w.db w'.db := by
  cases h with
  | unknown _ => exact .aside rfl rfl
  | replayed _ => exact .aside rfl rfl
  | nothing _ _ => exact .aside rfl rfl
  | unversioned _ _ _ _ _ => exact .aside rfl rfl
  | refused _ _ _ _ _ _ => exact Bool.noConfusion hok
  | halted _ _ _ _ _ _ _ _ _ => exact Bool.noConfusion hok
  | cut _ hid _ hactive _ hinsert hmanifest => exact .cut hid.symm hactive hinsert hmanifest

end CreationOrderLemmas

open CreationOrderLemmas RunLemmas

/-- An answered call that is no rollback advances the store. -/
theorem exec_advance {w : World} {r : Request} (hforward : r.1.isRollback = false)
    (hr : Answered (outcome w r)) : Advance r w.db (exec w r).db := by
  obtain ⟨call, env⟩ := r
  have hwrap : ∀ {α : Type} (f : α → Response) (p : Query α),
      (Answered (p.run w).1 → Advance (call, env) w.db (p.run w).2.db) →
        Answered ((f <$> p).run w).1 → Advance (call, env) w.db ((f <$> p).run w).2.db := by
    intro α f p h hok
    rw [(answered_map f p w).1]
    exact h ((answered_map f p w).2.mp hok)
  cases call with
  | createProduct data =>
    exact hwrap _ _ (fun _ => advance_createProduct (createProduct_run data env w)) hr
  | createComponent data =>
    exact hwrap _ _ (fun _ => advance_createComponent (createComponent_run data env w)) hr
  | createVersion eventBus data =>
    exact hwrap _ _ (advance_createVersion (createVersion_run eventBus data env w)) hr
  | rollbackVersion eventBus data => cases hforward
  | addDependency eventBus data =>
    exact hwrap _ _ (fun _ => advance_addDependency (addDependency_run eventBus data env w)) hr
  | removeDependency eventBus data =>
    exact hwrap _ _ (fun _ => advance_removeDependency (removeDependency_run eventBus data w)) hr
  | cutRelease data =>
    exact hwrap _ _ (advance_cutRelease (cutRelease_run data env w)) hr

/-! ## One step -/

section Step

variable {db db' : Store} {r : Request}

/-- A later store has what a release pins. -/
theorem freezes_of_extends (hext : db.Extends db') {row : ReleaseRow}
    (hrow : row ∈ db.releases.rows) {past : List VersionRow} (h : db.Freezes row past) :
    db'.Freezes row past where
  past_created := List.IsPrefix.trans h.past_created hext.versions
  pinned := by
    obtain ⟨rc, hrc, hid⟩ := h.pinned
    obtain ⟨new, hrows, _⟩ := hext.manifest
    exact ⟨rc, hrows ▸ List.mem_append_left new hrc, hid⟩
  pins := by
    intro componentId versionId
    rw [manifest_of_extends hext hrow, h.pins]
    constructor
    · rintro ⟨hown, hnewest⟩
      exact ⟨hext.ownsComponent hown, hnewest⟩
    · rintro ⟨⟨c, hc, hid, hproduct⟩, v, hnewest, hvid⟩
      -- The component had a version, so it was there before.
      obtain ⟨hv, hvc⟩ := mem_of_newestVersion hnewest
      obtain ⟨u, hu, rfl⟩ := mem_created.mp (h.past_created.subset hv)
      obtain ⟨c₀, hc₀, hid₀⟩ := Table.mem_keys.mp (db.version_component u hu)
      have huc : u.componentId = componentId := hvc
      have hsame : c₀.id = c.id := hid₀.trans (huc.trans hid.symm)
      obtain rfl : c₀ = c := Table.eq_of_key_eq (hext.components.subset hc₀) hc hsame
      exact ⟨⟨c₀, hc₀, hid, hproduct⟩, u.fixed, hnewest, hvid⟩

/-- A cut pins the newest of all versions. -/
theorem freezes_of_cut (hactive : ∀ c, (db.activeVersions c).map VersionRow.fixed =
      (newestVersion db.created c).toList) {product : ProductRow} {row : ReleaseRow} {db₁ : Store}
    (hproduct : row.productId = product.id) (hne : db.activeComponents product.id ≠ [])
    (hinsert : db.insertRelease row = .ok db₁)
    (hmanifest : insertManifest (db.newManifest product row.id) db₁ = .ok db') :
    db'.Freezes row db'.created := by
  obtain ⟨_, hcomponents, hversions, _, _, hnew⟩ := cut_frame hinsert hmanifest
  refine ⟨List.prefix_refl _, ?_, fun componentId versionId => ?_⟩
  · obtain ⟨record, hrecord⟩ := List.exists_mem_of_ne_nil _ hne
    exact ⟨_, hnew ▸ List.mem_append_right _ (List.mem_map_of_mem hrecord), rfl⟩
  · have hactive' := hactive componentId
    rw [manifest_of_cut hinsert hmanifest fun _ => newManifest_releaseId, newManifest_pins,
      Store.created, hversions]
    rw [Store.created] at hactive'
    constructor
    · rintro ⟨c, hc, hid, hcp, v, hv, rfl⟩
      refine ⟨⟨c, hcomponents ▸ hc, hid, hcp.trans hproduct.symm⟩, v.fixed, ?_, rfl⟩
      have hmem := hactive' ▸ List.mem_map_of_mem (f := VersionRow.fixed) hv
      exact Option.mem_toList.mp hmem
    · rintro ⟨⟨c, hc, hid, hcp⟩, u, hnewest, rfl⟩
      rw [hnewest] at hactive'
      obtain ⟨v, hv, rfl⟩ : ∃ v ∈ db.activeVersions componentId, v.fixed = u :=
        List.mem_map.mp (hactive' ▸ List.mem_singleton_self u)
      exact ⟨c, hcomponents ▸ hc, hid, hcp.trans hproduct, v, hv, rfl⟩

theorem chronicle_step (hinv : db.Chronicle) (hext : db.Extends db') (h : Advance r db db') :
    db'.Chronicle := by
  have hold : ∀ row ∈ db.releases.rows, ∃ past, db'.Freezes row past := by
    intro row hrow
    obtain ⟨past, hpast⟩ := hinv.frozen row hrow
    exact ⟨past, freezes_of_extends hext hrow hpast⟩
  have hsame : db'.versions = db.versions → ∀ c,
      (db'.activeVersions c).map VersionRow.fixed = (newestVersion db'.created c).toList := by
    intro hversions c
    rw [activeVersions_congr hversions, hinv.active, Store.created, Store.created, hversions]
  cases h with
  | aside hversions hreleases => exact ⟨hsame hversions, hreleases ▸ hold⟩
  | @version row _ _ hactive hinsert =>
    refine ⟨fun c => ?_, (insertVersion_ok hinsert).releases ▸ hold⟩
    have hcreated : db'.created = db.created ++ [row.fixed] := by
      rw [Store.created, (insertVersion_ok hinsert).rows, List.map_append, supersedeActive_eq,
        setStatus_fixed]
      rfl
    have hid : row.fixed.componentId = row.componentId := rfl
    rw [activeVersions_version hactive hinsert, hcreated, newestVersion_append, hid]
    rcases eq_or_ne c row.componentId with rfl | hne
    · simp
    · simp [hne, hne.symm, hinv.active]
  | @cut product row db₁ hproduct hne hinsert hmanifest =>
    obtain ⟨_, _, hversions, _, hreleases, _⟩ := cut_frame hinsert hmanifest
    refine ⟨hsame hversions, fun row' hrow' => ?_⟩
    rw [hreleases, List.mem_append, List.mem_singleton] at hrow'
    rcases hrow' with hrow' | rfl
    · exact hold row' hrow'
    · exact ⟨_, freezes_of_cut hinv.active hproduct hne hinsert hmanifest⟩

/-- A call adds at most the version that it submits, at its own time. -/
theorem createdAt_step (h : Advance r db db') :
    ∃ times, times.Sublist (if r.1.isSubmission then [r.2.now] else []) ∧
      db'.versions.rows.map VersionRow.createdAt =
        db.versions.rows.map VersionRow.createdAt ++ times := by
  cases h with
  | aside hversions _ => exact ⟨[], List.nil_sublist _, by rw [hversions, List.append_nil]⟩
  | @version row hcall htime hactive hinsert =>
    refine ⟨[r.2.now], by rw [if_pos hcall], ?_⟩
    rw [(insertVersion_ok hinsert).rows, List.map_append, supersedeActive_eq]
    have hfixed := congrArg (List.map VersionRow.createdAt) (setStatus_fixed db .superseded
      (VersionRow.isActiveOf row.componentId))
    rw [List.map_map, List.map_map] at hfixed
    exact congrArg₂ _ hfixed (congrArg (fun time => [time]) htime)
  | cut _ _ hinsert hmanifest =>
    exact ⟨[], List.nil_sublist _, by rw [cut_versions hinsert hmanifest, List.append_nil]⟩

end Step

/-! ## Whole runs -/

theorem chronicle_empty : Store.empty.Chronicle where
  active := fun _ => rfl
  frozen := fun _ h => absurd h List.not_mem_nil

theorem chronicle_run {w : World} (h : w.db.Chronicle) {requests : List Request}
    (hall : AllAnswered w requests) (hforward : ∀ r ∈ requests, r.1.isRollback = false) :
    (run w requests).db.Chronicle := by
  induction requests generalizing w with
  | nil => exact h
  | cons r rest ih =>
    obtain ⟨hr, hrest⟩ := hall
    obtain ⟨hfirst, hothers⟩ := List.forall_mem_cons.mp hforward
    exact ih (chronicle_step h (extends_step (exec_change w r)) (exec_advance hfirst hr)) hrest
      hothers

/-- The versions of a run are created at the times of calls that submit one, in their order. -/
theorem createdAt_run {w : World} {requests : List Request} (hall : AllAnswered w requests)
    (hforward : ∀ r ∈ requests, r.1.isRollback = false) :
    ∃ times, times.Sublist ((requests.filter fun r => r.1.isSubmission).map fun r => r.2.now) ∧
      (run w requests).db.versions.rows.map VersionRow.createdAt =
        w.db.versions.rows.map VersionRow.createdAt ++ times := by
  induction requests generalizing w with
  | nil => exact ⟨[], List.nil_sublist _, (List.append_nil _).symm⟩
  | cons r rest ih =>
    obtain ⟨hr, hrest⟩ := hall
    obtain ⟨hfirst, hothers⟩ := List.forall_mem_cons.mp hforward
    obtain ⟨first, hsub, hrows⟩ := createdAt_step (exec_advance hfirst hr)
    obtain ⟨times, hsubs, hrun⟩ := ih hrest hothers
    refine ⟨first ++ times, ?_, by rw [run_cons, hrun, hrows, List.append_assoc]⟩
    by_cases hcall : r.1.isSubmission = true
    · rw [if_pos hcall] at hsub
      simpa [hcall] using hsub.append hsubs
    · rw [if_neg hcall, List.sublist_nil] at hsub
      simpa [hcall, hsub] using hsubs

end LavsCore
