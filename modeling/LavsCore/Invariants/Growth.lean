import LavsCore.Runs

/-!
# What every run keeps

`Store.Extends db db'`: products, components and releases are only added, versions are
only added and change in their status alone, and new manifest rows belong to new
releases. Every call extends the store, whatever its outcome (`extends_run`).

`manifestSound_run`: in every reachable store a manifest row pins a version of a
component of the product of its release.
-/

namespace LavsCore

namespace Store

/-- The version rows of `db` are the first ones of `db'`, up to their status. -/
def KeepsVersions (db db' : Store) : Prop :=
  db.versions.rows.map VersionRow.fixed <+: db'.versions.rows.map VersionRow.fixed

/-- `db'` is a later state of `db`. -/
structure Extends (db db' : Store) : Prop where
  products : db.products.rows <+: db'.products.rows
  components : db.components.rows <+: db'.components.rows
  versions : db.KeepsVersions db'
  releases : db.releases.rows <+: db'.releases.rows
  manifest : ∃ new, db'.releaseComponents.rows = db.releaseComponents.rows ++ new ∧
    ∀ rc ∈ new, rc.releaseId ∉ db.releases.keys

/-- The manifest row pins a version of a component of the product of its release. -/
def SoundRow (db : Store) (rc : ReleaseComponentRow) : Prop :=
  ∃ r ∈ db.releases.rows, r.id = rc.releaseId ∧ db.OwnsComponent r.productId rc.componentId ∧
    ∃ v ∈ db.versions.rows, v.id = rc.versionId ∧ v.componentId = rc.componentId

/-- Every manifest row is sound. -/
def ManifestSound (db : Store) : Prop := ∀ rc ∈ db.releaseComponents.rows, db.SoundRow rc

end Store

open Store

namespace GrowthLemmas

variable {db db' : Store}

theorem prefix_of_eq {α : Type} {rows rows' : List α} (h : rows' = rows) : rows <+: rows' :=
  h ▸ List.prefix_refl _

theorem keepsVersions_of_eq (h : db'.versions = db.versions) : db.KeepsVersions db' :=
  prefix_of_eq (congrArg (fun versions => versions.rows.map VersionRow.fixed) h)

theorem prefix_of_append {α : Type} {rows rows' new : List α} (h : rows' = rows ++ new) :
    rows <+: rows' := h ▸ List.prefix_append _ _

theorem manifest_of_eq (h : db'.releaseComponents = db.releaseComponents) :
    ∃ new, db'.releaseComponents.rows = db.releaseComponents.rows ++ new ∧
      ∀ rc ∈ new, rc.releaseId ∉ db.releases.keys :=
  ⟨[], by rw [h, List.append_nil], by simp⟩

/-- Where the fixed columns are the same, every row was there before. -/
theorem exists_of_fixed_eq
    (h : db'.versions.rows.map VersionRow.fixed = db.versions.rows.map VersionRow.fixed)
    {v : VersionRow} (hv : v ∈ db'.versions.rows) : ∃ v₀ ∈ db.versions.rows, v₀.fixed = v.fixed :=
  List.mem_map.mp (h ▸ List.mem_map_of_mem hv)

theorem fixed_id {v v' : VersionRow} (h : v'.fixed = v.fixed) : v'.id = v.id := by
  have := congrArg VersionRow.id h
  exact this

theorem fixed_componentId {v v' : VersionRow} (h : v'.fixed = v.fixed) :
    v'.componentId = v.componentId := by
  have := congrArg VersionRow.componentId h
  exact this

theorem fixed_tuple {v v' : VersionRow} (h : v'.fixed = v.fixed) : v'.tuple = v.tuple := by
  have := congrArg VersionRow.tuple h
  exact this

theorem rollback_fixed (db : Store) (target previous : VersionRow) :
    (db.rollback target previous).versions.rows.map VersionRow.fixed =
      db.versions.rows.map VersionRow.fixed := by
  rw [Store.rollback, markStatus_eq, setStatus_fixed, supersedeActive_eq, setStatus_fixed,
    markStatus_eq, setStatus_fixed]

/-- The manifest rows of a cut carry its id. -/
theorem newManifest_releaseId {product : ProductRow} {releaseId : String}
    {rc : ReleaseComponentRow} (h : rc ∈ db.newManifest product releaseId) :
    rc.releaseId = releaseId := by
  obtain ⟨record, _, rfl⟩ := List.mem_map.mp h
  rfl

theorem newManifest_keys (product : ProductRow) (releaseId : String) :
    (db.newManifest product releaseId).map ReleaseComponentRow.key =
      ((db.activeComponents product.id).map ActiveComponent.componentId).map
        fun componentId => (releaseId, componentId) := by
  rw [Store.newManifest, List.map_map, List.map_map]
  rfl

/-- A cut adds one release and manifest rows of it, and nothing else. -/
theorem cut_frame {row : ReleaseRow} {rows : List ReleaseComponentRow} {db₁ : Store}
    (hinsert : db.insertRelease row = .ok db₁) (hmanifest : insertManifest rows db₁ = .ok db') :
    db'.products = db.products ∧ db'.components = db.components ∧ db'.versions = db.versions ∧
      db'.dependencies = db.dependencies ∧ db'.releases.rows = db.releases.rows ++ [row] ∧
      db'.releaseComponents.rows = db.releaseComponents.rows ++ rows := by
  have hr := insertRelease_ok hinsert
  have hm := insertManifest_ok hmanifest
  refine ⟨hm.products.trans hr.products, hm.components.trans hr.components,
    hm.versions.trans hr.versions, hm.dependencies.trans hr.dependencies, ?_, ?_⟩
  · rw [hm.releases, hr.rows]
  · rw [hm.rows, hr.releaseComponents]

end GrowthLemmas

open GrowthLemmas

/-! ## Extension -/

namespace Store.Extends

variable {db db' db'' : Store}

theorem refl (db : Store) : db.Extends db where
  products := List.prefix_refl _
  components := List.prefix_refl _
  versions := List.prefix_refl _
  releases := List.prefix_refl _
  manifest := manifest_of_eq rfl

theorem releases_keys (h : db.Extends db') {id : String} (hid : id ∈ db.releases.keys) :
    id ∈ db'.releases.keys := by
  obtain ⟨r, hr, rfl⟩ := Table.mem_keys.mp hid
  exact Table.key_mem_keys (h.releases.subset hr)

theorem trans (h : db.Extends db') (h' : db'.Extends db'') : db.Extends db'' where
  products := h.products.trans h'.products
  components := h.components.trans h'.components
  versions := List.IsPrefix.trans h.versions h'.versions
  releases := h.releases.trans h'.releases
  manifest := by
    obtain ⟨new, hrows, hnew⟩ := h.manifest
    obtain ⟨new', hrows', hnew'⟩ := h'.manifest
    refine ⟨new ++ new', by rw [hrows', hrows, List.append_assoc], ?_⟩
    intro rc hrc
    rcases List.mem_append.mp hrc with hrc | hrc
    · exact hnew rc hrc
    · exact fun hmem => hnew' rc hrc (h.releases_keys hmem)

/-- A version row stays, with its fixed columns. -/
theorem exists_version (h : db.Extends db') {v : VersionRow} (hv : v ∈ db.versions.rows) :
    ∃ v' ∈ db'.versions.rows, v'.fixed = v.fixed :=
  List.mem_map.mp (h.versions.subset (List.mem_map_of_mem hv))

theorem ownsComponent (h : db.Extends db') {productId componentId : String}
    (hc : db.OwnsComponent productId componentId) : db'.OwnsComponent productId componentId := by
  obtain ⟨c, hrow, hid, hproduct⟩ := hc
  exact ⟨c, h.components.subset hrow, hid, hproduct⟩

theorem soundRow (h : db.Extends db') {rc : ReleaseComponentRow} (hrc : db.SoundRow rc) :
    db'.SoundRow rc := by
  obtain ⟨r, hr, hid, hc, v, hv, hvid, hvc⟩ := hrc
  obtain ⟨v', hv', hfixed⟩ := h.exists_version hv
  exact ⟨r, h.releases.subset hr, hid, h.ownsComponent hc, v', hv', (fixed_id hfixed).trans hvid,
    (fixed_componentId hfixed).trans hvc⟩

end Store.Extends

section Step

variable {db db' : Store} {ok : Prop} {env : Env}

/-- Every change extends the store. -/
theorem extends_step (h : Change ok env db db') : db.Extends db' := by
  cases h with
  | unchanged => exact Extends.refl db
  | product _ hinsert =>
    have hi := insertProduct_ok hinsert
    exact ⟨prefix_of_append hi.rows, prefix_of_eq (congrArg _ hi.components),
      keepsVersions_of_eq hi.versions, prefix_of_eq (congrArg _ hi.releases),
      manifest_of_eq hi.releaseComponents⟩
  | component hinsert =>
    have hi := insertComponent_ok hinsert
    exact ⟨prefix_of_eq (congrArg _ hi.products), prefix_of_append hi.rows,
      keepsVersions_of_eq hi.versions, prefix_of_eq (congrArg _ hi.releases),
      manifest_of_eq hi.releaseComponents⟩
  | superseded componentId _ =>
    exact ⟨List.prefix_refl _, List.prefix_refl _, prefix_of_eq (setStatus_fixed db _ _),
      List.prefix_refl _, manifest_of_eq rfl⟩
  | version _ hinsert =>
    have hi := insertVersion_ok hinsert
    refine ⟨prefix_of_eq (congrArg _ hi.products), prefix_of_eq (congrArg _ hi.components), ?_,
      prefix_of_eq (congrArg _ hi.releases), manifest_of_eq hi.releaseComponents⟩
    rw [KeepsVersions, hi.rows, List.map_append, supersedeActive_eq, setStatus_fixed]
    exact List.prefix_append _ _
  | rollback _ _ _ =>
    exact ⟨List.prefix_refl _, List.prefix_refl _, prefix_of_eq (rollback_fixed db _ _),
      List.prefix_refl _, manifest_of_eq rfl⟩
  | dependency _ hinsert =>
    have hi := insertDependency_ok hinsert
    exact ⟨prefix_of_eq (congrArg _ hi.products), prefix_of_eq (congrArg _ hi.components),
      keepsVersions_of_eq hi.versions, prefix_of_eq (congrArg _ hi.releases),
      manifest_of_eq hi.releaseComponents⟩
  | removal _ => exact ⟨List.prefix_refl _, List.prefix_refl _, List.prefix_refl _,
      List.prefix_refl _, manifest_of_eq rfl⟩
  | @cut data product version db₁ _ done rest _ _ _ hinsert hrows _ hmanifest =>
    obtain ⟨hproducts, hcomponents, hversions, _, hreleases, hnew⟩ := cut_frame hinsert hmanifest
    refine ⟨prefix_of_eq (congrArg _ hproducts), prefix_of_eq (congrArg _ hcomponents),
      keepsVersions_of_eq hversions, prefix_of_append hreleases, done, hnew, ?_⟩
    intro rc hrc
    have hid : rc.releaseId = env.ulid :=
      newManifest_releaseId (hrows ▸ List.mem_append_left rest hrc)
    rw [hid]
    exact (insertRelease_ok hinsert).fresh

theorem manifestSound_step (hinv : db.ManifestSound) (h : Change ok env db db') :
    db'.ManifestSound := by
  have hext := extends_step h
  have hsame : db'.releaseComponents = db.releaseComponents → db'.ManifestSound :=
    fun heq rc hrc => hext.soundRow (hinv rc (heq ▸ hrc))
  cases h with
  | unchanged => exact hinv
  | product _ hinsert => exact hsame (insertProduct_ok hinsert).releaseComponents
  | component hinsert => exact hsame (insertComponent_ok hinsert).releaseComponents
  | superseded _ _ => exact hsame rfl
  | version _ hinsert => exact hsame (insertVersion_ok hinsert).releaseComponents
  | rollback _ _ _ => exact hsame rfl
  | dependency _ hinsert => exact hsame (insertDependency_ok hinsert).releaseComponents
  | removal _ => exact hsame rfl
  | @cut data product version _ _ done rest _ hid _ hinsert hrows _ hmanifest =>
    obtain ⟨_, hcomponents, hversions, _, hreleases, hnew⟩ := cut_frame hinsert hmanifest
    intro rc hrc
    rw [hnew, List.mem_append] at hrc
    rcases hrc with hrc | hrc
    · exact hext.soundRow (hinv rc hrc)
    · -- A new row comes from the active version of a component of the product.
      have hmem : rc ∈ db.newManifest product env.ulid := hrows ▸ List.mem_append_left rest hrc
      obtain ⟨record, hrecord, rfl⟩ := List.mem_map.mp hmem
      obtain ⟨c, hc, hproduct, v, hv, rfl⟩ := mem_activeComponents.mp hrecord
      obtain ⟨hvrow, hvc, _⟩ := mem_activeVersions.mp hv
      refine ⟨_, hreleases ▸ List.mem_append_right _ List.mem_cons_self, rfl, ⟨c, ?_, rfl, ?_⟩,
        v, hversions ▸ hvrow, rfl, hvc⟩
      · exact hcomponents ▸ hc
      · exact hproduct.trans hid

end Step

/-! ## Whole runs -/

theorem extends_run (w : World) (requests : List Request) : w.db.Extends (run w requests).db :=
  run_invariant (fun _ _ _ (h : w.db.Extends _) hstep => h.trans (extends_step hstep))
    (Extends.refl w.db) requests

theorem manifestSound_run {w : World} (h : w.db.ManifestSound) (requests : List Request) :
    (run w requests).db.ManifestSound :=
  run_invariant (fun _ _ _ => manifestSound_step) h requests

theorem manifestSound_empty : Store.empty.ManifestSound :=
  fun _ h => absurd h List.not_mem_nil

end LavsCore
