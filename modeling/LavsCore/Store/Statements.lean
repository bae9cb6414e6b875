import LavsCore.Store.Schema

/-!
# What the writing statements do

One lemma for each `INSERT`: the row was admitted by the constraints, it is the last
row of its table, and every other table is as before (`ProductInserted` and its
siblings). `setStatus` touches one table by definition; its lemmas are about the rows.
-/

namespace LavsCore

namespace Store

variable {db db' : Store}

/-! ## Inserts -/

structure ProductInserted (db : Store) (row : ProductRow) (db' : Store) : Prop where
  fresh : row.id ∉ db.products.keys
  rows : db'.products.rows = db.products.rows ++ [row]
  components : db'.components = db.components
  versions : db'.versions = db.versions
  releases : db'.releases = db.releases
  releaseComponents : db'.releaseComponents = db.releaseComponents
  dependencies : db'.dependencies = db.dependencies

theorem insertProduct_ok {row : ProductRow} (h : db.insertProduct row = .ok db') :
    ProductInserted db row db' := by
  unfold insertProduct at h
  split at h
  · cases h
  · next hid =>
    cases h
    exact ⟨hid, rfl, rfl, rfl, rfl, rfl, rfl⟩

theorem insertProduct_isOk {row : ProductRow} (hid : row.id ∉ db.products.keys) :
    ∃ db', db.insertProduct row = .ok db' := by
  unfold insertProduct
  rw [dif_neg hid]
  exact ⟨_, rfl⟩

structure ComponentInserted (db : Store) (row : ComponentRow) (db' : Store) : Prop where
  fresh : row.id ∉ db.components.keys
  product : row.productId ∈ db.products.keys
  rows : db'.components.rows = db.components.rows ++ [row]
  products : db'.products = db.products
  versions : db'.versions = db.versions
  releases : db'.releases = db.releases
  releaseComponents : db'.releaseComponents = db.releaseComponents
  dependencies : db'.dependencies = db.dependencies

theorem insertComponent_ok {row : ComponentRow} (h : db.insertComponent row = .ok db') :
    ComponentInserted db row db' := by
  unfold insertComponent at h
  split at h
  · cases h
  · next hid =>
    split at h
    · next hproduct =>
      cases h
      exact ⟨hid, hproduct, rfl, rfl, rfl, rfl, rfl, rfl⟩
    · cases h

theorem insertComponent_isOk {row : ComponentRow} (hid : row.id ∉ db.components.keys)
    (hproduct : row.productId ∈ db.products.keys) : ∃ db', db.insertComponent row = .ok db' := by
  unfold insertComponent
  rw [dif_neg hid, dif_pos hproduct]
  exact ⟨_, rfl⟩

/-- The constraints admit the version. -/
def AdmitsVersion (db : Store) (row : VersionRow) : Prop :=
  row.InRange ∧ row.id ∉ db.versions.keys ∧ row.componentId ∈ db.components.keys

instance (db : Store) (row : VersionRow) : Decidable (db.AdmitsVersion row) :=
  inferInstanceAs (Decidable (_ ∧ _ ∧ _))

structure VersionInserted (db : Store) (row : VersionRow) (db' : Store) : Prop where
  admitted : db.AdmitsVersion row
  rows : db'.versions.rows = db.versions.rows ++ [row]
  products : db'.products = db.products
  components : db'.components = db.components
  releases : db'.releases = db.releases
  releaseComponents : db'.releaseComponents = db.releaseComponents
  dependencies : db'.dependencies = db.dependencies

theorem insertVersion_ok {row : VersionRow} (h : db.insertVersion row = .ok db') :
    VersionInserted db row db' := by
  unfold insertVersion at h
  split at h
  · next hrange =>
    split at h
    · cases h
    · next hid =>
      split at h
      · next hcomponent =>
        cases h
        exact ⟨⟨hrange, hid, hcomponent⟩, rfl, rfl, rfl, rfl, rfl, rfl⟩
      · cases h
  · cases h

/-- The statement is refused exactly when the constraints do not admit the row. -/
theorem insertVersion_isOk {row : VersionRow} (h : db.AdmitsVersion row) :
    ∃ db', db.insertVersion row = .ok db' := by
  obtain ⟨hrange, hid, hcomponent⟩ := h
  unfold insertVersion
  rw [dif_pos hrange, dif_neg hid, dif_pos hcomponent]
  exact ⟨_, rfl⟩

theorem insertVersionOn_ok {backend : BackendKind} {row : VersionRow}
    (h : db.insertVersionOn backend row = .ok db') :
    row.fits backend = true ∧ db.insertVersion row = .ok db' := by
  unfold insertVersionOn at h
  split at h
  · next hfits => exact ⟨hfits, h⟩
  · cases h

structure ReleaseInserted (db : Store) (row : ReleaseRow) (db' : Store) : Prop where
  fresh : row.id ∉ db.releases.keys
  product : row.productId ∈ db.products.keys
  rows : db'.releases.rows = db.releases.rows ++ [row]
  products : db'.products = db.products
  components : db'.components = db.components
  versions : db'.versions = db.versions
  releaseComponents : db'.releaseComponents = db.releaseComponents
  dependencies : db'.dependencies = db.dependencies

theorem insertRelease_ok {row : ReleaseRow} (h : db.insertRelease row = .ok db') :
    ReleaseInserted db row db' := by
  unfold insertRelease at h
  split at h
  · cases h
  · next hid =>
    split at h
    · next hproduct =>
      cases h
      exact ⟨hid, hproduct, rfl, rfl, rfl, rfl, rfl, rfl⟩
    · cases h

theorem insertRelease_isOk (row : ReleaseRow) (hid : row.id ∉ db.releases.keys)
    (hproduct : row.productId ∈ db.products.keys) : ∃ db', db.insertRelease row = .ok db' := by
  unfold insertRelease
  rw [dif_neg hid, dif_pos hproduct]
  exact ⟨_, rfl⟩

structure ReleaseComponentInserted (db : Store) (row : ReleaseComponentRow) (db' : Store) :
    Prop where
  fresh : row.key ∉ db.releaseComponents.keys
  release : row.releaseId ∈ db.releases.keys
  rows : db'.releaseComponents.rows = db.releaseComponents.rows ++ [row]
  products : db'.products = db.products
  components : db'.components = db.components
  versions : db'.versions = db.versions
  releases : db'.releases = db.releases
  dependencies : db'.dependencies = db.dependencies

theorem insertReleaseComponent_ok {row : ReleaseComponentRow}
    (h : db.insertReleaseComponent row = .ok db') : ReleaseComponentInserted db row db' := by
  unfold insertReleaseComponent at h
  split at h
  · cases h
  · next hkey =>
    split at h
    · next hrelease =>
      cases h
      exact ⟨hkey, hrelease, rfl, rfl, rfl, rfl, rfl, rfl⟩
    · cases h

theorem insertReleaseComponent_isOk {row : ReleaseComponentRow}
    (hkey : row.key ∉ db.releaseComponents.keys) (hrelease : row.releaseId ∈ db.releases.keys) :
    ∃ db', db.insertReleaseComponent row = .ok db' := by
  unfold insertReleaseComponent
  rw [dif_neg hkey, dif_pos hrelease]
  exact ⟨_, rfl⟩

/-- The rows of a manifest, one statement after the other. -/
def insertManifest (rows : List ReleaseComponentRow) (db : Store) : Except Refusal Store :=
  match rows with
  | [] => .ok db
  | row :: rest =>
    match db.insertReleaseComponent row with
    | .ok db' => insertManifest rest db'
    | .error refusal => .error refusal

structure ManifestInserted (db : Store) (rows : List ReleaseComponentRow) (db' : Store) :
    Prop where
  fresh : ∀ row ∈ rows, row.key ∉ db.releaseComponents.keys
  distinct : (rows.map ReleaseComponentRow.key).Nodup
  rows : db'.releaseComponents.rows = db.releaseComponents.rows ++ rows
  products : db'.products = db.products
  components : db'.components = db.components
  versions : db'.versions = db.versions
  releases : db'.releases = db.releases
  dependencies : db'.dependencies = db.dependencies

theorem insertManifest_ok {rows : List ReleaseComponentRow} (h : insertManifest rows db = .ok db') :
    ManifestInserted db rows db' := by
  induction rows generalizing db with
  | nil =>
    cases h
    exact ⟨by simp, List.nodup_nil, (List.append_nil _).symm, rfl, rfl, rfl, rfl, rfl⟩
  | cons row rest ih =>
    unfold insertManifest at h
    split at h
    · next db₁ hrow =>
      have hfirst := insertReleaseComponent_ok hrow
      have hrest := ih h
      have hkeys : db₁.releaseComponents.keys = db.releaseComponents.keys ++ [row.key] := by
        simp [Table.keys, hfirst.rows]
      refine ⟨?_, ?_, ?_, hrest.products.trans hfirst.products,
        hrest.components.trans hfirst.components, hrest.versions.trans hfirst.versions,
        hrest.releases.trans hfirst.releases, hrest.dependencies.trans hfirst.dependencies⟩
      · intro r hr
        rcases List.mem_cons.mp hr with rfl | hr
        · exact hfirst.fresh
        · intro hmem
          exact hrest.fresh r hr (hkeys ▸ List.mem_append_left _ hmem)
      · rw [List.map_cons, List.nodup_cons]
        refine ⟨?_, hrest.distinct⟩
        intro hmem
        obtain ⟨r, hr, hkey⟩ := List.mem_map.mp hmem
        refine hrest.fresh r hr ?_
        rw [hkeys, hkey]
        exact List.mem_append_right _ List.mem_cons_self
      · rw [hrest.rows, hfirst.rows, List.append_assoc, List.singleton_append]
    · cases h

structure DependencyInserted (db : Store) (row : DependencyRow) (db' : Store) : Prop where
  fresh : row.id ∉ db.dependencies.keys
  newEdge : row.key ∉ db.dependencies.rows.map DependencyRow.key
  rows : db'.dependencies.rows = db.dependencies.rows ++ [row]
  products : db'.products = db.products
  components : db'.components = db.components
  versions : db'.versions = db.versions
  releases : db'.releases = db.releases
  releaseComponents : db'.releaseComponents = db.releaseComponents

theorem insertDependency_ok {row : DependencyRow} (h : db.insertDependency row = .ok db') :
    DependencyInserted db row db' := by
  unfold insertDependency at h
  split at h
  · cases h
  · next hid =>
    split at h
    · cases h
    · next hkey =>
      split at h
      · split at h
        · split at h
          · cases h
            exact ⟨hid, hkey, rfl, rfl, rfl, rfl, rfl, rfl⟩
          · cases h
        · cases h
      · cases h

theorem insertDependency_isOk (row : DependencyRow) (hid : row.id ∉ db.dependencies.keys)
    (hkey : row.key ∉ db.dependencies.rows.map DependencyRow.key)
    (hproduct : row.productId ∈ db.products.keys)
    (hfrom : row.fromComponentId ∈ db.components.keys)
    (hto : row.toComponentId ∈ db.components.keys) :
    ∃ db', db.insertDependency row = .ok db' := by
  unfold insertDependency
  rw [dif_neg hid, dif_neg hkey, dif_pos hproduct, dif_pos hfrom, dif_pos hto]
  exact ⟨_, rfl⟩

/-- The row of an edge is gone, and every other row is there. -/
structure DependencyDeleted (db : Store) (row : DependencyRow) (db' : Store) : Prop where
  rows : db'.dependencies.rows = db.dependencies.rows.filter fun d => d.id ≠ row.id
  products : db'.products = db.products
  components : db'.components = db.components
  versions : db'.versions = db.versions
  releases : db'.releases = db.releases
  releaseComponents : db'.releaseComponents = db.releaseComponents

/-! ## Updates of the status column -/

/-- What `setStatus` does to one row. -/
def withStatus (status : VersionStatus) (where? : VersionRow → Bool) (v : VersionRow) :
    VersionRow :=
  if where? v then { v with status := some status } else v

section SetStatus

variable (db) (status : VersionStatus) (where? : VersionRow → Bool)

@[simp] theorem setStatus_rows :
    (db.setStatus status where?).versions.rows =
      db.versions.rows.map (withStatus status where?) := rfl

@[simp] theorem setStatus_components :
    (db.setStatus status where?).components = db.components := rfl

@[simp] theorem setStatus_keys :
    (db.setStatus status where?).versions.keys = db.versions.keys := by
  simp [setStatus]

end SetStatus

theorem supersedeActive_eq (db : Store) (c : String) :
    db.supersedeActive c = db.setStatus .superseded (VersionRow.isActiveOf c) := rfl

theorem markStatus_eq (db : Store) (status : VersionStatus) (id : String) :
    db.markStatus status id = db.setStatus status fun v => v.id = id := rfl

/-- No column besides the status changes. -/
@[simp] theorem withStatus_fixed (status : VersionStatus) (where? : VersionRow → Bool)
    (v : VersionRow) : (withStatus status where? v).fixed = v.fixed := by
  unfold withStatus
  split <;> rfl

@[simp] theorem withStatus_id (status : VersionStatus) (where? : VersionRow → Bool)
    (v : VersionRow) : (withStatus status where? v).id = v.id := by
  unfold withStatus
  split <;> rfl

@[simp] theorem withStatus_componentId (status : VersionStatus) (where? : VersionRow → Bool)
    (v : VersionRow) : (withStatus status where? v).componentId = v.componentId := by
  unfold withStatus
  split <;> rfl

theorem withStatus_of_not {status : VersionStatus} {where? : VersionRow → Bool} {v : VersionRow}
    (h : where? v = false) : withStatus status where? v = v := by
  simp [withStatus, h]

theorem setStatus_fixed (db : Store) (status : VersionStatus) (where? : VersionRow → Bool) :
    (db.setStatus status where?).versions.rows.map VersionRow.fixed =
      db.versions.rows.map VersionRow.fixed := by
  simp

theorem withStatus_of_pos {status : VersionStatus} {where? : VersionRow → Bool} {v : VersionRow}
    (h : where? v = true) : withStatus status where? v = { v with status := some status } := by
  simp [withStatus, h]

/-- A row is found under its key with the new status. -/
theorem setStatus_lookup (db : Store) (status : VersionStatus) (where? : VersionRow → Bool)
    (id : String) :
    (db.setStatus status where?).versions.lookup id =
      (db.versions.lookup id).map (withStatus status where?) := by
  simp only [Table.lookup, setStatus_rows, List.filter_map, Function.comp_def, withStatus_id]

/-! ## Active versions -/

@[simp] theorem mem_activeVersions {c : String} {v : VersionRow} :
    v ∈ db.activeVersions c ↔
      v ∈ db.versions.rows ∧ v.componentId = c ∧ v.status = some .active := by
  simp [activeVersions, VersionRow.isActiveOf]

theorem activeVersions_congr (h : db'.versions = db.versions) (c : String) :
    db'.activeVersions c = db.activeVersions c := by
  rw [activeVersions, h]
  rfl

theorem activeVersions_insert {row : VersionRow} (h : VersionInserted db row db') (c : String) :
    db'.activeVersions c =
      db.activeVersions c ++ if row.isActiveOf c then [row] else [] := by
  rw [activeVersions, h.rows, List.filter_append, List.filter_singleton]
  cases row.isActiveOf c <;> rfl

/-- An update that leaves the rows of a component alone leaves its active versions. -/
theorem activeVersions_setStatus_of_not {status : VersionStatus} {where? : VersionRow → Bool}
    {c : String} (h : ∀ v ∈ db.versions.rows, v.componentId = c → where? v = false) :
    (db.setStatus status where?).activeVersions c = db.activeVersions c := by
  unfold activeVersions
  rw [setStatus_rows, List.filter_map]
  have hsame : ∀ v ∈ db.versions.rows,
      (VersionRow.isActiveOf c ∘ withStatus status where?) v = VersionRow.isActiveOf c v := by
    intro v hv
    by_cases hc : v.componentId = c
    · rw [Function.comp_apply, withStatus_of_not (h v hv hc)]
    · simp [VersionRow.isActiveOf, hc]
  rw [List.filter_congr hsame]
  refine (List.map_congr_left ?_).trans (List.map_id _)
  intro v hv
  exact withStatus_of_not (h v (mem_activeVersions.mp hv).1 (mem_activeVersions.mp hv).2.1)

theorem activeVersions_supersede_self (db : Store) (c : String) :
    (db.supersedeActive c).activeVersions c = [] := by
  rw [List.eq_nil_iff_forall_not_mem]
  intro v hv
  obtain ⟨hrow, hc, hactive⟩ := mem_activeVersions.mp hv
  rw [supersedeActive_eq, setStatus_rows] at hrow
  obtain ⟨v₀, _, rfl⟩ := List.mem_map.mp hrow
  unfold withStatus at hc hactive
  split at hactive
  · cases hactive
  · next hnot =>
    rw [if_neg hnot] at hc
    exact hnot (by simp [VersionRow.isActiveOf, hc, hactive])

theorem activeVersions_supersede_of_ne (db : Store) {c d : String} (h : d ≠ c) :
    (db.supersedeActive c).activeVersions d = db.activeVersions d := by
  refine activeVersions_setStatus_of_not ?_
  intro v _ hv
  simp [VersionRow.isActiveOf, hv, h]

/-- Marking a row of one component does not concern the others. -/
theorem activeVersions_mark_of_ne {status : VersionStatus} {row : VersionRow} {d : String}
    (hrow : row ∈ db.versions.rows) (h : d ≠ row.componentId) :
    (db.markStatus status row.id).activeVersions d = db.activeVersions d := by
  refine activeVersions_setStatus_of_not ?_
  intro v hv hd
  refine decide_eq_false fun hid => h ?_
  rw [← hd, Table.eq_of_key_eq hv hrow hid]

/-- The only row that a statement can make active is the one it marks. -/
theorem activeVersions_mark_active {row : VersionRow} (hrow : row ∈ db.versions.rows)
    (hnone : db.activeVersions row.componentId = []) :
    (db.markStatus .active row.id).activeVersions row.componentId =
      [{ row with status := some .active }] := by
  have hmark : ∀ v ∈ db.versions.rows,
      (VersionRow.isActiveOf row.componentId ∘ withStatus .active fun v => v.id = row.id) v =
        decide (v.id = row.id) := by
    intro v hv
    by_cases hid : v.id = row.id
    · cases Table.eq_of_key_eq hv hrow hid
      simp [withStatus, VersionRow.isActiveOf]
    · have hnot : v ∉ db.activeVersions row.componentId := by simp [hnone]
      simp only [mem_activeVersions, not_and] at hnot
      simp only [Function.comp_apply, withStatus, hid, decide_false, Bool.false_eq_true, if_false,
        VersionRow.isActiveOf, Bool.and_eq_false_iff, decide_eq_false_iff_not]
      by_cases hc : v.componentId = row.componentId
      · exact Or.inr (hnot hv hc)
      · exact Or.inl hc
  rw [activeVersions, markStatus_eq, setStatus_rows, List.filter_map, List.filter_congr hmark]
  have hlookup : (db.versions.rows.filter fun v => decide (v.id = row.id)) = [row] :=
    Table.lookup_eq_singleton hrow
  rw [hlookup]
  simp [withStatus]

/-- A marked row that is not to be active leaves at most the old active versions. -/
theorem activeVersions_mark_sublist {status : VersionStatus} (hs : status ≠ .active)
    (db : Store) (id c : String) :
    (db.markStatus status id).activeVersions c =
      (db.activeVersions c).filter fun v => v.id ≠ id := by
  have hmark : ∀ v ∈ db.versions.rows,
      (VersionRow.isActiveOf c ∘ withStatus status fun v => v.id = id) v =
        (decide (v.id ≠ id) && VersionRow.isActiveOf c v) := by
    intro v _
    by_cases hid : v.id = id
    · simp [withStatus, hid, VersionRow.isActiveOf, hs]
    · simp [withStatus, hid]
  unfold activeVersions
  rw [markStatus_eq, setStatus_rows, List.filter_map, List.filter_congr hmark, List.filter_filter]
  refine (List.map_congr_left ?_).trans (List.map_id _)
  intro v hv
  have hid := (List.mem_filter.mp hv).2
  rw [Bool.and_eq_true, decide_eq_true_eq] at hid
  exact withStatus_of_not (decide_eq_false hid.1)

end Store

end LavsCore
