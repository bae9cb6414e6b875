import LavsCore.Queries.CutReleaseRun

/-!
# Reading releases

`app/queries/releases_read/`: one release by its id, and the ledger of a product. Both
read manifests through `readManifests`, one release at a time or all at once.

`run_getReleaseById` and `run_listReleasesByProduct`: in every store both paths show a
release as `Store.readView`, which lists the names by code points. Where an engine orders names
by another collation, `run_getReleaseByIdIn` says what is shown.
-/

namespace LavsCore

open Query

/-! ## The queries -/

/-- The grouping of `ReleaseManifestReader.read`. -/
def groupManifests (entries : List ManifestEntry) :
    Dict String (List ReleaseComponentResponseModel) :=
  entries.foldl
    (fun grouped e =>
      (Dict.setDefault grouped e.releaseId []).modify e.releaseId (· ++ [toManifestComponent e]))
    Table.empty

/-- `ReleaseManifestReader.read`, on an engine with the collation. -/
def readManifestsIn {κ : Type} [LinearOrder κ] (collate : String → κ) (releaseIds : List String) :
    Query (Dict String (List ReleaseComponentResponseModel)) :=
  if releaseIds = [] then pure Table.empty
  else do
    let rows ← select .selectManifest fun db => db.manifestIn collate releaseIds
    return groupManifests rows

/-- The same where a name is its own key. -/
def readManifests (releaseIds : List String) :
    Query (Dict String (List ReleaseComponentResponseModel)) :=
  readManifestsIn (fun name => name) releaseIds

/-- `NotFoundError` of an unknown release. -/
def releaseNotFound (releaseId : String) : ApiError :=
  .notFound s!"No release exists with id '{releaseId}'." [("release_id", releaseId)]

/-- `NotFoundError` of the ledger of an unknown product. -/
def ledgerNotFound (productId : String) : ApiError :=
  .notFound s!"No product exists with id '{productId}'." [("product_id", productId)]

/-- `manifests.get(release_id, [])`. -/
def manifestFor (manifests : Dict String (List ReleaseComponentResponseModel))
    (releaseId : String) : List ReleaseComponentResponseModel :=
  (Dict.get? manifests releaseId).getD []

/-- `GetReleaseByIdQuery.apply`, on an engine with the collation. -/
def getReleaseByIdIn {κ : Type} [LinearOrder κ] (collate : String → κ) (releaseId : String) :
    Query ReleaseResponseModel := do
  match ← select .selectRelease fun db => db.releases.lookup releaseId with
  | [] => Prog.raise (releaseNotFound releaseId)
  | row :: _ =>
    let manifests ← readManifestsIn collate [row.id]
    return toReleaseResponse row (manifestFor manifests row.id)

/-- The same where a name is its own key. -/
def getReleaseById (releaseId : String) : Query ReleaseResponseModel :=
  getReleaseByIdIn (fun name => name) releaseId

/-- `ListReleasesByProductQuery.apply`. -/
def listReleasesByProduct (productId : String) : Query (List ReleaseResponseModel) := do
  let product ← select .selectProduct fun db => db.products.lookup productId
  refuseIf product.isEmpty (ledgerNotFound productId)
  let rows ← select .selectReleases fun db => db.releasesOf productId
  let manifests ← readManifests (rows.map ReleaseRow.id)
  return rows.map fun row => toReleaseResponse row (manifestFor manifests row.id)

/-- A release as the read paths show it on an engine with the collation. -/
def Store.readViewIn {κ : Type} [LinearOrder κ] (db : Store) (collate : String → κ)
    (row : ReleaseRow) : ReleaseResponseModel :=
  toReleaseResponse row ((db.manifestIn collate [row.id]).map toManifestComponent)

/-- The same where a name is its own key. -/
def Store.readView (db : Store) (row : ReleaseRow) : ReleaseResponseModel :=
  toReleaseResponse row ((db.manifestOf [row.id]).map toManifestComponent)

/-! ## Grouping -/

namespace ReleasesReadLemmas

theorem manifestFor_step (grouped : Dict String (List ReleaseComponentResponseModel))
    (e : ManifestEntry) (id : String) :
    manifestFor ((Dict.setDefault grouped e.releaseId []).modify e.releaseId
        (· ++ [toManifestComponent e])) id =
      if e.releaseId = id then manifestFor grouped id ++ [toManifestComponent e]
      else manifestFor grouped id :=
  Dict.getD_modify_setDefault grouped e.releaseId [] (· ++ [toManifestComponent e]) id

theorem manifestFor_foldl (entries : List ManifestEntry)
    (grouped : Dict String (List ReleaseComponentResponseModel)) (id : String) :
    manifestFor (entries.foldl
        (fun grouped e =>
          (Dict.setDefault grouped e.releaseId []).modify e.releaseId
            (· ++ [toManifestComponent e])) grouped) id =
      manifestFor grouped id ++
        (entries.filter fun e => e.releaseId = id).map toManifestComponent := by
  induction entries generalizing grouped with
  | nil => simp
  | cons e entries ih =>
    rw [List.foldl_cons, ih, manifestFor_step]
    by_cases he : e.releaseId = id
    · simp [he]
    · simp [he]

end ReleasesReadLemmas

open ReleasesReadLemmas

/-- The group of a release is its entries in the order of the answer. -/
theorem manifestFor_groupManifests (entries : List ManifestEntry) (id : String) :
    manifestFor (groupManifests entries) id =
      (entries.filter fun e => e.releaseId = id).map toManifestComponent := by
  rw [groupManifests, manifestFor_foldl]
  rfl

/-! ## Manifests one by one and all at once -/

namespace Store

variable {db : Store}

/-- An entry of the join knows the row, the component and the version it comes from. -/
theorem mem_manifestEntries {releaseIds : List String} {e : ManifestEntry} :
    e ∈ db.manifestEntries releaseIds ↔
      ∃ rc ∈ db.releaseComponents.rows, rc.releaseId ∈ releaseIds ∧
        ∃ c ∈ db.components.rows, c.id = rc.componentId ∧
          ∃ v ∈ db.versions.rows, v.id = rc.versionId ∧ e = manifestEntry rc c v := by
  simp only [manifestEntries, joinManifest, List.mem_flatMap, List.mem_filter, Table.mem_lookup,
    List.mem_map, decide_eq_true_eq]
  constructor
  · rintro ⟨rc, ⟨hrc, hid⟩, c, ⟨hc, hcid⟩, v, ⟨hv, hvid⟩, rfl⟩
    exact ⟨rc, hrc, hid, c, hc, hcid, v, hv, hvid, rfl⟩
  · rintro ⟨rc, hrc, hid, c, hc, hcid, v, hv, hvid, rfl⟩
    exact ⟨rc, ⟨hrc, hid⟩, c, ⟨hc, hcid⟩, v, ⟨hv, hvid⟩, rfl⟩

/-- Within one release the component tells the entries apart. -/
theorem manifestEntries_inj {releaseIds : List String} {e e' : ManifestEntry}
    (he : e ∈ db.manifestEntries releaseIds) (he' : e' ∈ db.manifestEntries releaseIds)
    (hrelease : e.releaseId = e'.releaseId) (hcomponent : e.componentId = e'.componentId) :
    e = e' := by
  obtain ⟨rc, hrc, _, c, hc, hcid, v, hv, hvid, rfl⟩ := mem_manifestEntries.mp he
  obtain ⟨rc', hrc', _, c', hc', hcid', v', hv', hvid', rfl⟩ := mem_manifestEntries.mp he'
  cases Table.eq_of_key_eq hrc hrc' (Prod.ext hrelease hcomponent)
  cases Table.eq_of_key_eq hc hc' (hcid.trans hcid'.symm)
  cases Table.eq_of_key_eq hv hv' (hvid.trans hvid'.symm)
  rfl

theorem joinManifest_releaseId {rc : ReleaseComponentRow} {e : ManifestEntry}
    (h : e ∈ db.joinManifest rc) : e.releaseId = rc.releaseId := by
  simp only [joinManifest, List.mem_flatMap, List.mem_map] at h
  obtain ⟨c, _, v, _, rfl⟩ := h
  rfl

/-- The entries of one release among those of many. -/
theorem filter_manifestEntries {releaseIds : List String} {id : String} (h : id ∈ releaseIds) :
    (db.manifestEntries releaseIds).filter (fun e => e.releaseId = id) =
      db.manifestEntries [id] := by
  unfold manifestEntries
  induction db.releaseComponents.rows with
  | nil => rfl
  | cons rc rows ih =>
    have hown : ∀ e ∈ db.joinManifest rc, e.releaseId = rc.releaseId :=
      fun e => joinManifest_releaseId
    by_cases hid : rc.releaseId = id
    · have hall : (db.joinManifest rc).filter (fun e => e.releaseId = id) =
          db.joinManifest rc := by
        refine List.filter_eq_self.mpr fun e he => ?_
        exact decide_eq_true ((hown e he).trans hid)
      simp [hid, h, hall, ih]
    · have hnone : (db.joinManifest rc).filter (fun e => e.releaseId = id) = [] := by
        refine List.filter_eq_nil_iff.mpr fun e he => ?_
        rw [hown e he]
        simpa using hid
      by_cases hmem : rc.releaseId ∈ releaseIds
      · simp [hid, hmem, hnone, ih]
      · simp [hid, hmem, ih]

/-- Reading many manifests at once shows each as reading it alone does. -/
theorem filter_manifestIn {κ : Type} [LinearOrder κ] (collate : String → κ)
    {releaseIds : List String} {id : String} (h : id ∈ releaseIds) :
    (db.manifestIn collate releaseIds).filter (fun e => e.releaseId = id) =
      db.manifestIn collate [id] := by
  rw [manifestIn, filter_orderBy, filter_manifestEntries h, manifestIn]
  intro e he e' he' hkey
  obtain ⟨he, hid⟩ := List.mem_filter.mp he
  obtain ⟨he', hid'⟩ := List.mem_filter.mp he'
  refine manifestEntries_inj he he' ?_ ?_
  · exact (of_decide_eq_true hid).trans (of_decide_eq_true hid').symm
  · exact congrArg (fun k => (ofLex k).2) hkey

@[simp] theorem mem_releasesOf {productId : String} {row : ReleaseRow} :
    row ∈ db.releasesOf productId ↔ row ∈ db.releases.rows ∧ row.productId = productId := by
  simp [releasesOf, newestFirst]

end Store

/-! ## The queries alone -/

theorem run_readManifestsIn {κ : Type} [LinearOrder κ] (collate : String → κ)
    (releaseIds : List String) (w : World) :
    ∃ manifests, (readManifestsIn collate releaseIds).run w = (.ok manifests, w) ∧
      ∀ id ∈ releaseIds,
        manifestFor manifests id = (w.db.manifestIn collate [id]).map toManifestComponent := by
  unfold readManifestsIn
  split
  · next hnil => exact ⟨_, rfl, fun id hid => absurd (hnil ▸ hid) List.not_mem_nil⟩
  · refine ⟨groupManifests (w.db.manifestIn collate releaseIds), by simp, fun id hid => ?_⟩
    rw [manifestFor_groupManifests, Store.filter_manifestIn collate hid]

theorem run_getReleaseByIdIn {κ : Type} [LinearOrder κ] (collate : String → κ) {row : ReleaseRow}
    {w : World} (h : row ∈ w.db.releases.rows) :
    (getReleaseByIdIn collate row.id).run w = (.ok (w.db.readViewIn collate row), w) := by
  obtain ⟨manifests, hrun, hmanifest⟩ := run_readManifestsIn collate [row.id] w
  simp [getReleaseByIdIn, Table.lookup_eq_singleton h, hrun, hmanifest, Store.readViewIn]

theorem run_getReleaseById {row : ReleaseRow} {w : World} (h : row ∈ w.db.releases.rows) :
    (getReleaseById row.id).run w = (.ok (w.db.readView row), w) :=
  run_getReleaseByIdIn (fun name => name) h

theorem run_listReleasesByProduct {productId : String} {w : World}
    (h : productId ∈ w.db.products.keys) :
    (listReleasesByProduct productId).run w =
      (.ok ((w.db.releasesOf productId).map w.db.readView), w) := by
  obtain ⟨product, _, _, hlookup⟩ := Table.lookup_eq_singleton_of_mem_keys h
  obtain ⟨manifests, hrun, hmanifest⟩ :=
    run_readManifestsIn (fun name => name) ((w.db.releasesOf productId).map ReleaseRow.id) w
  have hview : (w.db.releasesOf productId).map (fun row =>
      toReleaseResponse row (manifestFor manifests row.id)) =
        (w.db.releasesOf productId).map w.db.readView := by
    refine List.map_congr_left fun row hrow => ?_
    rw [hmanifest row.id (List.mem_map_of_mem hrow)]
    rfl
  simp [listReleasesByProduct, readManifests, hlookup, hrun, hview]

end LavsCore
