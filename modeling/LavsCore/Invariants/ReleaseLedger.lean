import LavsCore.Invariants.VersionHistory

/-!
# Releases do not change

A manifest is not stored as a value: every read joins it anew with the live components
and versions. It shows the same release in every later store all the same
(`readView_of_extends`), because components and versions keep the columns that the join
reads. `release_immutable` is the statement over whole runs.
-/

namespace LavsCore

open Store GrowthLemmas

namespace ReleaseLedgerLemmas

variable {db db' : Store}

/-- A new manifest pins the active versions of the product's components. -/
theorem newManifest_pins {product : ProductRow} {releaseId componentId versionId : String} :
    (∃ rc ∈ db.newManifest product releaseId,
        rc.componentId = componentId ∧ rc.versionId = versionId) ↔
      ∃ c ∈ db.components.rows, c.id = componentId ∧ c.productId = product.id ∧
        ∃ v ∈ db.activeVersions componentId, v.id = versionId := by
  constructor
  · rintro ⟨rc, hrc, rfl, rfl⟩
    obtain ⟨record, hrecord, rfl⟩ := List.mem_map.mp hrc
    obtain ⟨c, hc, hproduct, v, hv, rfl⟩ := mem_activeComponents.mp hrecord
    exact ⟨c, hc, rfl, hproduct, v, hv, rfl⟩
  · rintro ⟨c, hc, rfl, hproduct, v, hv, rfl⟩
    exact ⟨_, List.mem_map_of_mem (mem_activeComponents.mpr ⟨c, hc, hproduct, v, hv, rfl⟩), rfl, rfl⟩

/-- The primary key tells the rows of one release apart by their components. -/
theorem newManifest_nodup {product : ProductRow} {releaseId : String}
    (h : ((db.newManifest product releaseId).map ReleaseComponentRow.key).Nodup) :
    ((db.newManifest product releaseId).map ReleaseComponentRow.componentId).Nodup := by
  have hcomponents : (db.newManifest product releaseId).map ReleaseComponentRow.componentId =
      (db.activeComponents product.id).map ActiveComponent.componentId := by
    rw [Store.newManifest, List.map_map]
    rfl
  rw [hcomponents]
  rw [newManifest_keys] at h
  exact h.of_map _

/-- The manifest rows of a cut are those of its id in the store it leaves. -/
theorem manifest_of_cut {row : ReleaseRow} {rows : List ReleaseComponentRow} {db₁ : Store}
    (hinsert : db.insertRelease row = .ok db₁) (hmanifest : insertManifest rows db₁ = .ok db')
    (hrows : ∀ rc ∈ rows, rc.releaseId = row.id) :
    db'.releaseComponents.rows.filter (fun rc => rc.releaseId = row.id) = rows := by
  obtain ⟨_, _, _, _, _, hnew⟩ := cut_frame hinsert hmanifest
  have hold : db.releaseComponents.rows.filter (fun rc => rc.releaseId = row.id) = [] := by
    refine List.filter_eq_nil_iff.mpr fun rc hrc hid => ?_
    exact (insertRelease_ok hinsert).fresh (of_decide_eq_true hid ▸ db.manifest_release rc hrc)
  rw [hnew, List.filter_append, hold, List.nil_append]
  exact List.filter_eq_self.mpr fun rc hrc => decide_eq_true (hrows rc hrc)

/-- The manifest rows of a release are the same in every later store. -/
theorem manifest_of_extends (h : db.Extends db') {row : ReleaseRow}
    (hrow : row ∈ db.releases.rows) :
    db'.releaseComponents.rows.filter (fun rc => rc.releaseId = row.id) =
      db.releaseComponents.rows.filter fun rc => rc.releaseId = row.id := by
  obtain ⟨new, hrows, hnew⟩ := h.manifest
  have hnone : new.filter (fun rc => rc.releaseId = row.id) = [] := by
    refine List.filter_eq_nil_iff.mpr fun rc hrc hid => hnew rc hrc ?_
    rw [of_decide_eq_true hid]
    exact Table.key_mem_keys hrow
  rw [hrows, List.filter_append, hnone, List.append_nil]

/-- The join of a sound row finds the same columns in every later store. -/
theorem joinManifest_of_extends (h : db.Extends db') {rc : ReleaseComponentRow}
    (hrc : db.SoundRow rc) : db'.joinManifest rc = db.joinManifest rc := by
  obtain ⟨_, _, _, ⟨c, hc, hcid, _⟩, v, hv, hvid, _⟩ := hrc
  obtain ⟨v', hv', hfixed⟩ := h.exists_version hv
  have hc' : c ∈ db'.components.rows := h.components.subset hc
  have hentry : manifestEntry rc c v' = manifestEntry rc c v := by
    have htuple := fixed_tuple hfixed
    simp only [VersionRow.tuple, Prod.mk.injEq] at htuple
    simp only [manifestEntry, htuple]
  rw [joinManifest, joinManifest, ← hcid, Table.lookup_eq_singleton hc,
    Table.lookup_eq_singleton hc', ← hvid, Table.lookup_eq_singleton hv, ← fixed_id hfixed,
    Table.lookup_eq_singleton hv']
  simp [hentry]

/-- The ledger of a product lists each of its releases once. -/
theorem releasesOf_filter {row : ReleaseRow} (hrow : row ∈ db.releases.rows) :
    (db.releasesOf row.productId).filter (fun r => r.id = row.id) = [row] := by
  have hperm : ((db.releasesOf row.productId).filter fun r => r.id = row.id).Perm
      (((db.releases.rows.filter fun r => r.productId = row.productId)).filter
        fun r => r.id = row.id) := (orderBy_perm _ _).filter _
  have hlookup : ((db.releases.rows.filter fun r => r.productId = row.productId)).filter
      (fun r => r.id = row.id) = [row] := by
    rw [List.filter_comm]
    have hfound : db.releases.rows.filter (fun r => r.id = row.id) = [row] :=
      Table.lookup_eq_singleton hrow
    rw [hfound]
    simp
  exact List.perm_singleton.mp (hlookup ▸ hperm)

end ReleaseLedgerLemmas

open ReleaseLedgerLemmas

/-- Every later store shows a release as it was. -/
theorem readView_of_extends {db db' : Store} (h : db.Extends db') (hsound : db.ManifestSound)
    {row : ReleaseRow} (hrow : row ∈ db.releases.rows) : db'.readView row = db.readView row := by
  have hentries : db'.manifestEntries [row.id] = db.manifestEntries [row.id] := by
    simp only [manifestEntries, List.mem_singleton, manifest_of_extends h hrow]
    refine List.flatMap_congr fun rc hrc => ?_
    exact joinManifest_of_extends h (hsound rc (List.mem_filter.mp hrc).1)
  rw [Store.readView, Store.readView, manifestOf, manifestOf, hentries]

/-- The entry of a release in the ledger is the release that is read by its id. -/
theorem ledger_entry {w : World} {row : ReleaseRow} (hrow : row ∈ w.db.releases.rows) :
    ∃ ledger, (listReleasesByProduct row.productId).run w = (.ok ledger, w) ∧
      ledger.filter (fun m => m.id = row.id) = [w.db.readView row] := by
  refine ⟨_, run_listReleasesByProduct (w.db.release_product row hrow), ?_⟩
  have hid : ((fun m : ReleaseResponseModel => decide (m.id = row.id)) ∘ w.db.readView) =
      fun r => decide (r.id = row.id) := rfl
  rw [List.filter_map, hid, releasesOf_filter hrow]
  rfl

/-- A successful fresh cut pins exactly the active version of each component that has one,
and from then on both read paths show the release as it is right after the cut, the columns of
its row and the manifest with the pinned versions, whatever calls follow. -/
theorem release_immutable (before : List Request) (data : CutReleaseRequest) (env : Env)
    (result : CutReleaseResult)
    (hcut : ((cutRelease data env).run (run World.init before)).1 = .ok result)
    (hcreated : result.created = true) :
    let w := run World.init before
    let w₁ := ((cutRelease data env).run w).2
    let manifest := fun db : Store =>
      db.releaseComponents.rows.filter fun rc => rc.releaseId = result.release.id
    ((manifest w₁.db).map ReleaseComponentRow.componentId).Nodup ∧
      (∀ componentId versionId,
        (∃ rc ∈ manifest w₁.db, rc.componentId = componentId ∧ rc.versionId = versionId) ↔
          ∃ c ∈ w.db.components.rows, c.id = componentId ∧ c.productId = data.productId ∧
            ∃ v ∈ w.db.activeVersions componentId, v.id = versionId) ∧
      ∃ model, model.id = result.release.id ∧
        (∃ version derived, newReleaseRow data env version derived ∈ w₁.db.releases.rows ∧
          model = w₁.db.readView (newReleaseRow data env version derived)) ∧
        ∀ after : List Request,
        let w₂ := run w₁ after
        manifest w₂.db = manifest w₁.db ∧
          (getReleaseById model.id).run w₂ = (.ok model, w₂) ∧
          ∃ ledger, (listReleasesByProduct data.productId).run w₂ = (.ok ledger, w₂) ∧
            ledger.filter (fun m => m.id = model.id) = [model] := by
  intro w w₁ manifest
  have hsound : w.db.ManifestSound := manifestSound_run manifestSound_empty before
  obtain ⟨w', hw', hrun⟩ := Prog.exists_outcome (cutRelease_run data env w) hcut
  obtain rfl : w₁ = w' := hw'
  clear_value w₁
  have hsound₁ : w₁.db.ManifestSound :=
    manifestSound_step hsound (RunLemmas.change_cutRelease hrun)
  cases hrun with
  | replayed _ => cases hcreated
  | @cut product version db db' hproduct hid _ _ _ hinsert hmanifest =>
    have hrow := mem_releases_of_manifest hinsert hmanifest
    have hrows : db'.releaseComponents.rows.filter (fun rc => rc.releaseId = env.ulid) =
        w.db.newManifest product env.ulid :=
      manifest_of_cut hinsert hmanifest fun _ => newManifest_releaseId
    refine ⟨?_, ?_, db'.readView (newReleaseRow data env version (w.db.derivationFor product)),
      rfl, ⟨version, _, hrow, rfl⟩, fun after => ?_⟩
    · show ((db'.releaseComponents.rows.filter fun rc => rc.releaseId = env.ulid).map
        ReleaseComponentRow.componentId).Nodup
      rw [hrows]
      exact newManifest_nodup (insertManifest_ok hmanifest).distinct
    · intro componentId versionId
      show (∃ rc ∈ db'.releaseComponents.rows.filter fun rc => rc.releaseId = env.ulid, _) ↔ _
      rw [hrows, ← hid]
      exact newManifest_pins
    · intro w₂
      have hext : db'.Extends w₂.db := extends_run { w with db := db' } after
      have hrow₂ := hext.releases.subset hrow
      have hview := readView_of_extends hext hsound₁ hrow
      obtain ⟨ledger, hledger, hentry⟩ := ledger_entry (w := w₂) hrow₂
      refine ⟨manifest_of_extends hext hrow, ?_, ledger, hledger, ?_⟩
      · rw [← hview]
        exact run_getReleaseById hrow₂
      · rw [← hview]
        exact hentry

/-- The first release of the sample product. -/
theorem release_immutable_sample :
    ∃ result, ((cutRelease (Sample.release none) (Sample.env 30)).run
        (run World.init (Sample.setup ++ Sample.versions))).1 = .ok result ∧
      ∃ model, model.id = result.release.id ∧ ∀ after : List Request,
        ((getReleaseById model.id).run
          (run ((cutRelease (Sample.release none) (Sample.env 30)).run
            (run World.init (Sample.setup ++ Sample.versions))).2 after)).1 = .ok model := by
  have hfresh : (match ((cutRelease (Sample.release none) (Sample.env 30)).run
      (run World.init (Sample.setup ++ Sample.versions))).1 with
      | .ok result => result.created
      | .error _ => false) = true := by decide +kernel
  split at hfresh
  · next result hresult =>
    obtain ⟨_, _, model, hid, _, hafter⟩ := release_immutable (Sample.setup ++ Sample.versions)
      (Sample.release none) (Sample.env 30) result hresult hfresh
    exact ⟨result, hresult, model, hid, fun after => by rw [(hafter after).2.1]⟩
  · cases hfresh

end LavsCore
