import LavsCore.Invariants.ReleaseLedger

/-!
# The cut and the reads show a release

A cut answers with a release that it assembles itself: it orders the manifest by the id
of the component and leaves an empty prerelease out. The read paths order by name and
then id, and leave out only a missing prerelease. `cut_read_agree_iff` says exactly when
both show the same.

The names are in the order of the engine: code points in DuckDB, without case in MySQL and
SQL Server, as the locale has it in PostgreSQL. The collation is a parameter, the key that it
compares a name by. The ids are ULIDs, of digits and capitals, which every collation orders
alike.
-/

namespace LavsCore

open Store GrowthLemmas ReleaseLedgerLemmas

/-- What decides how a manifest is shown: the component, its name and the prerelease of
its pinned version. -/
abbrev FrozenRow := String × String × Option String

def ManifestEntry.frozen (e : ManifestEntry) : FrozenRow := (e.componentId, e.name, e.prerelease)

def ActiveComponent.frozen (r : ActiveComponent) : FrozenRow := (r.componentId, r.name, r.prerelease)

/-- The rows that the answer of a cut will show: the manifest of the release that it
replays, or the active components that it is about to pin. -/
def Store.frozenRows (db : Store) (data : CutReleaseRequest) (choice : Nat) : List FrozenRow :=
  match db.replayed data choice with
  | some row => (db.manifestEntries [row.id]).map ManifestEntry.frozen
  | none => (db.activeComponents data.productId).map ActiveComponent.frozen

/-- Both stacks show the rows alike: the names do not decrease along the ids, in the order of the
collation, and no prerelease is the empty text. -/
def ShownAlike {κ : Type} [LinearOrder κ] (collate : String → κ) (rows : List FrozenRow) : Prop :=
  (∀ r ∈ rows, ∀ r' ∈ rows, r.1 < r'.1 → collate r.2.1 ≤ collate r'.2.1) ∧
    ∀ r ∈ rows, r.2.2 ≠ some ""

namespace CutReadLemmas

variable {db db' : Store} {κ : Type} [LinearOrder κ] {collate : String → κ}

theorem shownAlike_congr {rows rows' : List FrozenRow} (h : ∀ r, r ∈ rows ↔ r ∈ rows') :
    ShownAlike collate rows ↔ ShownAlike collate rows' := by
  unfold ShownAlike
  simp only [h]

/-- The order and the rendering are the only differences between the two views. -/
theorem cutView_eq_readView_iff (row : ReleaseRow) :
    db.cutView row = db.readViewIn collate row ↔
      ShownAlike collate ((db.manifestEntries [row.id]).map ManifestEntry.frozen) := by
  have hinj : ∀ a ∈ db.manifestEntries [row.id], ∀ b ∈ db.manifestEntries [row.id],
      a.componentId = b.componentId → a = b := by
    intro a ha b hb hab
    refine manifestEntries_inj ha hb ?_ hab
    obtain ⟨rc, _, hrc, c, _, _, v, _, _, rfl⟩ := mem_manifestEntries.mp ha
    obtain ⟨rc', _, hrc', c', _, _, v', _, _, rfl⟩ := mem_manifestEntries.mp hb
    exact (List.mem_singleton.mp hrc).trans (List.mem_singleton.mp hrc').symm
  have horder : db.manifestIn collate [row.id] = db.releaseManifest row.id ↔
      ∀ a ∈ db.manifestEntries [row.id], ∀ b ∈ db.manifestEntries [row.id],
        a.componentId < b.componentId → collate a.name ≤ collate b.name :=
    orderBy_lex_eq_iff hinj
  have hview : db.cutView row = db.readViewIn collate row ↔
      (db.releaseManifest row.id).map toReleaseComponent =
        (db.manifestIn collate [row.id]).map toManifestComponent := by
    simp [Store.cutView, Store.readViewIn, toReleaseResponse]
  have hrender : ∀ entries : List ManifestEntry,
      entries.map toReleaseComponent = entries.map toManifestComponent ↔
        ∀ e ∈ entries, e.prerelease ≠ some "" := by
    intro entries
    rw [List.map_inj_left]
    simp only [toReleaseComponent_eq_iff]
  rw [hview]
  constructor
  · intro h
    -- Equal answers name the components in one order, so both lists are in the order of ids.
    have hids : (db.releaseManifest row.id).map ManifestEntry.componentId =
        (db.manifestIn collate [row.id]).map ManifestEntry.componentId := by
      have := congrArg (List.map ReleaseComponentResponseModel.componentId) h
      rwa [List.map_map, List.map_map] at this
    have hsorted : (db.manifestIn collate [row.id]).Pairwise fun a b =>
        a.componentId ≤ b.componentId := by
      have hle := orderBy_sorted ManifestEntry.componentId (db.manifestEntries [row.id])
      rw [← List.pairwise_map (R := fun a b : String => a ≤ b)] at hle ⊢
      exact hids ▸ hle
    have heq : db.manifestIn collate [row.id] = db.releaseManifest row.id :=
      eq_of_perm_of_sorted ((orderBy_perm _ _).trans (orderBy_perm _ _).symm)
        (fun a ha b hb => hinj a (mem_orderBy.mp ha) b (mem_orderBy.mp hb)) hsorted
        (orderBy_sorted _ _)
    rw [heq, hrender] at h
    refine ⟨?_, ?_⟩
    · intro r hr r' hr' hlt
      obtain ⟨a, ha, rfl⟩ := List.mem_map.mp hr
      obtain ⟨b, hb, rfl⟩ := List.mem_map.mp hr'
      exact horder.mp heq a ha b hb hlt
    · intro r hr
      obtain ⟨e, he, rfl⟩ := List.mem_map.mp hr
      exact h e (mem_orderBy.mpr he)
  · rintro ⟨hnames, hprerelease⟩
    have heq : db.manifestIn collate [row.id] = db.releaseManifest row.id :=
      horder.mpr fun a ha b hb =>
        hnames a.frozen (List.mem_map_of_mem ha) b.frozen (List.mem_map_of_mem hb)
    rw [heq, hrender]
    exact fun e he => hprerelease e.frozen (List.mem_map_of_mem (mem_orderBy.mp he))

/-- The manifest that a cut leaves shows the active components it has read. -/
theorem mem_frozen_of_cut {product : ProductRow} {row : ReleaseRow} {db₁ : Store}
    (hinsert : db.insertRelease row = .ok db₁)
    (hmanifest : insertManifest (db.newManifest product row.id) db₁ = .ok db') (r : FrozenRow) :
    r ∈ (db'.manifestEntries [row.id]).map ManifestEntry.frozen ↔
      r ∈ (db.activeComponents product.id).map ActiveComponent.frozen := by
  obtain ⟨_, hcomponents, hversions, _, _, _⟩ := cut_frame hinsert hmanifest
  have hrows := manifest_of_cut hinsert hmanifest fun _ => newManifest_releaseId
  have hrc : ∀ rc, rc ∈ db'.releaseComponents.rows ∧ rc.releaseId = row.id ↔
      rc ∈ db.newManifest product row.id := by
    intro rc
    rw [← hrows, List.mem_filter, decide_eq_true_eq]
  simp only [List.mem_map, mem_manifestEntries, List.mem_singleton]
  constructor
  · rintro ⟨_, ⟨rc, hmem, hid, c, hc, hcid, v, hv, hvid, rfl⟩, rfl⟩
    obtain ⟨record, hrecord, rfl⟩ := List.mem_map.mp ((hrc rc).mp ⟨hmem, hid⟩)
    refine ⟨record, hrecord, ?_⟩
    obtain ⟨c', hc', _, v', hv', rfl⟩ := mem_activeComponents.mp hrecord
    rw [hcomponents] at hc
    rw [hversions] at hv
    cases Table.eq_of_key_eq hc hc' hcid
    cases Table.eq_of_key_eq hv (mem_activeVersions.mp hv').1 hvid
    rfl
  · rintro ⟨record, hrecord, rfl⟩
    obtain ⟨hmem, hid⟩ := (hrc _).mpr (List.mem_map_of_mem hrecord)
    obtain ⟨c, hc, _, v, hv, rfl⟩ := mem_activeComponents.mp hrecord
    exact ⟨_, ⟨_, hmem, hid, c, hcomponents ▸ hc, rfl, v,
      hversions ▸ (mem_activeVersions.mp hv).1, rfl, rfl⟩, rfl⟩

end CutReadLemmas

open CutReadLemmas

/-- Whatever the collation of the engine: a successful cut, fresh or replayed, answers with the
release that the read path shows from then on exactly when the rows it freezes are shown alike. -/
theorem cut_read_agree_iff {κ : Type} [LinearOrder κ] (collate : String → κ)
    (data : CutReleaseRequest) (env : Env) (w : World)
    (result : CutReleaseResult) (hcut : ((cutRelease data env).run w).1 = .ok result) :
    ((getReleaseByIdIn collate result.release.id).run ((cutRelease data env).run w).2).1 =
        .ok result.release ↔
      ShownAlike collate (w.db.frozenRows data env.choice) := by
  obtain ⟨w', hw', hrun⟩ := Prog.exists_outcome (cutRelease_run data env w) hcut
  rw [hw']
  have hread : ∀ {row : ReleaseRow}, row ∈ w'.db.releases.rows →
      (((getReleaseByIdIn collate row.id).run w').1 = .ok (w'.db.cutView row) ↔
        ShownAlike collate ((w'.db.manifestEntries [row.id]).map ManifestEntry.frozen)) := by
    intro row hrow
    rw [run_getReleaseByIdIn collate hrow, ← cutView_eq_readView_iff]
    exact ⟨fun h => (Except.ok.inj h).symm, fun h => congrArg _ h.symm⟩
  cases hrun with
  | @replayed row hreplay =>
    rw [Store.frozenRows, hreplay]
    exact hread (replayed_eq_some hreplay).1
  | @cut product version db db' hproduct hid hreplay _ _ hinsert hmanifest =>
    rw [Store.frozenRows, hreplay, ← hid]
    refine (hread (mem_releases_of_manifest hinsert hmanifest)).trans (shownAlike_congr ?_)
    exact mem_frozen_of_cut hinsert hmanifest

namespace Sample

/-- The lower-case letters of a name: what a collation without case compares. -/
def withoutCase (name : String) : List Nat := name.toList.map fun c => c.toLower.toNat

end Sample

/-- Without case `alpha` stands before `Zeta`, as it was created. -/
theorem cut_read_agree_sample :
    ∃ result, ((cutRelease (Sample.release none) (Sample.env 30)).run
        (run World.init Sample.capital)).1 = .ok result ∧
      ((getReleaseByIdIn Sample.withoutCase result.release.id).run
        ((cutRelease (Sample.release none) (Sample.env 30)).run
          (run World.init Sample.capital)).2).1 = .ok result.release := by
  cases hcut : ((cutRelease (Sample.release none) (Sample.env 30)).run
      (run World.init Sample.capital)).1 with
  | ok result =>
    refine ⟨result, rfl, (cut_read_agree_iff Sample.withoutCase (Sample.release none)
      (Sample.env 30) _ result hcut).mpr ?_⟩
    unfold ShownAlike
    decide +kernel
  | error error =>
    have hok : (match ((cutRelease (Sample.release none) (Sample.env 30)).run
        (run World.init Sample.capital)).1 with
        | .ok _ => true
        | .error _ => false) = true := by decide +kernel
    rw [hcut] at hok
    cases hok

/-- The cut lists `api` first, the read path `aaa`. -/
theorem cut_read_disagree :
    ∃ result, ((cutRelease (Sample.release none) (Sample.env 30)).run
        (run World.init (Sample.setup ++ Sample.versions ++ Sample.third))).1 =
          .ok result ∧
      ((getReleaseById result.release.id).run
        ((cutRelease (Sample.release none) (Sample.env 30)).run
          (run World.init (Sample.setup ++ Sample.versions ++ Sample.third))).2).1 ≠
        .ok result.release := by
  have hdiffer : (match ((cutRelease (Sample.release none) (Sample.env 30)).run
      (run World.init (Sample.setup ++ Sample.versions ++ Sample.third))).1 with
      | .ok result => decide (((getReleaseById result.release.id).run
          ((cutRelease (Sample.release none) (Sample.env 30)).run
            (run World.init (Sample.setup ++ Sample.versions ++ Sample.third))).2).1 ≠
          .ok result.release)
      | .error _ => false) = true := by decide +kernel
  split at hdiffer
  · next result hresult => exact ⟨result, hresult, of_decide_eq_true hdiffer⟩
  · cases hdiffer

end LavsCore
