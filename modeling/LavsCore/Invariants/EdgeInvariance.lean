import LavsCore.Invariants.Atomicity
import LavsCore.Invariants.DependencyEdges

/-!
# Dependency edges and the version of the product

A cut is compared with the cut of the same store without dependency edges. The edges are
meant to leave the bump and the version of the product alone, because the propagation
never raises a level. But a component without an active version counts as a major change
for those that depend on it.

`edge_invariance_iff`: in a reachable store the two cuts agree exactly if the request is a
replay, or no active component depends on an inactive one, or the bump is at least minor
for another reason. In `edge_moves_version` none of this is the case.
-/

namespace LavsCore

open Store

def World.withoutDependencies (w : World) : World := { w with db := w.db.withoutDependencies }

namespace Store

/-- A component with an active version depends on one without. -/
def DependsOnInactive (db : Store) (productId : String) : Prop :=
  ∃ e ∈ db.edges productId, db.activeVersions e.1 ≠ [] ∧ db.activeVersions e.2 = []

/-- A component of the latest release has no active version. -/
def LostComponent (db : Store) (productId : String) : Prop :=
  ∃ entry ∈ db.previousManifest productId, ∀ r ∈ db.activeComponents productId,
    r.componentId ≠ entry.1

/-- A component is new since the latest release, or has changed in its major or minor
number. -/
def ChangedMinor (db : Store) (productId : String) : Prop :=
  ∃ r ∈ db.activeComponents productId, .minor ≤
    classifyChange (Dict.get? (Dict.ofList (db.previousManifest productId)) r.componentId) r.tuple

end Store

namespace EdgeInvarianceLemmas

variable {db : Store} {productId : String}

theorem removedAny_iff {prior : List (String × VersionTuple)} {active : List ActiveComponent} :
    removedAny (Dict.ofList prior) active = true ↔
      ∃ entry ∈ prior, ∀ r ∈ active, r.componentId ≠ entry.1 := by
  simp only [removedAny, List.any_eq_true, decide_eq_true_eq, Dict.mem_keys_ofList, List.mem_map,
    not_exists, not_and]
  constructor
  · rintro ⟨_, ⟨entry, hentry, rfl⟩, hnot⟩
    exact ⟨entry, hentry, hnot⟩
  · rintro ⟨entry, hentry, hnot⟩
    exact ⟨entry.1, ⟨entry, hentry, rfl⟩, hnot⟩

theorem mem_ownLevels_keys {prior : Dict String VersionTuple} {active : List ActiveComponent}
    {componentId : String} :
    componentId ∈ (ownLevels prior active).keys ↔
      componentId ∈ active.map ActiveComponent.componentId := by
  rw [ownLevels, Dict.mem_keys_ofList, List.map_map]
  rfl

/-- With one active version for each component, its own level is what was classified. -/
theorem baseLevel_ownLevels {prior : Dict String VersionTuple} {active : List ActiveComponent}
    (hnodup : (active.map ActiveComponent.componentId).Nodup) {r : ActiveComponent}
    (hr : r ∈ active) :
    baseLevel (ownLevels prior active) r.componentId =
      classifyChange (Dict.get? prior r.componentId) r.tuple := by
  have hget : (ownLevels prior active).get? r.componentId =
      some (classifyChange (Dict.get? prior r.componentId) r.tuple) := by
    rw [Dict.get?_eq_some, ownLevels, Dict.ofList_rows (by rwa [List.map_map])]
    exact List.mem_map_of_mem hr
  rw [baseLevel, hget]
  rfl

/-- A component of the product is in the active set if it has an active version. -/
theorem mem_active_iff {componentId : String} (h : db.OwnsComponent productId componentId) :
    componentId ∈ (db.activeComponents productId).map ActiveComponent.componentId ↔
      db.activeVersions componentId ≠ [] := by
  obtain ⟨c, hc, rfl, hproduct⟩ := h
  rw [List.mem_map]
  constructor
  · rintro ⟨r, hr, hid⟩
    obtain ⟨c', _, _, v, hv, rfl⟩ := mem_activeComponents.mp hr
    have hsame : c'.id = c.id := hid
    exact List.ne_nil_of_mem (hsame ▸ hv)
  · intro hne
    obtain ⟨v, hv⟩ := List.exists_mem_of_ne_nil _ hne
    exact ⟨activeComponent c v, mem_activeComponents.mpr ⟨c, hc, hproduct, v, hv, rfl⟩, rfl⟩

/-- When the edges do not count for the bump of a cut. -/
theorem bump_eq_iff (hgraph : db.SoundGraph) (hone : db.AtMostOneActive) {product : ProductRow}
    (hpolicy : product.bumpPolicy = BumpPolicy.default) :
    (db.withoutDependencies.derivationFor product).bumpLevel =
        (db.derivationFor product).bumpLevel ↔
      ¬ db.DependsOnInactive product.id ∨ db.LostComponent product.id ∨
        db.ChangedMinor product.id := by
  have hbump : ∀ (active : List ActiveComponent) (prior : List (String × VersionTuple))
      (edges : List (String × String)), (derivation product.bumpPolicy active prior edges).bumpLevel =
        deriveProductBump (ownLevels (Dict.ofList prior) active) edges
          (removedAny (Dict.ofList prior) active) := by
    intro active prior edges
    rw [derivation, if_neg (not_not.mpr hpolicy)]
  have hedges : db.withoutDependencies.edges product.id = [] := rfl
  have hactive : db.withoutDependencies.activeComponents product.id =
      db.activeComponents product.id := rfl
  have hprevious : db.withoutDependencies.previousManifest product.id =
      db.previousManifest product.id := rfl
  rw [derivationFor, derivationFor, hedges, hactive, hprevious, hbump, hbump]
  cases hremoved : removedAny (Dict.ofList (db.previousManifest product.id))
      (db.activeComponents product.id) with
  | true =>
    rw [derive_product_bump_removed, derive_product_bump_removed]
    exact iff_of_true rfl (Or.inr (Or.inl (removedAny_iff.mp hremoved)))
  | false =>
    have hkept : ¬ db.LostComponent product.id := fun hlost =>
      absurd (removedAny_iff.mpr hlost) (by simp [hremoved])
    have hnodup : ((db.activeComponents product.id).map ActiveComponent.componentId).Nodup :=
      (AtomicityLemmas.activeComponents_nodup_iff product.id).mpr fun c _ _ => hone c.id
    rw [eq_comm, derive_product_bump_eq_iff]
    refine or_congr ?_ ?_
    · rw [DependsOnInactive]
      push Not
      refine forall₂_congr fun e he => ?_
      obtain ⟨hfrom, hto⟩ := (hgraph product.id).endpoints e he
      rw [mem_ownLevels_keys, mem_ownLevels_keys, mem_active_iff hfrom, mem_active_iff hto]
    · rw [or_iff_right hkept]
      constructor
      · rintro ⟨componentId, hkey, hminor⟩
        obtain ⟨r, hr, rfl⟩ := List.mem_map.mp (mem_ownLevels_keys.mp hkey)
        exact ⟨r, hr, baseLevel_ownLevels hnodup hr ▸ hminor⟩
      · rintro ⟨r, hr, hminor⟩
        exact ⟨r.componentId, mem_ownLevels_keys.mpr (List.mem_map_of_mem hr),
          (baseLevel_ownLevels hnodup hr).symm ▸ hminor⟩

variable {data : CutReleaseRequest} {env : Env} {w : World} {product : ProductRow}

/-- What a fresh cut was able to do and what it answers. -/
theorem fresh_cut_shows (hproduct : product ∈ w.db.products.rows) (hid : product.id = data.productId)
    (hfresh : w.db.replayed data env.choice = none) {result : CutReleaseResult}
    (hcut : ((cutRelease data env).run w).1 = .ok result) :
    w.db.activeComponents product.id ≠ [] ∧ env.ulid ∉ w.db.releases.keys ∧
      result.release.bumpLevel = some (w.db.derivationFor product).bumpLevel.value ∧
      w.db.nextVersion product = .ok result.release.productVersion := by
  obtain ⟨w', _, hrun⟩ := Prog.exists_outcome (cutRelease_run data env w) hcut
  cases hrun with
  | replayed hreplay => cases hfresh.symm.trans hreplay
  | cut hproduct' hid' _ hactive hversion hinsert _ =>
    cases Table.eq_of_key_eq hproduct hproduct' (hid.trans hid'.symm)
    exact ⟨hactive, (insertRelease_ok hinsert).fresh, rfl, hversion⟩

/-- A cut that can derive its version succeeds where no component has two active versions
and the id of the release is not in use. -/
theorem fresh_cut_ok (hone : w.db.AtMostOneActive) (hproduct : product ∈ w.db.products.rows)
    (hid : product.id = data.productId) (hfresh : w.db.replayed data env.choice = none)
    (hactive : w.db.activeComponents product.id ≠ []) (hnew : env.ulid ∉ w.db.releases.keys)
    {version : String} (hversion : w.db.nextVersion product = .ok version) :
    ∃ result, ((cutRelease data env).run w).1 = .ok result := by
  generalize hanswer : ((cutRelease data env).run w).1 = answer
  obtain ⟨w', _, hrun⟩ := Prog.exists_outcome (cutRelease_run data env w) hanswer
  have hsame : ∀ {product' : ProductRow}, product' ∈ w.db.products.rows →
      product'.id = data.productId → product' = product :=
    fun h h' => Table.eq_of_key_eq h hproduct (h'.trans hid.symm)
  cases hrun with
  | unknown hunknown => exact absurd (hid ▸ Table.key_mem_keys hproduct) hunknown
  | replayed hreplay => cases hfresh.symm.trans hreplay
  | nothing _ hnone => exact absurd (hid ▸ hnone) hactive
  | unversioned hproduct' hid' _ _ herror =>
    cases hsame hproduct' hid'
    cases hversion.symm.trans herror
  | refused hproduct' hid' _ _ _ hinsert =>
    obtain ⟨_, hok⟩ := insertRelease_isOk (newReleaseRow data env _ _) hnew
      (hid ▸ Table.key_mem_keys hproduct)
    cases hinsert.symm.trans hok
  | halted _ _ _ _ _ hinsert hrows hdone hrefused =>
    refine absurd ?_ (AtomicityLemmas.not_nodup_of_refused hinsert hrows hdone hrefused)
    exact (AtomicityLemmas.activeComponents_nodup_iff _).mpr fun c _ _ => hone c.id
  | cut _ _ _ _ _ _ _ => exact ⟨_, rfl⟩

/-- A replay shows the release it finds. -/
theorem replayed_cut (hproduct : product ∈ w.db.products.rows) (hid : product.id = data.productId)
    {row : ReleaseRow} (hreplay : w.db.replayed data env.choice = some row) :
    ((cutRelease data env).run w).1 = .ok ⟨w.db.cutView row, false⟩ := by
  generalize hanswer : ((cutRelease data env).run w).1 = answer
  obtain ⟨w', _, hrun⟩ := Prog.exists_outcome (cutRelease_run data env w) hanswer
  cases hrun with
  | unknown hunknown => exact absurd (hid ▸ Table.key_mem_keys hproduct) hunknown
  | replayed hreplay' =>
    cases hreplay.symm.trans hreplay'
    rfl
  | nothing hfresh _ => cases hfresh.symm.trans hreplay
  | unversioned _ _ hfresh _ _ => cases hfresh.symm.trans hreplay
  | refused _ _ hfresh _ _ _ => cases hfresh.symm.trans hreplay
  | halted _ _ hfresh _ _ _ _ _ _ => cases hfresh.symm.trans hreplay
  | cut _ _ hfresh _ _ _ _ => cases hfresh.symm.trans hreplay

end EdgeInvarianceLemmas

open EdgeInvarianceLemmas

/-- In every reachable store, for every product with the policy `default` and every cut of
it that succeeds: without the dependency edges it succeeds with the same bump and the same
version exactly if it is a replay, or no component with an active version depends on one
without, or a component of the latest release has lost its active version, or a component
is new or has changed in its major or minor number. -/
theorem edge_invariance_iff (requests : List Request) (data : CutReleaseRequest) (env : Env)
    (product : ProductRow) (result : CutReleaseResult)
    (hproduct : product ∈ (run World.init requests).db.products.rows)
    (hid : product.id = data.productId) (hpolicy : product.bumpPolicy = BumpPolicy.default)
    (hcut : ((cutRelease data env).run (run World.init requests)).1 = .ok result) :
    let w := run World.init requests
    (∃ result', ((cutRelease data env).run w.withoutDependencies).1 = .ok result' ∧
        result'.release.bumpLevel = result.release.bumpLevel ∧
        result'.release.productVersion = result.release.productVersion) ↔
      w.db.replayed data env.choice ≠ none ∨ ¬ w.db.DependsOnInactive product.id ∨
        w.db.LostComponent product.id ∨ w.db.ChangedMinor product.id := by
  intro w
  have hone : w.db.AtMostOneActive := atMostOneActive_run atMostOneActive_empty requests
  have hbump := bump_eq_iff (soundGraph_run soundGraph_empty requests) hone hpolicy
  cases hreplay : w.db.replayed data env.choice with
  | some row =>
    refine iff_of_true ?_ (Or.inl (fun h => nomatch h))
    have hfound := replayed_cut (w := w) hproduct hid hreplay
    rw [hcut] at hfound
    cases hfound
    exact ⟨_, replayed_cut (w := w.withoutDependencies) hproduct hid hreplay, rfl, rfl⟩
  | none =>
    rw [or_iff_right (not_not.mpr rfl), ← hbump]
    obtain ⟨hactive, hnew, hlevel, hversion⟩ := fresh_cut_shows (w := w) hproduct hid hreplay hcut
    constructor
    · rintro ⟨result', hcut', hsame, _⟩
      obtain ⟨_, _, hlevel', _⟩ :=
        fresh_cut_shows (w := w.withoutDependencies) hproduct hid hreplay hcut'
      rw [hlevel, hlevel', Option.some.injEq] at hsame
      exact BumpLevel.value_injective hsame
    · intro hsame
      have hnext : w.withoutDependencies.db.nextVersion product = w.db.nextVersion product := by
        rw [nextVersion, nextVersion, ← hsame]
        rfl
      obtain ⟨result', hcut'⟩ := fresh_cut_ok (w := w.withoutDependencies) hone hproduct hid hreplay
        hactive hnew (hnext.trans hversion)
      obtain ⟨_, _, hlevel', hversion'⟩ :=
        fresh_cut_shows (w := w.withoutDependencies) hproduct hid hreplay hcut'
      refine ⟨result', hcut', ?_, ?_⟩
      · rw [hlevel, hlevel', ← hsame]
        rfl
      · rw [hnext, hversion] at hversion'
        exact (Except.ok.inj hversion').symm

namespace Sample

/-- `api` depends on `web`, which has no version. -/
def edge : List Request :=
  [(.addDependency true ⟨id 10, id 11, id 12⟩, env 40)]

def product : ProductRow := newProductRow aurora (env 10)

/-- The bump and the version of the product that a cut answers. -/
def cutVersion (w : World) : Except ApiError (Option String × String) :=
  ((cutRelease (release none) (env 33)).run w).1.map fun result =>
    (result.release.bumpLevel, result.release.productVersion)

end Sample

/-- In the first release every component is new. -/
theorem edge_invariance_iff_sample :
    ∃ result', ((cutRelease (Sample.release none) (Sample.env 33)).run
      (run World.init (Sample.setup ++ Sample.versions ++ Sample.edge)).withoutDependencies).1 =
        .ok result' := by
  cases hcut : ((cutRelease (Sample.release none) (Sample.env 33)).run
      (run World.init (Sample.setup ++ Sample.versions ++ Sample.edge))).1 with
  | ok result =>
    have hchanged : (run World.init (Sample.setup ++ Sample.versions ++ Sample.edge)).db.ChangedMinor
        Sample.product.id := by
      unfold ChangedMinor
      decide +kernel
    obtain ⟨result', hcut', _⟩ := (edge_invariance_iff
      (Sample.setup ++ Sample.versions ++ Sample.edge) (Sample.release none) (Sample.env 33)
      Sample.product result (by decide +kernel) (by decide +kernel) (by decide +kernel) hcut).mpr
        (Or.inr (Or.inr (Or.inr hchanged)))
    exact ⟨result', hcut'⟩
  | error error =>
    have hok : Sample.cutVersion (run World.init (Sample.setup ++ Sample.versions ++ Sample.edge)) =
        .ok (some "minor", "0.1.0") := by decide +kernel
    rw [Sample.cutVersion, hcut] at hok
    cases hok

/-- After a release nothing has changed but the edge, and the next cut moves the version. -/
theorem edge_moves_version :
    Sample.product.bumpPolicy = BumpPolicy.default ∧
      Sample.cutVersion (run World.init (Sample.setup ++ Sample.versions ++
        [(.cutRelease (Sample.release none), Sample.env 30)] ++ Sample.edge)) =
          .ok (some "minor", "0.2.0") ∧
      Sample.cutVersion (run World.init (Sample.setup ++ Sample.versions ++
        [(.cutRelease (Sample.release none), Sample.env 30)] ++ Sample.edge)).withoutDependencies =
          .ok (some "none", "0.1.0") :=
  ⟨by decide +kernel, by decide +kernel, by decide +kernel⟩

end LavsCore
