import LavsCore.Domain.ChangeClassifier
import LavsCore.Models.Responses
import LavsCore.Store.Statements
import Mathlib.Data.Prod.Lex
import Mathlib.Order.OrderDual

/-!
# What the reading statements answer

The joins and orders of the release queries. `activeComponents`, `latestRelease` and
`priorManifest` are what a cut reads; `manifestEntries` is the join that both the cut
and the read paths show, each in an order of its own.
-/

namespace LavsCore

/-- A row of `_SELECT_ACTIVE_COMPONENTS`. -/
structure ActiveComponent where
  componentId : String
  name : String
  versionId : String
  major : Int
  minor : Int
  patch : Int
  prerelease : Option String
  deriving DecidableEq, Repr

/-- The numbers and the prerelease of an active component. -/
def ActiveComponent.tuple (r : ActiveComponent) : VersionTuple :=
  (r.major, r.minor, r.patch, r.prerelease)

/-- The numbers and the prerelease of a version. -/
def VersionRow.tuple (v : VersionRow) : VersionTuple := (v.major, v.minor, v.patch, v.prerelease)

namespace Store

/-- A component with one of its active versions. -/
def activeComponent (c : ComponentRow) (v : VersionRow) : ActiveComponent :=
  ⟨c.id, c.name, v.id, v.major, v.minor, v.patch, v.prerelease⟩

/-- The join of `_SELECT_ACTIVE_COMPONENTS`, without its order. -/
def joinActive (db : Store) (productId : String) : List ActiveComponent :=
  (db.components.rows.filter fun c => c.productId = productId).flatMap fun c =>
    (db.activeVersions c.id).map (activeComponent c)

/-- `_SELECT_ACTIVE_COMPONENTS`. -/
def activeComponents (db : Store) (productId : String) : List ActiveComponent :=
  orderBy ActiveComponent.componentId (db.joinActive productId)

/-- `ORDER BY created_at DESC, id DESC`. -/
def newestFirst (rows : List ReleaseRow) : List ReleaseRow :=
  orderBy (fun r => OrderDual.toDual (toLex (r.createdAt, r.id))) rows

/-- The releases of a product, newest first. -/
def releasesOf (db : Store) (productId : String) : List ReleaseRow :=
  newestFirst (db.releases.rows.filter fun r => r.productId = productId)

/-- `_SELECT_LATEST_RELEASE`. -/
def latestRelease (db : Store) (productId : String) : Option ReleaseRow :=
  (db.releasesOf productId).head?

/-- `_SELECT_RELEASE_BY_IDEMPOTENCY`: one of the releases with the key. -/
def releaseByIdempotency (db : Store) (productId key : String) (choice : Nat) :
    Option ReleaseRow :=
  let found := db.releases.rows.filter fun r =>
    r.productId = productId && r.idempotencyKey = some key
  found[choice % found.length]?

/-- `_SELECT_PRIOR_MANIFEST`. -/
def priorManifest (db : Store) (releaseId : String) : List (String × VersionTuple) :=
  (db.releaseComponents.rows.filter fun rc => rc.releaseId = releaseId).flatMap fun rc =>
    (db.versions.lookup rc.versionId).map fun v => (rc.componentId, v.tuple)

/-- A manifest row with its component and its version. -/
def manifestEntry (rc : ReleaseComponentRow) (c : ComponentRow) (v : VersionRow) : ManifestEntry :=
  ⟨rc.releaseId, rc.componentId, c.name, rc.versionId, v.major, v.minor, v.patch, v.prerelease,
    rc.changeLevel⟩

/-- The join of a manifest row. -/
def joinManifest (db : Store) (rc : ReleaseComponentRow) : List ManifestEntry :=
  (db.components.lookup rc.componentId).flatMap fun c =>
    (db.versions.lookup rc.versionId).map (manifestEntry rc c)

/-- The manifest rows of some releases, joined. -/
def manifestEntries (db : Store) (releaseIds : List String) : List ManifestEntry :=
  (db.releaseComponents.rows.filter fun rc => rc.releaseId ∈ releaseIds).flatMap db.joinManifest

/-- `_SELECT_RELEASE_MANIFEST` of the cut: `ORDER BY c.id`. -/
def releaseManifest (db : Store) (releaseId : String) : List ManifestEntry :=
  orderBy ManifestEntry.componentId (db.manifestEntries [releaseId])

/-- `_MANIFEST_SELECT` of the reads: `ORDER BY c.name, rc.component_id`. Names are compared by the
keys that the collation of the engine gives them. -/
def manifestIn {κ : Type} [LinearOrder κ] (db : Store) (collate : String → κ)
    (releaseIds : List String) : List ManifestEntry :=
  orderBy (fun e => toLex (collate e.name, e.componentId)) (db.manifestEntries releaseIds)

/-- The same where a name is its own key, as in DuckDB. -/
def manifestOf (db : Store) (releaseIds : List String) : List ManifestEntry :=
  orderBy (fun e => toLex (e.name, e.componentId)) (db.manifestEntries releaseIds)

/-- `_COMPONENTS_SELECT`: `ORDER BY name, id`. -/
def componentsOf (db : Store) (productId : String) : List ComponentRow :=
  orderBy (fun c => toLex (c.name, c.id))
    (db.components.rows.filter fun c => c.productId = productId)

/-- `ORDER BY v.major DESC, v.minor DESC, v.patch DESC, v.id DESC`. -/
def highestFirst (rows : List VersionRow) : List VersionRow :=
  orderBy (fun v => OrderDual.toDual (toLex (v.major, toLex (v.minor, toLex (v.patch, v.id))))) rows

/-- `_VERSIONS_SELECT`: the join finds one component for a version. -/
def versionsOf (db : Store) (productId : String) : List VersionRow :=
  highestFirst (db.versions.rows.filter fun v =>
    (db.components.lookup v.componentId).any fun c => c.productId = productId)

/-- `_SELECT_EDGES` of the graph: `ORDER BY created_at, id`. -/
def dependenciesOf (db : Store) (productId : String) : List DependencyRow :=
  orderBy (fun d => toLex (d.createdAt, d.id))
    (db.dependencies.rows.filter fun d => d.productId = productId)

variable {db : Store}

@[simp] theorem mem_componentsOf {productId : String} {c : ComponentRow} :
    c ∈ db.componentsOf productId ↔ c ∈ db.components.rows ∧ c.productId = productId := by
  simp [componentsOf]

@[simp] theorem mem_highestFirst {rows : List VersionRow} {v : VersionRow} :
    v ∈ highestFirst rows ↔ v ∈ rows :=
  mem_orderBy

theorem mem_versionsOf {productId : String} {v : VersionRow} :
    v ∈ db.versionsOf productId ↔
      v ∈ db.versions.rows ∧ ∃ c ∈ db.componentsOf productId, c.id = v.componentId := by
  simp only [versionsOf, mem_highestFirst, List.mem_filter, List.any_eq_true, Table.mem_lookup,
    decide_eq_true_eq, mem_componentsOf]
  constructor
  · rintro ⟨hv, c, ⟨hc, hid⟩, hproduct⟩
    exact ⟨hv, c, ⟨hc, hproduct⟩, hid⟩
  · rintro ⟨hv, c, ⟨hc, hproduct⟩, hid⟩
    exact ⟨hv, c, ⟨hc, hid⟩, hproduct⟩

/-- Of the versions of a product, those of one component, in the same order. -/
theorem filter_versionsOf {productId : String} {c : ComponentRow}
    (hc : c ∈ db.componentsOf productId) :
    (db.versionsOf productId).filter (fun v => v.componentId = c.id) =
      highestFirst (db.versions.rows.filter fun v => v.componentId = c.id) := by
  obtain ⟨hrow, hproduct⟩ := mem_componentsOf.mp hc
  rw [versionsOf, highestFirst, filter_orderBy, List.filter_filter, highestFirst]
  · congr 1
    refine List.filter_congr fun v _ => ?_
    by_cases hid : v.componentId = c.id
    · simp [hid, Table.lookup_eq_singleton hrow, hproduct]
    · simp [hid]
  · intro v hv v' hv' hkey
    have hid : v.id = v'.id :=
      congrArg (fun k => (ofLex (ofLex (ofLex (OrderDual.ofDual k)).2).2).2) hkey
    exact Table.eq_of_key_eq (List.mem_of_mem_filter (List.mem_of_mem_filter hv))
      (List.mem_of_mem_filter (List.mem_of_mem_filter hv')) hid

theorem mem_activeComponents {productId : String} {r : ActiveComponent} :
    r ∈ db.activeComponents productId ↔
      ∃ c ∈ db.components.rows, c.productId = productId ∧
        ∃ v ∈ db.activeVersions c.id, r = activeComponent c v := by
  simp only [activeComponents, mem_orderBy, joinActive, List.mem_flatMap, List.mem_filter,
    decide_eq_true_eq, List.mem_map]
  constructor
  · rintro ⟨c, ⟨hc, hproduct⟩, v, hv, rfl⟩
    exact ⟨c, hc, hproduct, v, hv, rfl⟩
  · rintro ⟨c, hc, hproduct, v, hv, rfl⟩
    exact ⟨c, ⟨hc, hproduct⟩, v, hv, rfl⟩

/-- The latest release is a release of the product. -/
theorem latestRelease_mem {productId : String} {row : ReleaseRow}
    (h : db.latestRelease productId = some row) :
    row ∈ db.releases.rows ∧ row.productId = productId := by
  have hmem : row ∈ db.releasesOf productId := List.mem_of_mem_head? h
  simpa [releasesOf, newestFirst] using hmem

theorem mem_priorManifest {releaseId componentId : String} {tuple : VersionTuple} :
    (componentId, tuple) ∈ db.priorManifest releaseId ↔
      ∃ rc ∈ db.releaseComponents.rows, rc.releaseId = releaseId ∧ rc.componentId = componentId ∧
        ∃ v ∈ db.versions.rows, v.id = rc.versionId ∧ v.tuple = tuple := by
  simp only [priorManifest, List.mem_flatMap, List.mem_filter, decide_eq_true_eq, List.mem_map,
    Table.mem_lookup, Prod.mk.injEq]
  constructor
  · rintro ⟨rc, ⟨hrc, hid⟩, v, ⟨hv, hvid⟩, hc, ht⟩
    exact ⟨rc, hrc, hid, hc, v, hv, hvid, ht⟩
  · rintro ⟨rc, hrc, hid, hc, v, hv, hvid, ht⟩
    exact ⟨rc, ⟨hrc, hid⟩, v, ⟨hv, hvid⟩, hc, ht⟩

end Store

end LavsCore
