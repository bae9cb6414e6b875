import LavsCore.Queries.Catalog
import LavsCore.Queries.ReleasesRead

/-!
# Reading a product

`TimelineQuery` and `GraphQuery`, with the routes that serve them: a product with its
components and their versions, and a product with its components and its dependency edges.

`timeline_ok_iff` and `graph_ok_iff`: what a route answers is a view of the store. Both
routes answer for every known product whose versions can be shown (`Shown`).
-/

namespace LavsCore

open Query

/-! ## The queries -/

/-- The version of `TimelineQuery._read_versions_by_component`. -/
def toTimelineVersion (row : VersionRow) : Except ApiError VersionResponseModel :=
  match row.status with
  | none => .error (.valueError "'None' is not a valid VersionStatus")
  | some status =>
    if negativeFields row = [] then
      .ok {
        id := row.id
        componentId := row.componentId
        major := row.major
        minor := row.minor
        patch := row.patch
        prerelease := row.prerelease
        status := status
        createdAt := Py.isoformat row.createdAt }
    else .error (.validation "VersionResponseModel" (negativeFields row))

/-- One row of `TimelineQuery._read_versions_by_component`. -/
def groupVersion (grouped : Dict String (List VersionResponseModel)) (row : VersionRow) :
    Except ApiError (Dict String (List VersionResponseModel)) := do
  let version ← toTimelineVersion row
  return (Dict.setDefault grouped row.componentId []).modify row.componentId (· ++ [version])

/-- `TimelineQuery._read_versions_by_component`. It ends at the first row that cannot be
shown. -/
def groupVersions (rows : List VersionRow) :
    Except ApiError (Dict String (List VersionResponseModel)) :=
  rows.foldlM groupVersion Table.empty

/-- `versions_by_component.get(component_id, [])`. -/
def versionsFor (grouped : Dict String (List VersionResponseModel)) (componentId : String) :
    List VersionResponseModel :=
  (Dict.get? grouped componentId).getD []

/-- A component of `TimelineQuery._read_components`. -/
def toComponentWithVersions (row : ComponentRow) (versions : List VersionResponseModel) :
    ComponentWithVersionsResponseModel where
  id := row.id
  productId := row.productId
  name := row.name
  kind := row.kind
  versions := versions

/-- `TimelineQuery._read_product` leaves `base_version` to its default. -/
def toTimelineProduct (row : ProductRow) : ProductResponseModel where
  id := row.id
  name := row.name
  description := row.description
  baseVersion := "0.0.0"
  createdAt := Py.isoformat row.createdAt

/-- `TimelineQuery.apply`. -/
def readTimeline (productId : String) : Query (Option TimelineResponseModel) := do
  match ← select .selectProduct fun db => db.products.lookup productId with
  | [] => return none
  | product :: _ =>
    let rows ← select .selectVersions fun db => db.versionsOf productId
    let grouped ← Prog.lift (groupVersions rows)
    let components ← select .selectComponents fun db => db.componentsOf productId
    return some {
      product := toTimelineProduct product
      components := components.map fun c => toComponentWithVersions c (versionsFor grouped c.id) }

/-- `NotFoundError` of the timeline of an unknown product. -/
def timelineNotFound (productId : String) : ApiError :=
  .notFound "Product not found." [("product_id", productId)]

/-- `GET /products/{product_id}/timeline`. -/
def getTimeline (productId : String) : Query TimelineResponseModel := do
  match ← readTimeline productId with
  | some timeline => return timeline
  | none => Prog.raise (timelineNotFound productId)

/-- `GraphQuery.apply`. -/
def readGraph (productId : String) : Query GraphResponseModel := do
  let components ← select .selectComponents fun db => db.componentsOf productId
  let edges ← select .selectEdges fun db => db.dependenciesOf productId
  return {
    productId := productId
    nodes := components.map fun c => ⟨c.id, c.productId, c.name, c.kind⟩
    edges := edges.map toDependencyResponse }

/-- `NotFoundError` of `GetProductByIdQuery`. -/
def productIdNotFound (productId : String) : ApiError :=
  .notFound s!"No product exists with id '{productId}'." [("id", productId)]

/-- `GET /products/{product_id}/graph`. -/
def getProductGraph (productId : String) : Query GraphResponseModel := do
  let product ← select .selectProduct fun db => db.products.lookup productId
  refuseIf product.isEmpty (productIdNotFound productId)
  readGraph productId

/-! ## Views -/

/-- The version can be shown: it has a status and no negative number. -/
def VersionRow.Shown (v : VersionRow) : Prop := v.status ≠ none ∧ negativeFields v = []

instance (v : VersionRow) : Decidable v.Shown := inferInstanceAs (Decidable (_ ∧ _))

/-- A version that can be shown. -/
def versionView (v : VersionRow) : VersionResponseModel where
  id := v.id
  componentId := v.componentId
  major := v.major
  minor := v.minor
  patch := v.patch
  prerelease := v.prerelease
  status := v.status.getD .active
  createdAt := Py.isoformat v.createdAt

theorem toTimelineVersion_ok_iff {v : VersionRow} {m : VersionResponseModel} :
    toTimelineVersion v = .ok m ↔ v.Shown ∧ m = versionView v := by
  unfold toTimelineVersion VersionRow.Shown versionView
  cases hstatus : v.status with
  | none => simp
  | some status =>
    by_cases hneg : negativeFields v = []
    · simp [hneg, eq_comm]
    · simp [hneg]

/-- The other mapper of versions agrees, but for the text of one error. -/
theorem toVersionResponse_eq_ok {v : VersionRow} {m : VersionResponseModel} :
    toVersionResponse v = .ok m ↔ v.Shown ∧ m = versionView v := by
  rw [toVersionResponse_ok_iff, VersionRow.Shown, versionView]
  cases hstatus : v.status with
  | none => simp
  | some status => simp

namespace Store

/-- The versions of a component, highest first. -/
def versionsOfComponent (db : Store) (componentId : String) : List VersionRow :=
  highestFirst (db.versions.rows.filter fun v => v.componentId = componentId)

/-- A component with its versions. -/
def componentView (db : Store) (c : ComponentRow) : ComponentWithVersionsResponseModel :=
  toComponentWithVersions c ((db.versionsOfComponent c.id).map versionView)

/-- A product with its components and their versions. -/
def timelineView (db : Store) (product : ProductRow) : TimelineResponseModel where
  product := toTimelineProduct product
  components := (db.componentsOf product.id).map db.componentView

/-- A product with its components and its edges. -/
def graphView (db : Store) (productId : String) : GraphResponseModel where
  productId := productId
  nodes := (db.componentsOf productId).map fun c => ⟨c.id, c.productId, c.name, c.kind⟩
  edges := (db.dependenciesOf productId).map toDependencyResponse

/-- The versions of a product can be shown. -/
def Shown (db : Store) (productId : String) : Prop :=
  ∀ v ∈ db.versionsOf productId, v.Shown

instance (db : Store) (productId : String) : Decidable (db.Shown productId) :=
  inferInstanceAs (Decidable (∀ v ∈ db.versionsOf productId, v.Shown))

@[simp] theorem mem_versionsOfComponent {db : Store} {componentId : String} {v : VersionRow} :
    v ∈ db.versionsOfComponent componentId ↔
      v ∈ db.versions.rows ∧ v.componentId = componentId := by
  simp [versionsOfComponent]

end Store

/-! ## What the routes answer -/

namespace TimelineReadLemmas

variable {grouped grouped' : Dict String (List VersionResponseModel)}

theorem groupVersion_ok {row : VersionRow} (h : groupVersion grouped row = .ok grouped') :
    row.Shown ∧ ∀ componentId, versionsFor grouped' componentId =
      versionsFor grouped componentId ++
        if row.componentId = componentId then [versionView row] else [] := by
  unfold groupVersion at h
  cases hrow : toTimelineVersion row with
  | error error =>
    rw [hrow] at h
    cases h
  | ok version =>
    rw [hrow] at h
    cases h
    obtain ⟨hshown, rfl⟩ := toTimelineVersion_ok_iff.mp hrow
    refine ⟨hshown, fun componentId => ?_⟩
    unfold versionsFor
    rw [Dict.getD_modify_setDefault]
    split
    · rfl
    · exact (List.append_nil _).symm

/-- Grouping needs all rows to be shown, and keeps their order. -/
theorem foldlM_groupVersion {rows : List VersionRow}
    (h : rows.foldlM groupVersion grouped = .ok grouped') :
    (∀ v ∈ rows, v.Shown) ∧ ∀ componentId, versionsFor grouped' componentId =
      versionsFor grouped componentId ++
        (rows.filter fun v => v.componentId = componentId).map versionView := by
  induction rows generalizing grouped with
  | nil =>
    cases h
    simp
  | cons row rest ih =>
    rw [List.foldlM_cons] at h
    cases hrow : groupVersion grouped row with
    | error error =>
      rw [hrow] at h
      cases h
    | ok next =>
      rw [hrow] at h
      obtain ⟨hfirst, hnext⟩ := groupVersion_ok hrow
      obtain ⟨hshown, hrest⟩ := ih h
      refine ⟨List.forall_mem_cons.mpr ⟨hfirst, hshown⟩, fun componentId => ?_⟩
      rw [hrest, hnext, List.append_assoc]
      by_cases hid : row.componentId = componentId
      · simp [hid]
      · simp [hid]

theorem groupVersions_isOk {rows : List VersionRow} (h : ∀ v ∈ rows, v.Shown) :
    ∃ grouped, groupVersions rows = .ok grouped := by
  have hfold : ∀ start, ∃ grouped, rows.foldlM groupVersion start = .ok grouped := by
    induction rows with
    | nil => exact fun start => ⟨start, rfl⟩
    | cons row rest ih =>
      intro start
      obtain ⟨hrow, hrest⟩ := List.forall_mem_cons.mp h
      rw [List.foldlM_cons, groupVersion, toTimelineVersion_ok_iff.mpr ⟨hrow, rfl⟩]
      exact ih hrest _
  exact hfold Table.empty

/-- The group of a component of the product. -/
theorem versionsFor_groupVersions {db : Store} {productId : String} {c : ComponentRow}
    (h : groupVersions (db.versionsOf productId) = .ok grouped)
    (hc : c ∈ db.componentsOf productId) :
    versionsFor grouped c.id = (db.versionsOfComponent c.id).map versionView := by
  rw [(foldlM_groupVersion h).2, Store.versionsOfComponent, Store.filter_versionsOf hc]
  rfl

end TimelineReadLemmas

open TimelineReadLemmas

theorem run_readTimeline {w : World} {product : ProductRow}
    (hproduct : product ∈ w.db.products.rows) (hshown : w.db.Shown product.id) :
    (readTimeline product.id).run w = (.ok (some (w.db.timelineView product)), w) := by
  obtain ⟨grouped, hgrouped⟩ := groupVersions_isOk hshown
  have hviews : (w.db.componentsOf product.id).map
      (fun c => toComponentWithVersions c (versionsFor grouped c.id)) =
        (w.db.componentsOf product.id).map w.db.componentView := by
    refine List.map_congr_left fun c hc => ?_
    rw [versionsFor_groupVersions hgrouped hc]
    rfl
  simp [readTimeline, Table.lookup_eq_singleton hproduct, hgrouped, hviews, Store.timelineView]

/-- A timeline that is answered is the view of a known product with shown versions. -/
theorem getTimeline_ok_iff {productId : String} {w : World} {timeline : TimelineResponseModel} :
    ((getTimeline productId).run w).1 = .ok timeline ↔
      ∃ product ∈ w.db.products.rows, product.id = productId ∧ w.db.Shown productId ∧
        timeline = w.db.timelineView product := by
  by_cases hknown : productId ∈ w.db.products.keys
  · obtain ⟨product, hproduct, rfl, hlookup⟩ := Table.lookup_eq_singleton_of_mem_keys hknown
    by_cases hshown : w.db.Shown product.id
    · simp only [getTimeline, Prog.run_bind, run_readTimeline hproduct hshown]
      constructor
      · intro h
        cases h
        exact ⟨product, hproduct, rfl, hshown, rfl⟩
      · rintro ⟨product', hproduct', hid, _, rfl⟩
        rw [Table.eq_of_key_eq hproduct' hproduct hid]
        rfl
    · constructor
      · intro h
        cases hgrouped : groupVersions (w.db.versionsOf product.id) with
        | error error => simp [getTimeline, readTimeline, hlookup, hgrouped] at h
        | ok grouped => exact absurd (foldlM_groupVersion hgrouped).1 hshown
      · rintro ⟨_, _, _, h, _⟩
        exact absurd h hshown
  · constructor
    · intro h
      simp [getTimeline, readTimeline, Table.lookup_eq_nil.mpr hknown] at h
    · rintro ⟨product, hproduct, hid, _⟩
      exact absurd (hid ▸ Table.key_mem_keys hproduct) hknown

theorem getProductGraph_ok_iff {productId : String} {w : World} {graph : GraphResponseModel} :
    ((getProductGraph productId).run w).1 = .ok graph ↔
      productId ∈ w.db.products.keys ∧ graph = w.db.graphView productId := by
  by_cases hknown : productId ∈ w.db.products.keys
  · obtain ⟨product, _, _, hlookup⟩ := Table.lookup_eq_singleton_of_mem_keys hknown
    simp [getProductGraph, readGraph, hlookup, hknown, Store.graphView, eq_comm]
  · refine iff_of_false (fun h => ?_) fun h => hknown h.1
    simp [getProductGraph, Table.lookup_eq_nil.mpr hknown] at h

end LavsCore
