import LavsCore.Domain.BumpPropagation
import LavsCore.Queries.Dependencies

/-!
# The impact of a hypothetical change

`impact_query.py`: what a major change of one component would mean for the other
components of its product. `readImpact_run` says what the query answers for a component of
the product.
-/

namespace LavsCore

open Query

/-- `_SELECT_COMPONENTS` of the impact: `ORDER BY id`. -/
def Store.componentIds (db : Store) (productId : String) : List String :=
  (orderBy ComponentRow.id (db.components.rows.filter fun c => c.productId = productId)).map
    ComponentRow.id

/-- `NotFoundError` of a component that the product does not have. -/
def componentNotInProduct (data : ImpactRequest) : ApiError :=
  .notFound s!"Component '{data.componentId}' does not exist in product '{data.productId}'."
    [("component_id", data.componentId), ("product_id", data.productId)]

/-- `own_levels`: no component has a change, except for the one in question. -/
def impactOwnLevels (componentIds : List String) (componentId : String) : Dict String BumpLevel :=
  (Dict.ofList (componentIds.map fun id => (id, BumpLevel.none))).set componentId .major

/-- `impacted`. -/
def impactedComponents (componentIds : List String) (edges : List (String × String))
    (componentId : String) : List ImpactedComponentModel :=
  let effective := effectiveLevels (impactOwnLevels componentIds componentId) edges
  (componentIds.filter fun id => id ≠ componentId ∧ effectiveOf effective id ≠ .none).map fun id =>
    ⟨id, (effectiveOf effective id).value⟩

/-- `ImpactQuery.apply`. -/
def readImpact (data : ImpactRequest) : Query ImpactResponseModel := do
  let product ← select .selectProduct fun db => db.products.lookup data.productId
  refuseIf product.isEmpty (productNotFound data.productId)
  let component ← select .selectComponent fun db =>
    (db.components.lookup data.componentId).filter fun c => c.productId = data.productId
  refuseIf component.isEmpty (componentNotInProduct data)
  let componentIds ← select .selectComponents fun db => db.componentIds data.productId
  let edges ← select .selectEdges fun db => db.edges data.productId
  return ⟨data.componentId, impactedComponents componentIds edges data.componentId⟩

/-! ## What the query answers -/

theorem Store.mem_componentIds {db : Store} {productId id : String} :
    id ∈ db.componentIds productId ↔ db.OwnsComponent productId id := by
  simp only [componentIds, OwnsComponent, List.mem_map, mem_orderBy, List.mem_filter,
    decide_eq_true_eq]
  refine exists_congr fun c => ?_
  rw [and_assoc, and_comm (a := c.productId = productId)]

/-- The ids stand in ascending order, each of them once. -/
theorem Store.componentIds_sorted (db : Store) (productId : String) :
    (db.componentIds productId).Pairwise (· < ·) := by
  have hle : (db.componentIds productId).Pairwise (· ≤ ·) :=
    List.pairwise_map.mpr (orderBy_sorted ComponentRow.id _)
  have hnodup : (db.componentIds productId).Nodup := by
    have hrows : (db.components.rows.map ComponentRow.id).Nodup := db.components.nodup_keys
    exact ((orderBy_perm ComponentRow.id _).map ComponentRow.id).nodup_iff.mpr
      (hrows.sublist (List.filter_sublist.map ComponentRow.id))
  exact (hle.and hnodup).imp fun h => lt_of_le_of_ne h.1 h.2

/-- The query answers for a component of the product. -/
theorem readImpact_run {data : ImpactRequest} {w : World}
    (h : w.db.OwnsComponent data.productId data.componentId) :
    (readImpact data).run w =
      (.ok ⟨data.componentId, impactedComponents (w.db.componentIds data.productId)
        (w.db.edges data.productId) data.componentId⟩, w) := by
  obtain ⟨c, hc, hid, hproduct⟩ := h
  have hknown : data.productId ∈ w.db.products.keys := hproduct ▸ w.db.component_product c hc
  obtain ⟨product, _, _, hlookup⟩ := Table.lookup_eq_singleton_of_mem_keys hknown
  have hcomponent : (w.db.components.lookup data.componentId).filter
      (fun c => c.productId = data.productId) = [c] := by
    rw [← hid, Table.lookup_eq_singleton hc]
    simp [hproduct]
  simp only [readImpact, Prog.run_bind, run_select, hlookup, hcomponent, List.isEmpty_cons,
    run_refuseIf_false, Prog.run_pure]

end LavsCore
