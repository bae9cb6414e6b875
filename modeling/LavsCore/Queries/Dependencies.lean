import LavsCore.Domain.DependencyGraph
import LavsCore.Queries.Catalog

/-!
# Adding and removing dependency edges

`add_dependency_query.py` and `remove_dependency_query.py`. `addDependency_run`: the
edge is inserted exactly when it passes the guards (`EdgeAccepted`) and its id is
new; otherwise the call fails and leaves everything as it was.
-/

namespace LavsCore

open Query

/-- The edges of a product, as `_SELECT_EDGES` answers them. -/
def Store.edges (db : Store) (productId : String) : List (String × String) :=
  (db.dependencies.rows.filter fun d => d.productId = productId).map DependencyRow.edge

/-- `_SELECT_EDGE`. -/
def Store.selectEdge (db : Store) (productId fromComponentId toComponentId : String) :
    List DependencyRow :=
  db.dependencies.rows.filter fun d => d.key = (productId, fromComponentId, toComponentId)

/-- `ConflictError` of a component of another product. -/
def componentNotOfProduct (productId componentId : String) : ApiError :=
  .conflict s!"Component '{componentId}' does not belong to product '{productId}'."
    [("component_id", componentId), ("product_id", productId)]

/-- `AddDependencyQuery._assert_component`. -/
def assertComponent (productId componentId : String) : Query PUnit := do
  match ← select .selectComponent fun db => db.components.lookup componentId with
  | [] => Prog.raise (componentNotFound componentId)
  | component :: _ =>
    refuseIf (component.productId ≠ productId) (componentNotOfProduct productId componentId)

/-- `ConflictError` of a self-edge. -/
def selfDependency (data : CreateDependencyRequest) : ApiError :=
  .conflict "A component cannot depend on itself." [("component_id", data.fromComponentId)]

/-- `ConflictError` of an edge that exists. -/
def duplicateDependency (data : CreateDependencyRequest) : ApiError :=
  .conflict "This dependency edge already exists."
    [("from_component_id", data.fromComponentId), ("to_component_id", data.toComponentId)]

/-- `ConflictError` of an edge that closes a cycle. -/
def cyclicDependency (data : CreateDependencyRequest) : ApiError :=
  .conflict "This dependency edge would introduce a cycle."
    [("from_component_id", data.fromComponentId), ("to_component_id", data.toComponentId)]

/-- The row that `_INSERT_EDGE` writes. -/
def newDependencyRow (data : CreateDependencyRequest) (env : Env) : DependencyRow where
  id := env.ulid
  productId := data.productId
  fromComponentId := data.fromComponentId
  toComponentId := data.toComponentId
  createdAt := env.now

/-- The `dependency.added` event. -/
def dependencyAdded (productId : String) (dependency : DependencyResponseModel) :
    DomainEvent where
  eventType := .dependencyAdded
  productId := productId
  data := .obj [("dependency", dependency.dump)]

/-- `AddDependencyQuery.apply`. -/
def addDependency (eventBus : Bool) (data : CreateDependencyRequest) (env : Env) :
    Query DependencyResponseModel := do
  let product ← select .selectProduct fun db => db.products.lookup data.productId
  refuseIf product.isEmpty (productNotFound data.productId)
  assertComponent data.productId data.fromComponentId
  assertComponent data.productId data.toComponentId
  refuseIf (data.fromComponentId = data.toComponentId) (selfDependency data)
  let duplicate ← select .selectEdge fun db => db.selectEdge data.productId
    data.fromComponentId data.toComponentId
  refuseIf (!duplicate.isEmpty) (duplicateDependency data)
  let edges ← select .selectEdges fun db => db.edges data.productId
  refuseIf (wouldCreateCycle edges data.fromComponentId data.toComponentId)
    (cyclicDependency data)
  insert .insertEdge fun db => db.insertDependency (newDependencyRow data env)
  match ← select .selectCreatedEdge fun db => db.dependencies.lookup env.ulid with
  | [] => Prog.raise (.assertion "The dependency edge just inserted was not found.")
  | row :: _ =>
    publish eventBus (dependencyAdded data.productId (toDependencyResponse row))
    return toDependencyResponse row

/-- The `dependency.removed` event. -/
def dependencyRemoved (data : RemoveDependencyRequest) (edgeId : String) : DomainEvent where
  eventType := .dependencyRemoved
  productId := data.productId
  data := .obj [("dependency", .obj [("id", .str edgeId), ("product_id", .str data.productId),
    ("from_component_id", .str data.fromComponentId),
    ("to_component_id", .str data.toComponentId)])]

/-- `NotFoundError` of an unknown edge. -/
def dependencyNotFound (data : RemoveDependencyRequest) : ApiError :=
  .notFound "This dependency edge does not exist."
    [("product_id", data.productId), ("from_component_id", data.fromComponentId),
      ("to_component_id", data.toComponentId)]

/-- `RemoveDependencyQuery.apply`. -/
def removeDependency (eventBus : Bool) (data : RemoveDependencyRequest) : Query PUnit := do
  match ← select .selectEdge fun db => db.selectEdge data.productId data.fromComponentId
      data.toComponentId with
  | [] => Prog.raise (dependencyNotFound data)
  | edge :: _ =>
    execute .deleteEdge fun db => db.deleteDependency edge.id
    publish eventBus (dependencyRemoved data edge.id)

/-! ## What a call alone does -/

/-- The component exists and belongs to the product. -/
def Store.OwnsComponent (db : Store) (productId componentId : String) : Prop :=
  ∃ c ∈ db.components.rows, c.id = componentId ∧ c.productId = productId

/-- The guards that an edge passes before it is inserted. -/
structure EdgeAccepted (db : Store) (data : CreateDependencyRequest) : Prop where
  product : data.productId ∈ db.products.keys
  source : db.OwnsComponent data.productId data.fromComponentId
  target : db.OwnsComponent data.productId data.toComponentId
  notSelf : data.fromComponentId ≠ data.toComponentId
  notDuplicate : db.selectEdge data.productId data.fromComponentId data.toComponentId = []
  noCycle : wouldCreateCycle (db.edges data.productId) data.fromComponentId
    data.toComponentId = false

/-- The assertion passes for the components of the product. -/
theorem run_assertComponent {productId componentId : String} {w : World}
    (h : w.db.OwnsComponent productId componentId) :
    (assertComponent productId componentId).run w = (.ok ⟨⟩, w) := by
  obtain ⟨component, hrow, rfl, rfl⟩ := h
  simp [assertComponent, Table.lookup_eq_singleton hrow]

/-- It fails for all others. -/
theorem run_assertComponent_not {productId componentId : String} {w : World}
    (h : ¬ w.db.OwnsComponent productId componentId) :
    ∃ error : ApiError, error.isDomain = true ∧
      (assertComponent productId componentId).run w = (.error error, w) := by
  by_cases hknown : componentId ∈ w.db.components.keys
  · obtain ⟨component, hrow, hid, hlookup⟩ := Table.lookup_eq_singleton_of_mem_keys hknown
    have hproduct : component.productId ≠ productId := fun e => h ⟨component, hrow, hid, e⟩
    exact ⟨componentNotOfProduct productId componentId, rfl,
      by simp [assertComponent, hlookup, hproduct]⟩
  · exact ⟨componentNotFound componentId, rfl,
      by simp [assertComponent, Table.lookup_eq_nil.mpr hknown]⟩

/-- What an addition alone answers and leaves. -/
inductive AddDependencyOutcome (eventBus : Bool) (data : CreateDependencyRequest) (env : Env)
    (w : World) : Except ApiError DependencyResponseModel → World → Prop
  | rejected {error : ApiError} (hnot : ¬ EdgeAccepted w.db data) (hdomain : error.isDomain = true) :
      AddDependencyOutcome eventBus data env w (.error error) w
  | refused {refusal : Refusal} (haccepted : EdgeAccepted w.db data)
      (hinsert : w.db.insertDependency (newDependencyRow data env) = .error refusal) :
      AddDependencyOutcome eventBus data env w (.error (.refused refusal)) w
  | added {db : Store} (haccepted : EdgeAccepted w.db data)
      (hinsert : w.db.insertDependency (newDependencyRow data env) = .ok db) :
      AddDependencyOutcome eventBus data env w
        (.ok (toDependencyResponse (newDependencyRow data env)))
        ⟨db, w.published ++ if eventBus then
          [dependencyAdded data.productId (toDependencyResponse (newDependencyRow data env))]
          else []⟩

section AddDependency

variable (eventBus : Bool) (data : CreateDependencyRequest) (env : Env) (w : World)

/-- An edge that fails a guard: the call ends there, before it writes. -/
theorem addDependency_rejected (hnot : ¬ EdgeAccepted w.db data) :
    ∃ error : ApiError, error.isDomain = true ∧
      (addDependency eventBus data env).run w = (.error error, w) := by
  by_cases hproduct : data.productId ∈ w.db.products.keys
  case neg =>
    exact ⟨productNotFound data.productId, rfl,
      by simp [addDependency, Table.lookup_eq_nil.mpr hproduct]⟩
  obtain ⟨product, _, _, hlookup⟩ := Table.lookup_eq_singleton_of_mem_keys hproduct
  by_cases hsource : w.db.OwnsComponent data.productId data.fromComponentId
  case neg =>
    obtain ⟨error, hdomain, hrun⟩ := run_assertComponent_not hsource
    exact ⟨error, hdomain, by simp [addDependency, hlookup, hrun]⟩
  have hrunSource := run_assertComponent hsource
  by_cases htarget : w.db.OwnsComponent data.productId data.toComponentId
  case neg =>
    obtain ⟨error, hdomain, hrun⟩ := run_assertComponent_not htarget
    exact ⟨error, hdomain, by simp [addDependency, hlookup, hrunSource, hrun]⟩
  have hrunTarget := run_assertComponent htarget
  by_cases hself : data.fromComponentId = data.toComponentId
  case pos =>
    rw [hself] at hrunSource
    exact ⟨selfDependency data, rfl, by simp [addDependency, hlookup, hrunSource, hself]⟩
  by_cases hduplicate :
      w.db.selectEdge data.productId data.fromComponentId data.toComponentId = []
  case neg =>
    have hfound : (w.db.selectEdge data.productId data.fromComponentId
        data.toComponentId).isEmpty = false := by
      simpa using hduplicate
    exact ⟨duplicateDependency data, rfl,
      by simp [addDependency, hlookup, hrunSource, hrunTarget, hself, hfound]⟩
  cases hcycle : wouldCreateCycle (w.db.edges data.productId) data.fromComponentId
    data.toComponentId with
  | false => exact absurd ⟨hproduct, hsource, htarget, hself, hduplicate, hcycle⟩ hnot
  | true =>
    exact ⟨cyclicDependency data, rfl,
      by simp [addDependency, hlookup, hrunSource, hrunTarget, hself, hduplicate, hcycle]⟩

theorem addDependency_run :
    AddDependencyOutcome eventBus data env w ((addDependency eventBus data env).run w).1
      ((addDependency eventBus data env).run w).2 := by
  by_cases haccepted : EdgeAccepted w.db data
  case neg =>
    obtain ⟨error, hdomain, hrun⟩ := addDependency_rejected eventBus data env w haccepted
    rw [hrun]
    exact .rejected haccepted hdomain
  obtain ⟨hproduct, hsource, htarget, hself, hduplicate, hcycle⟩ := id haccepted
  obtain ⟨product, _, _, hlookup⟩ := Table.lookup_eq_singleton_of_mem_keys hproduct
  cases hinsert : w.db.insertDependency (newDependencyRow data env) with
  | error refusal =>
    have hrun : (addDependency eventBus data env).run w = (.error (.refused refusal), w) := by
      simp [addDependency, hlookup, run_assertComponent hsource, run_assertComponent htarget,
        hself, hduplicate, hcycle, hinsert]
    rw [hrun]
    exact .refused haccepted hinsert
  | ok db =>
    have hcreated : db.dependencies.lookup env.ulid = [newDependencyRow data env] := by
      refine Table.lookup_eq_singleton (r := newDependencyRow data env) ?_
      rw [(Store.insertDependency_ok hinsert).rows]
      exact List.mem_append_right _ List.mem_cons_self
    have hrun : (addDependency eventBus data env).run w =
        (.ok (toDependencyResponse (newDependencyRow data env)),
          ⟨db, w.published ++ if eventBus then
            [dependencyAdded data.productId (toDependencyResponse (newDependencyRow data env))]
            else []⟩) := by
      simp [addDependency, hlookup, run_assertComponent hsource, run_assertComponent htarget,
        hself, hduplicate, hcycle, hinsert, hcreated]
    rw [hrun]
    exact .added haccepted hinsert

end AddDependency

/-- What a removal alone answers and leaves. -/
inductive RemoveDependencyOutcome (eventBus : Bool) (data : RemoveDependencyRequest)
    (w : World) : Except ApiError PUnit → World → Prop
  | unknown (hnone : w.db.selectEdge data.productId data.fromComponentId data.toComponentId = []) :
      RemoveDependencyOutcome eventBus data w (.error (dependencyNotFound data)) w
  | removed {edge : DependencyRow} (hrow : edge ∈ w.db.dependencies.rows)
      (hkey : edge.key = (data.productId, data.fromComponentId, data.toComponentId)) :
      RemoveDependencyOutcome eventBus data w (.ok ⟨⟩)
        ⟨w.db.deleteDependency edge.id,
          w.published ++ if eventBus then [dependencyRemoved data edge.id] else []⟩

theorem removeDependency_run (eventBus : Bool) (data : RemoveDependencyRequest) (w : World) :
    RemoveDependencyOutcome eventBus data w ((removeDependency eventBus data).run w).1
      ((removeDependency eventBus data).run w).2 := by
  cases hedge : w.db.selectEdge data.productId data.fromComponentId data.toComponentId with
  | nil =>
    have hrun : (removeDependency eventBus data).run w = (.error (dependencyNotFound data), w) := by
      simp [removeDependency, hedge]
    rw [hrun]
    exact .unknown hedge
  | cons edge rest =>
    have hmem : edge ∈ w.db.selectEdge data.productId data.fromComponentId data.toComponentId := by
      rw [hedge]
      exact List.mem_cons_self
    obtain ⟨hrow, hkey⟩ := List.mem_filter.mp hmem
    have hrun : (removeDependency eventBus data).run w = (.ok ⟨⟩, ⟨w.db.deleteDependency edge.id,
        w.published ++ if eventBus then [dependencyRemoved data edge.id] else []⟩) := by
      simp [removeDependency, hedge]
    rw [hrun]
    exact .removed hrow (of_decide_eq_true hkey)

end LavsCore
