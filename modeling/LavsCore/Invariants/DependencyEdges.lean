import LavsCore.Invariants.Growth

/-!
# The dependency graph of a product

`SoundEdges` is what the guards of an addition keep: no cycle, no self-edge, no
duplicate, and endpoints that are components of the product. It holds of every product in
every reachable store (`soundGraph_run`), and the guards reject exactly the edges that
would break it (`edgeAccepted_iff`). `dependency_graph_guard` is the whole statement.
-/

namespace LavsCore

open Store GrowthLemmas

/-- The edges are a well-formed dependency graph on the components of the product. -/
structure SoundEdges (db : Store) (productId : String) (edges : List (String × String)) :
    Prop where
  acyclic : EdgeList.Acyclic edges
  notSelf : ∀ e ∈ edges, e.1 ≠ e.2
  nodup : edges.Nodup
  endpoints : ∀ e ∈ edges, db.OwnsComponent productId e.1 ∧ db.OwnsComponent productId e.2

/-- Every product has a well-formed dependency graph. -/
def Store.SoundGraph (db : Store) : Prop := ∀ productId, SoundEdges db productId (db.edges productId)

namespace DependencyEdgesLemmas

variable {db db' : Store} {productId : String} {edges : List (String × String)}

theorem soundEdges_nil : SoundEdges db productId [] :=
  ⟨EdgeList.acyclic_nil, by simp, List.nodup_nil, by simp⟩

/-- More components break no graph. -/
theorem soundEdges_of_extends (h : db.Extends db') (hs : SoundEdges db productId edges) :
    SoundEdges db' productId edges where
  acyclic := hs.acyclic
  notSelf := hs.notSelf
  nodup := hs.nodup
  endpoints e he :=
    ⟨h.ownsComponent (hs.endpoints e he).1, h.ownsComponent (hs.endpoints e he).2⟩

/-- Fewer edges are well-formed too. -/
theorem soundEdges_sublist {edges' : List (String × String)} (h : edges'.Sublist edges)
    (hs : SoundEdges db productId edges) : SoundEdges db productId edges' where
  acyclic := hs.acyclic.mono fun _ he => h.subset he
  notSelf e he := hs.notSelf e (h.subset he)
  nodup := hs.nodup.sublist h
  endpoints e he := hs.endpoints e (h.subset he)

theorem edges_of_eq (h : db'.dependencies = db.dependencies) (productId : String) :
    db'.edges productId = db.edges productId := by
  rw [Store.edges, h]
  rfl

theorem edges_insert {row : DependencyRow} (h : DependencyInserted db row db')
    (productId : String) :
    db'.edges productId =
      db.edges productId ++ if row.productId = productId then [row.edge] else [] := by
  rw [Store.edges, h.rows, List.filter_append, List.map_append]
  split
  · next hp => simp [Store.edges, hp]
  · next hp => simp [Store.edges, hp]

theorem edges_delete (db : Store) (id productId : String) :
    ((db.deleteDependency id).edges productId).Sublist (db.edges productId) :=
  (List.filter_sublist.filter _).map _

/-- The edge query answers the rows whose edge is in the graph of the product. -/
theorem selectEdge_eq_nil_iff {fromComponentId toComponentId : String} :
    db.selectEdge productId fromComponentId toComponentId = [] ↔
      (fromComponentId, toComponentId) ∉ db.edges productId := by
  rw [Store.selectEdge, List.filter_eq_nil_iff, Store.edges, List.mem_map]
  simp only [List.mem_filter, decide_eq_true_eq, not_exists, not_and, and_imp, DependencyRow.key,
    DependencyRow.edge, Prod.mk.injEq]

end DependencyEdgesLemmas

open DependencyEdgesLemmas

/-- Where the graph is well-formed, the guards accept exactly the edges that keep it so. -/
theorem edgeAccepted_iff {db : Store} {data : CreateDependencyRequest}
    (hs : SoundEdges db data.productId (db.edges data.productId))
    (hproduct : data.productId ∈ db.products.keys) :
    EdgeAccepted db data ↔ SoundEdges db data.productId
      (db.edges data.productId ++ [(data.fromComponentId, data.toComponentId)]) := by
  have hcycle := would_create_cycle_iff hs.acyclic data.fromComponentId data.toComponentId
  constructor
  · intro h
    have hnew : (data.fromComponentId, data.toComponentId) ∉ db.edges data.productId :=
      selectEdge_eq_nil_iff.mp h.notDuplicate
    refine ⟨?_, ?_, ?_, ?_⟩
    · by_contra hac
      rw [h.noCycle] at hcycle
      cases hcycle.mpr hac
    · intro e he
      rcases List.mem_append.mp he with he | he
      · exact hs.notSelf e he
      · exact List.mem_singleton.mp he ▸ h.notSelf
    · rw [List.nodup_append]
      refine ⟨hs.nodup, List.nodup_singleton _, ?_⟩
      rintro e he _ he' rfl
      exact hnew (List.mem_singleton.mp he' ▸ he)
    · intro e he
      rcases List.mem_append.mp he with he | he
      · exact hs.endpoints e he
      · exact List.mem_singleton.mp he ▸ ⟨h.source, h.target⟩
  · intro h
    have hlast : (data.fromComponentId, data.toComponentId) ∈
        db.edges data.productId ++ [(data.fromComponentId, data.toComponentId)] :=
      List.mem_append_right _ List.mem_cons_self
    refine ⟨hproduct, (h.endpoints _ hlast).1, (h.endpoints _ hlast).2, h.notSelf _ hlast, ?_, ?_⟩
    · rw [selectEdge_eq_nil_iff]
      have hnodup := h.nodup
      rw [List.nodup_append] at hnodup
      exact fun hmem => hnodup.2.2 _ hmem _ List.mem_cons_self rfl
    · rw [← Bool.not_eq_true, hcycle, not_not]
      exact h.acyclic

theorem soundGraph_step {db db' : Store} {ok : Prop} {env : Env} (hinv : db.SoundGraph)
    (h : Change ok env db db') : db'.SoundGraph := by
  have hext := extends_step h
  have hsame : db'.dependencies = db.dependencies → db'.SoundGraph := by
    intro heq p
    rw [edges_of_eq heq]
    exact soundEdges_of_extends hext (hinv p)
  cases h with
  | unchanged => exact hinv
  | product _ hinsert => exact hsame (insertProduct_ok hinsert).dependencies
  | component hinsert => exact hsame (insertComponent_ok hinsert).dependencies
  | superseded _ _ => exact hsame rfl
  | version _ hinsert => exact hsame (insertVersion_ok hinsert).dependencies
  | rollback _ _ _ => exact hsame rfl
  | @dependency data _ haccepted hinsert =>
    intro p
    have hi := insertDependency_ok hinsert
    rw [edges_insert hi]
    refine soundEdges_of_extends hext ?_
    split
    · next hp =>
      subst hp
      exact (edgeAccepted_iff (hinv data.productId) haccepted.product).mp haccepted
    · rw [List.append_nil]
      exact hinv p
  | removal id =>
    exact fun p => soundEdges_sublist (edges_delete db id p) (soundEdges_of_extends hext (hinv p))
  | cut _ _ _ hinsert _ _ hmanifest =>
    exact hsame (cut_frame hinsert hmanifest).2.2.2.1

theorem soundGraph_empty : Store.empty.SoundGraph := fun _ => soundEdges_nil

theorem soundGraph_run {w : World} (h : w.db.SoundGraph) (requests : List Request) :
    (run w requests).db.SoundGraph :=
  run_invariant (fun _ _ _ => soundGraph_step) h requests

/-- An addition succeeds exactly when its guards accept the edge, if the id it mints is
new. -/
theorem addDependency_ok_iff {eventBus : Bool} {data : CreateDependencyRequest} {env : Env}
    {w : World} (hfresh : env.ulid ∉ w.db.dependencies.keys) :
    (∃ m, ((addDependency eventBus data env).run w).1 = .ok m) ↔ EdgeAccepted w.db data := by
  generalize hanswer : ((addDependency eventBus data env).run w).1 = answer
  obtain ⟨w', _, hrun⟩ := Prog.exists_outcome (addDependency_run eventBus data env w) hanswer
  cases hrun with
  | rejected hnot _ => exact iff_of_false (by rintro ⟨m, ⟨⟩⟩) hnot
  | added haccepted _ => exact iff_of_true ⟨_, rfl⟩ haccepted
  | refused haccepted hinsert =>
    have hknown : ∀ {id : String}, w.db.OwnsComponent data.productId id →
        id ∈ w.db.components.keys := by
      rintro _ ⟨c, hc, rfl, _⟩
      exact Table.key_mem_keys hc
    have hkey : (newDependencyRow data env).key ∉ w.db.dependencies.rows.map DependencyRow.key := by
      intro hmem
      obtain ⟨d, hd, hdkey⟩ := List.mem_map.mp hmem
      have hfound : d ∈ w.db.selectEdge data.productId data.fromComponentId data.toComponentId :=
        List.mem_filter.mpr ⟨hd, decide_eq_true hdkey⟩
      rw [haccepted.notDuplicate] at hfound
      exact absurd hfound List.not_mem_nil
    obtain ⟨db, hok⟩ := insertDependency_isOk (newDependencyRow data env) hfresh hkey
      haccepted.product (hknown haccepted.source) (hknown haccepted.target)
    cases hinsert.symm.trans hok

/-- A failed addition changes nothing and publishes nothing. -/
theorem addDependency_error {eventBus : Bool} {data : CreateDependencyRequest} {env : Env}
    {w : World} {error : ApiError} (h : ((addDependency eventBus data env).run w).1 = .error error) :
    ((addDependency eventBus data env).run w).2 = w := by
  obtain ⟨w', hw', hrun⟩ := Prog.exists_outcome (addDependency_run eventBus data env w) h
  rw [hw']
  cases hrun with
  | rejected _ _ => rfl
  | refused _ _ => rfl

/-- A failed removal changes nothing and publishes nothing. -/
theorem removeDependency_error {eventBus : Bool} {data : RemoveDependencyRequest} {w : World}
    {error : ApiError} (h : ((removeDependency eventBus data).run w).1 = .error error) :
    ((removeDependency eventBus data).run w).2 = w := by
  obtain ⟨w', hw', hrun⟩ := Prog.exists_outcome (removeDependency_run eventBus data w) h
  rw [hw']
  cases hrun with
  | unknown _ => rfl

/-- An addition that succeeds appends the row of its edge, and changes nothing else. -/
theorem addDependency_inserted {eventBus : Bool} {data : CreateDependencyRequest} {env : Env}
    {w : World} {m : DependencyResponseModel}
    (h : ((addDependency eventBus data env).run w).1 = .ok m) :
    DependencyInserted w.db (newDependencyRow data env)
      ((addDependency eventBus data env).run w).2.db := by
  obtain ⟨w', hw', hrun⟩ := Prog.exists_outcome (addDependency_run eventBus data env w) h
  rw [hw']
  cases hrun with
  | added _ hinsert => exact insertDependency_ok hinsert

/-- A removal that succeeds deletes the row of its edge, and changes nothing else. -/
theorem removeDependency_deleted {eventBus : Bool} {data : RemoveDependencyRequest} {w : World}
    {answer : PUnit} (h : ((removeDependency eventBus data).run w).1 = .ok answer) :
    ∃ edge ∈ w.db.dependencies.rows,
      edge.key = (data.productId, data.fromComponentId, data.toComponentId) ∧
        DependencyDeleted w.db edge ((removeDependency eventBus data).run w).2.db := by
  obtain ⟨w', hw', hrun⟩ := Prog.exists_outcome (removeDependency_run eventBus data w) h
  rw [hw']
  cases hrun with
  | @removed edge hrow hkey => exact ⟨edge, hrow, hkey, rfl, rfl, rfl, rfl, rfl, rfl⟩

/-- In every reachable store the edges of every product are well-formed; an addition for a
known product and known components succeeds exactly if the edges with the new one are
still well-formed; a failed addition or removal leaves the store and the published events
as they were; and a successful one appends, or deletes, the row of its edge and nothing else.
The id that an addition mints is taken to be new. -/
theorem dependency_graph_guard (requests : List Request) :
    let w := run World.init requests
    (∀ productId, SoundEdges w.db productId (w.db.edges productId)) ∧
      (∀ (eventBus : Bool) (data : CreateDependencyRequest) (env : Env),
        data.productId ∈ w.db.products.keys → data.fromComponentId ∈ w.db.components.keys →
        data.toComponentId ∈ w.db.components.keys → env.ulid ∉ w.db.dependencies.keys →
          ((∃ m, ((addDependency eventBus data env).run w).1 = .ok m) ↔
            SoundEdges w.db data.productId
              (w.db.edges data.productId ++ [(data.fromComponentId, data.toComponentId)]))) ∧
      (∀ (eventBus : Bool) (data : CreateDependencyRequest) (env : Env) (error : ApiError),
        ((addDependency eventBus data env).run w).1 = .error error →
          ((addDependency eventBus data env).run w).2 = w) ∧
      (∀ (eventBus : Bool) (data : RemoveDependencyRequest) (error : ApiError),
        ((removeDependency eventBus data).run w).1 = .error error →
          ((removeDependency eventBus data).run w).2 = w) ∧
      (∀ (eventBus : Bool) (data : CreateDependencyRequest) (env : Env)
          (m : DependencyResponseModel), ((addDependency eventBus data env).run w).1 = .ok m →
        DependencyInserted w.db (newDependencyRow data env)
          ((addDependency eventBus data env).run w).2.db) ∧
      ∀ (eventBus : Bool) (data : RemoveDependencyRequest) (answer : PUnit),
        ((removeDependency eventBus data).run w).1 = .ok answer →
          ∃ edge ∈ w.db.dependencies.rows,
            edge.key = (data.productId, data.fromComponentId, data.toComponentId) ∧
              DependencyDeleted w.db edge ((removeDependency eventBus data).run w).2.db := by
  intro w
  have hsound : w.db.SoundGraph := soundGraph_run soundGraph_empty requests
  refine ⟨hsound, ?_, fun _ _ _ _ => addDependency_error, fun _ _ _ => removeDependency_error,
    fun _ _ _ _ => addDependency_inserted, fun _ _ _ => removeDependency_deleted⟩
  intro eventBus data env hproduct _ _ hfresh
  rw [addDependency_ok_iff hfresh, edgeAccepted_iff (hsound data.productId) hproduct]

/-- The edge `api → web` is accepted in a store without edges. -/
theorem dependency_graph_guard_sample :
    SoundEdges (run World.init Sample.setup).db (Sample.id 10)
        ((run World.init Sample.setup).db.edges (Sample.id 10) ++
          [(Sample.id 11, Sample.id 12)]) := by
  have hguard := (dependency_graph_guard Sample.setup).2.1 true
    ⟨Sample.id 10, Sample.id 11, Sample.id 12⟩ (Sample.env 40) (by decide +kernel)
    (by decide +kernel) (by decide +kernel) (by decide +kernel)
  exact hguard.mp ⟨⟨Sample.id 40, Sample.id 10, Sample.id 11, Sample.id 12,
    "2026-06-29T12:00:00.000040"⟩, by decide +kernel⟩

end LavsCore
