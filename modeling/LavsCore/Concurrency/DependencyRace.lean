import LavsCore.Concurrency.Effects
import LavsCore.Concurrency.Refusals
import LavsCore.Invariants.DependencyEdges

/-!
# Edges that are added at the same time

An addition looks for a path back and inserts its edge in the next statement. Two additions
that both have looked before either inserts can close a cycle together
(`cycle_of_two_additions`).

`dependency_graph_interleaved`: among any calls, in any interleaving, every edge joins two
different components of its product, and no edge is there twice. The graphs stay acyclic if no
edge is inserted while another addition to the product stands before its insertion.
-/

namespace LavsCore

open Store GrowthLemmas DependencyEdgesLemmas Query

/-- The product that a call adds an edge to. -/
def Call.addsTo : Call → Option String
  | .addDependency _ data => some data.productId
  | _ => none

/-- The product that call `i` adds an edge to. -/
def addedTo (requests : List Request) (i : Nat) : Option String :=
  requests[i]?.bind fun r => r.1.addsTo

/-- The next step of call `i` inserts an edge only if no other addition to the same product has
searched the graph and not yet inserted its own. -/
def AddsAlone (requests : List Request) (c : Servers Response) (i : Nat) : Prop :=
  c.label i = some .insertEdge → ∀ j < c.procs.length, j ≠ i → c.label j = some .insertEdge →
    addedTo requests j ≠ addedTo requests i

instance (requests : List Request) (c : Servers Response) (i : Nat) :
    Decidable (AddsAlone requests c i) :=
  inferInstanceAs (Decidable (_ → _))

/-! ## The protocol of an addition -/

/-- Where a call stands: it has found some components in the product, its edge has passed the
guards, or it adds no edge any more. -/
inductive EdgePhase where
  | checking (productId : String) (owned : List String)
  | accepted (data : CreateDependencyRequest)
  | other

def Call.edgePhase : Call → EdgePhase
  | .addDependency _ data => .checking data.productId []
  | _ => .other

/-- The product that a phase is about. -/
def EdgePhase.product : EdgePhase → Option String
  | .checking productId _ => some productId
  | .accepted data => some data.productId
  | .other => none

/-- The steps of a call, with what they do to the edges. -/
inductive EdgeStep : EdgePhase → Sql → World → EdgePhase → World → Prop
  | quiet {q : EdgePhase} {l : Sql} {w w' : World} (hq : ∀ data, q ≠ .accepted data)
      (hl : l ≠ .insertEdge) (hedges : w'.db.dependencies = w.db.dependencies)
      (hcomponents : w.db.components.rows <+: w'.db.components.rows) : EdgeStep q l w q w'
  | delete (w : World) (id : String) :
      EdgeStep .other .deleteEdge w .other { w with db := w.db.deleteDependency id }
  | owns {w : World} {productId c : String} (owned : List String)
      (howns : w.db.OwnsComponent productId c) :
      EdgeStep (.checking productId owned) .selectComponent w (.checking productId (c :: owned)) w
  | accepts {w : World} {data : CreateDependencyRequest} {owned : List String}
      (hfrom : data.fromComponentId ∈ owned) (hto : data.toComponentId ∈ owned)
      (hne : data.fromComponentId ≠ data.toComponentId)
      (hcycle : wouldCreateCycle (w.db.edges data.productId) data.fromComponentId
        data.toComponentId = false) :
      EdgeStep (.checking data.productId owned) .selectEdges w (.accepted data) w
  | insert {w : World} {data : CreateDependencyRequest} {env : Env} {db : Store}
      (hinsert : w.db.insertDependency (newDependencyRow data env) = .ok db) :
      EdgeStep (.accepted data) .insertEdge w .other { w with db := db }
  | refused (w : World) (data : CreateDependencyRequest) :
      EdgeStep (.accepted data) .insertEdge w .other w

/-- A call ends once it adds no edge any more. -/
def EdgeEnd {α : Type} (q : EdgePhase) (_ : α) : Prop := q = .other

/-- The call keeps to the protocol from the phase on. -/
abbrev FollowsEdges {α : Type} (p : Query α) (q : EdgePhase) : Prop :=
  p.Follows EdgeStep (fun _ => True) EdgeEnd q

namespace DependencyRaceLemmas

variable {α : Type}

/-- A statement that only reads keeps the phase. -/
theorem stays_read {q : EdgePhase} (hq : ∀ data, q ≠ .accepted data) {l : Sql}
    (hl : l ≠ .insertEdge) (f : Store → α) :
    (select l f).Stays EdgeStep (fun _ => True) q :=
  stays_select fun _ _ => .quiet hq hl rfl (List.prefix_refl _)

theorem other_ne (data : CreateDependencyRequest) : EdgePhase.other ≠ .accepted data := by
  rintro ⟨⟩

theorem checking_ne (productId : String) (owned : List String) (data : CreateDependencyRequest) :
    EdgePhase.checking productId owned ≠ .accepted data := by
  rintro ⟨⟩

/-- The effects of a call that neither adds nor removes an edge. -/
theorem quiet_of_effect {writes : List Sql} (hinsert : Sql.insertEdge ∉ writes)
    (hdelete : Sql.deleteEdge ∉ writes) {l : Sql} {w w' : World} (h : EffectOf writes l w w') :
    EdgeStep .other l w .other w' := by
  have hquiet : ∀ {l : Sql} {w w' : World}, l ≠ .insertEdge →
      w'.db.dependencies = w.db.dependencies → w.db.components.rows <+: w'.db.components.rows →
        EdgeStep .other l w .other w' := fun hl hedges hcomponents =>
    .quiet other_ne hl hedges hcomponents
  rcases h with ⟨hread, rfl⟩ | ⟨hmem, heffect⟩
  · refine hquiet ?_ rfl (List.prefix_refl _)
    rintro rfl
    cases hread
  have hl : l ≠ .insertEdge := fun heq => hinsert (heq ▸ hmem)
  cases heffect with
  | same _ _ => exact hquiet hl rfl (List.prefix_refl _)
  | insertProduct h =>
    have hi := insertProduct_ok h
    exact hquiet hl hi.dependencies (prefix_of_eq (congrArg _ hi.components))
  | insertComponent h =>
    have hi := insertComponent_ok h
    exact hquiet hl hi.dependencies (prefix_of_append hi.rows)
  | supersedeActive _ _ => exact hquiet hl rfl (List.prefix_refl _)
  | markStatus _ _ _ => exact hquiet hl rfl (List.prefix_refl _)
  | insertVersion h =>
    have hi := insertVersion_ok h
    exact hquiet hl hi.dependencies (prefix_of_eq (congrArg _ hi.components))
  | insertEdge _ => exact absurd rfl hl
  | deleteEdge _ _ => exact absurd hmem hdelete
  | insertRelease h =>
    have hi := insertRelease_ok h
    exact hquiet hl hi.dependencies (prefix_of_eq (congrArg _ hi.components))
  | insertReleaseComponent h =>
    have hi := insertReleaseComponent_ok h
    exact hquiet hl hi.dependencies (prefix_of_eq (congrArg _ hi.components))
  | publish _ _ => exact hquiet hl rfl (List.prefix_refl _)

theorem stays_event (eventBus : Bool) (event : DomainEvent) :
    (publish eventBus event).Stays EdgeStep (fun _ => True) .other :=
  stays_publish fun _ _ => .quiet other_ne (by decide) rfl (List.prefix_refl _)

/-- A component that is found joins the ones that are owned. -/
theorem assertComponent_follows (productId componentId : String) (owned : List String) :
    (assertComponent productId componentId).Follows EdgeStep (fun _ => True)
      (fun q _ => q = .checking productId (componentId :: owned)) (.checking productId owned) := by
  unfold assertComponent
  refine Prog.follows_bind
    (M := fun q rows => (∃ c rest, rows = c :: rest ∧ c.productId = productId ∧
        q = .checking productId (componentId :: owned)) ∨
      ∀ c rest, rows = c :: rest → c.productId ≠ productId) (follows_select ?_) ?_
  · intro w _
    cases hlookup : w.db.components.lookup componentId with
    | nil =>
      exact ⟨_, .quiet (checking_ne productId owned) (by decide) rfl (List.prefix_refl _),
        Or.inr (by simp)⟩
    | cons c rest =>
      obtain ⟨hc, hid⟩ := RefusalsLemmas.lookup_cons hlookup
      by_cases hproduct : c.productId = productId
      · exact ⟨_, .owns owned ⟨c, hc, hid, hproduct⟩, Or.inl ⟨c, rest, rfl, hproduct, rfl⟩⟩
      · refine ⟨_, .quiet (checking_ne productId owned) (by decide) rfl (List.prefix_refl _),
          Or.inr ?_⟩
        rintro _ _ ⟨⟩
        exact hproduct
  · rintro q rows (⟨c, rest, rfl, hproduct, rfl⟩ | hother)
    · simp only [hproduct, ne_eq, not_true_eq_false, decide_false]
      rfl
    · cases rows with
      | nil => exact Prog.follows_raise _ _
      | cons c rest =>
        simp only [ne_eq, hother c rest rfl, not_false_eq_true, decide_true]
        exact Prog.follows_raise _ _

theorem addDependency_follows (eventBus : Bool) (data : CreateDependencyRequest) (env : Env) :
    FollowsEdges (addDependency eventBus data env) (.checking data.productId []) := by
  unfold addDependency
  refine (stays_read (checking_ne _ _) (by decide) _).bind fun product => ?_
  refine (stays_refuseIf _ _).bind fun _ => ?_
  refine Prog.follows_bind (assertComponent_follows _ _ _) ?_
  rintro q _ rfl
  refine Prog.follows_bind (assertComponent_follows _ _ _) ?_
  rintro q _ rfl
  by_cases hself : data.fromComponentId = data.toComponentId
  · simp only [hself, decide_true]
    exact Prog.follows_raise _ _
  simp only [hself, decide_false]
  refine (stays_refuseIf false _).bind fun _ => ?_
  refine (stays_read (checking_ne _ _) (by decide) _).bind fun duplicate => ?_
  refine (stays_refuseIf _ _).bind fun _ => ?_
  refine Prog.follows_bind
    (M := fun q edges => wouldCreateCycle edges data.fromComponentId data.toComponentId = false →
      q = .accepted data) (follows_select ?_) ?_
  · intro w _
    cases hcycle : wouldCreateCycle (w.db.edges data.productId) data.fromComponentId
      data.toComponentId with
    | false => exact ⟨_, .accepts (by simp) (by simp) hself hcycle, fun _ => rfl⟩
    | true =>
      refine ⟨_, .quiet (checking_ne _ _) (by decide) rfl (List.prefix_refl _), ?_⟩
      rintro ⟨⟩
  · intro q edges hq
    cases hcycle : wouldCreateCycle edges data.fromComponentId data.toComponentId with
    | true => exact Prog.follows_raise _ _
    | false =>
      rw [hq hcycle]
      refine (stays_refuseIf false _).bind fun _ => ?_
      refine Prog.follows_bind (M := fun q _ => q = .other) (follows_insert ?_ ?_) ?_
      · exact fun w db _ hinsert => ⟨.other, .insert hinsert, rfl⟩
      · exact fun w _ => ⟨.other, .refused w data⟩
      · rintro q _ rfl
        refine (stays_read other_ne (by decide) _).bind ?_
        rintro (_ | ⟨row, rest⟩)
        · exact Prog.follows_raise _ _
        · exact (stays_event _ _).bind fun _ => rfl

theorem removeDependency_follows (eventBus : Bool) (data : RemoveDependencyRequest) :
    FollowsEdges (removeDependency eventBus data) .other := by
  unfold removeDependency
  refine (stays_read other_ne (by decide) _).bind ?_
  rintro (_ | ⟨edge, rest⟩)
  · exact Prog.follows_raise _ _
  · refine Prog.follows_bind (follows_execute fun w _ => .delete w edge.id) ?_
    rintro q _ rfl
    exact stays_event _ _

theorem program_follows (r : Request) : FollowsEdges (r.1.program r.2) r.1.edgePhase := by
  have hwrap : ∀ {α : Type} (f : α → Response) {p : Query α} {q : EdgePhase},
      FollowsEdges p q → FollowsEdges (f <$> p) q :=
    fun f _ _ hp => Prog.follows_bind hp fun _ _ hq => hq
  have hquiet : r.1.edgePhase = .other → Sql.insertEdge ∉ r.1.writes →
      Sql.deleteEdge ∉ r.1.writes → FollowsEdges (r.1.program r.2) r.1.edgePhase := by
    intro hphase hinsert hdelete
    rw [hphase]
    exact (program_effects r).follows (fun _ _ _ => quiet_of_effect hinsert hdelete) fun _ => rfl
  obtain ⟨call, env⟩ := r
  cases call with
  | createProduct data => exact hquiet rfl (by simp [Call.writes]) (by simp [Call.writes])
  | createComponent data => exact hquiet rfl (by simp [Call.writes]) (by simp [Call.writes])
  | createVersion eventBus data => exact hquiet rfl (by simp [Call.writes]) (by simp [Call.writes])
  | rollbackVersion eventBus data =>
    exact hquiet rfl (by simp [Call.writes]) (by simp [Call.writes])
  | addDependency eventBus data => exact hwrap _ (addDependency_follows eventBus data env)
  | removeDependency eventBus data => exact hwrap _ (removeDependency_follows eventBus data)
  | cutRelease data => exact hquiet rfl (by simp [Call.writes]) (by simp [Call.writes])

end DependencyRaceLemmas

/-! ## What holds in each phase -/

/-- What a call relies on: it owns the components that it has found, and if edges are added
`alone`, its edge still closes no cycle. -/
def EdgePhase.Holds (alone : Prop) : EdgePhase → World → Prop
  | .checking productId owned, w => ∀ c ∈ owned, w.db.OwnsComponent productId c
  | .accepted data, w =>
    w.db.OwnsComponent data.productId data.fromComponentId ∧
      w.db.OwnsComponent data.productId data.toComponentId ∧
      data.fromComponentId ≠ data.toComponentId ∧
      (alone → ¬ EdgeList.Reach (w.db.edges data.productId) data.toComponentId
        data.fromComponentId)
  | .other, _ => True

/-- Every edge joins two different components of its product, and if edges are added `alone`,
there is no cycle. -/
structure Store.JoinsComponents (alone : Prop) (db : Store) : Prop where
  notSelf : ∀ productId, ∀ e ∈ db.edges productId, e.1 ≠ e.2
  endpoints : ∀ productId, ∀ e ∈ db.edges productId,
    db.OwnsComponent productId e.1 ∧ db.OwnsComponent productId e.2
  acyclic : alone → ∀ productId, EdgeList.Acyclic (db.edges productId)

namespace DependencyRaceLemmas

variable {alone : Prop} {w w' : World} {q q' r : EdgePhase} {l : Sql}

/-- The unique key of the table. -/
theorem edges_nodup (db : Store) (productId : String) : (db.edges productId).Nodup := by
  have hkeys : ((db.dependencies.rows.filter fun d => d.productId = productId).map
      DependencyRow.key).Nodup :=
    db.dependency_unique.sublist (List.filter_sublist.map _)
  refine List.Nodup.map_on ?_ hkeys.of_map
  intro d hd d' hd' hedge
  have hproduct : d.productId = d'.productId := by
    rw [of_decide_eq_true (List.mem_filter.mp hd).2, of_decide_eq_true (List.mem_filter.mp hd').2]
  refine List.inj_on_of_nodup_map hkeys hd hd' ?_
  simp only [DependencyRow.edge, Prod.mk.injEq] at hedge
  simp only [DependencyRow.key, hproduct, hedge]

theorem ownsComponent_kept (h : w.db.components.rows <+: w'.db.components.rows)
    {productId c : String} (hc : w.db.OwnsComponent productId c) :
    w'.db.OwnsComponent productId c := by
  obtain ⟨row, hrow, hid, hproduct⟩ := hc
  exact ⟨row, h.subset hrow, hid, hproduct⟩

theorem step_components (h : EdgeStep q l w q' w') :
    w.db.components.rows <+: w'.db.components.rows := by
  cases h with
  | quiet _ _ _ hcomponents => exact hcomponents
  | delete _ _ => exact List.prefix_refl _
  | owns _ _ => exact List.prefix_refl _
  | accepts _ _ _ _ => exact List.prefix_refl _
  | insert hinsert => exact prefix_of_eq (congrArg _ (insertDependency_ok hinsert).components)
  | refused _ _ => exact List.prefix_refl _

/-- A step adds the accepted edge, or it adds none. -/
theorem step_edges (h : EdgeStep q l w q' w') :
    (∃ data, q = .accepted data ∧ l = .insertEdge ∧ ∀ productId, w'.db.edges productId =
      w.db.edges productId ++ if data.productId = productId then
        [(data.fromComponentId, data.toComponentId)] else []) ∨
      ∀ productId, (w'.db.edges productId).Sublist (w.db.edges productId) := by
  cases h with
  | quiet _ _ hedges _ => exact Or.inr fun productId => edges_of_eq hedges productId ▸ .refl _
  | delete w id => exact Or.inr (edges_delete w.db id)
  | owns _ _ => exact Or.inr fun _ => .refl _
  | accepts _ _ _ _ => exact Or.inr fun _ => .refl _
  | @insert _ data env _ hinsert =>
    exact Or.inl ⟨data, rfl, rfl, edges_insert (insertDependency_ok hinsert)⟩
  | refused _ _ => exact Or.inr fun _ => .refl _

theorem not_reach_of_sublist {edges edges' : List (String × String)} (h : edges'.Sublist edges)
    {a b : String} (hnot : ¬ EdgeList.Reach edges a b) : ¬ EdgeList.Reach edges' a b :=
  fun hreach => hnot (Relation.ReflTransGen.mono (fun _ _ he => h.subset he) a b hreach)

/-- An accepted edge joins components, and closes no cycle if it has been added alone. -/
theorem step_joins (h : EdgeStep q l w q' w') (hq : q.Holds alone w)
    (hinv : w.db.JoinsComponents alone) : w'.db.JoinsComponents alone := by
  have hcomponents := step_components h
  rcases step_edges h with ⟨data, rfl, -, hedges⟩ | hfewer
  · obtain ⟨hfrom, hto, hne, hcycle⟩ := hq
    refine ⟨?_, ?_, ?_⟩
    · intro productId e he
      rw [hedges, List.mem_append] at he
      rcases he with he | he
      · exact hinv.notSelf productId e he
      · split at he
        · rw [List.mem_singleton.mp he]
          exact hne
        · exact absurd he List.not_mem_nil
    · intro productId e he
      rw [hedges, List.mem_append] at he
      rcases he with he | he
      · exact (hinv.endpoints productId e he).imp (ownsComponent_kept hcomponents)
          (ownsComponent_kept hcomponents)
      · split at he
        · next hproduct =>
          rw [List.mem_singleton.mp he, ← hproduct]
          exact ⟨ownsComponent_kept hcomponents hfrom, ownsComponent_kept hcomponents hto⟩
        · exact absurd he List.not_mem_nil
    · intro halone productId
      rw [hedges]
      split
      · next hproduct =>
        subst hproduct
        exact (EdgeList.acyclic_append_iff (hinv.acyclic halone _) _ _).mpr (hcycle halone)
      · rw [List.append_nil]
        exact hinv.acyclic halone productId
  · refine ⟨?_, ?_, ?_⟩
    · exact fun productId e he => hinv.notSelf productId e ((hfewer productId).subset he)
    · intro productId e he
      exact (hinv.endpoints productId e ((hfewer productId).subset he)).imp
        (ownsComponent_kept hcomponents) (ownsComponent_kept hcomponents)
    · intro halone productId
      exact (hinv.acyclic halone productId).mono fun _ he => (hfewer productId).subset he

/-- What a phase relies on is not lost, unless another edge is added to its product. -/
theorem holds_step (h : EdgeStep q l w q' w') (hr : r.Holds alone w)
    (halone : ∀ data data', q = .accepted data → l = .insertEdge → r = .accepted data' → alone →
      data.productId ≠ data'.productId) : r.Holds alone w' := by
  have hcomponents := step_components h
  cases r with
  | other => trivial
  | checking productId owned =>
    exact fun c hc => ownsComponent_kept hcomponents (hr c hc)
  | accepted data' =>
    obtain ⟨hfrom, hto, hne, hcycle⟩ := hr
    refine ⟨ownsComponent_kept hcomponents hfrom, ownsComponent_kept hcomponents hto, hne,
      fun hal => ?_⟩
    rcases step_edges h with ⟨data, hq, hl, hedges⟩ | hfewer
    · rw [hedges, if_neg (halone data data' hq hl rfl hal), List.append_nil]
      exact hcycle hal
    · exact not_reach_of_sublist (hfewer _) (hcycle hal)

/-- A step enters its next phase with what holds there. -/
theorem step_enters (h : EdgeStep q l w q' w') (hq : q.Holds alone w) : q'.Holds alone w' := by
  cases h with
  | quiet hnot hl hedges hcomponents =>
    refine holds_step (.quiet hnot hl hedges hcomponents) hq ?_
    exact fun data _ heq => absurd heq (hnot data)
  | delete _ _ => trivial
  | owns owned howns =>
    intro c hc
    rcases List.mem_cons.mp hc with rfl | hc
    · exact howns
    · exact hq c hc
  | accepts hfrom hto hne hcycle =>
    refine ⟨hq _ hfrom, hq _ hto, hne, fun _ hreach => ?_⟩
    rw [wouldCreateCycle, (is_reachable_iff _ _ _).mpr hreach] at hcycle
    cases hcycle
  | insert _ => trivial
  | refused _ _ => trivial

/-- A call does not change the product that it adds to. -/
theorem step_product (h : EdgeStep q l w q' w') : q'.product = q.product ∨ q'.product = none := by
  cases h with
  | quiet _ _ _ _ => exact Or.inl rfl
  | delete _ _ => exact Or.inl rfl
  | owns _ _ => exact Or.inl rfl
  | accepts _ _ _ _ => exact Or.inl rfl
  | insert _ => exact Or.inr rfl
  | refused _ _ => exact Or.inr rfl

/-- The next step of an accepted addition is its insertion. -/
theorem label_of_accepted {c : Servers Response} {phases : List (Option EdgePhase)}
    (hc : c.InPhases EdgeStep (fun _ => True) EdgeEnd phases) {j : Nat}
    {data : CreateDependencyRequest} (hj : phases[j]? = some (some (.accepted data))) :
    j < c.procs.length ∧ c.label j = some .insertEdge := by
  obtain ⟨hlt, l, q', w', hlabel, hstep⟩ := hc.label_of_phase trivial hj (by rintro _ ⟨⟩)
  refine ⟨hlt, ?_⟩
  cases hstep with
  | quiet hnot _ _ _ => exact absurd rfl (hnot data)
  | insert _ => exact hlabel
  | refused _ _ => exact hlabel

/-- The invariant of the store and the phases. -/
def EdgesInv (requests : List Request) (alone : Prop) (w : World)
    (phases : List (Option EdgePhase)) : Prop :=
  w.db.JoinsComponents alone ∧ ∀ (j : Nat) r, phases[j]? = some (some r) →
    r.Holds alone w ∧ ∀ productId, r.product = some productId → addedTo requests j = some productId

/-- The calls start with what their phases rely on. -/
theorem start_edgesInv (requests : List Request) (hw : w.db.JoinsComponents alone) :
    ∃ phases, (Call.start w requests).InPhases EdgeStep (fun _ => True) EdgeEnd phases ∧
      EdgesInv requests alone w phases := by
  obtain ⟨phases, hphases, hall⟩ :=
    Config.exists_inPhases_map w fun r (_ : r ∈ requests) => program_follows r
  refine ⟨phases, hphases, hw, fun j r hj => ?_⟩
  obtain ⟨⟨call, env⟩, hrequest, rfl⟩ := hall j r hj
  cases call with
  | addDependency eventBus data =>
    refine ⟨by simp [Call.edgePhase, EdgePhase.Holds], ?_⟩
    rintro _ ⟨⟩
    simp [addedTo, hrequest, Call.addsTo]
  | _ => exact ⟨trivial, by rintro _ ⟨⟩⟩

/-- Every step keeps the invariant, if edges are added alone where that is asked for. -/
theorem takes_edgesInv {requests : List Request} {c : Servers Response}
    {phases : List (Option EdgePhase)} {i : Nat}
    (htakes : Config.Takes EdgeStep (fun _ => True) EdgeEnd
      (fun c i => alone → AddsAlone requests c i) c phases i l q q' w')
    (hinv : EdgesInv requests alone c.state phases) {phase : Option EdgePhase}
    (hphase : phase = some q' ∨ phase = none) :
    EdgesInv requests alone w' (phases.set i phase) := by
  obtain ⟨hq, hproduct⟩ := hinv.2 i q htakes.phase
  refine ⟨step_joins htakes.step hq hinv.1, fun j r hj => ?_⟩
  rcases htakes.phase_of_set hphase hj with ⟨rfl, rfl⟩ | ⟨hne, hj⟩
  · refine ⟨step_enters htakes.step hq, fun productId hr => ?_⟩
    rcases step_product htakes.step with hsame | hnone
    · exact hproduct productId (hsame ▸ hr)
    · rw [hnone] at hr
      cases hr
  · obtain ⟨hr, hproduct'⟩ := hinv.2 j r hj
    refine ⟨holds_step htakes.step hr ?_, hproduct'⟩
    rintro data data' rfl rfl rfl hal hsame
    obtain ⟨hlt, hlabel⟩ := label_of_accepted htakes.inPhases hj
    refine htakes.allowed hal htakes.label j hlt hne hlabel ?_
    rw [hproduct data.productId rfl, hproduct' data'.productId rfl, hsame]

theorem exec_joins {requests : List Request} {schedule : List Nat}
    (hw : w.db.JoinsComponents alone)
    (halone : alone → (Call.start w requests).Along (AddsAlone requests) schedule) :
    ((Call.start w requests).exec schedule).state.db.JoinsComponents alone := by
  obtain ⟨phases, hphases, hinv⟩ := start_edgesInv requests hw
  have hok : (Call.start w requests).Along (fun c i => alone → AddsAlone requests c i)
      schedule := by
    by_cases hal : alone
    · exact (halone hal).mono fun _ _ h _ => h
    · exact Config.along_of_forall (fun _ _ h => absurd h hal) _ _
  obtain ⟨phases', _, hinv'⟩ := Config.exec_invariant (fun _ _ _ => trivial)
    (fun _ _ _ _ _ _ _ htakes hinv _ => takes_edgesInv htakes hinv) schedule hphases hinv hok
  exact hinv'.1

end DependencyRaceLemmas

open DependencyRaceLemmas

/-- Whatever calls are interleaved, every edge joins two different components of its product and
no edge is there twice. If edges are added alone, no product gets a cycle. -/
theorem dependency_graph_interleaved (w : World) (hw : w.db.SoundGraph) (requests : List Request)
    (schedule : List Nat) :
    let c := (Call.start w requests).exec schedule
    (∀ productId, (c.state.db.edges productId).Nodup ∧ ∀ e ∈ c.state.db.edges productId,
      e.1 ≠ e.2 ∧ c.state.db.OwnsComponent productId e.1 ∧
        c.state.db.OwnsComponent productId e.2) ∧
    ((Call.start w requests).Along (AddsAlone requests) schedule → c.state.db.SoundGraph) := by
  intro c
  have hjoins : ∀ alone : Prop, w.db.JoinsComponents alone :=
    fun _ => ⟨fun p => (hw p).notSelf, fun p => (hw p).endpoints, fun _ p => (hw p).acyclic⟩
  have hloose : c.state.db.JoinsComponents False := exec_joins (hjoins False) False.elim
  refine ⟨fun p => ⟨edges_nodup _ p, fun e he => ?_⟩, fun halone p => ?_⟩
  · exact ⟨hloose.notSelf p e he, hloose.endpoints p e he⟩
  · have htight : c.state.db.JoinsComponents True := exec_joins (hjoins True) fun _ => halone
    exact ⟨htight.acyclic trivial p, htight.notSelf p, edges_nodup _ p, htight.endpoints p⟩

namespace Sample

/-- `api → web` and `web → api`. -/
def opposite : List Request :=
  [(.addDependency true ⟨id 10, id 11, id 12⟩, env 40),
   (.addDependency true ⟨id 10, id 12, id 11⟩, env 41)]

/-- The first edge is in when the second call looks for a path. -/
def oneAfterTheOther : List Nat := [0, 0, 0, 0, 0, 0, 0, 0, 1, 1, 1, 1, 1]

/-- Both calls look for a path before either inserts. -/
def bothLookFirst : List Nat := [0, 0, 0, 0, 0, 1, 1, 1, 1, 1, 0, 1]

end Sample

theorem dependency_graph_interleaved_opposite :
    ((Call.start (run World.init Sample.setup) Sample.opposite).exec
      Sample.oneAfterTheOther).state.db.SoundGraph :=
  (dependency_graph_interleaved (run World.init Sample.setup)
    (soundGraph_run soundGraph_empty Sample.setup) Sample.opposite Sample.oneAfterTheOther).2
    (by decide +kernel)

/-- Additions that are not alone can close a cycle. -/
theorem cycle_of_two_additions :
    ¬ EdgeList.Acyclic (((Call.start (run World.init Sample.setup) Sample.opposite).exec
      Sample.bothLookFirst).state.db.edges (Sample.id 10)) := by
  have hedges : ((Call.start (run World.init Sample.setup) Sample.opposite).exec
      Sample.bothLookFirst).state.db.edges (Sample.id 10) =
        [(Sample.id 11, Sample.id 12), (Sample.id 12, Sample.id 11)] := by
    decide +kernel
  rw [hedges]
  intro hacyclic
  have hforth : EdgeList.Edge [(Sample.id 11, Sample.id 12), (Sample.id 12, Sample.id 11)]
      (Sample.id 11) (Sample.id 12) := List.mem_cons_self
  exact hacyclic (Sample.id 11) (.tail (.single hforth) (List.mem_cons_of_mem _ List.mem_cons_self))

end LavsCore
