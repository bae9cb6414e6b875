import LavsCore.Concurrency.Servers
import LavsCore.Invariants.Growth

/-!
# The effects of the statements

`WriteEffect` lists what each writing statement does to the store and to the published events, and
`Call.writes` which of them a call executes. `program_effects`: whatever a call reads, all its
other statements only read. `keeps_of_effect`: no effect takes a component or a release away or
changes more of a version than its status.
-/

namespace LavsCore

open Store GrowthLemmas Query

/-- What a statement that writes can do. It can leave all as it is, where it is refused. -/
inductive WriteEffect : Sql → World → World → Prop
  | same (l : Sql) (w : World) : WriteEffect l w w
  | insertProduct {w : World} {row : ProductRow} {db : Store}
      (hinsert : w.db.insertProduct row = .ok db) : WriteEffect .insertProduct w { w with db := db }
  | insertComponent {w : World} {row : ComponentRow} {db : Store}
      (hinsert : w.db.insertComponent row = .ok db) :
      WriteEffect .insertComponent w { w with db := db }
  | supersedeActive (w : World) (componentId : String) :
      WriteEffect .supersedeActive w { w with db := w.db.supersedeActive componentId }
  | markStatus (w : World) (status : VersionStatus) (id : String) :
      WriteEffect (.markStatus status) w { w with db := w.db.markStatus status id }
  | insertVersion {w : World} {row : VersionRow} {db : Store}
      (hinsert : w.db.insertVersion row = .ok db) : WriteEffect .insertVersion w { w with db := db }
  | insertEdge {w : World} {row : DependencyRow} {db : Store}
      (hinsert : w.db.insertDependency row = .ok db) : WriteEffect .insertEdge w { w with db := db }
  | deleteEdge (w : World) (id : String) :
      WriteEffect .deleteEdge w { w with db := w.db.deleteDependency id }
  | insertRelease {w : World} {row : ReleaseRow} {db : Store}
      (hinsert : w.db.insertRelease row = .ok db) : WriteEffect .insertRelease w { w with db := db }
  | insertReleaseComponent {w : World} {row : ReleaseComponentRow} {db : Store}
      (hinsert : w.db.insertReleaseComponent row = .ok db) :
      WriteEffect .insertReleaseComponent w { w with db := db }
  | publish (w : World) (event : DomainEvent) :
      WriteEffect .publish w { w with published := w.published ++ [event] }

def Sql.reads : Sql → Bool
  | .insertProduct | .insertComponent | .supersedeActive | .insertVersion | .markStatus _
  | .insertEdge | .deleteEdge | .insertRelease | .insertReleaseComponent | .publish => false
  | _ => true

/-- The statement only reads, or it is one of those that may write. -/
def EffectOf (writes : List Sql) (l : Sql) (w w' : World) : Prop :=
  l.reads = true ∧ w' = w ∨ l ∈ writes ∧ WriteEffect l w w'

/-- The statements of a call that write. -/
def Call.writes : Call → List Sql
  | .createProduct _ => [.insertProduct]
  | .createComponent _ => [.insertComponent]
  | .createVersion _ _ => [.supersedeActive, .insertVersion, .publish]
  | .rollbackVersion _ _ =>
    [.markStatus .rolledBack, .supersedeActive, .markStatus .active, .publish]
  | .addDependency _ _ => [.insertEdge, .publish]
  | .removeDependency _ _ => [.deleteEdge, .publish]
  | .cutRelease _ => [.insertRelease, .insertReleaseComponent]

namespace EffectsLemmas

variable {α : Type} {w : World} {writes : List Sql}

theorem steps_select {l : Sql} (hl : l.reads = true) (f : Store → α) :
    (select l f).Steps (EffectOf writes) :=
  Prog.steps_query (fun _ => Or.inl ⟨hl, rfl⟩) _

theorem steps_insert {l : Sql} (hl : l ∈ writes) {f : Store → Except Refusal Store}
    (h : ∀ w db, f w.db = .ok db → WriteEffect l w { w with db := db }) :
    (insert l f).Steps (EffectOf writes) := by
  refine Prog.steps_atomically ?_ fun w _ _ => Or.inr ⟨hl, .same l w⟩
  intro w r hr
  split at hr
  · next db hdb =>
    cases hr
    exact Or.inr ⟨hl, h w db hdb⟩
  · cases hr

theorem steps_execute {l : Sql} (hl : l ∈ writes) {f : Store → Store}
    (h : ∀ w, WriteEffect l w { w with db := f w.db }) : (execute l f).Steps (EffectOf writes) := by
  refine Prog.steps_atomically ?_ fun w _ _ => Or.inr ⟨hl, .same l w⟩
  rintro w _ ⟨⟩
  exact Or.inr ⟨hl, h w⟩

theorem steps_publish (hl : Sql.publish ∈ writes) (eventBus : Bool) (event : DomainEvent) :
    (publish eventBus event).Steps (EffectOf writes) := by
  unfold publish
  split
  · refine Prog.steps_atomically ?_ fun w _ _ => Or.inr ⟨hl, .same _ w⟩
    rintro w _ ⟨⟩
    exact Or.inr ⟨hl, .publish w event⟩
  · exact Prog.steps_pure _

theorem steps_firstRow (rows : List α) : (firstRow rows).Steps (EffectOf writes) := by
  cases rows with
  | nil => exact Prog.steps_raise _
  | cons row rest => exact Prog.steps_pure row

theorem steps_refuseIf (refused : Bool) (error : ApiError) :
    (refuseIf refused error).Steps (EffectOf writes) := by
  cases refused with
  | true => exact Prog.steps_raise _
  | false => exact Prog.steps_pure _

/-! ## The calls -/

theorem createProduct_steps (data : CreateProductModel) (env : Env) :
    (createProduct data env).Steps (EffectOf [.insertProduct]) := by
  unfold createProduct
  refine Prog.steps_bind (steps_select rfl _) fun found => ?_
  split
  · exact Prog.steps_raise _
  · refine Prog.steps_bind (steps_insert (by simp) fun _ _ => .insertProduct) fun _ => ?_
    refine Prog.steps_bind (steps_select rfl _) fun created => ?_
    split
    · exact Prog.steps_pure _
    · exact Prog.steps_raise _

theorem createComponent_steps (data : CreateComponentModel) (env : Env) :
    (createComponent data env).Steps (EffectOf [.insertComponent]) := by
  unfold createComponent
  refine Prog.steps_bind (steps_select rfl _) fun found => ?_
  split
  · exact Prog.steps_raise _
  · refine Prog.steps_bind (steps_insert (by simp) fun _ _ => .insertComponent) fun _ => ?_
    exact Prog.steps_pure _

theorem createVersion_steps (eventBus : Bool) (data : CreateVersionModel) (env : Env) :
    (createVersion eventBus data env).Steps
      (EffectOf [.supersedeActive, .insertVersion, .publish]) := by
  unfold createVersion
  refine Prog.steps_bind (steps_select rfl _) fun found => ?_
  split
  · exact Prog.steps_raise _
  · refine Prog.steps_bind (steps_execute (by simp) fun w => .supersedeActive w _) fun _ => ?_
    refine Prog.steps_bind (Prog.steps_lift _) fun major => ?_
    refine Prog.steps_bind (Prog.steps_lift _) fun minor => ?_
    refine Prog.steps_bind (Prog.steps_lift _) fun patch => ?_
    refine Prog.steps_bind (steps_insert (by simp) fun _ _ hinsert =>
      .insertVersion (insertVersionOn_ok hinsert).2) fun _ => ?_
    refine Prog.steps_bind (steps_select rfl _) fun rows => ?_
    refine Prog.steps_bind (steps_firstRow rows) fun created => ?_
    refine Prog.steps_bind (Prog.steps_lift _) fun version => ?_
    exact Prog.steps_bind (steps_publish (by simp) _ _) fun _ => Prog.steps_pure _

theorem eventProduct_steps (eventBus : Bool) (componentId : String) :
    (eventProduct eventBus componentId).Steps (EffectOf writes) := by
  unfold eventProduct
  split
  · refine Prog.steps_bind (steps_select rfl _) fun found => ?_
    split
    · exact Prog.steps_pure _
    · exact Prog.steps_raise _
  · exact Prog.steps_pure _

theorem rollbackVersion_steps (eventBus : Bool) (data : RollbackVersionRequest) (env : Env) :
    (rollbackVersion eventBus data env).Steps
      (EffectOf [.markStatus .rolledBack, .supersedeActive, .markStatus .active,
        .publish]) := by
  unfold rollbackVersion
  refine Prog.steps_bind (steps_select rfl _) fun found => ?_
  split
  · exact Prog.steps_raise _
  refine Prog.steps_bind (Prog.steps_lift _) fun target => ?_
  refine Prog.steps_bind (steps_select rfl _) fun candidates => ?_
  split
  · exact Prog.steps_raise _
  refine Prog.steps_bind (Prog.steps_lift _) fun previous => ?_
  refine Prog.steps_bind (steps_execute (by simp) fun w => .markStatus w _ _) fun _ => ?_
  refine Prog.steps_bind (steps_execute (by simp) fun w => .supersedeActive w _) fun _ => ?_
  refine Prog.steps_bind (steps_execute (by simp) fun w => .markStatus w _ _) fun _ => ?_
  refine Prog.steps_bind (steps_select rfl _) fun rows => ?_
  refine Prog.steps_bind (steps_firstRow rows) fun reactivatedRow => ?_
  refine Prog.steps_bind (Prog.steps_lift _) fun reactivated => ?_
  refine Prog.steps_bind (eventProduct_steps _ _) fun productId => ?_
  exact Prog.steps_bind (steps_publish (by simp) _ _) fun _ => Prog.steps_pure _

theorem assertComponent_steps (productId componentId : String) :
    (assertComponent productId componentId).Steps (EffectOf writes) := by
  unfold assertComponent
  refine Prog.steps_bind (steps_select rfl _) fun found => ?_
  split
  · exact Prog.steps_raise _
  · exact steps_refuseIf _ _

theorem addDependency_steps (eventBus : Bool) (data : CreateDependencyRequest) (env : Env) :
    (addDependency eventBus data env).Steps
      (EffectOf [.insertEdge, .publish]) := by
  unfold addDependency
  refine Prog.steps_bind (steps_select rfl _) fun product => ?_
  refine Prog.steps_bind (steps_refuseIf _ _) fun _ => ?_
  refine Prog.steps_bind (assertComponent_steps _ _) fun _ => ?_
  refine Prog.steps_bind (assertComponent_steps _ _) fun _ => ?_
  refine Prog.steps_bind (steps_refuseIf _ _) fun _ => ?_
  refine Prog.steps_bind (steps_select rfl _) fun duplicate => ?_
  refine Prog.steps_bind (steps_refuseIf _ _) fun _ => ?_
  refine Prog.steps_bind (steps_select rfl _) fun edges => ?_
  refine Prog.steps_bind (steps_refuseIf _ _) fun _ => ?_
  refine Prog.steps_bind (steps_insert (by simp) fun _ _ => .insertEdge) fun _ => ?_
  refine Prog.steps_bind (steps_select rfl _) fun created => ?_
  split
  · exact Prog.steps_raise _
  · exact Prog.steps_bind (steps_publish (by simp) _ _) fun _ => Prog.steps_pure _

theorem removeDependency_steps (eventBus : Bool) (data : RemoveDependencyRequest) :
    (removeDependency eventBus data).Steps
      (EffectOf [.deleteEdge, .publish]) := by
  unfold removeDependency
  refine Prog.steps_bind (steps_select rfl _) fun found => ?_
  split
  · exact Prog.steps_raise _
  · refine Prog.steps_bind (steps_execute (by simp) fun w => .deleteEdge w _) fun _ => ?_
    exact steps_publish (by simp) _ _

theorem findReplay_steps (data : CutReleaseRequest) (env : Env) :
    (findReplay data env).Steps (EffectOf writes) := by
  unfold findReplay
  split
  · exact Prog.steps_pure _
  · exact steps_select rfl _

theorem loadRelease_steps (releaseId : String) :
    (loadRelease releaseId).Steps (EffectOf writes) := by
  unfold loadRelease
  refine Prog.steps_bind (steps_select rfl _) fun manifest => ?_
  refine Prog.steps_bind (steps_select rfl _) fun rows => ?_
  exact Prog.steps_bind (steps_firstRow rows) fun row => Prog.steps_pure _

theorem priorManifest_steps (latestReleaseId : Option String) :
    (priorManifest latestReleaseId).Steps (EffectOf writes) := by
  unfold priorManifest
  split
  · exact Prog.steps_pure _
  · exact steps_select rfl _

theorem derive_steps (productId bumpPolicy : String) (active : List ActiveComponent)
    (latestReleaseId : Option String) :
    (derive productId bumpPolicy active latestReleaseId).Steps (EffectOf writes) := by
  unfold derive
  split
  · exact Prog.steps_pure _
  · refine Prog.steps_bind (priorManifest_steps _) fun prior => ?_
    exact Prog.steps_bind (steps_select rfl _) fun edges => Prog.steps_pure _

theorem manifest_steps (hl : Sql.insertReleaseComponent ∈ writes) (releaseId : String)
    (changes : Dict String String) (active : List ActiveComponent) :
    (forM active fun record => insert .insertReleaseComponent fun db =>
      db.insertReleaseComponent (newManifestRow releaseId changes record) :
        Query PUnit).Steps (EffectOf writes) := by
  induction active with
  | nil => exact Prog.steps_pure _
  | cons record rest ih =>
    exact Prog.steps_bind (steps_insert hl fun _ _ => .insertReleaseComponent) fun _ => ih

theorem cutRelease_steps (data : CutReleaseRequest) (env : Env) :
    (cutRelease data env).Steps (EffectOf [.insertRelease, .insertReleaseComponent]) := by
  have hload : ∀ (id : String) (created : Bool), (do
      let release ← loadRelease id
      return ⟨release, created⟩ : Query CutReleaseResult).Steps
        (EffectOf [.insertRelease, .insertReleaseComponent]) :=
    fun id created => Prog.steps_bind (loadRelease_steps id) fun _ => Prog.steps_pure _
  unfold cutRelease
  refine Prog.steps_bind (steps_select rfl _) fun found => ?_
  split
  · exact Prog.steps_raise _
  refine Prog.steps_bind (findReplay_steps _ _) fun existing => ?_
  split
  · exact hload _ _
  refine Prog.steps_bind (steps_select rfl _) fun active => ?_
  refine Prog.steps_bind (steps_refuseIf _ _) fun _ => ?_
  refine Prog.steps_bind (steps_select rfl _) fun latest => ?_
  refine Prog.steps_bind (derive_steps _ _ _ _) fun derived => ?_
  refine Prog.steps_bind (Prog.steps_lift _) fun version => ?_
  refine Prog.steps_bind (steps_insert (by simp) fun _ _ => .insertRelease) fun _ => ?_
  exact Prog.steps_bind (manifest_steps (by simp) _ _ _) fun _ => hload _ _

end EffectsLemmas

open EffectsLemmas

/-- Every step of a call has one of the effects. -/
theorem program_effects (r : Request) : (r.1.program r.2).Steps (EffectOf r.1.writes) := by
  obtain ⟨call, env⟩ := r
  have hwrap : ∀ {α : Type} {writes : List Sql} (f : α → Response) {p : Query α},
      p.Steps (EffectOf writes) → (f <$> p).Steps (EffectOf writes) :=
    fun f _ hp => Prog.steps_bind hp fun _ => Prog.steps_pure _
  cases call with
  | createProduct data => exact hwrap _ (createProduct_steps data env)
  | createComponent data => exact hwrap _ (createComponent_steps data env)
  | createVersion eventBus data => exact hwrap _ (createVersion_steps eventBus data env)
  | rollbackVersion eventBus data => exact hwrap _ (rollbackVersion_steps eventBus data env)
  | addDependency eventBus data => exact hwrap _ (addDependency_steps eventBus data env)
  | removeDependency eventBus data => exact hwrap _ (removeDependency_steps eventBus data)
  | cutRelease data => exact hwrap _ (cutRelease_steps data env)

/-! ## What every effect keeps -/

/-- Components and releases are only added, and of a version only the status changes. -/
structure World.Keeps (w w' : World) : Prop where
  components : w.db.components.rows <+: w'.db.components.rows
  versions : w.db.KeepsVersions w'.db
  releases : w.db.releases.rows <+: w'.db.releases.rows

theorem World.Keeps.refl (w : World) : w.Keeps w :=
  ⟨List.prefix_refl _, List.prefix_refl _, List.prefix_refl _⟩

theorem World.Keeps.trans {w w' w'' : World} (h : w.Keeps w') (h' : w'.Keeps w'') : w.Keeps w'' :=
  ⟨h.components.trans h'.components, h.versions.trans h'.versions, h.releases.trans h'.releases⟩

theorem keeps_of_effect {l : Sql} {w w' : World} (h : WriteEffect l w w') : w.Keeps w' := by
  cases h with
  | same _ _ => exact .refl _
  | insertProduct h =>
    have hi := insertProduct_ok h
    exact ⟨prefix_of_eq (congrArg _ hi.components), keepsVersions_of_eq hi.versions,
      prefix_of_eq (congrArg _ hi.releases)⟩
  | insertComponent h =>
    have hi := insertComponent_ok h
    exact ⟨prefix_of_append hi.rows, keepsVersions_of_eq hi.versions,
      prefix_of_eq (congrArg _ hi.releases)⟩
  | supersedeActive _ _ =>
    exact ⟨List.prefix_refl _, prefix_of_eq (setStatus_fixed _ _ _), List.prefix_refl _⟩
  | markStatus _ _ _ =>
    exact ⟨List.prefix_refl _, prefix_of_eq (setStatus_fixed _ _ _), List.prefix_refl _⟩
  | insertVersion h =>
    have hi := insertVersion_ok h
    refine ⟨prefix_of_eq (congrArg _ hi.components), ?_, prefix_of_eq (congrArg _ hi.releases)⟩
    show KeepsVersions _ _
    rw [KeepsVersions, hi.rows, List.map_append]
    exact List.prefix_append _ _
  | insertEdge h =>
    have hi := insertDependency_ok h
    exact ⟨prefix_of_eq (congrArg _ hi.components), keepsVersions_of_eq hi.versions,
      prefix_of_eq (congrArg _ hi.releases)⟩
  | deleteEdge _ _ => exact ⟨List.prefix_refl _, List.prefix_refl _, List.prefix_refl _⟩
  | insertRelease h =>
    have hi := insertRelease_ok h
    exact ⟨prefix_of_eq (congrArg _ hi.components), keepsVersions_of_eq hi.versions,
      prefix_of_append hi.rows⟩
  | insertReleaseComponent h =>
    have hi := insertReleaseComponent_ok h
    exact ⟨prefix_of_eq (congrArg _ hi.components), keepsVersions_of_eq hi.versions,
      prefix_of_eq (congrArg _ hi.releases)⟩
  | publish _ _ => exact ⟨List.prefix_refl _, List.prefix_refl _, List.prefix_refl _⟩

/-- Manifests are written by one statement. -/
theorem releaseComponents_of_effect {l : Sql} {w w' : World} (h : WriteEffect l w w')
    (hl : l ≠ .insertReleaseComponent) : w'.db.releaseComponents = w.db.releaseComponents := by
  cases h with
  | same _ _ => rfl
  | insertProduct h => exact (insertProduct_ok h).releaseComponents
  | insertComponent h => exact (insertComponent_ok h).releaseComponents
  | supersedeActive _ _ => rfl
  | markStatus _ _ _ => rfl
  | insertVersion h => exact (insertVersion_ok h).releaseComponents
  | insertEdge h => exact (insertDependency_ok h).releaseComponents
  | deleteEdge _ _ => rfl
  | insertRelease h => exact (insertRelease_ok h).releaseComponents
  | insertReleaseComponent _ => exact absurd rfl hl
  | publish _ _ => rfl

end LavsCore
