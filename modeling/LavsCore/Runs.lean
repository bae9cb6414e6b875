import LavsCore.Queries.ReleasesRead
import LavsCore.Queries.Versions

/-!
# Runs of the service

A run is a list of calls, executed one after the other. `Change` lists what a call can
do to the store, whatever its outcome (`exec_change`). Every invariant is derived from
it with one of the two run rules: `run_invariant` for all runs, `answered_invariant`
for the runs in which every call completes or ends in a domain error.
-/

namespace LavsCore

/-- The calls that write. -/
inductive Call where
  | createProduct (data : CreateProductModel)
  | createComponent (data : CreateComponentModel)
  | createVersion (eventBus : Bool) (data : CreateVersionModel)
  | rollbackVersion (eventBus : Bool) (data : RollbackVersionRequest)
  | addDependency (eventBus : Bool) (data : CreateDependencyRequest)
  | removeDependency (eventBus : Bool) (data : RemoveDependencyRequest)
  | cutRelease (data : CutReleaseRequest)

/-- What a call answers. -/
inductive Response where
  | product (model : ProductResponseModel)
  | component (model : ComponentResponseModel)
  | version (model : VersionResponseModel)
  | dependency (model : DependencyResponseModel)
  | removed
  | release (result : CutReleaseResult)

/-- The program of a call. -/
def Call.program (call : Call) (env : Env) : Query Response :=
  match call with
  | .createProduct data => Response.product <$> LavsCore.createProduct data env
  | .createComponent data => Response.component <$> LavsCore.createComponent data env
  | .createVersion eventBus data => Response.version <$> LavsCore.createVersion eventBus data env
  | .rollbackVersion eventBus data =>
    Response.version <$> LavsCore.rollbackVersion eventBus data env
  | .addDependency eventBus data =>
    Response.dependency <$> LavsCore.addDependency eventBus data env
  | .removeDependency eventBus data =>
    (fun _ => Response.removed) <$> LavsCore.removeDependency eventBus data
  | .cutRelease data => Response.release <$> LavsCore.cutRelease data env

/-- A call with its surroundings. -/
abbrev Request := Call × Env

/-- What a request answers. -/
def outcome (w : World) (r : Request) : Except ApiError Response := ((r.1.program r.2).run w).1

/-- What a request leaves. -/
def exec (w : World) (r : Request) : World := ((r.1.program r.2).run w).2

/-- The state after a run. -/
def run (w : World) (requests : List Request) : World := requests.foldl exec w

/-- The call completes, or it ends in `NotFoundError` or `ConflictError`. -/
def Answered {α : Type} : Except ApiError α → Prop
  | .ok _ => True
  | .error error => error.isDomain = true

/-- Every request of a run is answered. -/
def AllAnswered : World → List Request → Prop
  | _, [] => True
  | w, r :: rest => Answered (outcome w r) ∧ AllAnswered (exec w r) rest

instance {α : Type} : (answer : Except ApiError α) → Decidable (Answered answer)
  | .ok _ => isTrue trivial
  | .error error => inferInstanceAs (Decidable (error.isDomain = true))

instance decidableAllAnswered : (w : World) → (requests : List Request) →
    Decidable (AllAnswered w requests)
  | _, [] => isTrue trivial
  | w, r :: rest =>
    have := decidableAllAnswered (exec w r) rest
    inferInstanceAs (Decidable (_ ∧ _))

@[simp] theorem run_nil (w : World) : run w [] = w := rfl

@[simp] theorem run_cons (w : World) (r : Request) (rest : List Request) :
    run w (r :: rest) = run (exec w r) rest := rfl

@[simp] theorem run_append (w : World) (before after : List Request) :
    run w (before ++ after) = run (run w before) after :=
  List.foldl_append

/-! ## What a call can do -/

/-- The changes of the store that a call can make. The call is answered only if `ok`:
a failed creation can leave its component without an active version, and a failed cut
can leave a release with a part of its manifest. -/
inductive Change (ok : Prop) (env : Env) (db : Store) : Store → Prop
  | unchanged : Change ok env db db
  | product {row : ProductRow} {db' : Store} (hbase : row.baseVersion = "0.0.0")
      (hinsert : db.insertProduct row = .ok db') : Change ok env db db'
  | component {row : ComponentRow} {db' : Store} (hinsert : db.insertComponent row = .ok db') :
      Change ok env db db'
  | superseded (componentId : String) (hfailed : ¬ ok) :
      Change ok env db (db.supersedeActive componentId)
  | version {row : VersionRow} {db' : Store} (hactive : row.status = some .active)
      (hinsert : (db.supersedeActive row.componentId).insertVersion row = .ok db') :
      Change ok env db db'
  | rollback {target previous : VersionRow} (htarget : target ∈ db.versions.rows)
      (hprevious : previous ∈ db.versions.rows)
      (hcomponent : previous.componentId = target.componentId) :
      Change ok env db (db.rollback target previous)
  | dependency {data : CreateDependencyRequest} {db' : Store}
      (haccepted : EdgeAccepted db data)
      (hinsert : db.insertDependency (newDependencyRow data env) = .ok db') : Change ok env db db'
  | removal (id : String) : Change ok env db (db.deleteDependency id)
  | cut {data : CutReleaseRequest} {product : ProductRow} {version : String}
      {db₁ db' : Store} {done rest : List ReleaseComponentRow}
      (hproduct : product ∈ db.products.rows) (hid : product.id = data.productId)
      (hversion : db.nextVersion product = .ok version)
      (hinsert : db.insertRelease (newReleaseRow data env version (db.derivationFor product)) =
        .ok db₁)
      (hrows : db.newManifest product env.ulid = done ++ rest) (hcomplete : ok → rest = [])
      (hmanifest : Store.insertManifest done db₁ = .ok db') : Change ok env db db'

/-- Forget whether the call was answered. -/
theorem Change.weaken {ok : Prop} {env : Env} {db db' : Store} (h : Change ok env db db') :
    Change False env db db' := by
  cases h with
  | unchanged => exact .unchanged
  | product hbase hinsert => exact .product hbase hinsert
  | component hinsert => exact .component hinsert
  | superseded componentId _ => exact .superseded componentId id
  | version hactive hinsert => exact .version hactive hinsert
  | rollback htarget hprevious hcomponent => exact .rollback htarget hprevious hcomponent
  | dependency haccepted hinsert => exact .dependency haccepted hinsert
  | removal id => exact .removal id
  | cut hproduct hid hversion hinsert hrows _ hmanifest =>
    exact .cut hproduct hid hversion hinsert hrows False.elim hmanifest

namespace RunLemmas

/-- Wrapping the answer changes neither the state nor whether the call is answered. -/
theorem answered_map {α β : Type} (f : α → β) (p : Query α) (w : World) :
    ((f <$> p).run w).2 = (p.run w).2 ∧
      (Answered ((f <$> p).run w).1 ↔ Answered (p.run w).1) := by
  rw [Prog.run_map]
  rcases p.run w with ⟨_ | _, _⟩ <;> exact ⟨rfl, Iff.rfl⟩

variable {w w' : World} {env : Env}

theorem change_createProduct {data : CreateProductModel}
    {answer : Except ApiError ProductResponseModel}
    (h : CreateProductOutcome data env w answer w') : Change (Answered answer) env w.db w'.db := by
  cases h with
  | failed error => exact .unchanged
  | created hinsert => exact .product rfl hinsert

theorem change_createComponent {data : CreateComponentModel}
    {answer : Except ApiError ComponentResponseModel}
    (h : CreateComponentOutcome data env w answer w') : Change (Answered answer) env w.db w'.db := by
  cases h with
  | failed error => exact .unchanged
  | created hinsert => exact .component hinsert

theorem change_createVersion {eventBus : Bool} {data : CreateVersionModel}
    {answer : Except ApiError VersionResponseModel}
    (h : CreateVersionOutcome eventBus data env w answer w') :
    Change (Answered answer) env w.db w'.db := by
  cases h with
  | unknown _ => exact .unchanged
  | refused _ _ _ _ _ => exact .superseded data.componentId (fun hok => Bool.noConfusion hok)
  | created _ _ _ _ _ hinsert _ => exact .version rfl hinsert

theorem change_rollbackVersion {eventBus : Bool} {data : RollbackVersionRequest}
    {answer : Except ApiError VersionResponseModel}
    (h : RollbackVersionOutcome eventBus data w answer w') :
    Change (Answered answer) env w.db w'.db := by
  cases h with
  | unknown _ => exact .unchanged
  | noPrior => exact .unchanged
  | unreadable _ _ => exact .unchanged
  | rolledBack htarget _ _ hprevious hcomponent _ _ =>
    exact .rollback htarget hprevious hcomponent

theorem change_addDependency {eventBus : Bool} {data : CreateDependencyRequest}
    {answer : Except ApiError DependencyResponseModel}
    (h : AddDependencyOutcome eventBus data env w answer w') :
    Change (Answered answer) env w.db w'.db := by
  cases h with
  | rejected _ _ => exact .unchanged
  | refused _ _ => exact .unchanged
  | added haccepted hinsert => exact .dependency haccepted hinsert

theorem change_removeDependency {eventBus : Bool} {data : RemoveDependencyRequest}
    {answer : Except ApiError PUnit} (h : RemoveDependencyOutcome eventBus data w answer w') :
    Change (Answered answer) env w.db w'.db := by
  cases h with
  | unknown _ => exact .unchanged
  | removed _ _ => exact .removal _

theorem change_cutRelease {data : CutReleaseRequest}
    {answer : Except ApiError CutReleaseResult} (h : CutReleaseOutcome data env w answer w') :
    Change (Answered answer) env w.db w'.db := by
  cases h with
  | unknown _ => exact .unchanged
  | replayed _ => exact .unchanged
  | nothing _ _ => exact .unchanged
  | unversioned _ _ _ _ _ => exact .unchanged
  | refused _ _ _ _ _ _ => exact .unchanged
  | halted hproduct hid _ _ hversion hinsert hrows hdone _ =>
    exact .cut hproduct hid hversion hinsert hrows (fun hok => Bool.noConfusion hok) hdone
  | cut hproduct hid _ _ hversion hinsert hmanifest =>
    exact .cut hproduct hid hversion hinsert (List.append_nil _).symm (fun _ => rfl) hmanifest

end RunLemmas

open RunLemmas

/-- A call does to the store one of the listed changes. -/
theorem exec_change (w : World) (r : Request) :
    Change (Answered (outcome w r)) r.2 w.db (exec w r).db := by
  obtain ⟨call, env⟩ := r
  -- The answer is wrapped by `Response`; what is left is the outcome of the query alone.
  have hwrap : ∀ {α : Type} (f : α → Response) (p : Query α),
      Change (Answered (p.run w).1) env w.db (p.run w).2.db →
        Change (Answered ((f <$> p).run w).1) env w.db ((f <$> p).run w).2.db := by
    intro α f p h
    rw [(answered_map f p w).1, propext (answered_map f p w).2]
    exact h
  cases call with
  | createProduct data => exact hwrap _ _ (change_createProduct (createProduct_run data env w))
  | createComponent data => exact hwrap _ _ (change_createComponent (createComponent_run data env w))
  | createVersion eventBus data =>
    exact hwrap _ _ (change_createVersion (createVersion_run eventBus data env w))
  | rollbackVersion eventBus data =>
    exact hwrap _ _ (change_rollbackVersion (rollbackVersion_run eventBus data env w))
  | addDependency eventBus data =>
    exact hwrap _ _ (change_addDependency (addDependency_run eventBus data env w))
  | removeDependency eventBus data =>
    exact hwrap _ _ (change_removeDependency (removeDependency_run eventBus data w))
  | cutRelease data => exact hwrap _ _ (change_cutRelease (cutRelease_run data env w))

/-! ## The run rules -/

/-- What every change keeps holds along every run. -/
theorem run_invariant {Inv : Store → Prop}
    (hstep : ∀ env db db', Inv db → Change False env db db' → Inv db') {w : World} (hinv : Inv w.db)
    (requests : List Request) : Inv (run w requests).db := by
  induction requests generalizing w with
  | nil => exact hinv
  | cons r rest ih => exact ih (hstep _ _ _ hinv (exec_change w r).weaken)

/-- What the changes of answered calls keep holds along every answered run. -/
theorem answered_invariant {Inv : Store → Prop}
    (hstep : ∀ env db db', Inv db → Change True env db db' → Inv db') {w : World} (hinv : Inv w.db)
    {requests : List Request} (hall : AllAnswered w requests) : Inv (run w requests).db := by
  induction requests generalizing w with
  | nil => exact hinv
  | cons r rest ih =>
    obtain ⟨hr, hrest⟩ := hall
    have hchange : Change True r.2 w.db (exec w r).db := by
      have h := exec_change w r
      rwa [eq_true hr] at h
    exact ih (hstep _ _ _ hinv hchange) hrest

/-! ## A small product -/

namespace Sample

/-- An identifier in the form of a ULID. -/
def id (n : Nat) : String := s!"01KW8WHA6STWW5N1VYRSHDTK{n}"

/-- The surroundings of the call that mints `id n`. -/
def env (n : Nat) : Env := ⟨1782734400000000 + n, id n, 0, .duckdb⟩

def aurora : CreateProductModel := { name := "Aurora", description := none }

/-- A product with two components, `api` and `web`. -/
def setup : List Request :=
  [(.createProduct aurora, env 10),
   (.createComponent { productId := id 10, name := "api", kind := .service }, env 11),
   (.createComponent { productId := id 10, name := "web", kind := .ui }, env 12)]

/-- `api` gets the versions 1.0.0 and 1.1.0. -/
def versions : List Request :=
  [(.createVersion true { componentId := id 11, version := "1.0.0", prerelease := none }, env 20),
   (.createVersion true { componentId := id 11, version := "1.1.0", prerelease := none }, env 21)]

/-- The product with these versions, of which 1.1.0 is active. -/
def versioned : World := run World.init (setup ++ versions)

/-- More versions of `api`. -/
def api12 : CreateVersionModel := { componentId := id 11, version := "1.2.0", prerelease := none }

def api13 : CreateVersionModel := { componentId := id 11, version := "1.3.0", prerelease := none }

/-- A component `aaa` that is created after `api`, with a version. -/
def third : List Request :=
  [(.createComponent { productId := id 10, name := "aaa", kind := .library }, env 13),
   (.createVersion true { componentId := id 13, version := "0.1.0", prerelease := none }, env 22)]

/-- Two components that were created in the order of the alphabet, the second with a capital. -/
def capital : List Request :=
  [(.createProduct aurora, env 10),
   (.createComponent { productId := id 10, name := "alpha", kind := .service }, env 11),
   (.createComponent { productId := id 10, name := "Zeta", kind := .ui }, env 12),
   (.createVersion true { componentId := id 11, version := "1.0.0", prerelease := none }, env 20),
   (.createVersion true { componentId := id 12, version := "1.0.0", prerelease := none }, env 21)]

/-- A request for a release of the product. -/
def release (idempotencyKey : Option String) : CutReleaseRequest where
  productId := id 10
  label := some "Aurora"
  notes := none
  idempotencyKey := idempotencyKey

/-- A cut, a rollback to 1.0.0, and a cut. -/
def releases : List Request :=
  [(.cutRelease (release none), env 30),
   (.rollbackVersion true { versionId := id 21 }, env 31),
   (.cutRelease (release none), env 32)]

end Sample

example : AllAnswered World.init (Sample.setup ++ Sample.versions ++ Sample.releases) := by
  decide +kernel

end LavsCore
