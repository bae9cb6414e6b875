import LavsCore.Domain.BumpPropagation
import LavsCore.Domain.ProductVersion
import LavsCore.Queries.Dependencies
import LavsCore.Store.Selects

/-!
# Cutting a release

`cut_release_query.py`. A cut reads the active versions and the latest release,
derives the bump, and writes one row of `releases` and then one row of
`release_components` for each active version. `cutRelease_run` says what a call alone
answers and leaves; a manifest row that is refused leaves the release with the rows
before it.
-/

namespace LavsCore

open Query

/-! ## The derivation -/

/-- What `_derive` answers. -/
structure Derivation where
  bumpLevel : BumpLevel
  rationale : Option String
  changeByComponent : Dict String String

/-- `own_levels`: each active component against the previous manifest. -/
def ownLevels (prior : Dict String VersionTuple) (active : List ActiveComponent) :
    Dict String BumpLevel :=
  Dict.ofList (active.map fun r =>
    (r.componentId, classifyChange (Dict.get? prior r.componentId) r.tuple))

/-- `removed_any`: a component of the previous manifest is not active any more. -/
def removedAny (prior : Dict String VersionTuple) (active : List ActiveComponent) : Bool :=
  prior.keys.any fun componentId => componentId ∉ active.map ActiveComponent.componentId

/-- The JSON text of the rationale. -/
def bumpRationale (bumpLevel : BumpLevel) (removed : Bool) (own : Dict String BumpLevel)
    (effective : Dict String BumpLevel) : String :=
  Py.dumpsSorted (.obj [
    ("policy", .str BumpPolicy.default),
    ("product_bump", .str bumpLevel.value),
    ("removed_any", .bool removed),
    ("components", .obj (own.rows.map fun e =>
      (e.1, .obj [("own", .str e.2.value), ("effective", .str (effectiveOf effective e.1).value)])))])

/-- `_derive` on what it has read: the policy, the active components, the previous
manifest and the edges. -/
def derivation (bumpPolicy : String) (active : List ActiveComponent)
    (prior : List (String × VersionTuple)) (edges : List (String × String)) : Derivation :=
  if bumpPolicy ≠ BumpPolicy.default then ⟨.minor, none, Table.empty⟩
  else
    let own := ownLevels (Dict.ofList prior) active
    let removed := removedAny (Dict.ofList prior) active
    let bumpLevel := deriveProductBump own edges removed
    ⟨bumpLevel, some (bumpRationale bumpLevel removed own (effectiveLevels own edges)),
      Dict.mapValues (fun _ level => level.value) own⟩

/-- `_prior_manifest`. -/
def priorManifest (latestReleaseId : Option String) : Query (List (String × VersionTuple)) :=
  match latestReleaseId with
  | none => pure []
  | some releaseId => select .selectPriorManifest fun db => db.priorManifest releaseId

/-- `_derive`. -/
def derive (productId bumpPolicy : String) (active : List ActiveComponent)
    (latestReleaseId : Option String) : Query Derivation :=
  if bumpPolicy ≠ BumpPolicy.default then pure (derivation bumpPolicy active [] [])
  else do
    let prior ← priorManifest latestReleaseId
    let edges ← select .selectEdges fun db => db.edges productId
    return derivation bumpPolicy active prior edges

/-! ## The query -/

/-- `ConflictError` of a product without an active version. -/
def nothingToRelease (productId : String) : ApiError :=
  .conflict
    (s!"Product '{productId}' has no components with an active " ++
      "version; nothing to release.")
    [("product_id", productId)]

/-- The row that `_INSERT_RELEASE` writes. -/
def newReleaseRow (data : CutReleaseRequest) (env : Env) (productVersion : String)
    (derived : Derivation) : ReleaseRow where
  id := env.ulid
  productId := data.productId
  productVersion := productVersion
  label := data.label
  notes := data.notes
  idempotencyKey := data.idempotencyKey
  bumpLevel := some derived.bumpLevel.value
  bumpRationale := derived.rationale
  createdAt := env.now

/-- The row that `_INSERT_RELEASE_COMPONENT` writes. -/
def newManifestRow (releaseId : String) (changeByComponent : Dict String String)
    (record : ActiveComponent) : ReleaseComponentRow where
  releaseId := releaseId
  componentId := record.componentId
  versionId := record.versionId
  changeLevel := Dict.get? changeByComponent record.componentId

/-- `_SELECT_RELEASE_BY_IDEMPOTENCY`, if the request has a key. -/
def findReplay (data : CutReleaseRequest) (env : Env) : Query (Option ReleaseRow) :=
  match data.idempotencyKey with
  | none => pure none
  | some key => select .selectReleaseByIdempotency fun db =>
      db.releaseByIdempotency data.productId key env.choice

/-- `_load_release`. -/
def loadRelease (releaseId : String) : Query ReleaseResponseModel := do
  let manifest ← select .selectReleaseManifest fun db => db.releaseManifest releaseId
  let row ← firstRow (← select .selectRelease fun db => db.releases.lookup releaseId)
  return toReleaseResponse row (manifest.map toReleaseComponent)

/-- `current`: the latest version, or the base version before the first release. -/
def currentVersion (product : ProductRow) (latest : Option ReleaseRow) : String :=
  match latest with
  | some release => release.productVersion
  | none => product.baseVersion

/-- `CutReleaseQuery.apply`. -/
def cutRelease (data : CutReleaseRequest) (env : Env) : Query CutReleaseResult := do
  match ← select .selectProduct fun db => db.products.lookup data.productId with
  | [] => Prog.raise (productNotFound data.productId)
  | product :: _ =>
    match ← findReplay data env with
    | some existing =>
      let release ← loadRelease existing.id
      return ⟨release, false⟩
    | none =>
      let active ← select .selectActiveComponents fun db => db.activeComponents data.productId
      refuseIf active.isEmpty (nothingToRelease data.productId)
      let latest ← select .selectLatestRelease fun db => db.latestRelease data.productId
      let derived ← derive data.productId product.bumpPolicy active (latest.map ReleaseRow.id)
      let productVersion ← Prog.lift (applyBump (currentVersion product latest) derived.bumpLevel)
      insert .insertRelease fun db =>
        db.insertRelease (newReleaseRow data env productVersion derived)
      forM active fun record => insert .insertReleaseComponent fun db =>
        db.insertReleaseComponent (newManifestRow env.ulid derived.changeByComponent record)
      let release ← loadRelease env.ulid
      return ⟨release, true⟩

/-- The `release.cut` event. -/
def releaseCut (productId : String) (release : ReleaseResponseModel) : DomainEvent where
  eventType := .releaseCut
  productId := productId
  data := .obj [("release", release.dump)]

/-- The route `POST /products/{product_id}/releases`: the event is for a fresh cut
only. -/
def postRelease (data : CutReleaseRequest) (env : Env) : Query ReleaseResponseModel := do
  let result ← cutRelease data env
  if result.created then publish true (releaseCut data.productId result.release)
  return result.release

end LavsCore
