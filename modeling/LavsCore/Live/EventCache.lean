import LavsCore.Queries.Dependencies
import LavsCore.Queries.TimelineRead
import LavsCore.Queries.Versions

/-!
# The live cache of the client

`api/events.ts` reads the payloads of the event stream, and `event-cache.ts` folds them
into the cached answers of the server; `use-product-events.ts` says into which
(`ProductEvent.key`). The client's types have the shapes of the answers, so what it caches
is a response model. A frame carries its payload as a JSON text; here the payload is the
JSON value itself.

`parseEvent_versionCreated` and its siblings: the client reads from a payload what the
server wrote into it.
-/

namespace Py.Json

/-- `value.name`. -/
def field? (name : String) : Json → Option Json
  | .obj fields => fields.lookup name
  | _ => none

def str? : Json → Option String
  | .str s => some s
  | _ => none

def int? : Json → Option Int
  | .int n => some n
  | _ => none

/-- A text or `null`. -/
def nullable? : Json → Option (Option String)
  | .null => some none
  | .str s => some (some s)
  | _ => none

def items? : Json → Option (List Json)
  | .arr items => some items
  | _ => none

end Py.Json

namespace LavsCore

open Py

/-! ## Events -/

structure VersionCreatedEvent where
  componentId : String
  version : VersionResponseModel
  deriving DecidableEq, Repr

structure VersionRolledBackEvent where
  componentId : String
  versionId : String
  reactivatedVersionId : String
  deriving DecidableEq, Repr

structure ReleaseCutEvent where
  release : ReleaseResponseModel
  deriving DecidableEq, Repr

structure DependencyAddedEvent where
  dependency : DependencyResponseModel
  deriving DecidableEq, Repr

/-- A removed edge, without `created_at`. -/
structure RemovedDependency where
  id : String
  productId : String
  fromComponentId : String
  toComponentId : String
  deriving DecidableEq, Repr

structure DependencyRemovedEvent where
  dependency : RemovedDependency
  deriving DecidableEq, Repr

/-- What a listener of the stream is called with. -/
inductive ProductEvent where
  | versionCreated (event : VersionCreatedEvent)
  | versionRolledBack (event : VersionRolledBackEvent)
  | releaseCut (event : ReleaseCutEvent)
  | dependencyAdded (event : DependencyAddedEvent)
  | dependencyRemoved (event : DependencyRemovedEvent)
  deriving DecidableEq, Repr

/-! ## Reading a payload -/

def readVersion (json : Json) : Option VersionResponseModel := do
  return {
    id := ← (← json.field? "id").str?
    componentId := ← (← json.field? "component_id").str?
    major := ← (← json.field? "major").int?
    minor := ← (← json.field? "minor").int?
    patch := ← (← json.field? "patch").int?
    prerelease := ← (← json.field? "prerelease").nullable?
    status := ← VersionStatus.ofValue? (← (← json.field? "status").str?)
    createdAt := ← (← json.field? "created_at").str? }

def readDependency (json : Json) : Option DependencyResponseModel := do
  return {
    id := ← (← json.field? "id").str?
    productId := ← (← json.field? "product_id").str?
    fromComponentId := ← (← json.field? "from_component_id").str?
    toComponentId := ← (← json.field? "to_component_id").str?
    createdAt := ← (← json.field? "created_at").str? }

def readRemovedDependency (json : Json) : Option RemovedDependency := do
  return {
    id := ← (← json.field? "id").str?
    productId := ← (← json.field? "product_id").str?
    fromComponentId := ← (← json.field? "from_component_id").str?
    toComponentId := ← (← json.field? "to_component_id").str? }

def readReleaseComponent (json : Json) : Option ReleaseComponentResponseModel := do
  return {
    componentId := ← (← json.field? "component_id").str?
    name := ← (← json.field? "name").str?
    versionId := ← (← json.field? "version_id").str?
    version := ← (← json.field? "version").str?
    changeLevel := ← (← json.field? "change_level").nullable? }

def readRelease (json : Json) : Option ReleaseResponseModel := do
  return {
    id := ← (← json.field? "id").str?
    productId := ← (← json.field? "product_id").str?
    productVersion := ← (← json.field? "product_version").str?
    label := ← (← json.field? "label").nullable?
    notes := ← (← json.field? "notes").nullable?
    createdAt := ← (← json.field? "created_at").str?
    bumpLevel := ← (← json.field? "bump_level").nullable?
    bumpRationale := ← (← json.field? "bump_rationale").nullable?
    components := ← (← (← json.field? "components").items?).mapM readReleaseComponent }

/-- `parse`, at the listener that the event type selects. -/
def parseEvent (event : DomainEvent) : Option ProductEvent :=
  match event.eventType with
  | .versionCreated => do
    let componentId ← (← event.data.field? "component_id").str?
    let version ← readVersion (← event.data.field? "version")
    return .versionCreated ⟨componentId, version⟩
  | .versionRolledBack => do
    let componentId ← (← event.data.field? "component_id").str?
    let versionId ← (← event.data.field? "version_id").str?
    let reactivatedVersionId ← (← event.data.field? "reactivated_version_id").str?
    return .versionRolledBack ⟨componentId, versionId, reactivatedVersionId⟩
  | .releaseCut => do
    return .releaseCut ⟨← readRelease (← event.data.field? "release")⟩
  | .dependencyAdded => do
    return .dependencyAdded ⟨← readDependency (← event.data.field? "dependency")⟩
  | .dependencyRemoved => do
    return .dependencyRemoved ⟨← readRemovedDependency (← event.data.field? "dependency")⟩

section Payloads

@[simp] theorem nullable?_jsonOption (value : Option String) :
    (jsonOption value).nullable? = some value := by
  cases value <;> rfl

@[simp] theorem readVersion_dump (m : VersionResponseModel) : readVersion m.dump = some m := by
  simp [readVersion, VersionResponseModel.dump, Json.field?, List.lookup_cons, Json.str?, Json.int?]

@[simp] theorem readDependency_dump (m : DependencyResponseModel) :
    readDependency m.dump = some m := rfl

@[simp] theorem readReleaseComponent_dump (m : ReleaseComponentResponseModel) :
    readReleaseComponent m.dump = some m := by
  simp [readReleaseComponent, ReleaseComponentResponseModel.dump, Json.field?, List.lookup_cons,
    Json.str?]

@[simp] theorem readRelease_dump (m : ReleaseResponseModel) : readRelease m.dump = some m := by
  have hitems : (m.components.map ReleaseComponentResponseModel.dump).mapM readReleaseComponent =
      some m.components := by
    induction m.components with
    | nil => rfl
    | cons component rest ih => simp [ih]
  simp [readRelease, ReleaseResponseModel.dump, Json.field?, List.lookup_cons, Json.str?,
    Json.items?, hitems]

theorem parseEvent_versionCreated (productId : String) (m : VersionResponseModel) :
    parseEvent (versionCreated productId m) = some (.versionCreated ⟨m.componentId, m⟩) := by
  simp [parseEvent, versionCreated, Json.field?, List.lookup_cons, Json.str?]

theorem parseEvent_versionRolledBack (productId : String) (target m : VersionResponseModel) :
    parseEvent (versionRolledBack productId target m) =
      some (.versionRolledBack ⟨target.componentId, target.id, m.id⟩) := rfl

theorem parseEvent_releaseCut (productId : String) (m : ReleaseResponseModel) :
    parseEvent (releaseCut productId m) = some (.releaseCut ⟨m⟩) := by
  simp [parseEvent, releaseCut, Json.field?]

theorem parseEvent_dependencyAdded (productId : String) (m : DependencyResponseModel) :
    parseEvent (dependencyAdded productId m) = some (.dependencyAdded ⟨m⟩) := rfl

theorem parseEvent_dependencyRemoved (data : RemoveDependencyRequest) (edgeId : String) :
    parseEvent (dependencyRemoved data edgeId) = some (.dependencyRemoved
      ⟨⟨edgeId, data.productId, data.fromComponentId, data.toComponentId⟩⟩) := rfl

end Payloads

/-! ## Reducers -/

/-- `addVersionToComponent`. -/
def addVersionToComponent (component : ComponentWithVersionsResponseModel)
    (incoming : VersionResponseModel) : ComponentWithVersionsResponseModel :=
  let demoted := component.versions.map fun version =>
    if version.status = .active then { version with status := .superseded } else version
  { component with versions := demoted ++ [{ incoming with status := .active }] }

def applyVersionCreated (timeline : TimelineResponseModel) (event : VersionCreatedEvent) :
    TimelineResponseModel :=
  { timeline with
    components := timeline.components.map fun component =>
      if component.id ≠ event.componentId then component
      else addVersionToComponent component event.version }

/-- What `applyVersionRolledBack` makes of a version. -/
def rollBackVersion (event : VersionRolledBackEvent) (version : VersionResponseModel) :
    VersionResponseModel :=
  if version.id = event.versionId then { version with status := .rolledBack }
  else if version.id = event.reactivatedVersionId then { version with status := .active }
  else version

def applyVersionRolledBack (timeline : TimelineResponseModel) (event : VersionRolledBackEvent) :
    TimelineResponseModel :=
  { timeline with
    components := timeline.components.map fun component =>
      { component with versions := component.versions.map (rollBackVersion event) } }

/-- A duplicate id is ignored. -/
def applyDependencyAdded (graph : GraphResponseModel) (event : DependencyAddedEvent) :
    GraphResponseModel :=
  if graph.edges.any fun edge => edge.id = event.dependency.id then graph
  else { graph with edges := graph.edges ++ [event.dependency] }

def applyDependencyRemoved (graph : GraphResponseModel) (event : DependencyRemovedEvent) :
    GraphResponseModel :=
  { graph with edges := graph.edges.filter fun edge => edge.id ≠ event.dependency.id }

/-! ## Handlers -/

/-- The cached answers of one product: `timelineKey`, `graphKey`, `releasesKey`. -/
inductive QueryKey where
  | timeline | graph | releases
  deriving DecidableEq, Repr

/-- What is cached under a key. -/
abbrev QueryKey.Data : QueryKey → Type
  | .timeline => TimelineResponseModel
  | .graph => GraphResponseModel
  | .releases => List ReleaseResponseModel

/-- The key that the handler of an event sets and invalidates. -/
def ProductEvent.key : ProductEvent → QueryKey
  | .versionCreated _ => .timeline
  | .versionRolledBack _ => .timeline
  | .releaseCut _ => .releases
  | .dependencyAdded _ => .graph
  | .dependencyRemoved _ => .graph

/-- What the handler of an event sets under a key. -/
def ProductEvent.reduce (event : ProductEvent) : (key : QueryKey) → key.Data → key.Data
  | .timeline, timeline =>
    match event with
    | .versionCreated event => applyVersionCreated timeline event
    | .versionRolledBack event => applyVersionRolledBack timeline event
    | _ => timeline
  | .graph, graph =>
    match event with
    | .dependencyAdded event => applyDependencyAdded graph event
    | .dependencyRemoved event => applyDependencyRemoved graph event
    | _ => graph
  | .releases, releases =>
    match event with
    | .releaseCut event => event.release :: releases
    | _ => releases

end LavsCore
