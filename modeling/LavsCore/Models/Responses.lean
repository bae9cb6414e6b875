import LavsCore.Domain.ChangeClassifier
import LavsCore.Store.Schema

/-!
# Responses

`app/models/responses/`, the mappers that build them from rows, and the domain
events. A release is rendered by two mappers: `formatVersion` serves the cut,
`versionString` serves the reads. They differ on an empty prerelease
(`formatVersion_eq_versionString_iff`).
-/

namespace LavsCore

def VersionStatus.value : VersionStatus → String
  | .active => "active"
  | .superseded => "superseded"
  | .rolledBack => "rolled_back"

/-- The member of `VersionStatus` with a value. -/
def VersionStatus.ofValue? (text : String) : Option VersionStatus :=
  [.active, .superseded, .rolledBack].find? fun status => status.value = text

@[simp] theorem VersionStatus.ofValue?_value (status : VersionStatus) :
    VersionStatus.ofValue? status.value = some status := by
  cases status <;> decide

/-- `BumpPolicy.DEFAULT.value`. -/
def BumpPolicy.default : String := "default"

structure ProductResponseModel where
  id : String
  name : String
  description : Option String
  baseVersion : String
  createdAt : String
  deriving DecidableEq, Repr

structure ComponentResponseModel where
  id : String
  productId : String
  name : String
  kind : ComponentKind
  deriving DecidableEq, Repr

structure VersionResponseModel where
  id : String
  componentId : String
  major : Int
  minor : Int
  patch : Int
  prerelease : Option String
  status : VersionStatus
  createdAt : String
  deriving DecidableEq, Repr

structure DependencyResponseModel where
  id : String
  productId : String
  fromComponentId : String
  toComponentId : String
  createdAt : String
  deriving DecidableEq, Repr

structure ComponentWithVersionsResponseModel where
  id : String
  productId : String
  name : String
  kind : ComponentKind
  versions : List VersionResponseModel
  deriving DecidableEq, Repr

structure TimelineResponseModel where
  product : ProductResponseModel
  components : List ComponentWithVersionsResponseModel
  deriving DecidableEq, Repr

structure GraphResponseModel where
  productId : String
  nodes : List ComponentResponseModel
  edges : List DependencyResponseModel
  deriving DecidableEq, Repr

structure ImpactedComponentModel where
  componentId : String
  projectedChangeLevel : String
  deriving DecidableEq, Repr

structure ImpactResponseModel where
  componentId : String
  impacted : List ImpactedComponentModel
  deriving DecidableEq, Repr

structure ReleaseComponentResponseModel where
  componentId : String
  name : String
  versionId : String
  version : String
  changeLevel : Option String
  deriving DecidableEq, Repr

structure ReleaseResponseModel where
  id : String
  productId : String
  productVersion : String
  label : Option String
  notes : Option String
  createdAt : String
  bumpLevel : Option String
  bumpRationale : Option String
  components : List ReleaseComponentResponseModel
  deriving DecidableEq, Repr

structure CutReleaseResult where
  release : ReleaseResponseModel
  created : Bool
  deriving DecidableEq, Repr

/-! ## Mappers -/

/-- `ProductResponseMapper.to_model`. -/
def toProductResponse (row : ProductRow) : ProductResponseModel where
  id := row.id
  name := row.name
  description := row.description
  baseVersion := row.baseVersion
  createdAt := Py.isoformat row.createdAt

/-- The fields that `Ge(0)` refuses. -/
def negativeFields (row : VersionRow) : List String :=
  ([("major", row.major), ("minor", row.minor), ("patch", row.patch)].filter
    fun field => field.2 < 0).map Prod.fst

/-- `to_version_response`. -/
def toVersionResponse (row : VersionRow) : Except ApiError VersionResponseModel :=
  match row.status with
  | none => .error (.valueError "None is not a valid VersionStatus")
  | some status =>
    if negativeFields row = [] then
      .ok {
        id := row.id
        componentId := row.componentId
        major := row.major
        minor := row.minor
        patch := row.patch
        prerelease := row.prerelease
        status := status
        createdAt := Py.isoformat row.createdAt }
    else .error (.validation "VersionResponseModel" (negativeFields row))

theorem toVersionResponse_ok_iff {row : VersionRow} {m : VersionResponseModel} :
    toVersionResponse row = .ok m ↔
      ∃ status, row.status = some status ∧ negativeFields row = [] ∧
        m = ⟨row.id, row.componentId, row.major, row.minor, row.patch, row.prerelease, status,
          Py.isoformat row.createdAt⟩ := by
  unfold toVersionResponse
  constructor
  · intro h
    split at h
    · cases h
    · next status hstatus =>
      split at h
      · next hneg =>
        cases h
        exact ⟨status, hstatus, hneg, rfl⟩
      · cases h
  · rintro ⟨status, hstatus, hneg, rfl⟩
    simp only [hstatus, hneg, if_true]

/-- The model accepts natural numbers. -/
theorem negativeFields_natCast {row : VersionRow} {major minor patch : Nat}
    (hmajor : row.major = major) (hminor : row.minor = minor) (hpatch : row.patch = patch) :
    negativeFields row = [] := by
  have hnat : ∀ n : Nat, decide ((n : Int) < 0) = false := by
    intro n
    exact decide_eq_false (by omega)
  simp [negativeFields, hmajor, hminor, hpatch, hnat]

/-- `DependencyResponseMapper.to_model`. -/
def toDependencyResponse (row : DependencyRow) : DependencyResponseModel where
  id := row.id
  productId := row.productId
  fromComponentId := row.fromComponentId
  toComponentId := row.toComponentId
  createdAt := Py.isoformat row.createdAt

/-- `to_release_response` and `ReleaseResponseMapper.to_model`, which build the same
model from the same columns. -/
def toReleaseResponse (row : ReleaseRow) (components : List ReleaseComponentResponseModel) :
    ReleaseResponseModel where
  id := row.id
  productId := row.productId
  productVersion := row.productVersion
  label := row.label
  notes := row.notes
  createdAt := Py.isoformat row.createdAt
  bumpLevel := row.bumpLevel
  bumpRationale := row.bumpRationale
  components := components

/-- A manifest row joined with its component and its version. -/
structure ManifestEntry where
  releaseId : String
  componentId : String
  name : String
  versionId : String
  major : Int
  minor : Int
  patch : Int
  prerelease : Option String
  changeLevel : Option String
  deriving DecidableEq, Repr

/-- `format_version`: a falsy prerelease is left out. -/
def formatVersion (major minor patch : Int) (prerelease : Option String) : String :=
  match orNone prerelease with
  | some label => s!"{major}.{minor}.{patch}-{label}"
  | none => s!"{major}.{minor}.{patch}"

/-- `ReleaseManifestReader._version_string`: only `None` is left out. -/
def versionString (major minor patch : Int) (prerelease : Option String) : String :=
  match prerelease with
  | some label => s!"{major}.{minor}.{patch}-{label}"
  | none => s!"{major}.{minor}.{patch}"

/-- One entry of `to_release_components`. -/
def toReleaseComponent (entry : ManifestEntry) : ReleaseComponentResponseModel where
  componentId := entry.componentId
  name := entry.name
  versionId := entry.versionId
  version := formatVersion entry.major entry.minor entry.patch entry.prerelease
  changeLevel := entry.changeLevel

/-- One entry of `ReleaseManifestReader.read`. -/
def toManifestComponent (entry : ManifestEntry) : ReleaseComponentResponseModel where
  componentId := entry.componentId
  name := entry.name
  versionId := entry.versionId
  version := versionString entry.major entry.minor entry.patch entry.prerelease
  changeLevel := entry.changeLevel

/-- The two renderers differ on an empty prerelease and on nothing else. -/
theorem formatVersion_eq_versionString_iff (major minor patch : Int)
    (prerelease : Option String) :
    formatVersion major minor patch prerelease = versionString major minor patch prerelease ↔
      prerelease ≠ some "" := by
  cases prerelease with
  | none => simp [formatVersion, versionString, orNone]
  | some label =>
    rcases eq_or_ne label "" with rfl | hne
    · refine iff_of_false (fun heq => ?_) (fun hne => hne rfl)
      have hlen := congrArg String.length heq
      simp only [formatVersion, versionString, orNone, String.length_append] at hlen
      have hdash : (toString "-").length = 1 := rfl
      omega
    · have hor : orNone (some label) = some label := by
        unfold orNone
        split
        · next h => exact absurd (Option.some.inj h) hne
        · rfl
      simp [formatVersion, versionString, hor, hne]

theorem toReleaseComponent_eq_iff (entry : ManifestEntry) :
    toReleaseComponent entry = toManifestComponent entry ↔ entry.prerelease ≠ some "" := by
  rw [← formatVersion_eq_versionString_iff entry.major entry.minor entry.patch]
  simp [toReleaseComponent, toManifestComponent]

/-! ## Events -/

/-- `EventType`. -/
inductive EventType where
  | versionCreated | versionRolledBack | releaseCut | dependencyAdded | dependencyRemoved
  deriving DecidableEq, Repr

structure DomainEvent where
  eventType : EventType
  productId : String
  data : Py.Json

/-- A text or `null`. -/
def jsonOption : Option String → Py.Json
  | some s => .str s
  | none => .null

/-- `model_dump` of a version. -/
def VersionResponseModel.dump (m : VersionResponseModel) : Py.Json :=
  .obj [("id", .str m.id), ("component_id", .str m.componentId), ("major", .int m.major),
    ("minor", .int m.minor), ("patch", .int m.patch), ("prerelease", jsonOption m.prerelease),
    ("status", .str m.status.value), ("created_at", .str m.createdAt)]

/-- `model_dump` of a dependency. -/
def DependencyResponseModel.dump (m : DependencyResponseModel) : Py.Json :=
  .obj [("id", .str m.id), ("product_id", .str m.productId),
    ("from_component_id", .str m.fromComponentId), ("to_component_id", .str m.toComponentId),
    ("created_at", .str m.createdAt)]

/-- `model_dump` of a manifest entry. -/
def ReleaseComponentResponseModel.dump (m : ReleaseComponentResponseModel) : Py.Json :=
  .obj [("component_id", .str m.componentId), ("name", .str m.name),
    ("version_id", .str m.versionId), ("version", .str m.version),
    ("change_level", jsonOption m.changeLevel)]

/-- `model_dump` of a release. -/
def ReleaseResponseModel.dump (m : ReleaseResponseModel) : Py.Json :=
  .obj [("id", .str m.id), ("product_id", .str m.productId),
    ("product_version", .str m.productVersion), ("label", jsonOption m.label),
    ("notes", jsonOption m.notes), ("created_at", .str m.createdAt),
    ("bump_level", jsonOption m.bumpLevel), ("bump_rationale", jsonOption m.bumpRationale),
    ("components", .arr (m.components.map ReleaseComponentResponseModel.dump))]

end LavsCore
