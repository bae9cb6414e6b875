import LavsCore.Errors
import LavsCore.Lib.Table
import LavsCore.Python.Encode

/-!
# The relational store

The six tables of `app/database/*/ddl.sql` that products, versions and releases
live in. A `Store` carries the constraints of the DDL: primary keys (`Table`),
foreign keys, the unique key of the dependency edges, the `INTEGER` columns, and
the `CHECK`s (by the type of the column). The two id columns of
`release_components` besides `release_id` have no foreign key there.

A statement that would break a constraint is refused and leaves the store as it
was. `created_at` is the `DEFAULT CURRENT_TIMESTAMP` of the row.

The engines have the same constraints. They differ in the columns of text: MySQL and
SQL Server give them a width (`insertVersionOn`).
-/

namespace LavsCore

/-- `BackendKind`. -/
inductive BackendKind where
  | duckdb | postgres | mysql | mssql
  deriving DecidableEq, Repr

/-- `VersionStatus`. -/
inductive VersionStatus where
  | active | superseded | rolledBack
  deriving DecidableEq, Repr

/-- `ComponentKind`. -/
inductive ComponentKind where
  | library | service | ui | cli
  deriving DecidableEq, Repr

structure ProductRow where
  id : String
  name : String
  description : Option String
  baseVersion : String
  bumpPolicy : String
  createdAt : Py.Timestamp
  deriving DecidableEq, Repr

structure ComponentRow where
  id : String
  productId : String
  name : String
  kind : ComponentKind
  deriving DecidableEq, Repr

/-- The status column is nullable: a `CHECK` accepts `NULL`. -/
structure VersionRow where
  id : String
  componentId : String
  major : Int
  minor : Int
  patch : Int
  prerelease : Option String
  status : Option VersionStatus
  createdAt : Py.Timestamp
  deriving DecidableEq, Repr

/-- The width of the column `prerelease`. DuckDB and PostgreSQL have a `VARCHAR` without one. -/
def BackendKind.prereleaseWidth : BackendKind → Option Nat
  | .duckdb | .postgres => none
  | .mysql | .mssql => some 255

/-- The prerelease fits its column. Blanks over the width are cut off and not refused. -/
def VersionRow.fits (backend : BackendKind) (row : VersionRow) : Bool :=
  row.prerelease.all fun prerelease => backend.prereleaseWidth.all fun width =>
    (prerelease.toList.drop width).all fun c => c == ' '

/-- The columns of a version besides its status. -/
def VersionRow.fixed (v : VersionRow) : VersionRow := { v with status := none }

/-- `v.component_id = c AND v.status = 'active'`. -/
def VersionRow.isActiveOf (c : String) (v : VersionRow) : Bool :=
  v.componentId = c && v.status = some .active

structure ReleaseRow where
  id : String
  productId : String
  productVersion : String
  label : Option String
  notes : Option String
  idempotencyKey : Option String
  bumpLevel : Option String
  bumpRationale : Option String
  createdAt : Py.Timestamp
  deriving DecidableEq, Repr

structure ReleaseComponentRow where
  releaseId : String
  componentId : String
  versionId : String
  changeLevel : Option String
  deriving DecidableEq, Repr

structure DependencyRow where
  id : String
  productId : String
  fromComponentId : String
  toComponentId : String
  createdAt : Py.Timestamp
  deriving DecidableEq, Repr

/-- The primary key of `release_components`. -/
def ReleaseComponentRow.key (r : ReleaseComponentRow) : String × String :=
  (r.releaseId, r.componentId)

/-- The unique key of `component_dependencies`. -/
def DependencyRow.key (r : DependencyRow) : String × String × String :=
  (r.productId, r.fromComponentId, r.toComponentId)

/-- The edge that a row of `component_dependencies` stands for. -/
def DependencyRow.edge (r : DependencyRow) : String × String :=
  (r.fromComponentId, r.toComponentId)

/-- The range of an `INTEGER` column. -/
def InInteger (n : Int) : Prop := -2147483648 ≤ n ∧ n ≤ 2147483647

instance (n : Int) : Decidable (InInteger n) := inferInstanceAs (Decidable (_ ∧ _))

/-- The numbers of the version fit their columns. -/
def VersionRow.InRange (r : VersionRow) : Prop :=
  InInteger r.major ∧ InInteger r.minor ∧ InInteger r.patch

instance (r : VersionRow) : Decidable r.InRange := inferInstanceAs (Decidable (_ ∧ _ ∧ _))

/-- The tables, with the constraints of the DDL. -/
structure Store where
  products : Table ProductRow ProductRow.id
  components : Table ComponentRow ComponentRow.id
  versions : Table VersionRow VersionRow.id
  releases : Table ReleaseRow ReleaseRow.id
  releaseComponents : Table ReleaseComponentRow ReleaseComponentRow.key
  dependencies : Table DependencyRow DependencyRow.id
  component_product : References components.rows ComponentRow.productId products.keys
  version_component : References versions.rows VersionRow.componentId components.keys
  version_range : ∀ v ∈ versions.rows, v.InRange
  release_product : References releases.rows ReleaseRow.productId products.keys
  manifest_release : References releaseComponents.rows ReleaseComponentRow.releaseId releases.keys
  dependency_product : References dependencies.rows DependencyRow.productId products.keys
  dependency_from :
    References dependencies.rows DependencyRow.fromComponentId components.keys
  dependency_to : References dependencies.rows DependencyRow.toComponentId components.keys
  dependency_unique : (dependencies.rows.map DependencyRow.key).Nodup

namespace Store

@[ext] theorem ext {db db' : Store} (hproducts : db.products = db'.products)
    (hcomponents : db.components = db'.components) (hversions : db.versions = db'.versions)
    (hreleases : db.releases = db'.releases)
    (hmanifest : db.releaseComponents = db'.releaseComponents)
    (hdependencies : db.dependencies = db'.dependencies) : db = db' := by
  cases db; cases db'
  cases hproducts; cases hcomponents; cases hversions
  cases hreleases; cases hmanifest; cases hdependencies
  rfl

/-- A store that has just been created. -/
def empty : Store where
  products := Table.empty
  components := Table.empty
  versions := Table.empty
  releases := Table.empty
  releaseComponents := Table.empty
  dependencies := Table.empty
  component_product := References.nil
  version_component := References.nil
  version_range := fun _ h => absurd h List.not_mem_nil
  release_product := References.nil
  manifest_release := References.nil
  dependency_product := References.nil
  dependency_from := References.nil
  dependency_to := References.nil
  dependency_unique := List.nodup_nil

/-! ## Statements that write -/

/-- `INSERT INTO products`. -/
def insertProduct (db : Store) (row : ProductRow) : Except Refusal Store :=
  if hid : row.id ∈ db.products.keys then .error (.primaryKey "products")
  else
    .ok { db with
      products := db.products.insert row hid
      component_product := by
        rw [Table.insert_keys]
        exact db.component_product.grow row.id
      release_product := by
        rw [Table.insert_keys]
        exact db.release_product.grow row.id
      dependency_product := by
        rw [Table.insert_keys]
        exact db.dependency_product.grow row.id }

/-- `INSERT INTO components`. -/
def insertComponent (db : Store) (row : ComponentRow) : Except Refusal Store :=
  if hid : row.id ∈ db.components.keys then .error (.primaryKey "components")
  else if hproduct : row.productId ∈ db.products.keys then
    .ok { db with
      components := db.components.insert row hid
      component_product := db.component_product.append hproduct
      version_component := by
        rw [Table.insert_keys]
        exact db.version_component.grow row.id
      dependency_from := by
        rw [Table.insert_keys]
        exact db.dependency_from.grow row.id
      dependency_to := by
        rw [Table.insert_keys]
        exact db.dependency_to.grow row.id }
  else .error (.foreignKey "components" "product_id")

/-- `INSERT INTO versions`. -/
def insertVersion (db : Store) (row : VersionRow) : Except Refusal Store :=
  if hrange : row.InRange then
    if hid : row.id ∈ db.versions.keys then .error (.primaryKey "versions")
    else if hcomponent : row.componentId ∈ db.components.keys then
      .ok { db with
        versions := db.versions.insert row hid
        version_component := db.version_component.append hcomponent
        version_range := by
          intro v hv
          rcases List.mem_append.mp hv with hv | hv
          · exact db.version_range v hv
          · exact List.mem_singleton.mp hv ▸ hrange }
    else .error (.foreignKey "versions" "component_id")
  else .error (.outOfRange "versions")

/-- `INSERT INTO versions` on an engine. The blanks that it cuts off are kept. -/
def insertVersionOn (db : Store) (backend : BackendKind) (row : VersionRow) :
    Except Refusal Store :=
  if row.fits backend then db.insertVersion row else .error (.outOfRange "versions")

/-- `UPDATE versions SET status = ? WHERE …`. -/
def setStatus (db : Store) (status : VersionStatus) (where? : VersionRow → Bool) : Store :=
  { db with
    versions := db.versions.update
      (fun v => if where? v then { v with status := some status } else v)
      (fun v => by split <;> rfl)
    version_component := db.version_component.map fun v => by split <;> rfl
    version_range := by
      intro v hv
      obtain ⟨v₀, hv₀, rfl⟩ := List.mem_map.mp hv
      have hrange := db.version_range v₀ hv₀
      split <;> exact hrange }

/-- `_SUPERSEDE_ACTIVE`. -/
def supersedeActive (db : Store) (componentId : String) : Store :=
  db.setStatus .superseded (VersionRow.isActiveOf componentId)

/-- `_MARK_STATUS`. -/
def markStatus (db : Store) (status : VersionStatus) (id : String) : Store :=
  db.setStatus status fun v => v.id = id

/-- `INSERT INTO releases`. -/
def insertRelease (db : Store) (row : ReleaseRow) : Except Refusal Store :=
  if hid : row.id ∈ db.releases.keys then .error (.primaryKey "releases")
  else if hproduct : row.productId ∈ db.products.keys then
    .ok { db with
      releases := db.releases.insert row hid
      release_product := db.release_product.append hproduct
      manifest_release := by
        rw [Table.insert_keys]
        exact db.manifest_release.grow row.id }
  else .error (.foreignKey "releases" "product_id")

/-- `INSERT INTO release_components`. -/
def insertReleaseComponent (db : Store) (row : ReleaseComponentRow) : Except Refusal Store :=
  if hkey : row.key ∈ db.releaseComponents.keys then .error (.primaryKey "release_components")
  else if hrelease : row.releaseId ∈ db.releases.keys then
    .ok { db with
      releaseComponents := db.releaseComponents.insert row hkey
      manifest_release := db.manifest_release.append hrelease }
  else .error (.foreignKey "release_components" "release_id")

/-- `INSERT INTO component_dependencies`. -/
def insertDependency (db : Store) (row : DependencyRow) : Except Refusal Store :=
  if hid : row.id ∈ db.dependencies.keys then .error (.primaryKey "component_dependencies")
  else if hkey : row.key ∈ db.dependencies.rows.map DependencyRow.key then
    .error (.unique "component_dependencies")
  else if hproduct : row.productId ∈ db.products.keys then
    if hfrom : row.fromComponentId ∈ db.components.keys then
      if hto : row.toComponentId ∈ db.components.keys then
        .ok { db with
          dependencies := db.dependencies.insert row hid
          dependency_product := db.dependency_product.append hproduct
          dependency_from := db.dependency_from.append hfrom
          dependency_to := db.dependency_to.append hto
          dependency_unique := by
            rw [Table.insert_rows, List.map_append, List.nodup_append]
            refine ⟨db.dependency_unique, List.nodup_singleton _, ?_⟩
            rintro k hk _ hk' rfl
            exact hkey (List.mem_singleton.mp hk' ▸ hk) }
      else .error (.foreignKey "component_dependencies" "to_component_id")
    else .error (.foreignKey "component_dependencies" "from_component_id")
  else .error (.foreignKey "component_dependencies" "product_id")

/-- `DELETE FROM component_dependencies WHERE id = ?`. -/
def deleteDependency (db : Store) (id : String) : Store :=
  { db with
    dependencies := db.dependencies.keep fun d => d.id ≠ id
    dependency_product := db.dependency_product.filter _
    dependency_from := db.dependency_from.filter _
    dependency_to := db.dependency_to.filter _
    dependency_unique :=
      db.dependency_unique.sublist (List.filter_sublist.map DependencyRow.key) }

/-- The store with no row in `component_dependencies`. -/
def withoutDependencies (db : Store) : Store :=
  { db with
    dependencies := Table.empty
    dependency_product := References.nil
    dependency_from := References.nil
    dependency_to := References.nil
    dependency_unique := List.nodup_nil }

/-- The versions of a component that are active. -/
def activeVersions (db : Store) (componentId : String) : List VersionRow :=
  db.versions.rows.filter (VersionRow.isActiveOf componentId)

end Store

end LavsCore
