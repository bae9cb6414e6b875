import LavsCore.Lib.Dict
import LavsCore.Migration.Database

/-!
# The migration of the flat table

`FlatToRelationalMigration.run`, statement by statement, and the two calls of the
lifespan that touch the schema (`boot`). The gate looks at the columns behind the name
`versions` and at the number of rows there and in `products`. The run then renames the
flat table, creates the relational one, and inserts row after row, each statement in a
transaction of its own.
-/

namespace LavsCore

/-- What `ORDER BY product_name, major, minor, patch` does to the rows. Where letters and
`NULL`s stand is up to the engine. -/
structure Collation where
  sort : List LegacyRow → List LegacyRow
  perm : ∀ rows, (sort rows).Perm rows

/-- What a boot takes from its surroundings: the ids that `new_ulid` mints, one after the
other, and the clock when each of them is inserted. -/
structure BootEnv where
  ulid : Nat → String
  now : Nat → Py.Timestamp
  collation : Collation

/-- The statements of a boot. -/
inductive MigrationSql where
  | schema (statement : SchemaStatement)
  | selectColumns
  | selectTable (table : RelationalTable)
  | countRows (table : RelationalTable)
  | selectLegacyRows
  | renameTable
  | insertProduct
  | insertComponent
  | insertVersion
  deriving DecidableEq, Repr

abbrev Migration (α : Type) := Prog MigrationSql Database MigrationError α

namespace Migration

variable {α : Type}

/-- A statement that reads. -/
def read (statement : MigrationSql) (f : Database → Except MigrationError α) : Migration α :=
  Prog.atomically statement fun db => (f db).map fun a => (a, db)

/-- A statement that writes. -/
def write (statement : MigrationSql) (f : Database → Except MigrationError Database) :
    Migration PUnit :=
  Prog.atomically statement fun db => (f db).map fun db' => (⟨⟩, db')

end Migration

open Migration Database

/-! ## The gate -/

/-- `_row_count`. -/
def rowCount (table : RelationalTable) (count : Database → Except MigrationError Nat) :
    Migration Nat := do
  if ← Prog.query (.selectTable table) (hasTable table) then read (.countRows table) count
  else return 0

/-- `_should_migrate`. -/
def shouldMigrate : Migration Bool := do
  let sourceColumns ← Prog.query .selectColumns versionsColumns
  if sourceColumns.contains "product_name" then
    let sourceRows ← rowCount .versions countVersions
    if sourceRows = 0 then return false
    else
      let products ← rowCount .products countProducts
      return decide (products = 0)
  else return false

/-! ## The run -/

/-- What the migration reads of a row. -/
structure LegacyVersion where
  productName : String
  major : Int
  minor : Int
  patch : Int
  status : Option String
  deriving DecidableEq, Repr

/-- `str(value)` of a column. -/
def strOf : Option String → String
  | some text => text
  | none => "None"

/-- `int(value)` of a column. -/
def intOf : Option Int → Except MigrationError Int
  | some n => .ok n
  | none =>
    .error (.typeError
      "int() argument must be a string, a bytes-like object or a real number, not 'NoneType'")

def LegacyRow.read (row : LegacyRow) : Except MigrationError LegacyVersion := do
  let major ← intOf row.major
  let minor ← intOf row.minor
  let patch ← intOf row.patch
  return ⟨strOf row.productName, major, minor, patch, row.status⟩

/-- `_read_legacy_rows`. -/
def readLegacyRows (env : BootEnv) : Migration (List LegacyVersion) := do
  let rows ← read .selectLegacyRows fun db => db.legacyRows.map env.collation.sort
  Prog.lift (rows.mapM LegacyRow.read)

/-- `_archive_source_table`. -/
def archiveSourceTable : Migration PUnit := write .renameTable renameVersions

/-- `DdlScript.statements`, one after the other. -/
def runScript : List SchemaStatement → Migration PUnit
  | [] => pure ⟨⟩
  | statement :: rest => do
    write (.schema statement) fun db => .ok (db.applySchema statement)
    runScript rest

/-- `Backend.init_schema`. -/
def initSchema (backend : BackendKind) : Migration PUnit := runScript (ddl backend)

/-- The row of a migrated product. The base version and the bump policy are the defaults
of their columns. -/
def migratedProduct (env : BootEnv) (minted : Nat) (productName : String) : ProductRow where
  id := env.ulid minted
  name := productName
  description := none
  baseVersion := "0.0.0"
  bumpPolicy := "legacy"
  createdAt := env.now minted

/-- The row of its component. -/
def migratedComponent (env : BootEnv) (minted : Nat) : ComponentRow where
  id := env.ulid (minted + 1)
  productId := env.ulid minted
  name := "default"
  kind := .service

/-- The row of a migrated version, without its status. -/
def migratedVersion (env : BootEnv) (minted : Nat) (componentId : String) (row : LegacyVersion) :
    VersionRow where
  id := env.ulid minted
  componentId := componentId
  major := row.major
  minor := row.minor
  patch := row.patch
  prerelease := none
  status := none
  createdAt := env.now minted

/-- `_create_product_and_component`, after `minted` ids. -/
def createProductAndComponent (env : BootEnv) (minted : Nat) (productName : String) :
    Migration String := do
  write .insertProduct (insertProduct (migratedProduct env minted productName))
  write .insertComponent (insertComponent (migratedComponent env minted))
  return env.ulid (minted + 1)

/-- The component of the product, which is created if the dictionary does not know it. -/
def componentFor (env : BootEnv) (componentIdByProduct : Dict String String) (minted : Nat)
    (productName : String) : Migration (String × Dict String String × Nat) :=
  match Dict.get? componentIdByProduct productName with
  | some componentId => pure (componentId, componentIdByProduct, minted)
  | none => do
    let componentId ← createProductAndComponent env minted productName
    return (componentId, Dict.set componentIdByProduct productName componentId, minted + 2)

/-- The loop of `_insert_relational`, after `minted` ids. -/
def insertRelational (engine : Engine) (env : BootEnv) :
    List LegacyVersion → Dict String String → Nat → Migration PUnit
  | [], _, _ => pure ⟨⟩
  | row :: rest, componentIdByProduct, minted => do
    let (componentId, componentIdByProduct, minted) ←
      componentFor env componentIdByProduct minted row.productName
    write .insertVersion
      (insertVersion engine (migratedVersion env minted componentId row) row.status)
    insertRelational engine env rest componentIdByProduct (minted + 1)

/-- `FlatToRelationalMigration.run`. -/
def FlatToRelationalMigration.run (engine : Engine) (env : BootEnv) : Migration PUnit := do
  if ← shouldMigrate then
    let legacyRows ← readLegacyRows env
    archiveSourceTable
    initSchema engine.kind
    insertRelational engine env legacyRows Table.empty 0
  else return ⟨⟩

/-- What the lifespan does to the schema. -/
def boot (engine : Engine) (env : BootEnv) : Migration PUnit := do
  initSchema engine.kind
  FlatToRelationalMigration.run engine env

end LavsCore
