import LavsCore.Auth.Store
import LavsCore.Lib.Interruption
import LavsCore.Models.Responses
import LavsCore.Store.Statements

/-!
# The database at boot

What the migration meets: the relational tables, and the name `versions`, which stands
for the flat table of the legacy service, for the relational table, or for nothing
(`VersionsTable`). The legacy rows end up under a name of their own (`archive`).

The columns of the flat table are those of the DDL in
`tests/backends/test_migration_parity.py`. The text of a status is compared as the
collation of the database compares it (`Engine`).
-/

namespace LavsCore

/-! ## Engines -/

/-- An engine, and what the collation of its database makes of a text: the status whose own
text it takes for the same. MySQL and SQL Server ignore case by default: `ACTIVE` is the
text `active` to them. -/
structure Engine where
  kind : BackendKind
  status? : String → Option VersionStatus
  status_value : ∀ status, status? status.value = some status

/-- An engine that compares texts letter by letter, as DuckDB and PostgreSQL do. -/
def Engine.exact (kind : BackendKind) : Engine :=
  ⟨kind, VersionStatus.ofValue?, VersionStatus.ofValue?_value⟩

/-- The text of a status as the engine compares it. -/
def Engine.statusText (engine : Engine) (text : String) : String :=
  ((engine.status? text).map VersionStatus.value).getD text

@[simp] theorem Engine.statusText_exact (kind : BackendKind) (text : String) :
    (Engine.exact kind).statusText text = text := by
  simp only [statusText, exact]
  cases hfound : VersionStatus.ofValue? text with
  | none => rfl
  | some status =>
    have hvalue : status.value = text := by simpa using List.find?_some hfound
    exact hvalue

/-! ## Tables -/

/-- A row of the flat table. Every column is nullable. -/
structure LegacyRow where
  id : Option Int
  major : Option Int
  minor : Option Int
  patch : Option Int
  productName : Option String
  status : Option String
  deriving DecidableEq, Repr

/-- The numbers that are there fit their `INTEGER` columns. -/
def LegacyRow.InRange (row : LegacyRow) : Prop :=
  ∀ column ∈ [row.id, row.major, row.minor, row.patch], ∀ n ∈ column, InInteger n

instance (row : LegacyRow) : Decidable row.InRange :=
  inferInstanceAs
    (Decidable (∀ column ∈ [row.id, row.major, row.minor, row.patch], ∀ n ∈ column, InInteger n))

/-- The flat table. -/
structure LegacyTable where
  rows : List LegacyRow
  range : ∀ row ∈ rows, row.InRange

/-- The tables of the DDL. -/
inductive RelationalTable where
  | products | components | versions | releases | releaseComponents | componentDependencies
  | users | sessions | emailVerificationTokens
  deriving DecidableEq, Repr

def RelationalTable.name : RelationalTable → String
  | .products => "products"
  | .components => "components"
  | .versions => "versions"
  | .releases => "releases"
  | .releaseComponents => "release_components"
  | .componentDependencies => "component_dependencies"
  | .users => "users"
  | .sessions => "sessions"
  | .emailVerificationTokens => "email_verification_tokens"

/-- What the name `versions` stands for. -/
inductive VersionsTable where
  | absent
  | legacy (table : LegacyTable)
  | relational

/-- The tables at boot. `tables` are the relational ones that exist besides `versions`. A
relational version needs its table. -/
structure Database where
  relational : Store
  tables : List RelationalTable
  versions : VersionsTable
  archive : Option LegacyTable
  no_versions : versions ≠ .relational → relational.versions.rows = []

/-- Why a statement of the migration fails. -/
inductive MigrationError where
  | refused (refusal : Refusal)
  | checkViolated (table column : String)
  | noSuchTable (name : String)
  | noSuchColumn (name : String)
  | tableExists (name : String)
  | typeError (message : String)
  deriving DecidableEq, Repr

/-- A statement of `ddl.sql`. -/
inductive SchemaStatement where
  | createTable (table : RelationalTable)
  | addColumn (table : RelationalTable) (column : String)
  deriving DecidableEq, Repr

/-- `ddl.sql` of the backend. -/
def ddl : BackendKind → List SchemaStatement
  | .duckdb | .postgres =>
    [.createTable .products, .addColumn .products "base_version",
      .addColumn .products "bump_policy", .createTable .components, .createTable .versions,
      .createTable .releases, .addColumn .releases "bump_level",
      .addColumn .releases "bump_rationale", .createTable .releaseComponents,
      .addColumn .releaseComponents "change_level", .createTable .componentDependencies,
      .createTable .users, .createTable .sessions, .createTable .emailVerificationTokens]
  | .mysql | .mssql =>
    [.createTable .products, .createTable .components, .createTable .versions,
      .createTable .releases, .createTable .releaseComponents,
      .createTable .componentDependencies, .createTable .users, .createTable .sessions,
      .createTable .emailVerificationTokens]

namespace Database

/-! ## Statements -/

/-- `CREATE TABLE IF NOT EXISTS`, `ALTER TABLE … ADD COLUMN IF NOT EXISTS`. The columns
that a database of this schema may lack are all there. -/
def applySchema (statement : SchemaStatement) (db : Database) : Database :=
  match statement with
  | .createTable .versions =>
    match db.versions with
    | .absent =>
      { db with versions := .relational, no_versions := fun h => absurd rfl h }
    | .legacy _ => db
    | .relational => db
  | .createTable table => if table ∈ db.tables then db else { db with tables := table :: db.tables }
  | .addColumn _ _ => db

/-- `_COLUMNS_FOR_TABLE_SQL` for `versions`. -/
def versionsColumns (db : Database) : List String :=
  match db.versions with
  | .absent => []
  | .legacy _ => ["id", "major", "minor", "patch", "product_name", "status"]
  | .relational =>
    ["id", "component_id", "major", "minor", "patch", "prerelease", "status", "created_at"]

/-- `_TABLE_EXISTS_SQL`. -/
def hasTable (table : RelationalTable) (db : Database) : Bool :=
  match table, db.versions with
  | .versions, .absent => false
  | .versions, _ => true
  | table, _ => table ∈ db.tables

/-- `SELECT COUNT(*) FROM versions`. -/
def countVersions (db : Database) : Except MigrationError Nat :=
  match db.versions with
  | .absent => .error (.noSuchTable "versions")
  | .legacy table => .ok table.rows.length
  | .relational => .ok db.relational.versions.rows.length

/-- `SELECT COUNT(*) FROM products`. -/
def countProducts (db : Database) : Except MigrationError Nat :=
  if .products ∈ db.tables then .ok db.relational.products.rows.length
  else .error (.noSuchTable "products")

/-- The `SELECT` of `_read_legacy_rows`, before its order. -/
def legacyRows (db : Database) : Except MigrationError (List LegacyRow) :=
  match db.versions with
  | .absent => .error (.noSuchTable "versions")
  | .legacy table => .ok table.rows
  | .relational => .error (.noSuchColumn "product_name")

/-- `rename_table` from `versions` to `legacy_versions`. It runs after the legacy rows
have been read. -/
def renameVersions (db : Database) : Except MigrationError Database :=
  match hversions : db.versions with
  | .legacy table =>
    if db.archive.isSome then .error (.tableExists "legacy_versions")
    else
      .ok { db with
        versions := .absent
        archive := some table
        no_versions := fun _ => db.no_versions (by rw [hversions]; nofun) }
  | .absent => .error (.noSuchTable "versions")
  | .relational => .error (.noSuchColumn "product_name")

/-- A statement on a relational table that exists. -/
def onTable {α : Type} (table : RelationalTable) (db : Database)
    (statement : Except MigrationError α) : Except MigrationError α :=
  if table ∈ db.tables then statement else .error (.noSuchTable table.name)

/-- `INSERT INTO products`. -/
def insertProduct (row : ProductRow) (db : Database) : Except MigrationError Database :=
  onTable .products db <|
    match hinsert : db.relational.insertProduct row with
    | .error refusal => .error (.refused refusal)
    | .ok relational =>
      .ok { db with
        relational := relational
        no_versions := by
          rw [(Store.insertProduct_ok hinsert).versions]
          exact db.no_versions }

/-- `INSERT INTO components`. -/
def insertComponent (row : ComponentRow) (db : Database) : Except MigrationError Database :=
  onTable .components db <|
    match hinsert : db.relational.insertComponent row with
    | .error refusal => .error (.refused refusal)
    | .ok relational =>
      .ok { db with
        relational := relational
        no_versions := by
          rw [(Store.insertComponent_ok hinsert).versions]
          exact db.no_versions }

end Database

/-- What the `CHECK` of the status column admits: `NULL`, or a text that the engine takes for
one of three values. -/
def admitStatus (engine : Engine) : Option String → Except MigrationError (Option VersionStatus)
  | none => .ok none
  | some text =>
    match engine.status? text with
    | some status => .ok (some status)
    | none => .error (.checkViolated "versions" "status")

namespace Database

/-- `INSERT INTO versions`, with the status as the text that is bound. What is stored is the
status that the engine takes the text for. -/
def insertVersion (engine : Engine) (row : VersionRow) (status : Option String) (db : Database) :
    Except MigrationError Database :=
  match hversions : db.versions with
  | .absent => .error (.noSuchTable "versions")
  | .legacy _ => .error (.noSuchColumn "component_id")
  | .relational =>
    match admitStatus engine status with
    | .error error => .error error
    | .ok status =>
      match db.relational.insertVersion { row with status := status } with
      | .error refusal => .error (.refused refusal)
      | .ok relational =>
        .ok { db with relational := relational, no_versions := fun h => absurd hversions h }

/-! ## What the statements do -/

variable {db db' : Database}

/-- The names stand for the same tables as before. -/
structure SameNames (db db' : Database) : Prop where
  tables : db'.tables = db.tables
  versions : db'.versions = db.versions
  archive : db'.archive = db.archive

theorem insertProduct_ok {row : ProductRow} (h : db.insertProduct row = .ok db') :
    Store.ProductInserted db.relational row db'.relational ∧ SameNames db db' := by
  unfold insertProduct onTable at h
  split at h
  · split at h
    · cases h
    · next hinsert =>
      cases h
      exact ⟨Store.insertProduct_ok hinsert, rfl, rfl, rfl⟩
  · cases h

theorem insertProduct_isOk (row : ProductRow) (htable : .products ∈ db.tables)
    (hid : row.id ∉ db.relational.products.keys) : ∃ db', db.insertProduct row = .ok db' := by
  obtain ⟨relational, hrelational⟩ := Store.insertProduct_isOk hid
  unfold insertProduct onTable
  rw [if_pos htable]
  split
  · next hrefused => cases hrelational.symm.trans hrefused
  · exact ⟨_, rfl⟩

theorem insertComponent_ok {row : ComponentRow} (h : db.insertComponent row = .ok db') :
    Store.ComponentInserted db.relational row db'.relational ∧ SameNames db db' := by
  unfold insertComponent onTable at h
  split at h
  · split at h
    · cases h
    · next hinsert =>
      cases h
      exact ⟨Store.insertComponent_ok hinsert, rfl, rfl, rfl⟩
  · cases h

theorem insertComponent_isOk (row : ComponentRow) (htable : .components ∈ db.tables)
    (hid : row.id ∉ db.relational.components.keys)
    (hproduct : row.productId ∈ db.relational.products.keys) :
    ∃ db', db.insertComponent row = .ok db' := by
  obtain ⟨relational, hrelational⟩ := Store.insertComponent_isOk hid hproduct
  unfold insertComponent onTable
  rw [if_pos htable]
  split
  · next hrefused => cases hrelational.symm.trans hrefused
  · exact ⟨_, rfl⟩

/-- An inserted version has a status that the `CHECK` admits. -/
theorem insertVersion_ok {engine : Engine} {row : VersionRow} {status : Option String}
    (h : db.insertVersion engine row status = .ok db') :
    ∃ admitted, admitStatus engine status = .ok admitted ∧
      Store.VersionInserted db.relational { row with status := admitted } db'.relational ∧
      SameNames db db' := by
  unfold insertVersion at h
  split at h
  · cases h
  · cases h
  · split at h
    · cases h
    · next admitted hstatus =>
      split at h
      · cases h
      · next hinsert =>
        cases h
        exact ⟨admitted, hstatus, Store.insertVersion_ok hinsert, rfl, rfl, rfl⟩

theorem insertVersion_isOk {engine : Engine} (row : VersionRow) {status : Option String}
    {admitted : Option VersionStatus} (hversions : db.versions = .relational)
    (hstatus : admitStatus engine status = .ok admitted)
    (hadmits : db.relational.AdmitsVersion { row with status := admitted }) :
    ∃ db', db.insertVersion engine row status = .ok db' := by
  obtain ⟨relational, hrelational⟩ := Store.insertVersion_isOk hadmits
  unfold insertVersion
  split
  · next h => cases hversions.symm.trans h
  · next h => cases hversions.symm.trans h
  · rw [hstatus]
    dsimp only
    rw [hrelational]
    exact ⟨_, rfl⟩

/-- A statement of the schema writes no row, and leaves a legacy table alone. -/
structure SchemaApplied (db db' : Database) : Prop where
  relational : db'.relational = db.relational
  archive : db'.archive = db.archive
  tables : db.tables ⊆ db'.tables
  versions : db.versions ≠ .absent → db'.versions = db.versions
  created : db.versions = .absent → db'.versions = .absent ∨ db'.versions = .relational

namespace SchemaApplied

theorem refl (db : Database) : SchemaApplied db db :=
  ⟨rfl, rfl, List.Subset.refl _, fun _ => rfl, Or.inl⟩

theorem trans {db'' : Database} (h : SchemaApplied db db') (h' : SchemaApplied db' db'') :
    SchemaApplied db db'' := by
  refine ⟨h'.relational.trans h.relational, h'.archive.trans h.archive,
    List.Subset.trans h.tables h'.tables, ?_, ?_⟩
  · intro hpresent
    have hsame := h.versions hpresent
    exact (h'.versions (hsame ▸ hpresent)).trans hsame
  · intro habsent
    rcases h.created habsent with hstill | hrelational
    · exact h'.created hstill
    · refine Or.inr ((h'.versions ?_).trans hrelational)
      rw [hrelational]
      nofun

/-- No statement brings a legacy table back. -/
theorem not_legacy (h : SchemaApplied db db') (hnot : ∀ table, db.versions ≠ .legacy table)
    (table : LegacyTable) : db'.versions ≠ .legacy table := by
  by_cases habsent : db.versions = .absent
  · rcases h.created habsent with h' | h' <;> rw [h'] <;> nofun
  · rw [h.versions habsent]
    exact hnot table

end SchemaApplied

theorem applySchema_applied (statement : SchemaStatement) (db : Database) :
    SchemaApplied db (db.applySchema statement) := by
  unfold applySchema
  split
  · split
    · next habsent =>
      exact ⟨rfl, rfl, List.Subset.refl _, fun h => absurd habsent h, fun _ => Or.inr rfl⟩
    · exact .refl db
    · exact .refl db
  · split
    · exact .refl db
    · exact ⟨rfl, rfl, List.subset_cons_self _ _, fun _ => rfl, Or.inl⟩
  · exact .refl db

theorem mem_tables_applySchema {table : RelationalTable} (hne : table ≠ .versions)
    (db : Database) : table ∈ (db.applySchema (.createTable table)).tables := by
  unfold applySchema
  split
  · next heq => cases heq; exact absurd rfl hne
  · next heq =>
    cases heq
    split
    · assumption
    · exact List.mem_cons_self
  · next heq => cases heq

theorem versions_applySchema (db : Database) :
    (db.applySchema (.createTable .versions)).versions ≠ .absent := by
  unfold applySchema
  dsimp only
  split
  · nofun
  · next h => rw [h]; nofun
  · next h => rw [h]; nofun

end Database

end LavsCore
