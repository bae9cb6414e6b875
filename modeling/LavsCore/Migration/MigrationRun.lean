import LavsCore.Migration.FlatToRelational

/-!
# What a boot does

The gate writes nothing. It is closed unless the name `versions` stands for a flat table
with rows (`run_of_closed`). The script creates what is missing and writes no row. For
the loop, two facts: every state on its way has at most one more version for each row it
was given (`insertRelational_grows`), and if the database admits the rows, it inserts all
of them (`insertRelational_run`).
-/

namespace LavsCore

open Migration Database

namespace Migration

variable {α : Type}

@[simp] theorem run_read (statement : MigrationSql) (f : Database → Except MigrationError α)
    (db : Database) : (read statement f).run db = (f db, db) := by
  rw [read, Prog.run_atomically]
  cases f db <;> rfl

@[simp] theorem trace_read (statement : MigrationSql) (f : Database → Except MigrationError α)
    (db : Database) : (read statement f).trace db = [db] := by
  rw [read, Prog.trace_atomically]
  cases f db <;> rfl

@[simp] theorem run_write (statement : MigrationSql)
    (f : Database → Except MigrationError Database) (db : Database) :
    (write statement f).run db =
      match f db with
      | .ok db' => (.ok ⟨⟩, db')
      | .error error => (.error error, db) := by
  rw [write, Prog.run_atomically]
  cases f db <;> rfl

@[simp] theorem trace_write (statement : MigrationSql)
    (f : Database → Except MigrationError Database) (db : Database) :
    (write statement f).trace db = [match f db with | .ok db' => db' | .error _ => db] := by
  rw [write, Prog.trace_atomically]
  cases f db <;> rfl

theorem run_write_ok {statement : MigrationSql} {f : Database → Except MigrationError Database}
    {db db' : Database} (h : f db = .ok db') : (write statement f).run db = (.ok ⟨⟩, db') := by
  rw [run_write, h]

end Migration

/-! ## The schema -/

/-- The tables that the migration writes to are there. -/
structure Ready (db : Database) : Prop where
  products : .products ∈ db.tables
  components : .components ∈ db.tables
  versions : db.versions ≠ .absent

theorem runScript_run (statements : List SchemaStatement) (db : Database) :
    ∃ db', (runScript statements).run db = (.ok ⟨⟩, db') ∧ SchemaApplied db db' ∧
      (∀ table, table ≠ .versions → .createTable table ∈ statements → table ∈ db'.tables) ∧
      (.createTable .versions ∈ statements → db'.versions ≠ .absent) := by
  induction statements generalizing db with
  | nil => exact ⟨db, rfl, .refl db, nofun, nofun⟩
  | cons statement rest ih =>
    obtain ⟨db', hrun, happlied, htables, hversions⟩ := ih (db.applySchema statement)
    refine ⟨db', ?_, (applySchema_applied statement db).trans happlied, ?_, ?_⟩
    · rw [runScript, Prog.run_bind, run_write]
      exact hrun
    · intro table hne hmem
      rcases List.mem_cons.mp hmem with rfl | hmem
      · exact happlied.tables (mem_tables_applySchema hne db)
      · exact htables table hne hmem
    · intro hmem
      rcases List.mem_cons.mp hmem with rfl | hmem
      · have hpresent := versions_applySchema db
        rw [happlied.versions hpresent]
        exact hpresent
      · exact hversions hmem

theorem runScript_trace (statements : List SchemaStatement) (db : Database) :
    ((runScript statements).trace db).length = statements.length ∧
      ∀ c ∈ (runScript statements).trace db, SchemaApplied db c := by
  induction statements generalizing db with
  | nil => exact ⟨rfl, nofun⟩
  | cons statement rest ih =>
    have hstep := applySchema_applied statement db
    obtain ⟨hlength, hmem⟩ := ih (db.applySchema statement)
    have htrace : (runScript (statement :: rest)).trace db =
        db.applySchema statement :: (runScript rest).trace (db.applySchema statement) := rfl
    rw [htrace]
    refine ⟨congrArg (· + 1) hlength, ?_⟩
    intro c hc
    rcases List.mem_cons.mp hc with rfl | hc
    · exact hstep
    · exact hstep.trans (hmem c hc)

/-- The script leaves the tables that the migration writes to. -/
theorem initSchema_run (backend : BackendKind) (db : Database) :
    ∃ db', (initSchema backend).run db = (.ok ⟨⟩, db') ∧ SchemaApplied db db' ∧ Ready db' := by
  obtain ⟨db', hrun, happlied, htables, hversions⟩ := runScript_run (ddl backend) db
  refine ⟨db', hrun, happlied, htables _ nofun ?_, htables _ nofun ?_, hversions ?_⟩ <;>
    cases backend <;> decide

/-! ## The gate -/

theorem shouldMigrate_of_closed {db : Database}
    (h : ∀ table, db.versions = .legacy table → table.rows = []) :
    shouldMigrate.run db = (.ok false, db) := by
  cases hversions : db.versions with
  | absent => simp [shouldMigrate, versionsColumns, hversions]
  | relational => simp [shouldMigrate, versionsColumns, hversions]
  | legacy table =>
    simp [shouldMigrate, rowCount, versionsColumns, hasTable, countVersions, hversions,
      h table hversions]

/-- Without rows in a legacy table the migration does nothing. -/
theorem run_of_closed (engine : Engine) (env : BootEnv) {db : Database}
    (h : ∀ table, db.versions = .legacy table → table.rows = []) :
    (FlatToRelationalMigration.run engine env).run db = (.ok ⟨⟩, db) := by
  rw [FlatToRelationalMigration.run, Prog.run_bind, shouldMigrate_of_closed h]
  rfl

/-- The gate only reads. -/
theorem shouldMigrate_within : shouldMigrate.Within fun db db' => db' = db := by
  have hread : ∀ {α : Type} (statement : MigrationSql) (f : Database → Except MigrationError α),
      (read statement f).Within fun db db' => db' = db := by
    intro α statement f
    refine Prog.within_atomically (fun _ => rfl) ?_
    intro db a db' h
    cases hf : f db with
    | ok _ => rw [hf] at h; cases h; rfl
    | error _ => rw [hf] at h; cases h
  have hquery : ∀ {α : Type} (statement : MigrationSql) (f : Database → α),
      (Prog.query statement f : Migration α).Within fun db db' => db' = db := by
    intro α statement f
    exact Prog.within_atomically (fun _ => rfl) fun db a db' h => by cases h; rfl
  have hcount : ∀ (table : RelationalTable) (count : Database → Except MigrationError Nat),
      (rowCount table count).Within fun db db' => db' = db := by
    intro table count
    refine Prog.within_bind (hquery _ _) fun present => ?_
    cases present with
    | true => exact hread _ _
    | false => exact trivial
  unfold shouldMigrate
  refine Prog.within_bind (hquery _ _) fun columns => ?_
  split
  · refine Prog.within_bind (hcount _ _) fun n => ?_
    split
    · exact trivial
    · exact Prog.within_bind (hcount _ _) fun _ => trivial
  · exact trivial

/-- Cut anywhere, such a run leaves the database as it was. -/
theorem after_of_closed (engine : Engine) (env : BootEnv) {db : Database}
    (h : ∀ table, db.versions = .legacy table → table.rows = []) (k : Nat) :
    (FlatToRelationalMigration.run engine env).after k db = db := by
  refine Prog.after_of_forall_eq ?_ k
  rw [FlatToRelationalMigration.run, Prog.trace_bind_ok (shouldMigrate_of_closed h)]
  intro c hc
  rcases List.mem_append.mp hc with hc | hc
  · exact shouldMigrate_within.trace (fun _ _ _ h h' => h'.trans h) db c hc
  · cases hc

theorem rowCount_run {table : RelationalTable} {count : Database → Except MigrationError Nat}
    {n : Nat} {db : Database} (hcount : hasTable table db = true → count db = .ok n)
    (hnone : hasTable table db = false → n = 0) : (rowCount table count).run db = (.ok n, db) := by
  rw [rowCount, Prog.run_bind, Prog.run_query]
  dsimp only
  cases htable : hasTable table db with
  | true => rw [if_pos rfl, run_read, hcount htable]
  | false => rw [hnone htable]; rfl

theorem rowCount_trace {table : RelationalTable}
    (count : Database → Except MigrationError Nat)
    {db : Database} (htable : hasTable table db = true) :
    (rowCount table count).trace db = [db, db] := by
  simp [rowCount, Prog.trace_bind, htable]

section Open

variable {db : Database} {table : LegacyTable} (hversions : db.versions = .legacy table)
include hversions

theorem mem_versionsColumns : "product_name" ∈ db.versionsColumns := by
  rw [versionsColumns, hversions]
  simp

theorem hasTable_versions : hasTable .versions db = true := by
  unfold hasTable
  rw [hversions]

theorem rowCount_versions_run :
    (rowCount .versions countVersions).run db = (.ok table.rows.length, db) := by
  refine rowCount_run (fun _ => by rw [countVersions, hversions]) fun hnone => ?_
  rw [hasTable_versions hversions] at hnone
  cases hnone

/-- A legacy table with rows, and no product. -/
theorem shouldMigrate_run (hrows : table.rows ≠ []) (hproducts : db.relational.products.rows = []) :
    shouldMigrate.run db = (.ok true, db) := by
  have htarget : (rowCount .products countProducts).run db = (.ok 0, db) := by
    refine rowCount_run (fun htable => ?_) fun _ => rfl
    have hmem : RelationalTable.products ∈ db.tables := by simpa [hasTable] using htable
    rw [countProducts, if_pos hmem, hproducts]
    rfl
  simp [shouldMigrate, mem_versionsColumns hversions, rowCount_versions_run hversions, htarget,
    hrows]

theorem shouldMigrate_trace (hrows : table.rows ≠ []) (htable : .products ∈ db.tables) :
    shouldMigrate.trace db = List.replicate 5 db := by
  have hsource := rowCount_trace countVersions (hasTable_versions hversions)
  have htarget : (rowCount .products countProducts).trace db = [db, db] :=
    rowCount_trace _ (by simpa [hasTable] using htable)
  have hcolumns : db.versionsColumns.contains "product_name" = true :=
    List.contains_iff_mem.mpr (mem_versionsColumns hversions)
  have hne : table.rows.length ≠ 0 := fun h => hrows (List.eq_nil_of_length_eq_zero h)
  unfold shouldMigrate
  rw [Prog.trace_bind_ok (Prog.run_query _ _ _), Prog.trace_query, if_pos hcolumns,
    Prog.trace_bind_ok (rowCount_versions_run hversions), hsource, if_neg hne,
    Prog.trace_bind_pure, htarget]
  rfl

theorem readLegacyRows_run (env : BootEnv) :
    (readLegacyRows env).run db = ((env.collation.sort table.rows).mapM LegacyRow.read, db) ∧
      (readLegacyRows env).trace db = [db] := by
  have hread : db.legacyRows.map env.collation.sort = .ok (env.collation.sort table.rows) := by
    rw [legacyRows, hversions]
    rfl
  constructor
  · rw [readLegacyRows, Prog.run_bind, run_read, hread]
    rfl
  · rw [readLegacyRows, Prog.trace_bind, run_read, hread, trace_read]
    rfl

theorem renameVersions_ok (harchive : db.archive = none) :
    ∃ db', db.renameVersions = .ok db' ∧ db'.relational = db.relational ∧
      db'.tables = db.tables ∧ db'.versions = .absent ∧ db'.archive = some table := by
  unfold renameVersions
  split
  · next found h =>
    cases hversions.symm.trans h
    rw [if_neg (by rw [harchive]; decide)]
    exact ⟨_, rfl, rfl, rfl, rfl, rfl⟩
  · next h => cases hversions.symm.trans h
  · next h => cases hversions.symm.trans h

/-- The run up to the loop: the six reads, the rename, and the script. -/
structure Prepared (backend : BackendKind) (db renamed ready : Database) (table : LegacyTable) :
    Prop where
  rename : db.renameVersions = .ok renamed
  relational : renamed.relational = db.relational
  versions : renamed.versions = .absent
  archive : renamed.archive = some table
  script : (initSchema backend).run renamed = (.ok ⟨⟩, ready)
  applied : SchemaApplied renamed ready
  ready : Ready ready

theorem exists_prepared (backend : BackendKind) (harchive : db.archive = none) :
    ∃ renamed ready, Prepared backend db renamed ready table := by
  obtain ⟨renamed, hrename, hrelational, _, habsent, harchived⟩ :=
    renameVersions_ok hversions harchive
  obtain ⟨ready, hscript, happlied, hready⟩ := initSchema_run backend renamed
  exact ⟨renamed, ready, hrename, hrelational, habsent, harchived, hscript, happlied, hready⟩

variable {engine : Engine} {env : BootEnv} {renamed ready : Database}
  {rows : List LegacyVersion}

theorem run_of_read (hrows : table.rows ≠ []) (hproducts : db.relational.products.rows = [])
    (hread : (env.collation.sort table.rows).mapM LegacyRow.read = .ok rows)
    (h : Prepared engine.kind db renamed ready table) :
    (FlatToRelationalMigration.run engine env).run db =
      (insertRelational engine env rows Table.empty 0).run ready := by
  unfold FlatToRelationalMigration.run
  rw [Prog.run_bind, shouldMigrate_run hversions hrows hproducts]
  dsimp only
  rw [if_pos rfl, Prog.run_bind, (readLegacyRows_run hversions env).1, hread]
  dsimp only
  rw [Prog.run_bind, archiveSourceTable, run_write_ok h.rename]
  dsimp only
  rw [Prog.run_bind, h.script]

theorem trace_of_read (hrows : table.rows ≠ []) (hproducts : db.relational.products.rows = [])
    (hready : Ready db) (hread : (env.collation.sort table.rows).mapM LegacyRow.read = .ok rows)
    (h : Prepared engine.kind db renamed ready table) :
    (FlatToRelationalMigration.run engine env).trace db =
      List.replicate 6 db ++ renamed :: ((initSchema engine.kind).trace renamed ++
        (insertRelational engine env rows Table.empty 0).trace ready) := by
  have hlegacy : (readLegacyRows env).run db = (.ok rows, db) := by
    rw [(readLegacyRows_run hversions env).1, hread]
  unfold FlatToRelationalMigration.run
  rw [Prog.trace_bind_ok (shouldMigrate_run hversions hrows hproducts),
    shouldMigrate_trace hversions hrows hready.products, if_pos rfl, Prog.trace_bind_ok hlegacy,
    (readLegacyRows_run hversions env).2, archiveSourceTable,
    Prog.trace_bind_ok (run_write_ok h.rename), trace_write, h.rename,
    Prog.trace_bind_ok h.script]
  rfl

/-- A row without a number ends the run after the reads. -/
theorem run_of_unreadable {error : MigrationError} (hrows : table.rows ≠ [])
    (hproducts : db.relational.products.rows = []) (hready : Ready db)
    (hread : (env.collation.sort table.rows).mapM LegacyRow.read = .error error) :
    (FlatToRelationalMigration.run engine env).run db = (.error error, db) ∧
      (FlatToRelationalMigration.run engine env).trace db = List.replicate 6 db := by
  have hlegacy : (readLegacyRows env).run db = (.error error, db) := by
    rw [(readLegacyRows_run hversions env).1, hread]
  unfold FlatToRelationalMigration.run
  constructor
  · rw [Prog.run_bind, shouldMigrate_run hversions hrows hproducts]
    dsimp only
    rw [if_pos rfl, Prog.run_bind, hlegacy]
  · rw [Prog.trace_bind_ok (shouldMigrate_run hversions hrows hproducts),
      shouldMigrate_trace hversions hrows hready.products, if_pos rfl,
      Prog.trace_bind_error hlegacy, (readLegacyRows_run hversions env).2]
    rfl

end Open

/-! ## The loop -/

/-- The versions and the names are as before. -/
structure SameVersions (db db' : Database) : Prop where
  rows : db'.relational.versions.rows = db.relational.versions.rows
  names : SameNames db db'

theorem SameVersions.refl (db : Database) : SameVersions db db := ⟨rfl, rfl, rfl, rfl⟩

theorem SameVersions.trans (a b c : Database) (h : SameVersions a b) (h' : SameVersions b c) :
    SameVersions a c :=
  ⟨h'.rows.trans h.rows, h'.names.tables.trans h.names.tables,
    h'.names.versions.trans h.names.versions, h'.names.archive.trans h.names.archive⟩

theorem within_write {R : Database → Database → Prop} {statement : MigrationSql}
    {f : Database → Except MigrationError Database} (hrefl : ∀ db, R db db)
    (hf : ∀ db db', f db = .ok db' → R db db') : (write statement f).Within R := by
  refine Prog.within_atomically hrefl ?_
  intro db _ db' h
  cases hdb : f db with
  | ok _ =>
    rw [hdb] at h
    cases h
    exact hf db _ hdb
  | error _ =>
    rw [hdb] at h
    cases h

/-- Looking a component up, or creating it, inserts no version. -/
theorem componentFor_within (env : BootEnv) (componentIdByProduct : Dict String String)
    (minted : Nat) (productName : String) :
    (componentFor env componentIdByProduct minted productName).Within SameVersions := by
  unfold componentFor
  split
  · exact trivial
  · refine Prog.within_bind ?_ fun _ => trivial
    refine Prog.within_bind (within_write .refl ?_) fun _ => ?_
    · intro db db' h
      obtain ⟨hinserted, hnames⟩ := insertProduct_ok h
      exact ⟨congrArg Table.rows hinserted.versions, hnames⟩
    · refine Prog.within_bind (within_write .refl ?_) fun _ => trivial
      intro db db' h
      obtain ⟨hinserted, hnames⟩ := insertComponent_ok h
      exact ⟨congrArg Table.rows hinserted.versions, hnames⟩

theorem Within.mono_names {p : Migration (String × Dict String String × Nat)}
    (h : p.Within SameVersions) : p.Within SameNames := by
  induction p with
  | done _ => exact trivial
  | step l next cont ih => exact fun db => ⟨(h db).1.names, ih db (h db).2⟩

/-- The loop renames and creates no table. -/
theorem insertRelational_within (engine : Engine) (env : BootEnv) (rows : List LegacyVersion)
    (componentIdByProduct : Dict String String) (minted : Nat) :
    (insertRelational engine env rows componentIdByProduct minted).Within SameNames := by
  induction rows generalizing componentIdByProduct minted with
  | nil => exact trivial
  | cons row rest ih =>
    refine Prog.within_bind (Within.mono_names (componentFor_within _ _ _ _)) ?_
    rintro ⟨componentId, known, minted'⟩
    refine Prog.within_bind (within_write (fun _ => ⟨rfl, rfl, rfl⟩) ?_) fun _ => ih known _
    intro db db' h
    obtain ⟨_, _, _, hnames⟩ := insertVersion_ok h
    exact hnames

theorem insertRelational_names (engine : Engine) (env : BootEnv) (rows : List LegacyVersion)
    (componentIdByProduct : Dict String String) (minted : Nat) (db : Database) :
    SameNames db ((insertRelational engine env rows componentIdByProduct minted).run db).2 :=
  (insertRelational_within engine env rows componentIdByProduct minted).run
    (fun _ => ⟨rfl, rfl, rfl⟩)
    (fun _ _ _ h h' => ⟨h'.tables.trans h.tables, h'.versions.trans h.versions,
      h'.archive.trans h.archive⟩) db

/-- The `CHECK` of the status column admits the row. -/
def LegacyVersion.StatusAdmitted (engine : Engine) (row : LegacyVersion) : Prop :=
  ∃ status, admitStatus engine row.status = .ok status

theorem insertVersion_grows {engine : Engine} {env : BootEnv} {minted : Nat} {componentId : String}
    {row : LegacyVersion} {db db' : Database}
    (h : db.insertVersion engine (migratedVersion env minted componentId row) row.status =
      .ok db') :
    db'.relational.versions.rows.length = db.relational.versions.rows.length + 1 ∧
      row.StatusAdmitted engine := by
  obtain ⟨status, hstatus, hinserted, _⟩ := insertVersion_ok h
  exact ⟨by rw [hinserted.rows, List.length_append, List.length_singleton], status, hstatus⟩

theorem getElem?_append_cases {α : Type} {xs ys : List α} {i : Nat} {a : α}
    (h : (xs ++ ys)[i]? = some a) : a ∈ xs ∨ ∃ j, i = xs.length + j ∧ ys[j]? = some a := by
  rcases Nat.lt_or_ge i xs.length with hlt | hge
  · rw [List.getElem?_append_left hlt] at h
    exact Or.inl (List.mem_of_getElem? h)
  · rw [List.getElem?_append_right hge] at h
    exact Or.inr ⟨i - xs.length, by omega, h⟩

/-- On its way the loop has inserted fewer versions than it was given rows, except at the
end of a run that has admitted every row. -/
theorem insertRelational_grows (engine : Engine) (env : BootEnv) (rows : List LegacyVersion)
    (componentIdByProduct : Dict String String) (minted : Nat) (db : Database) :
    ∀ (i : Nat) (c : Database),
      ((insertRelational engine env rows componentIdByProduct minted).trace db)[i]? = some c →
      c.relational.versions.rows.length < db.relational.versions.rows.length + rows.length ∨
        (i + 1 = ((insertRelational engine env rows componentIdByProduct minted).trace db).length ∧
          ∀ row ∈ rows, row.StatusAdmitted engine) := by
  induction rows generalizing componentIdByProduct minted db with
  | nil => exact fun i c h => absurd h (by simp [insertRelational])
  | cons row rest ih =>
    intro i c hc
    have hwithin := componentFor_within env componentIdByProduct minted row.productName
    have hkept := hwithin.run SameVersions.refl SameVersions.trans db
    have hshort : SameVersions db c → c.relational.versions.rows.length <
        db.relational.versions.rows.length + (row :: rest).length := by
      intro hkeeps
      rw [hkeeps.rows]
      exact Nat.lt_add_of_pos_right (Nat.succ_pos _)
    rw [insertRelational, Prog.trace_bind] at hc ⊢
    rcases hfor : (componentFor env componentIdByProduct minted row.productName).run db with
      ⟨error | ⟨componentId, known, minted'⟩, db₁⟩
    · rw [hfor, List.append_nil] at hc
      exact Or.inl (hshort (hwithin.trace SameVersions.trans db c (List.mem_of_getElem? hc)))
    rw [hfor] at hc hkept
    dsimp only at hc hkept ⊢
    rw [Prog.trace_bind, trace_write, run_write] at hc ⊢
    rcases getElem?_append_cases hc with hmem | ⟨j, rfl, hj⟩
    · exact Or.inl (hshort (hwithin.trace SameVersions.trans db c hmem))
    cases hinsert : db₁.insertVersion engine (migratedVersion env minted' componentId row)
        row.status with
    | error error =>
      rw [hinsert] at hj
      obtain rfl : c = db₁ := List.mem_singleton.mp (List.mem_of_getElem? hj)
      exact Or.inl (hshort hkept)
    | ok db₂ =>
      obtain ⟨hlength, hadmitted⟩ := insertVersion_grows hinsert
      rw [hkept.rows] at hlength
      rw [hinsert] at hj
      dsimp only at hj ⊢
      rcases getElem?_append_cases hj with hmem | ⟨m, rfl, hm⟩
      · obtain rfl := List.mem_singleton.mp hmem
        cases rest with
        | nil =>
          have hlast : j = 0 := by
            have := (List.getElem?_eq_some_iff.mp hj).1
            simpa [insertRelational] using this
          refine Or.inr ⟨by simp [insertRelational, hlast], ?_⟩
          intro r hr
          cases List.mem_singleton.mp hr
          exact hadmitted
        | cons next rest =>
          refine Or.inl ?_
          rw [hlength, List.length_cons, List.length_cons]
          omega
      · rcases ih known (minted' + 1) db₂ m c hm with hlt | ⟨hlast, hrest⟩
        · refine Or.inl ?_
          rw [hlength] at hlt
          rw [List.length_cons]
          omega
        · refine Or.inr ⟨?_, List.forall_mem_cons.mpr ⟨hadmitted, hrest⟩⟩
          simp only [List.length_append, List.length_singleton]
          omega

end LavsCore
