import LavsCore.Migration.Faithful

/-!
# The migration, cut short

The run renames the flat table before it has inserted a row, and the gate of the next
boot looks for the flat table under its old name. So what a cut run has not inserted by
then is never inserted (`migration_lost`). `migration_recovers_iff`: exactly the cuts
before the rename and after the last statement are repaired, and only if the engine
admits every row.
-/

namespace LavsCore

open Migration Database FaithfulLemmas

/-- The statements of an uncut run over the table: six reads, the rename, the script, two
for each name, and one for each row. -/
def LegacyTable.statements (backend : BackendKind) (legacy : LegacyTable) : Nat :=
  7 + (ddl backend).length + legacy.rows.length +
    2 * (legacy.rows.map fun row => strOf row.productName).dedup.length

/-- The next boot repairs a run that is cut after `k` statements: the table has no rows, or
the engine admits them all and the cut does not fall between the rename and the end. -/
def Recoverable (engine : Engine) (legacy : LegacyTable) (k : Nat) : Prop :=
  legacy.rows = [] ∨
    (∀ row ∈ legacy.rows, row.AdmittedBy engine) ∧
      (k ≤ 6 ∨ legacy.statements engine.kind ≤ k)

instance (engine : Engine) (legacy : LegacyTable) (k : Nat) :
    Decidable (Recoverable engine legacy k) := inferInstanceAs (Decidable (_ ∨ _))

/-- A boot whose migration is cut after `k` statements. -/
def interruptedBoot (engine : Engine) (env : BootEnv) (k : Nat) (db : Database) : Database :=
  (FlatToRelationalMigration.run engine env).after k ((initSchema engine.kind).run db).2

namespace CrashSafetyLemmas

variable {engine : Engine} {env env' : BootEnv} {legacy : LegacyTable} {db : Database}

/-- A boot that finds no legacy rows inserts nothing. -/
theorem boot_of_closed (h : ∀ table, db.versions = .legacy table → table.rows = []) :
    ((boot engine env).run db).2.relational = db.relational := by
  obtain ⟨ready, hrun, happlied, _⟩ := initSchema_run engine.kind db
  rw [boot, Prog.run_bind, hrun]
  dsimp only
  rw [run_of_closed engine env]
  · exact happlied.relational
  · intro table htable
    by_cases habsent : db.versions = .absent
    · rcases happlied.created habsent with h' | h' <;> cases htable.symm.trans h'
    · exact h table ((happlied.versions habsent).symm.trans htable)

/-- The schema before a run leaves a legacy database as it was, up to missing tables. -/
theorem legacy_of_applied {db' : Database} (hversions : db.versions = .legacy legacy)
    (h : SchemaApplied db db') : db'.versions = .legacy legacy :=
  (h.versions (by rw [hversions]; nofun)).trans hversions

theorem length_of_represented (h : RepresentedOn engine legacy db) :
    db.relational.flatVersions.length = legacy.rows.length := by
  rw [List.Perm.length_eq h, List.length_map]

/-- Every version is shown once. -/
theorem length_flatVersions (db : Store) : db.flatVersions.length = db.versions.rows.length := by
  have hone : ∀ v ∈ db.versions.rows, ((db.components.lookup v.componentId).flatMap fun c =>
      (db.products.lookup c.productId).map fun p => v.flat p).length = 1 := by
    intro v hv
    obtain ⟨c, hc, _, hlookup⟩ :=
      Table.lookup_eq_singleton_of_mem_keys (db.version_component v hv)
    obtain ⟨p, _, _, hlookup'⟩ :=
      Table.lookup_eq_singleton_of_mem_keys (db.component_product c hc)
    rw [hlookup, List.flatMap_singleton, hlookup']
    rfl
  rw [Store.flatVersions, List.length_flatMap, List.map_congr_left hone]
  simp

/-- The rows that were read are the rows of the table, so the `CHECK` admits those if it
admits these. -/
theorem admitted_of_read {versions : List LegacyVersion}
    (hread : (env.collation.sort legacy.rows).mapM LegacyRow.read = .ok versions)
    (h : ∀ v ∈ versions, v.StatusAdmitted engine) :
    ∀ row ∈ legacy.rows, row.AdmittedBy engine := by
  intro row hrow
  have hmem := (read_rows hread).1.mem_iff.mpr (List.mem_map_of_mem hrow)
  obtain ⟨v, hv, hflat⟩ := List.mem_map.mp hmem
  obtain ⟨admitted, hadmitted⟩ := h v hv
  simp only [LegacyRow.flat, LegacyVersion.flat, FlatVersion.mk.injEq] at hflat
  obtain ⟨_, hmajor, hminor, hpatch, hstatus⟩ := hflat
  refine ⟨by rw [← hmajor]; rfl, by rw [← hminor]; rfl, by rw [← hpatch]; rfl, ?_⟩
  rw [← hstatus]
  exact admitStatus_of_ok hadmitted

/-- A run that has renamed the flat table leaves no legacy table. It is short of a
version, unless it has come to its end and every row was admitted. -/
theorem cut_after_rename (engine : Engine) (hfresh : Function.Injective env.ulid)
    (hversions : db.versions = .legacy legacy) (hempty : db.relational = Store.empty)
    (harchive : db.archive = none) (hready : Ready db) (hrows : legacy.rows ≠ [])
    {versions : List LegacyVersion}
    (hread : (env.collation.sort legacy.rows).mapM LegacyRow.read = .ok versions) {k : Nat}
    (hk : 6 < k) :
    (∀ table, ((FlatToRelationalMigration.run engine env).after k db).versions ≠ .legacy table) ∧
      (((FlatToRelationalMigration.run engine env).after k db).relational.versions.rows.length <
        legacy.rows.length ∨
          (∀ row ∈ legacy.rows, row.AdmittedBy engine) ∧ legacy.statements engine.kind ≤ k) := by
  have hproducts : db.relational.products.rows = [] := by rw [hempty]; rfl
  obtain ⟨renamed, ready, hprepared⟩ := exists_prepared hversions engine.kind harchive
  have htrace := trace_of_read hversions hrows hproducts hready hread hprepared
  obtain ⟨i, hi, hik, hget⟩ := Prog.exists_getElem?_after hk
    (p := FlatToRelationalMigration.run engine env) (s := db) (by rw [htrace]; simp)
  generalize hcut : (FlatToRelationalMigration.run engine env).after k db = c at hget ⊢
  rw [htrace, List.getElem?_append_right (by simpa using hi), List.length_replicate] at hget
  -- The state of the cut: right after the rename, in the script, or in the loop.
  have hscript : SchemaApplied renamed c → (∀ table, c.versions ≠ .legacy table) ∧
      c.relational.versions.rows.length < legacy.rows.length := by
    intro happlied
    refine ⟨happlied.not_legacy (by rw [hprepared.versions]; nofun), ?_⟩
    rw [happlied.relational, hprepared.relational, hempty]
    exact List.length_pos_iff.mpr hrows
  rw [← List.singleton_append] at hget
  rcases getElem?_append_cases hget with hmem | ⟨j, hj, hget⟩
  · cases List.mem_singleton.mp hmem
    exact (hscript (.refl _)).imp_right Or.inl
  rcases getElem?_append_cases hget with hmem | ⟨m, hm, hget⟩
  · exact (hscript ((runScript_trace _ _).2 c hmem)).imp_right Or.inl
  · have hnames := (insertRelational_within engine env versions Table.empty 0).trace
      (fun _ _ _ h h' => ⟨h'.tables.trans h.tables, h'.versions.trans h.versions,
        h'.archive.trans h.archive⟩) ready c (List.mem_of_getElem? hget)
    have hrelational : ready.versions = .relational :=
      (hprepared.applied.created hprepared.versions).resolve_left hprepared.ready.versions
    refine ⟨by rw [hnames.versions, hrelational]; nofun, ?_⟩
    have hlength : versions.length = legacy.rows.length := by
      simpa using (read_rows hread).1.length_eq
    have hzero : ready.relational.versions.rows.length = 0 := by
      rw [hprepared.applied.relational, hprepared.relational, hempty]
      rfl
    rcases insertRelational_grows engine env versions Table.empty 0 ready m c hget with
      hlt | ⟨hend, hstatus⟩
    · exact Or.inl (by omega)
    · have hadmitted := admitted_of_read hread hstatus
      refine Or.inr ⟨hadmitted, ?_⟩
      obtain ⟨_, _, _, _, _, _, htotal⟩ :=
        run_of_admitted engine hfresh hversions hempty harchive hrows hadmitted
      have hsteps := htotal hready
      rw [htrace] at hsteps
      simp only [List.length_append, List.length_replicate, List.length_cons] at hsteps
      simp only [List.length_singleton] at hj
      rw [LegacyTable.statements, ← hsteps]
      omega

/-- The tables that a run starts from, after the script of its boot. -/
theorem start_of_boot (engine : Engine) (hversions : db.versions = .legacy legacy)
    (hempty : db.relational = Store.empty) (harchive : db.archive = none) :
    ∃ start, (initSchema engine.kind).run db = (.ok ⟨⟩, start) ∧
      start.versions = .legacy legacy ∧
      start.relational = Store.empty ∧ start.archive = none ∧ Ready start := by
  obtain ⟨start, hrun, happlied, hready⟩ := initSchema_run engine.kind db
  exact ⟨start, hrun, legacy_of_applied hversions happlied, happlied.relational.trans hempty,
    happlied.archive.trans harchive, hready⟩

/-- A boot that is not cut represents the rows exactly if the engine admits them all. -/
theorem boot_represents_iff (engine : Engine) (hfresh : Function.Injective env.ulid)
    (hversions : db.versions = .legacy legacy) (hempty : db.relational = Store.empty)
    (harchive : db.archive = none) (hrows : legacy.rows ≠ []) :
    RepresentedOn engine legacy ((boot engine env).run db).2 ↔
      ∀ row ∈ legacy.rows, row.AdmittedBy engine := by
  obtain ⟨start, hstart, hversions', hempty', harchive', hready⟩ :=
    start_of_boot engine hversions hempty harchive
  have hproducts : start.relational.products.rows = [] := by rw [hempty']; rfl
  have hboot : ((boot engine env).run db).2 =
      ((FlatToRelationalMigration.run engine env).run start).2 := by
    rw [boot, Prog.run_bind, hstart]
  rw [hboot]
  constructor
  · intro hrepresented
    have hlength := length_of_represented hrepresented
    rw [length_flatVersions] at hlength
    cases hread : (env.collation.sort legacy.rows).mapM LegacyRow.read with
    | error error =>
      rw [(run_of_unreadable hversions' hrows hproducts hready hread).1, hempty'] at hlength
      exact absurd hlength.symm fun h => hrows (List.eq_nil_of_length_eq_zero h)
    | ok versions =>
      -- The run is one that is cut after its last statement.
      have hcut := cut_after_rename engine
        (k := 7 + ((FlatToRelationalMigration.run engine env).trace start).length)
        hfresh hversions' hempty' harchive' hready hrows hread (by omega)
      rw [Prog.after_of_le (by omega)] at hcut
      exact (hcut.2.resolve_left fun hlt => absurd hlength (ne_of_lt hlt)).1
  · intro hadmitted
    obtain ⟨db', hrun, hrepresented, _⟩ :=
      run_of_admitted engine hfresh hversions' hempty' harchive' hrows hadmitted
    rw [hrun]
    exact hrepresented

end CrashSafetyLemmas

open CrashSafetyLemmas

/-! ## Every cut -/

/-- For every engine, every flat table over empty relational tables, and every cut of the
first boot's migration: after the next boot every legacy row is a relational version
exactly if the table has no rows, or the engine admits them all and the cut comes before
the rename or after the last statement. -/
theorem migration_recovers_iff (engine : Engine) (env env' : BootEnv) (legacy : LegacyTable)
    (db : Database) (k : Nat) (hfresh : Function.Injective env.ulid)
    (hfresh' : Function.Injective env'.ulid) (hversions : db.versions = .legacy legacy)
    (hempty : db.relational = Store.empty) (harchive : db.archive = none) :
    RepresentedOn engine legacy ((boot engine env').run (interruptedBoot engine env k db)).2 ↔
      Recoverable engine legacy k := by
  obtain ⟨start, hstart, hversions', hempty', harchive', hready⟩ :=
    start_of_boot engine hversions hempty harchive
  have hproducts : start.relational.products.rows = [] := by rw [hempty']; rfl
  have hinterrupted : interruptedBoot engine env k db =
      (FlatToRelationalMigration.run engine env).after k start := by
    rw [interruptedBoot, hstart]
  rw [hinterrupted]
  by_cases hrows : legacy.rows = []
  · have hclosed : ∀ table, start.versions = .legacy table → table.rows = [] := by
      intro table h
      cases hversions'.symm.trans h
      exact hrows
    refine iff_of_true ?_ (Or.inl hrows)
    rw [after_of_closed engine env hclosed, RepresentedOn, boot_of_closed hclosed, hempty', hrows]
    exact List.Perm.refl []
  have hnext := boot_represents_iff engine hfresh' hversions' hempty' harchive' hrows
  cases hread : (env.collation.sort legacy.rows).mapM LegacyRow.read with
  | error error =>
    -- A row without a number: no run ever writes anything.
    have hunadmitted : ¬ ∀ row ∈ legacy.rows, row.AdmittedBy engine := by
      intro hadmitted
      obtain ⟨versions, hok⟩ := mapM_read_isOk (env.collation.sort legacy.rows)
        fun row hrow => by
          obtain ⟨hmajor, hminor, hpatch, _⟩ :=
            hadmitted row ((env.collation.perm legacy.rows).mem_iff.mp hrow)
          exact ⟨hmajor, hminor, hpatch⟩
      cases hread.symm.trans hok
    have hafter : (FlatToRelationalMigration.run engine env).after k start = start := by
      refine Prog.after_of_forall_eq ?_ k
      rw [(run_of_unreadable hversions' hrows hproducts hready hread).2]
      exact fun c hc => List.eq_of_mem_replicate hc
    rw [hafter, hnext]
    refine iff_of_false hunadmitted ?_
    rintro (hnone | ⟨hadmitted, _⟩)
    · exact hrows hnone
    · exact hunadmitted hadmitted
  | ok versions =>
    rcases Nat.lt_or_ge 6 k with hk | hk
    · obtain ⟨hclosed, hcut⟩ := cut_after_rename engine hfresh hversions' hempty'
        harchive' hready hrows hread hk
      rw [RepresentedOn, boot_of_closed fun table htable => absurd htable (hclosed table)]
      constructor
      · intro hrepresented
        have hlength := length_of_represented hrepresented
        rw [length_flatVersions] at hlength
        obtain ⟨hadmitted, hend⟩ := hcut.resolve_left fun hlt => absurd hlength (ne_of_lt hlt)
        exact Or.inr ⟨hadmitted, Or.inr hend⟩
      · rintro (hnone | ⟨hadmitted, hbefore | hend⟩)
        · exact absurd hnone hrows
        · omega
        · obtain ⟨db', hrun, hrepresented, _, _, _, htotal⟩ := run_of_admitted engine
            hfresh hversions' hempty' harchive' hrows hadmitted
          rw [Prog.after_of_le ((htotal hready).trans_le hend), hrun]
          exact hrepresented
    · obtain ⟨renamed, ready, hprepared⟩ := exists_prepared hversions' engine.kind harchive'
      rw [Prog.after_of_replicate
        (trace_of_read hversions' hrows hproducts hready hread hprepared) hk, hnext]
      constructor
      · exact fun hadmitted => Or.inr ⟨hadmitted, Or.inl hk⟩
      · rintro (hnone | ⟨hadmitted, _⟩)
        · exact absurd hnone hrows
        · exact hadmitted

/-- The first boot comes to its end. -/
theorem migration_recovers_iff_sample :
    RepresentedOn Sample.postgres Sample.flatTable ((boot Sample.postgres Sample.bootEnv).run
        (interruptedBoot Sample.postgres Sample.bootEnv 28 Sample.legacyDatabase)).2 ↔
      Recoverable Sample.postgres Sample.flatTable 28 :=
  migration_recovers_iff Sample.postgres Sample.bootEnv Sample.bootEnv Sample.flatTable
    Sample.legacyDatabase 28 Sample.bootEnv_fresh Sample.bootEnv_fresh rfl rfl rfl

/-- Cut right after the rename, the migration never inserts a row: after the next boot
there is no version. -/
theorem migration_lost :
    ¬ Represented Sample.flatTable
        ((boot Sample.postgres Sample.bootEnv).run
          (interruptedBoot Sample.postgres Sample.bootEnv 7 Sample.legacyDatabase)).2 ∧
      ((boot Sample.postgres Sample.bootEnv).run
        (interruptedBoot Sample.postgres Sample.bootEnv 7
          Sample.legacyDatabase)).2.relational.versions.rows = [] :=
  ⟨by decide +kernel, by decide +kernel⟩

end LavsCore
