import LavsCore.Migration.MigrationRun
import Mathlib.Data.Finset.Card

/-!
# The migration is faithful

One run that is not cut leaves every legacy row as a relational version
(`Represented`), under one product with one component for each name, and the legacy rows
in the archive. After it the gate is closed for good (`migration_faithful`).

A status in other letters, which an engine may still admit, is kept as that engine
compares texts (`RepresentedOn`).
-/

namespace LavsCore

open Migration Database

/-! ## What both schemas show -/

/-- A version as both schemas show it. -/
structure FlatVersion where
  productName : String
  major : Option Int
  minor : Option Int
  patch : Option Int
  status : Option String
  deriving DecidableEq, Repr

/-- A legacy row. Without a name it reads as a row of `None`, as `str` writes it. -/
def LegacyRow.flat (row : LegacyRow) : FlatVersion :=
  ⟨strOf row.productName, row.major, row.minor, row.patch, row.status⟩

def LegacyVersion.flat (row : LegacyVersion) : FlatVersion :=
  ⟨row.productName, some row.major, some row.minor, some row.patch, row.status⟩

/-- The version with its status as the engine compares it. -/
def FlatVersion.on (engine : Engine) (v : FlatVersion) : FlatVersion :=
  { v with status := v.status.map engine.statusText }

/-- A relational version of a product. -/
def VersionRow.flat (v : VersionRow) (p : ProductRow) : FlatVersion :=
  ⟨p.name, some v.major, some v.minor, some v.patch, v.status.map VersionStatus.value⟩

/-- `versions` joined with `components` and `products`. -/
def Store.flatVersions (db : Store) : List FlatVersion :=
  db.versions.rows.flatMap fun v =>
    (db.components.lookup v.componentId).flatMap fun c =>
      (db.products.lookup c.productId).map fun p => v.flat p

/-- Every legacy row is a relational version: none is missing, none is there twice. -/
def Represented (legacy : LegacyTable) (db : Database) : Prop :=
  db.relational.flatVersions.Perm (legacy.rows.map LegacyRow.flat)

instance (legacy : LegacyTable) (db : Database) : Decidable (Represented legacy db) :=
  inferInstanceAs (Decidable (List.Perm _ _))

/-- The same, up to texts of a status that the engine does not tell apart. -/
def RepresentedOn (engine : Engine) (legacy : LegacyTable) (db : Database) : Prop :=
  db.relational.flatVersions.Perm (legacy.rows.map fun row => row.flat.on engine)

instance (engine : Engine) (legacy : LegacyTable) (db : Database) :
    Decidable (RepresentedOn engine legacy db) :=
  inferInstanceAs (Decidable (List.Perm _ _))

/-- Letter by letter, the two are one. -/
theorem representedOn_exact (kind : BackendKind) (legacy : LegacyTable) (db : Database) :
    RepresentedOn (.exact kind) legacy db ↔ Represented legacy db := by
  have hflat : ∀ row : LegacyRow, row.flat.on (.exact kind) = row.flat := by
    intro row
    have hstatus : row.status.map (Engine.exact kind).statusText = row.status := by
      cases row.status with
      | none => rfl
      | some text => rw [Option.map_some, Engine.statusText_exact]
    simp only [FlatVersion.on, LegacyRow.flat, hstatus]
  rw [RepresentedOn, Represented, List.map_congr_left fun row _ => hflat row]

/-- The rows under the archive name. -/
def Database.archivedRows (db : Database) : List LegacyRow :=
  match db.archive with
  | some table => table.rows
  | none => []

/-- Products in bijection with the names, and one component for each product. -/
structure OneProductPerName (legacy : LegacyTable) (db : Store) : Prop where
  distinct : (db.products.rows.map ProductRow.name).Nodup
  names : ∀ name, name ∈ db.products.rows.map ProductRow.name ↔
    ∃ row ∈ legacy.rows, strOf row.productName = name
  component : ∀ p ∈ db.products.rows,
    (db.components.rows.filter fun c => c.productId = p.id).length = 1

/-- Every engine admits the row: its numbers are there, and its status is `NULL` or one of
three values. -/
def LegacyRow.Admitted (row : LegacyRow) : Prop :=
  row.major.isSome ∧ row.minor.isSome ∧ row.patch.isSome ∧
    ∀ text ∈ row.status, text ∈ ["active", "superseded", "rolled_back"]

instance (row : LegacyRow) : Decidable row.Admitted := inferInstanceAs (Decidable (_ ∧ _ ∧ _ ∧ _))

/-- The engine admits the row: its numbers are there, and its status is `NULL` or a text that
the engine takes for one of three values. -/
def LegacyRow.AdmittedBy (engine : Engine) (row : LegacyRow) : Prop :=
  row.major.isSome ∧ row.minor.isSome ∧ row.patch.isSome ∧
    ∀ text ∈ row.status, (engine.status? text).isSome

instance (engine : Engine) (row : LegacyRow) : Decidable (row.AdmittedBy engine) :=
  inferInstanceAs (Decidable (_ ∧ _ ∧ _ ∧ _))

/-- Case is ignored: the row is admitted in MySQL, and refused in PostgreSQL. -/
example :
    let mysql : Engine := ⟨.mysql, fun text => VersionStatus.ofValue? text.toLower,
      fun status => by cases status <;> decide +kernel⟩
    let row : LegacyRow := ⟨some 1, some 1, some 0, some 0, some "atlas", some "ACTIVE"⟩
    row.AdmittedBy mysql ∧ ¬ row.AdmittedBy (.exact .postgres) := by
  decide +kernel

namespace Store

variable {db db' : Store}

theorem flatVersions_product {row : ProductRow} (h : ProductInserted db row db') :
    db'.flatVersions = db.flatVersions := by
  unfold flatVersions
  rw [h.versions, h.components]
  refine List.flatMap_congr fun v _ => List.flatMap_congr fun c hc => ?_
  have hproduct := db.component_product c (Table.mem_lookup.mp hc).1
  rw [Table.lookup_of_rows_append h.rows fun heq => h.fresh (heq ▸ hproduct)]

theorem flatVersions_component {row : ComponentRow} (h : ComponentInserted db row db') :
    db'.flatVersions = db.flatVersions := by
  unfold flatVersions
  rw [h.versions, h.products]
  refine List.flatMap_congr fun v hv => ?_
  have hcomponent := db.version_component v hv
  rw [Table.lookup_of_rows_append h.rows fun heq => h.fresh (heq ▸ hcomponent)]

/-- A new version is shown with the product of its component. -/
theorem flatVersions_version {row : VersionRow} {c : ComponentRow} {p : ProductRow}
    (h : VersionInserted db row db') (hc : c ∈ db.components.rows) (hid : c.id = row.componentId)
    (hp : p ∈ db.products.rows) (hproduct : p.id = c.productId) :
    db'.flatVersions = db.flatVersions ++ [row.flat p] := by
  unfold flatVersions
  rw [h.rows, h.components, h.products, List.flatMap_append, List.flatMap_singleton, ← hid,
    Table.lookup_eq_singleton hc, List.flatMap_singleton, ← hproduct, Table.lookup_eq_singleton hp]
  rfl

end Store

/-! ## The invariant of the loop -/

/-- Products, their components and the dictionary belong together, and every id was
minted before. -/
structure Grouped (env : BootEnv) (componentIdByProduct : Dict String String) (minted : Nat)
    (db : Database) : Prop where
  ready : Ready db
  versions : db.versions = .relational
  groups : ∃ groups : List (ProductRow × ComponentRow),
    db.relational.products.rows = groups.map Prod.fst ∧
    db.relational.components.rows = groups.map Prod.snd ∧
    (∀ g ∈ groups, g.2.productId = g.1.id) ∧
    componentIdByProduct.rows = groups.map fun g => (g.1.name, g.2.id)
  mintedIds : ∀ id, id ∈ db.relational.products.keys ∨ id ∈ db.relational.components.keys ∨
    id ∈ db.relational.versions.keys → ∃ i < minted, env.ulid i = id

/-- The rows that the loop has been through are the versions, and their names are the
keys of the dictionary. -/
structure Migrated (engine : Engine) (env : BootEnv) (rows : List LegacyVersion)
    (componentIdByProduct : Dict String String) (minted : Nat) (db : Database) : Prop where
  grouped : Grouped env componentIdByProduct minted db
  names : ∀ name, name ∈ componentIdByProduct.keys ↔ ∃ row ∈ rows, row.productName = name
  flat : db.relational.flatVersions = rows.map fun row => row.flat.on engine

namespace FaithfulLemmas

variable {engine : Engine} {env : BootEnv} {componentIdByProduct : Dict String String}
  {minted : Nat}
  {db db' : Database}

/-- An id that is minted later is new. -/
theorem fresh_of_le (hfresh : Function.Injective env.ulid)
    (h : Grouped env componentIdByProduct minted db) {i : Nat} (hi : minted ≤ i) :
    env.ulid i ∉ db.relational.products.keys ∧ env.ulid i ∉ db.relational.components.keys ∧
      env.ulid i ∉ db.relational.versions.keys := by
  have hnew : ¬ ∃ j < minted, env.ulid j = env.ulid i := by
    rintro ⟨j, hj, heq⟩
    exact absurd (hfresh heq) (by omega)
  exact ⟨fun hmem => hnew (h.mintedIds _ (Or.inl hmem)),
    fun hmem => hnew (h.mintedIds _ (Or.inr (Or.inl hmem))),
    fun hmem => hnew (h.mintedIds _ (Or.inr (Or.inr hmem)))⟩

theorem ready_of_names (h : Ready db) (hnames : SameNames db db') : Ready db' :=
  ⟨hnames.tables ▸ h.products, hnames.tables ▸ h.components, hnames.versions ▸ h.versions⟩

/-- A product and its component, with two new ids. -/
theorem createProductAndComponent_run (hfresh : Function.Injective env.ulid)
    (h : Grouped env componentIdByProduct minted db) {productName : String}
    (hnew : productName ∉ componentIdByProduct.keys) :
    ∃ db', (createProductAndComponent env minted productName).run db =
        (.ok (env.ulid (minted + 1)), db') ∧
      ((createProductAndComponent env minted productName).trace db).length = 2 ∧
      Grouped env (Dict.set componentIdByProduct productName (env.ulid (minted + 1)))
        (minted + 2) db' ∧
      db'.relational.flatVersions = db.relational.flatVersions := by
  obtain ⟨db₁, hproduct⟩ := insertProduct_isOk (migratedProduct env minted productName)
    h.ready.products (fresh_of_le hfresh h (le_refl minted)).1
  obtain ⟨hinserted, hnames⟩ := insertProduct_ok hproduct
  have hkey : env.ulid minted ∈ db₁.relational.products.keys := by
    rw [Table.keys, hinserted.rows]
    exact List.mem_map.mpr ⟨_, List.mem_append_right _ (List.mem_singleton_self _), rfl⟩
  obtain ⟨db₂, hcomponent⟩ := insertComponent_isOk (migratedComponent env minted)
    (hnames.tables ▸ h.ready.components)
    (hinserted.components ▸ (fresh_of_le hfresh h (Nat.le_succ minted)).2.1) hkey
  obtain ⟨hinserted', hnames'⟩ := insertComponent_ok hcomponent
  refine ⟨db₂, ?_, ?_, ?_, ?_⟩
  · rw [createProductAndComponent, Prog.run_bind, run_write_ok hproduct]
    dsimp only
    rw [Prog.run_bind, run_write_ok hcomponent]
    rfl
  · rw [createProductAndComponent, Prog.trace_bind_ok (run_write_ok hproduct),
      Prog.trace_bind_pure, trace_write, trace_write]
    rfl
  · obtain ⟨groups, hproducts, hcomponents, hpairs, hrows⟩ := h.groups
    refine ⟨ready_of_names (ready_of_names h.ready hnames) hnames',
      hnames'.versions.trans (hnames.versions.trans h.versions),
      ⟨groups ++ [(migratedProduct env minted productName, migratedComponent env minted)],
        ?_, ?_, ?_, ?_⟩, ?_⟩
    · rw [hinserted'.products, hinserted.rows, hproducts, List.map_append]
      rfl
    · rw [hinserted'.rows, hinserted.components, hcomponents, List.map_append]
      rfl
    · intro g hg
      rcases List.mem_append.mp hg with hg | hg
      · exact hpairs g hg
      · cases List.mem_singleton.mp hg
        rfl
    · rw [Dict.set, dif_neg hnew, Table.insert_rows, hrows, List.map_append]
      rfl
    · intro id hid
      rw [hinserted'.products, hinserted'.versions, hinserted.versions, Table.keys, Table.keys,
        hinserted.rows, hinserted'.rows, hinserted.components, List.map_append, List.map_append,
        List.mem_append, List.mem_append] at hid
      have hold : (∃ i < minted, env.ulid i = id) → ∃ i < minted + 2, env.ulid i = id := by
        rintro ⟨i, hi, heq⟩
        exact ⟨i, by omega, heq⟩
      rcases hid with (hid | hid) | (hid | hid) | hid
      · exact hold (h.mintedIds id (Or.inl hid))
      · exact ⟨minted, by omega, (List.mem_singleton.mp hid).symm⟩
      · exact hold (h.mintedIds id (Or.inr (Or.inl hid)))
      · exact ⟨minted + 1, by omega, (List.mem_singleton.mp hid).symm⟩
      · exact hold (h.mintedIds id (Or.inr (Or.inr hid)))
  · rw [Store.flatVersions_component hinserted', Store.flatVersions_product hinserted]

/-- The loop finds the component of a product, or creates the two. -/
theorem componentFor_run (hfresh : Function.Injective env.ulid)
    (h : Grouped env componentIdByProduct minted db) (productName : String) :
    ∃ componentId known minted' db',
      (componentFor env componentIdByProduct minted productName).run db =
        (.ok (componentId, known, minted'), db') ∧
      ((componentFor env componentIdByProduct minted productName).trace db).length =
        (if productName ∈ componentIdByProduct.keys then 0 else 2) ∧
      Grouped env known minted' db' ∧ Dict.get? known productName = some componentId ∧
      (∀ name, name ∈ known.keys ↔ name ∈ componentIdByProduct.keys ∨ name = productName) ∧
      db'.relational.flatVersions = db.relational.flatVersions := by
  unfold componentFor
  cases hget : Dict.get? componentIdByProduct productName with
  | some componentId =>
    have hmem : productName ∈ componentIdByProduct.keys := Dict.mem_keys_iff.mpr ⟨_, hget⟩
    refine ⟨componentId, componentIdByProduct, minted, db, rfl, by rw [if_pos hmem]; rfl, h, hget,
      ?_, rfl⟩
    intro name
    constructor
    · exact Or.inl
    · rintro (h | rfl)
      · exact h
      · exact hmem
  | none =>
    have hnew := Dict.get?_eq_none.mp hget
    obtain ⟨db', hrun, htrace, hgrouped, hflat⟩ := createProductAndComponent_run hfresh h hnew
    refine ⟨env.ulid (minted + 1), _, minted + 2, db', ?_, ?_, hgrouped, ?_, ?_, hflat⟩
    · dsimp only
      rw [Prog.run_bind, hrun]
      rfl
    · dsimp only
      rw [Prog.trace_bind_pure, htrace, if_neg hnew]
    · rw [Dict.get?_set, if_pos rfl]
    · exact fun name => Dict.mem_keys_set

/-- The `CHECK` keeps the text of the status, as the engine compares it. -/
theorem admitStatus_ok {status : Option String}
    (h : ∀ text ∈ status, (engine.status? text).isSome) :
    ∃ admitted, admitStatus engine status = .ok admitted ∧
      admitted.map VersionStatus.value = status.map engine.statusText := by
  cases status with
  | none => exact ⟨none, rfl, rfl⟩
  | some text =>
    obtain ⟨found, hfound⟩ := Option.isSome_iff_exists.mp (h text rfl)
    exact ⟨some found, by simp [admitStatus, hfound], by simp [Engine.statusText, hfound]⟩

theorem admitStatus_of_ok {status : Option String} {admitted : Option VersionStatus}
    (h : admitStatus engine status = .ok admitted) :
    ∀ text ∈ status, (engine.status? text).isSome := by
  rintro text rfl
  unfold admitStatus at h
  dsimp only at h
  split at h
  · next found hfound => rw [hfound, Option.isSome_some]
  · cases h

/-- A status in the letters of the schema is read as it is by every engine. -/
theorem status_of_value (engine : Engine) {text : String}
    (h : text ∈ ["active", "superseded", "rolled_back"]) :
    ∃ status, engine.status? text = some status ∧ status.value = text := by
  simp only [List.mem_cons, List.not_mem_nil, or_false] at h
  rcases h with rfl | rfl | rfl
  · exact ⟨.active, engine.status_value .active, rfl⟩
  · exact ⟨.superseded, engine.status_value .superseded, rfl⟩
  · exact ⟨.rolledBack, engine.status_value .rolledBack, rfl⟩

theorem admittedBy_of_admitted {row : LegacyRow} (h : row.Admitted) : row.AdmittedBy engine := by
  refine ⟨h.1, h.2.1, h.2.2.1, fun text htext => ?_⟩
  obtain ⟨status, hstatus, _⟩ := status_of_value engine (h.2.2.2 text htext)
  rw [hstatus, Option.isSome_some]

theorem flat_on_of_admitted {row : LegacyRow} (h : row.Admitted) :
    row.flat.on engine = row.flat := by
  have hstatus : row.status.map engine.statusText = row.status := by
    cases htext : row.status with
    | none => rfl
    | some text =>
      obtain ⟨status, hread, hvalue⟩ := status_of_value engine (h.2.2.2 text htext)
      simp [Engine.statusText, hread, hvalue]
  simp only [FlatVersion.on, LegacyRow.flat, hstatus]

/-- A row that is admitted becomes a version of its component. -/
theorem insertVersion_run (hfresh : Function.Injective env.ulid)
    (h : Grouped env componentIdByProduct minted db) {row : LegacyVersion} {componentId : String}
    (hget : Dict.get? componentIdByProduct row.productName = some componentId)
    (hrange : InInteger row.major ∧ InInteger row.minor ∧ InInteger row.patch)
    (hstatus : ∀ text ∈ row.status, (engine.status? text).isSome) :
    ∃ db', db.insertVersion engine (migratedVersion env minted componentId row) row.status =
        .ok db' ∧
      Grouped env componentIdByProduct (minted + 1) db' ∧
      db'.relational.flatVersions = db.relational.flatVersions ++ [row.flat.on engine] := by
  obtain ⟨groups, hproducts, hcomponents, hpairs, hrows⟩ := h.groups
  have hentry := Dict.get?_eq_some.mp hget
  rw [hrows] at hentry
  obtain ⟨⟨p, c⟩, hg, heq⟩ := List.mem_map.mp hentry
  obtain ⟨hname, hid⟩ := Prod.mk.injEq .. ▸ heq
  have hp : p ∈ db.relational.products.rows := hproducts ▸ List.mem_map.mpr ⟨_, hg, rfl⟩
  have hc : c ∈ db.relational.components.rows := hcomponents ▸ List.mem_map.mpr ⟨_, hg, rfl⟩
  obtain ⟨admitted, hadmitted, hvalue⟩ := admitStatus_ok hstatus
  obtain ⟨db', hinsert⟩ := insertVersion_isOk
    (migratedVersion env minted componentId row) h.versions hadmitted
    ⟨hrange, (fresh_of_le hfresh h (le_refl minted)).2.2, hid ▸ Table.key_mem_keys hc⟩
  obtain ⟨admitted', hadmitted', hinserted, hnames⟩ := insertVersion_ok hinsert
  cases hadmitted.symm.trans hadmitted'
  refine ⟨db', hinsert, ⟨ready_of_names h.ready hnames, hnames.versions.trans h.versions,
    ⟨groups, ?_, ?_, hpairs, hrows⟩, ?_⟩, ?_⟩
  · rw [hinserted.products, hproducts]
  · rw [hinserted.components, hcomponents]
  · intro id hmem
    have hold : (∃ i < minted, env.ulid i = id) → ∃ i < minted + 1, env.ulid i = id := by
      rintro ⟨i, hi, heq⟩
      exact ⟨i, by omega, heq⟩
    rw [hinserted.products, hinserted.components] at hmem
    rcases hmem with hmem | hmem | hmem
    · exact hold (h.mintedIds id (Or.inl hmem))
    · exact hold (h.mintedIds id (Or.inr (Or.inl hmem)))
    · rw [Table.keys, hinserted.rows, List.map_append, List.mem_append] at hmem
      rcases hmem with hmem | hmem
      · exact hold (h.mintedIds id (Or.inr (Or.inr hmem)))
      · exact ⟨minted, by omega, (List.mem_singleton.mp hmem).symm⟩
  · rw [Store.flatVersions_version hinserted hc hid hp (hpairs _ hg).symm]
    show _ ++ [FlatVersion.mk p.name (some row.major) (some row.minor) (some row.patch)
      (admitted.map VersionStatus.value)] = _
    rw [hvalue, show p.name = row.productName from hname]
    rfl

/-- The names of the rows that the dictionary does not know: two statements each. -/
def newNames (known : List String) (rows : List LegacyVersion) : Nat :=
  ((rows.map LegacyVersion.productName).toFinset.filter fun name => name ∉ known).card

theorem newNames_cons {known known' : List String} {row : LegacyVersion}
    (h : ∀ name, name ∈ known' ↔ name ∈ known ∨ name = row.productName)
    (rest : List LegacyVersion) :
    newNames known (row :: rest) =
      newNames known' rest + if row.productName ∈ known then 0 else 1 := by
  unfold newNames
  rw [List.map_cons, List.toFinset_cons, Finset.filter_insert]
  by_cases hmem : row.productName ∈ known
  · rw [if_neg (not_not.mpr hmem), if_pos hmem]
    refine congrArg Finset.card (Finset.filter_congr fun name _ => not_congr ?_)
    rw [h name]
    exact ⟨Or.inl, fun hor => hor.elim id fun heq => heq ▸ hmem⟩
  · rw [if_pos hmem, if_neg hmem]
    have hself : row.productName ∉ ((rest.map LegacyVersion.productName).toFinset.filter
        fun name => name ∉ known') := by
      rw [Finset.mem_filter, h]
      simp
    rw [← Finset.card_insert_of_notMem hself]
    refine congrArg Finset.card (Finset.ext fun name => ?_)
    simp only [Finset.mem_insert, Finset.mem_filter, h]
    tauto

/-- A loop whose rows are all admitted inserts them in their order. -/
theorem insertRelational_run (hfresh : Function.Injective env.ulid) (rows : List LegacyVersion)
    {done : List LegacyVersion} (h : Migrated engine env done componentIdByProduct minted db)
    (hrows : ∀ row ∈ rows, (InInteger row.major ∧ InInteger row.minor ∧ InInteger row.patch) ∧
      ∀ text ∈ row.status, (engine.status? text).isSome) :
    ∃ known minted' db',
      (insertRelational engine env rows componentIdByProduct minted).run db = (.ok ⟨⟩, db') ∧
      ((insertRelational engine env rows componentIdByProduct minted).trace db).length =
        rows.length + 2 * newNames componentIdByProduct.keys rows ∧
      Migrated engine env (done ++ rows) known minted' db' := by
  induction rows generalizing componentIdByProduct minted db done with
  | nil =>
    refine ⟨componentIdByProduct, minted, db, rfl, rfl, ?_⟩
    rwa [List.append_nil]
  | cons row rest ih =>
    obtain ⟨⟨hrange, hstatus⟩, hrest⟩ := List.forall_mem_cons.mp hrows
    obtain ⟨componentId, known, minted₁, db₁, hrun₁, htrace₁, hgrouped₁, hget, hkeys, hflat₁⟩ :=
      componentFor_run hfresh h.grouped row.productName
    obtain ⟨db₂, hinsert, hgrouped₂, hflat₂⟩ :=
      insertVersion_run hfresh hgrouped₁ hget hrange hstatus
    have hdone : Migrated engine env (done ++ [row]) known (minted₁ + 1) db₂ := by
      refine ⟨hgrouped₂, ?_, ?_⟩
      · intro name
        rw [hkeys, h.names]
        constructor
        · rintro (⟨r, hr, rfl⟩ | rfl)
          · exact ⟨r, List.mem_append_left _ hr, rfl⟩
          · exact ⟨row, List.mem_append_right _ (List.mem_singleton_self row), rfl⟩
        · rintro ⟨r, hr, rfl⟩
          rcases List.mem_append.mp hr with hr | hr
          · exact Or.inl ⟨r, hr, rfl⟩
          · exact Or.inr (congrArg LegacyVersion.productName (List.mem_singleton.mp hr))
      · rw [hflat₂, hflat₁, h.flat, List.map_append]
        rfl
    obtain ⟨known', minted', db', hrun, htrace, hmigrated⟩ := ih hdone hrest
    refine ⟨known', minted', db', ?_, ?_, ?_⟩
    · rw [insertRelational, Prog.run_bind, hrun₁]
      dsimp only
      rw [Prog.run_bind, run_write_ok hinsert]
      exact hrun
    · rw [insertRelational, Prog.trace_bind_ok hrun₁]
      dsimp only
      rw [Prog.trace_bind_ok (run_write_ok hinsert), trace_write, List.length_append,
        List.length_append, List.length_singleton, htrace₁, htrace, newNames_cons hkeys,
        List.length_cons]
      split <;> omega
    · rwa [List.append_assoc, List.singleton_append] at hmigrated

/-! ## Reading the legacy rows -/

theorem intOf_ok {value : Option Int} {n : Int} : intOf value = .ok n ↔ value = some n := by
  cases value <;> simp [intOf]

theorem read_ok {row : LegacyRow} {v : LegacyVersion} (h : row.read = .ok v) :
    v.flat = row.flat := by
  unfold LegacyRow.read at h
  cases hmajor : intOf row.major with
  | error _ => rw [hmajor] at h; cases h
  | ok major =>
    cases hminor : intOf row.minor with
    | error _ => rw [hmajor, hminor] at h; cases h
    | ok minor =>
      cases hpatch : intOf row.patch with
      | error _ => rw [hmajor, hminor, hpatch] at h; cases h
      | ok patch =>
        rw [hmajor, hminor, hpatch] at h
        cases h
        rw [LegacyVersion.flat, LegacyRow.flat, intOf_ok.mp hmajor, intOf_ok.mp hminor,
          intOf_ok.mp hpatch]

theorem read_isOk {row : LegacyRow} (hmajor : row.major.isSome) (hminor : row.minor.isSome)
    (hpatch : row.patch.isSome) : ∃ v, row.read = .ok v := by
  obtain ⟨major, hmajor⟩ := Option.isSome_iff_exists.mp hmajor
  obtain ⟨minor, hminor⟩ := Option.isSome_iff_exists.mp hminor
  obtain ⟨patch, hpatch⟩ := Option.isSome_iff_exists.mp hpatch
  unfold LegacyRow.read
  rw [hmajor, hminor, hpatch]
  exact ⟨_, rfl⟩

theorem mapM_read_ok {rows : List LegacyRow} {versions : List LegacyVersion}
    (h : rows.mapM LegacyRow.read = .ok versions) :
    versions.map LegacyVersion.flat = rows.map LegacyRow.flat := by
  induction rows generalizing versions with
  | nil => cases h; rfl
  | cons row rest ih =>
    rw [List.mapM_cons] at h
    cases hrow : row.read with
    | error _ => rw [hrow] at h; cases h
    | ok v =>
      cases hrest : rest.mapM LegacyRow.read with
      | error _ => rw [hrow, hrest] at h; cases h
      | ok vs =>
        rw [hrow, hrest] at h
        cases h
        rw [List.map_cons, List.map_cons, read_ok hrow, ih hrest]

theorem mapM_read_isOk (rows : List LegacyRow)
    (h : ∀ row ∈ rows, row.major.isSome ∧ row.minor.isSome ∧ row.patch.isSome) :
    ∃ versions, rows.mapM LegacyRow.read = .ok versions := by
  induction rows with
  | nil => exact ⟨[], rfl⟩
  | cons row rest ih =>
    obtain ⟨⟨hmajor, hminor, hpatch⟩, hrest⟩ := List.forall_mem_cons.mp h
    obtain ⟨v, hv⟩ := read_isOk hmajor hminor hpatch
    obtain ⟨vs, hvs⟩ := ih hrest
    rw [List.mapM_cons, hv, hvs]
    exact ⟨_, rfl⟩

/-- What the rows of a legacy table read as: numbers in range, and the same names. -/
theorem read_rows {legacy : LegacyTable} {versions : List LegacyVersion}
    (h : (env.collation.sort legacy.rows).mapM LegacyRow.read = .ok versions) :
    (versions.map LegacyVersion.flat).Perm (legacy.rows.map LegacyRow.flat) ∧
      ∀ v ∈ versions, (InInteger v.major ∧ InInteger v.minor ∧ InInteger v.patch) ∧
        ∃ row ∈ legacy.rows, v.flat = row.flat := by
  have hperm : (versions.map LegacyVersion.flat).Perm (legacy.rows.map LegacyRow.flat) := by
    rw [mapM_read_ok h]
    exact (env.collation.perm legacy.rows).map LegacyRow.flat
  refine ⟨hperm, fun v hv => ?_⟩
  obtain ⟨row, hrow, hflat⟩ := List.mem_map.mp (hperm.mem_iff.mp (List.mem_map_of_mem hv))
  refine ⟨?_, row, hrow, hflat.symm⟩
  have hrange := legacy.range row hrow
  simp only [LegacyRow.flat, LegacyVersion.flat, FlatVersion.mk.injEq] at hflat
  obtain ⟨_, hmajor, hminor, hpatch, _⟩ := hflat
  refine ⟨hrange row.major ?_ _ hmajor, hrange row.minor ?_ _ hminor,
    hrange row.patch ?_ _ hpatch⟩ <;> simp

/-- The names are read as they are, however the rows are sorted. -/
theorem names_of_flat {rows : List LegacyRow} {versions : List LegacyVersion}
    (h : (versions.map LegacyVersion.flat).Perm (rows.map LegacyRow.flat)) :
    (versions.map LegacyVersion.productName).Perm (rows.map fun row => strOf row.productName) := by
  have hnames := h.map FlatVersion.productName
  rwa [List.map_map, List.map_map] at hnames

/-- Before the loop nothing is inserted. -/
theorem migrated_nil {renamed ready : Database} {legacy : LegacyTable}
    (hempty : db.relational = Store.empty) (h : Prepared engine.kind db renamed ready legacy) :
    Migrated engine env [] Table.empty 0 ready := by
  have hrelational : ready.relational = Store.empty :=
    h.applied.relational.trans (h.relational.trans hempty)
  have hversions : ready.versions = .relational :=
    (h.applied.created h.versions).resolve_left h.ready.versions
  refine ⟨⟨h.ready, hversions, ⟨[], ?_, ?_, nofun, rfl⟩, ?_⟩, ?_, ?_⟩
  · rw [hrelational]; rfl
  · rw [hrelational]; rfl
  · intro id hid
    rw [hrelational] at hid
    rcases hid with hid | hid | hid <;> cases hid
  · exact fun name => ⟨fun hmem => absurd hmem List.not_mem_nil, fun ⟨_, hmem, _⟩ => nomatch hmem⟩
  · rw [hrelational]; rfl

/-- One product for each name, with one component. -/
theorem oneProductPerName {versions : List LegacyVersion} {legacy : LegacyTable}
    (h : Migrated engine env versions componentIdByProduct minted db)
    (hperm : (versions.map LegacyVersion.flat).Perm (legacy.rows.map LegacyRow.flat)) :
    OneProductPerName legacy db.relational := by
  obtain ⟨groups, hproducts, hcomponents, hpairs, hrows⟩ := h.grouped.groups
  have hnames : db.relational.products.rows.map ProductRow.name = componentIdByProduct.keys := by
    rw [hproducts, Table.keys, hrows, List.map_map, List.map_map]
    rfl
  refine ⟨hnames ▸ componentIdByProduct.nodup_keys, ?_, ?_⟩
  · intro name
    have hmem := (names_of_flat hperm).mem_iff (a := name)
    rw [hnames, h.names, ← List.mem_map, hmem, List.mem_map]
  · intro p hp
    rw [hproducts] at hp
    obtain ⟨g, hg, rfl⟩ := List.mem_map.mp hp
    -- A component of the product stands in a group with a product of the same id.
    have hgroups : (groups.map fun g => g.1.id).Nodup := by
      have hkeys := db.relational.products.nodup_keys
      rwa [hproducts, List.map_map] at hkeys
    have hsingle : groups.filter (fun g' => g'.1.id = g.1.id) = [g] :=
      Table.lookup_eq_singleton (t := ⟨groups, hgroups⟩) hg
    rw [hcomponents, List.filter_map, List.length_map]
    have hsame : ∀ g' ∈ groups,
        ((fun c : ComponentRow => decide (c.productId = g.1.id)) ∘ Prod.snd) g' =
          decide (g'.1.id = g.1.id) :=
      fun g' hg' => by rw [Function.comp_apply, hpairs g' hg']
    rw [List.filter_congr hsame, hsingle]
    rfl

end FaithfulLemmas

open FaithfulLemmas

/-! ## One run -/

section

variable {engine : Engine} {env : BootEnv} {legacy : LegacyTable} {db : Database}

/-- A run over rows that are all admitted, from empty relational tables: its outcome, and
the number of its statements. -/
theorem run_of_admitted (engine : Engine) (hfresh : Function.Injective env.ulid)
    (hversions : db.versions = .legacy legacy) (hempty : db.relational = Store.empty)
    (harchive : db.archive = none) (hrows : legacy.rows ≠ [])
    (hadmitted : ∀ row ∈ legacy.rows, row.AdmittedBy engine) :
    ∃ db', (FlatToRelationalMigration.run engine env).run db = (.ok ⟨⟩, db') ∧
      RepresentedOn engine legacy db' ∧ OneProductPerName legacy db'.relational ∧
      db'.versions = .relational ∧ db'.archive = some legacy ∧
      (Ready db → ((FlatToRelationalMigration.run engine env).trace db).length =
        7 + (ddl engine.kind).length + legacy.rows.length +
          2 * (legacy.rows.map fun row => strOf row.productName).dedup.length) := by
  have hproducts : db.relational.products.rows = [] := by rw [hempty]; rfl
  obtain ⟨versions, hread⟩ : ∃ versions,
      (env.collation.sort legacy.rows).mapM LegacyRow.read = .ok versions := by
    refine mapM_read_isOk _ fun row hrow => ?_
    obtain ⟨hmajor, hminor, hpatch, _⟩ :=
      hadmitted row ((env.collation.perm legacy.rows).mem_iff.mp hrow)
    exact ⟨hmajor, hminor, hpatch⟩
  obtain ⟨hperm, hranges⟩ := read_rows hread
  obtain ⟨renamed, ready, hprepared⟩ := exists_prepared hversions engine.kind harchive
  obtain ⟨known, minted, db', hrun, htrace, hmigrated⟩ :=
    insertRelational_run hfresh versions (migrated_nil hempty hprepared) fun v hv => by
      obtain ⟨hrange, row, hrow, hflat⟩ := hranges v hv
      refine ⟨hrange, ?_⟩
      rw [show v.status = row.status from congrArg FlatVersion.status hflat]
      exact (hadmitted row hrow).2.2.2
  rw [List.nil_append] at hmigrated
  refine ⟨db', ?_, ?_, oneProductPerName hmigrated hperm, hmigrated.grouped.versions, ?_, ?_⟩
  · rw [run_of_read hversions hrows hproducts hread hprepared, hrun]
  · have hon := hperm.map (FlatVersion.on engine)
    rw [List.map_map, List.map_map] at hon
    rw [RepresentedOn, hmigrated.flat]
    exact hon
  · have hnames := insertRelational_names engine env versions Table.empty 0 ready
    rw [hrun] at hnames
    rw [hnames.archive, hprepared.applied.archive, hprepared.archive]
  · intro hready
    have hdistinct : newNames [] versions =
        (legacy.rows.map fun row => strOf row.productName).dedup.length := by
      simp only [newNames, List.not_mem_nil, not_false_eq_true, Finset.filter_true]
      rw [List.card_toFinset, ((names_of_flat hperm).dedup).length_eq]
    have hlength := hperm.length_eq
    rw [List.length_map, List.length_map] at hlength
    rw [trace_of_read hversions hrows hproducts hready hread hprepared, List.length_append,
      List.length_replicate, List.length_cons, List.length_append, initSchema,
      (runScript_trace _ _).1, htrace, ← hdistinct, hlength]
    show 6 + ((ddl engine.kind).length + (legacy.rows.length + 2 * newNames [] versions) + 1) = _
    omega

/-- While the gate is closed, no number of runs changes anything. -/
theorem runs_of_closed (hclosed : ∀ table, db.versions = .legacy table → table.rows = [])
    (envs : List BootEnv) :
    envs.foldl (fun db env => ((FlatToRelationalMigration.run engine env).run db).2) db = db := by
  induction envs with
  | nil => rfl
  | cons env rest ih =>
    rw [List.foldl_cons, run_of_closed engine env hclosed]
    exact ih

end

/-- A row that the migration can represent: it has a name, and every engine admits it. -/
def LegacyRow.Complete (row : LegacyRow) : Prop := row.productName.isSome ∧ row.Admitted

instance (row : LegacyRow) : Decidable row.Complete := inferInstanceAs (Decidable (_ ∧ _))

/-- One run over a flat table and empty relational tables inserts one product with one
component for each name and one version for each row, and archives the rows. Further runs
change nothing. -/
theorem migration_faithful (engine : Engine) (env : BootEnv) (legacy : LegacyTable)
    (db : Database) (hfresh : Function.Injective env.ulid)
    (hversions : db.versions = .legacy legacy) (hempty : db.relational = Store.empty)
    (harchive : db.archive = none) (hcomplete : ∀ row ∈ legacy.rows, row.Complete) :
    ∃ db', (FlatToRelationalMigration.run engine env).run db = (.ok ⟨⟩, db') ∧
      OneProductPerName legacy db'.relational ∧ Represented legacy db' ∧
      db'.archivedRows = legacy.rows ∧
      ∀ envs : List BootEnv, envs.foldl
        (fun db env => ((FlatToRelationalMigration.run engine env).run db).2) db' = db' := by
  by_cases hrows : legacy.rows = []
  · have hclosed : ∀ table, db.versions = .legacy table → table.rows = [] := by
      intro table h
      cases hversions.symm.trans h
      exact hrows
    refine ⟨db, run_of_closed engine env hclosed, ?_, ?_, ?_, runs_of_closed hclosed⟩
    · rw [hempty]
      exact ⟨List.nodup_nil, by simp [Store.empty, hrows], nofun⟩
    · rw [Represented, hempty, hrows]
      exact List.Perm.refl []
    · rw [archivedRows, harchive, hrows]
  · obtain ⟨db', hrun, hrepresented, hproducts, hrelational, harchived, _⟩ :=
      run_of_admitted engine hfresh hversions hempty harchive hrows
        fun row hrow => admittedBy_of_admitted (hcomplete row hrow).2
    rw [RepresentedOn, List.map_congr_left fun row hrow =>
      flat_on_of_admitted (hcomplete row hrow).2] at hrepresented
    refine ⟨db', hrun, hproducts, hrepresented, ?_, runs_of_closed fun table h => ?_⟩
    · rw [archivedRows, harchived]
    · cases hrelational.symm.trans h

namespace Sample

def postgres : Engine := .exact .postgres

/-- The order of a table whose rows already stand in it. -/
def inOrder : Collation := ⟨id, List.Perm.refl⟩

/-- The `n`-th id ends in `n` zeros. -/
def bootEnv : BootEnv where
  ulid := fun n => String.ofList (List.replicate n '0')
  now := fun n => 1782734400000000 + n
  collation := inOrder

theorem bootEnv_fresh : Function.Injective bootEnv.ulid := by
  intro m n h
  have hlists : List.replicate m '0' = List.replicate n '0' := String.ofList_injective h
  simpa using congrArg List.length hlists

def flatRows : List LegacyRow :=
  [⟨some 1, some 1, some 0, some 0, some "atlas", some "active"⟩,
    ⟨some 2, some 1, some 1, some 0, some "atlas", some "superseded"⟩,
    ⟨some 3, some 2, some 0, some 0, some "borealis", none⟩]

theorem flatRows_range : ∀ row ∈ flatRows, row.InRange := by decide

def flatTable : LegacyTable := ⟨flatRows, flatRows_range⟩

/-- The database of the legacy service, before its first boot with this schema. -/
def legacyDatabase : Database where
  relational := Store.empty
  tables := []
  versions := .legacy flatTable
  archive := none
  no_versions := fun _ => rfl

end Sample

theorem migration_faithful_sample :
    ∃ db', (FlatToRelationalMigration.run Sample.postgres Sample.bootEnv).run
        Sample.legacyDatabase = (.ok ⟨⟩, db') ∧
      OneProductPerName Sample.flatTable db'.relational ∧ Represented Sample.flatTable db' ∧
      db'.archivedRows = Sample.flatTable.rows ∧
      ∀ envs : List BootEnv, envs.foldl
        (fun db env => ((FlatToRelationalMigration.run Sample.postgres env).run db).2) db' = db' :=
  migration_faithful Sample.postgres Sample.bootEnv Sample.flatTable Sample.legacyDatabase
    Sample.bootEnv_fresh rfl rfl rfl (by decide)

end LavsCore
