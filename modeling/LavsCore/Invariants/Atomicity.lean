import LavsCore.Invariants.VersionHistory
import LavsCore.Lib.Interruption
import Mathlib.Data.List.Nodup

/-!
# Failed calls that leave something behind

Two calls write in several statements and fail in between. A creation supersedes the
active version before its `INSERT` can be refused; a cut inserts the release before a
manifest row can be refused. And any statement may fail for a reason of its own: the
connection is lost, the driver cannot bind a value. `createVersion_atomic_iff` and
`cutRelease_atomic_iff` say exactly when a failed call leaves its tables as they were.
-/

namespace LavsCore

open Query Store

namespace Query

variable {α : Type}

/-! ## Statements that fail -/

section

variable (fault : Sql → World → Option ApiError)

@[simp] theorem run_failingIn_select (statement : Sql) (f : Store → α) (w : World) :
    ((select statement f).failingIn fault).run w =
      match fault statement w with
      | some error => (.error error, w)
      | none => (.ok (f w.db), w) := by
  rw [select, Prog.query, Prog.run_failingIn_atomically]
  cases fault statement w <;> simp

@[simp] theorem run_failingIn_insert (statement : Sql) (f : Store → Except Refusal Store)
    (w : World) :
    ((insert statement f).failingIn fault).run w =
      match fault statement w with
      | some error => (.error error, w)
      | none => (insert statement f).run w := by
  rw [insert, Prog.run_failingIn_atomically]
  cases fault statement w <;> rfl

@[simp] theorem run_failingIn_execute (statement : Sql) (f : Store → Store) (w : World) :
    ((execute statement f).failingIn fault).run w =
      match fault statement w with
      | some error => (.error error, w)
      | none => (.ok ⟨⟩, { w with db := f w.db }) := by
  rw [execute, Prog.run_failingIn_atomically]
  cases fault statement w <;> simp

@[simp] theorem run_failingIn_publish (eventBus : Bool) (event : DomainEvent) (w : World) :
    ((publish eventBus event).failingIn fault).run w =
      match (if eventBus then fault .publish w else none) with
      | some error => (.error error, w)
      | none => (publish eventBus event).run w := by
  cases eventBus with
  | false => rfl
  | true =>
    simp only [publish, if_true]
    rw [Prog.run_failingIn_atomically]
    cases fault .publish w <;> rfl

@[simp] theorem failingIn_firstRow_cons (row : α) (rows : List α) :
    (firstRow (row :: rows)).failingIn fault = pure row := rfl

@[simp] theorem failingIn_refuseIf (refused : Bool) (error : ApiError) :
    (refuseIf refused error).failingIn fault = refuseIf refused error := by
  cases refused <;> rfl

end

end Query

/-! ## Creating a version -/

section CreateVersion

variable (eventBus : Bool) (data : CreateVersionModel) (env : Env) (fault : Sql → Option ApiError)
  (w : World)

/-- A creation that ends in an error leaves the versions as they were. The statements that have a
`fault` raise it; a creation executes each of its statements at most once. -/
def CreateVersionAtomic : Prop :=
  ∀ error, (((createVersion eventBus data env).failing fault).run w).1 = .error error →
    (((createVersion eventBus data env).failing fault).run w).2.db.versions = w.db.versions

/-- The creation gets as far as its `UPDATE`, which is executed. -/
def SupersedesActive : Prop :=
  fault .selectComponent = none ∧ data.componentId ∈ w.db.components.keys ∧
    fault .supersedeActive = none

/-- The database accepts the row of the request: its numbers fit the `INTEGER` columns,
its prerelease the `VARCHAR` of the engine, and its id is not in use. -/
def VersionAdmitted (db : Store) : Prop :=
  ∃ major minor patch, data.major = .ok major ∧ data.minor = .ok minor ∧ data.patch = .ok patch ∧
    (newVersionRow data env major minor patch).fits env.backend = true ∧
    db.AdmitsVersion (newVersionRow data env major minor patch)

/-- Nothing that follows the `INSERT` raises. -/
def AnswersVersion : Prop :=
  fault .selectVersion = none ∧ (eventBus = true → fault .publish = none)

end CreateVersion

namespace AtomicityLemmas

variable {db : Store}

theorem supersedeActive_of_nil {c : String} (h : db.activeVersions c = []) :
    db.supersedeActive c = db := by
  refine Store.ext rfl rfl (Table.ext ?_) rfl rfl rfl
  rw [supersedeActive_eq, setStatus_rows]
  refine (List.map_congr_left fun v hv => ?_).trans (List.map_id _)
  refine withStatus_of_not ?_
  rw [← Bool.not_eq_true]
  intro hactive
  have hmem : v ∈ db.activeVersions c := List.mem_filter.mpr ⟨hv, hactive⟩
  rw [h] at hmem
  exact absurd hmem List.not_mem_nil

theorem supersedeActive_ne {c : String} (h : db.activeVersions c ≠ []) :
    (db.supersedeActive c).versions ≠ db.versions := by
  intro heq
  rw [← activeVersions_congr heq, activeVersions_supersede_self] at h
  exact h rfl

/-- Superseding changes neither the ids nor the components of versions. -/
theorem admits_supersede_iff (c : String) (row : VersionRow) :
    (db.supersedeActive c).AdmitsVersion row ↔ db.AdmitsVersion row := by
  unfold AdmitsVersion
  rw [supersedeActive_eq, setStatus_keys, setStatus_components]

/-- A row that has been inserted is one more than there were. -/
theorem versions_ne_of_insert {c : String} {row : VersionRow} {db' : Store}
    (h : (db.supersedeActive c).insertVersion row = .ok db') : db'.versions ≠ db.versions := by
  intro heq
  have hrows := congrArg (fun t => t.rows.length) heq
  simp [(insertVersion_ok h).rows, supersedeActive_eq] at hrows

variable {data : CreateVersionModel} {env : Env} {fault : Sql → Option ApiError}
  {w : World}

/-- A creation that ends before its `UPDATE` writes nothing. -/
theorem createVersion_stays (eventBus : Bool) (h : ¬ SupersedesActive data fault w) :
    (((createVersion eventBus data env).failing fault).run w).2 = w := by
  cases hselect : fault .selectComponent with
  | some error => simp [createVersion, Prog.failing, hselect]
  | none =>
  by_cases hknown : data.componentId ∈ w.db.components.keys
  case neg => simp [createVersion, Prog.failing, hselect, Table.lookup_eq_nil.mpr hknown]
  obtain ⟨component, _, _, hlookup⟩ := Table.lookup_eq_singleton_of_mem_keys hknown
  cases hsupersede : fault .supersedeActive with
  | some error => simp [createVersion, Prog.failing, hselect, hlookup, hsupersede]
  | none => exact absurd ⟨hselect, hknown, hsupersede⟩ h

/-- One whose `INSERT` does not get through leaves the update. -/
theorem createVersion_halts (eventBus : Bool) (h : SupersedesActive data fault w)
    (hinserts : ¬ (fault .insertVersion = none ∧ VersionAdmitted data env w.db)) :
    ∃ error, ((createVersion eventBus data env).failing fault).run w =
      (.error error, { w with db := w.db.supersedeActive data.componentId }) := by
  obtain ⟨hselect, hknown, hsupersede⟩ := h
  obtain ⟨component, _, _, hlookup⟩ := Table.lookup_eq_singleton_of_mem_keys hknown
  obtain ⟨major, minor, patch, hmajor, hminor, hpatch⟩ := data.numbers_ok
  cases hfault : fault .insertVersion with
  | some error =>
    exact ⟨error, by simp [createVersion, Prog.failing, hselect, hlookup, hsupersede, hmajor,
      hminor, hpatch, hfault]⟩
  | none =>
  cases hinsert : (w.db.supersedeActive data.componentId).insertVersionOn env.backend
      (newVersionRow data env major minor patch) with
  | error refusal =>
    exact ⟨.refused refusal, by simp [createVersion, Prog.failing, hselect, hlookup, hsupersede,
      hmajor, hminor, hpatch, hfault, hinsert]⟩
  | ok db =>
    obtain ⟨hfits, hok⟩ := insertVersionOn_ok hinsert
    have hadmitted := (admits_supersede_iff _ _).mp (insertVersion_ok hok).admitted
    exact absurd ⟨hfault, _, _, _, hmajor, hminor, hpatch, hfits, hadmitted⟩ hinserts

/-- One whose `INSERT` gets through has changed the versions. -/
theorem createVersion_inserts (eventBus : Bool) (h : SupersedesActive data fault w)
    (hfault : fault .insertVersion = none) (hadmitted : VersionAdmitted data env w.db) :
    (((createVersion eventBus data env).failing fault).run w).2.db.versions ≠ w.db.versions ∧
      ((∃ version, (((createVersion eventBus data env).failing fault).run w).1 = .ok version) ↔
        AnswersVersion eventBus fault) := by
  obtain ⟨hselect, hknown, hsupersede⟩ := h
  obtain ⟨component, _, _, hlookup⟩ := Table.lookup_eq_singleton_of_mem_keys hknown
  obtain ⟨major, minor, patch, hmajor, hminor, hpatch⟩ := data.numbers_ok
  obtain ⟨_, _, _, hmajor', hminor', hpatch', hfits, hadmits⟩ := hadmitted
  cases hmajor.symm.trans hmajor'
  cases hminor.symm.trans hminor'
  cases hpatch.symm.trans hpatch'
  obtain ⟨db, hinsert⟩ := insertVersion_isOk ((admits_supersede_iff data.componentId _).mpr hadmits)
  have hon : (w.db.supersedeActive data.componentId).insertVersionOn env.backend
      (newVersionRow data env major minor patch) = .ok db := by
    rw [insertVersionOn, if_pos hfits, hinsert]
  have hne : db.versions ≠ w.db.versions := versions_ne_of_insert hinsert
  have hcreated : db.versions.lookup env.ulid = [newVersionRow data env major minor patch] := by
    refine Table.lookup_eq_singleton (r := newVersionRow data env major minor patch) ?_
    rw [(insertVersion_ok hinsert).rows]
    exact List.mem_append_right _ List.mem_cons_self
  obtain ⟨version, hversion⟩ :
      ∃ version, toVersionResponse (newVersionRow data env major minor patch) = .ok version :=
    ⟨_, toVersionResponse_ok_iff.mpr ⟨.active, rfl, negativeFields_natCast rfl rfl rfl, rfl⟩⟩
  cases hread : fault .selectVersion with
  | some error =>
    have hrun : ((createVersion eventBus data env).failing fault).run w =
        (.error error, { w with db := db }) := by
      simp [createVersion, Prog.failing, hselect, hlookup, hsupersede, hmajor, hminor, hpatch,
        hfault, hon, hread]
    rw [hrun]
    exact ⟨hne, by simp [AnswersVersion, hread]⟩
  | none =>
  cases hpublish : (if eventBus then fault .publish else none) with
  | some error =>
    have hrun : ((createVersion eventBus data env).failing fault).run w =
        (.error error, { w with db := db }) := by
      simp [createVersion, Prog.failing, hselect, hlookup, hsupersede, hmajor, hminor, hpatch,
        hfault, hon, hread, hcreated, hversion, hpublish]
    rw [hrun]
    refine ⟨hne, iff_of_false (by rintro ⟨_, ⟨⟩⟩) fun hanswers => ?_⟩
    split at hpublish
    · next hbus => cases hpublish.symm.trans (hanswers.2 hbus)
    · cases hpublish
  | none =>
    have hrun : ((createVersion eventBus data env).failing fault).run w =
        (.ok version, ⟨db, w.published ++
          if eventBus then [versionCreated component.productId version] else []⟩) := by
      simp [createVersion, Prog.failing, hselect, hlookup, hsupersede, hmajor, hminor, hpatch,
        hfault, hon, hread, hcreated, hversion, hpublish]
    rw [hrun]
    refine ⟨hne, iff_of_true ⟨version, rfl⟩ ⟨hread, fun hbus => ?_⟩⟩
    rwa [if_pos hbus] at hpublish

end AtomicityLemmas

open AtomicityLemmas

/-- A failed creation leaves the versions as they were exactly when it fails before its `UPDATE`;
or the row is not written, and there was no active version to lose; or the row is written and
nothing raises after that. -/
theorem createVersion_atomic_iff (eventBus : Bool) (data : CreateVersionModel) (env : Env)
    (fault : Sql → Option ApiError) (w : World) :
    CreateVersionAtomic eventBus data env fault w ↔
      ¬ SupersedesActive data fault w ∨
        (¬ (fault .insertVersion = none ∧ VersionAdmitted data env w.db) ∧
          w.db.activeVersions data.componentId = []) ∨
        (fault .insertVersion = none ∧ VersionAdmitted data env w.db) ∧
          AnswersVersion eventBus fault := by
  unfold CreateVersionAtomic
  by_cases hsupersedes : SupersedesActive data fault w
  case neg =>
    refine iff_of_true (fun _ _ => ?_) (Or.inl hsupersedes)
    rw [createVersion_stays eventBus hsupersedes]
  rw [or_iff_right (not_not.mpr hsupersedes)]
  by_cases hinserts : fault .insertVersion = none ∧ VersionAdmitted data env w.db
  case pos =>
    obtain ⟨hne, hok⟩ := createVersion_inserts eventBus hsupersedes hinserts.1 hinserts.2
    simp only [hinserts, not_true_eq_false, false_and, false_or, true_and]
    rw [← hok]
    constructor
    · intro hatomic
      cases hanswer : (((createVersion eventBus data env).failing fault).run w).1 with
      | ok version => exact ⟨version, rfl⟩
      | error error => exact absurd (hatomic error hanswer) hne
    · rintro ⟨version, hversion⟩ error herror
      cases hversion.symm.trans herror
  case neg =>
    obtain ⟨error, hrun⟩ := createVersion_halts eventBus hsupersedes hinserts
    simp only [hinserts, not_false_eq_true, true_and, false_and, or_false, hrun]
    constructor
    · intro hatomic
      by_contra hactive
      exact supersedeActive_ne hactive (hatomic error rfl)
    · intro hactive _ _
      show (w.db.supersedeActive data.componentId).versions = w.db.versions
      rw [supersedeActive_of_nil hactive]

/-- Version 2147483648.0.0 is a valid request, and its refusal leaves `api` without its
active version. -/
theorem createVersion_not_atomic :
    ¬ CreateVersionAtomic true
        { componentId := Sample.id 11, version := "2147483648.0.0", prerelease := none }
        (Sample.env 22) (fun _ => none) (run World.init (Sample.setup ++ Sample.versions)) := by
  intro h
  have hactive := activeVersions_congr (h (.refused (.outOfRange "versions")) (by decide +kernel))
    (Sample.id 11)
  revert hactive
  decide +kernel

/-! ## Cutting a release -/

section CutRelease

variable (data : CutReleaseRequest) (env : Env) (fault : Sql → World → Option ApiError)

/-- A cut that ends in an error leaves the releases and their manifests as they were. The
statements that have a `fault` in the world they meet raise it. -/
def CutReleaseAtomic (w : World) : Prop :=
  ∀ error, (((cutRelease data env).failingIn fault).run w).1 = .error error →
    (((cutRelease data env).failingIn fault).run w).2.db.releases = w.db.releases ∧
      (((cutRelease data env).failingIn fault).run w).2.db.releaseComponents =
        w.db.releaseComponents

/-- The reads of `_derive`. -/
def derivationReads (db : Store) (product : ProductRow) : List Sql :=
  if product.bumpPolicy ≠ BumpPolicy.default then []
  else (if (db.latestRelease product.id).isSome then [.selectPriorManifest] else []) ++
    [.selectEdges]

/-- The reads of a cut before its first write. -/
def cutReads (db : Store) (product : ProductRow) : List Sql :=
  .selectProduct :: (if data.idempotencyKey.isSome then [.selectReleaseByIdempotency] else []) ++
    .selectActiveComponents :: .selectLatestRelease :: derivationReads db product

/-- The cut gets as far as its `INSERT INTO releases`, which leaves the store `db`: the request
is not a replay, the product has an active version, the next version can be derived and the id of
the release is not in use. -/
structure InsertsRelease (w : World) (product : ProductRow) (db : Store) : Prop where
  known : product ∈ w.db.products.rows
  id : product.id = data.productId
  reads : ∀ statement ∈ cutReads data w.db product, fault statement w = none
  fresh : w.db.replayed data env.choice = none
  active : w.db.activeComponents product.id ≠ []
  insert : fault .insertRelease w = none
  inserted : ∃ version, w.db.nextVersion product = .ok version ∧
    w.db.insertRelease (newReleaseRow data env version (w.db.derivationFor product)) = .ok db

/-- No row of the manifest raises, each at the store with the rows before it. -/
def ManifestHolds (w : World) : List ReleaseComponentRow → Store → Prop
  | [], _ => True
  | row :: rest, db =>
    fault .insertReleaseComponent { w with db := db } = none ∧
      ∀ db', db.insertReleaseComponent row = .ok db' → ManifestHolds w rest db'

/-- Nothing raises that follows the `INSERT INTO releases`: no row of the manifest, and no read of
the release that the cut answers. -/
def CompletesRelease (w : World) (product : ProductRow) (db : Store) : Prop :=
  ManifestHolds fault w (w.db.newManifest product env.ulid) db ∧
    ∀ db', insertManifest (w.db.newManifest product env.ulid) db = .ok db' →
      fault .selectReleaseManifest { w with db := db' } = none ∧
        fault .selectRelease { w with db := db' } = none

/-- The part of `apply` after `_INSERT_RELEASE`. -/
def completeRelease (active : List ActiveComponent) (changes : Dict String String) :
    Query CutReleaseResult := do
  forM active fun record => insert .insertReleaseComponent fun db =>
    db.insertReleaseComponent (newManifestRow env.ulid changes record)
  let release ← loadRelease env.ulid
  return ⟨release, true⟩

/-- The part of `apply` for a request that is not a replay. -/
def freshCut (product : ProductRow) : Query CutReleaseResult := do
  let active ← select .selectActiveComponents fun db => db.activeComponents data.productId
  refuseIf active.isEmpty (nothingToRelease data.productId)
  let latest ← select .selectLatestRelease fun db => db.latestRelease data.productId
  let derived ← derive data.productId product.bumpPolicy active (latest.map ReleaseRow.id)
  let productVersion ← Prog.lift (applyBump (currentVersion product latest) derived.bumpLevel)
  insert .insertRelease fun db =>
    db.insertRelease (newReleaseRow data env productVersion derived)
  completeRelease env active derived.changeByComponent

end CutRelease

namespace AtomicityLemmas

section

variable {db : Store}

/-- A manifest row of the cut is refused only if its key repeats. -/
theorem not_nodup_of_refused {product : ProductRow} {row : ReleaseRow} {db₁ db' : Store}
    {done rest : List ReleaseComponentRow} {rc : ReleaseComponentRow} {refusal : Refusal}
    (hinsert : db.insertRelease row = .ok db₁)
    (hrows : db.newManifest product row.id = done ++ rc :: rest)
    (hdone : insertManifest done db₁ = .ok db')
    (hrefused : db'.insertReleaseComponent rc = .error refusal) :
    ¬ ((db.activeComponents product.id).map ActiveComponent.componentId).Nodup := by
  intro hnodup
  obtain ⟨_, _, _, _, hreleases, hmanifest⟩ := GrowthLemmas.cut_frame hinsert hdone
  have hreleaseId : ∀ r ∈ done ++ rc :: rest, r.releaseId = row.id := fun r hr =>
    GrowthLemmas.newManifest_releaseId (hrows ▸ hr)
  have hkeys : ((done ++ rc :: rest).map ReleaseComponentRow.key).Nodup := by
    rw [← hrows, GrowthLemmas.newManifest_keys]
    exact hnodup.map fun a b hab => (Prod.mk.inj hab).2
  have hfresh : rc.key ∉ db'.releaseComponents.keys := by
    intro hmem
    obtain ⟨r, hr, hkey⟩ := Table.mem_keys.mp hmem
    have hrid : r.releaseId = row.id :=
      (congrArg Prod.fst hkey).trans (hreleaseId rc (by simp))
    rw [hmanifest, List.mem_append] at hr
    rcases hr with hr | hr
    · exact (insertRelease_ok hinsert).fresh (hrid ▸ db.manifest_release r hr)
    · rw [List.map_append, List.nodup_append] at hkeys
      exact hkeys.2.2 _ (List.mem_map_of_mem hr) _ List.mem_cons_self hkey
  have hrelease : rc.releaseId ∈ db'.releases.keys := by
    rw [hreleaseId rc (by simp)]
    exact Table.key_mem_keys (hreleases ▸ List.mem_append_right _ List.mem_cons_self)
  obtain ⟨db'', hok⟩ := insertReleaseComponent_isOk hfresh hrelease
  rw [hrefused] at hok
  cases hok

/-- The active set names each component once exactly if none has two active versions. -/
theorem activeComponents_nodup_iff (productId : String) :
    ((db.activeComponents productId).map ActiveComponent.componentId).Nodup ↔
      ∀ c ∈ db.components.rows, c.productId = productId →
        (db.activeVersions c.id).length ≤ 1 := by
  have hmap : ∀ c : ComponentRow, ((db.activeVersions c.id).map (activeComponent c)).map
      ActiveComponent.componentId = List.replicate (db.activeVersions c.id).length c.id := by
    intro c
    rw [List.map_map, List.eq_replicate_iff]
    refine ⟨List.length_map _, ?_⟩
    intro id hid
    obtain ⟨v, _, rfl⟩ := List.mem_map.mp hid
    rfl
  rw [activeComponents, ((orderBy_perm _ _).map _).nodup_iff, joinActive, List.map_flatMap,
    List.nodup_flatMap]
  simp only [hmap, List.nodup_replicate, List.mem_filter, decide_eq_true_eq, and_imp]
  refine and_iff_left ?_
  -- Different components have different ids.
  have hids : (db.components.rows.filter fun c => c.productId = productId).Pairwise
      fun c c' => c.id ≠ c'.id :=
    (List.pairwise_map.mp db.components.nodup_keys).filter _
  refine hids.imp ?_
  intro c c' hne id hid hid'
  exact hne ((List.eq_of_mem_replicate hid).symm.trans (List.eq_of_mem_replicate hid'))

end

section

variable {data : CutReleaseRequest} {env : Env} {fault : Sql → World → Option ApiError}
  {w : World} {product : ProductRow} {db : Store}

theorem mem_cutReads {statement : Sql} :
    statement ∈ cutReads data w.db product ↔
      statement = .selectProduct ∨
        (data.idempotencyKey.isSome = true ∧ statement = .selectReleaseByIdempotency) ∨
        statement = .selectActiveComponents ∨ statement = .selectLatestRelease ∨
        statement ∈ derivationReads w.db product := by
  unfold cutReads
  split
  · next hkey => simp [hkey]
  · next hkey => simp [hkey]

/-- The derivation reads, or one of its reads raises. -/
theorem run_failingIn_derive (fault : Sql → World → Option ApiError) (w : World)
    (hid : product.id = data.productId) :
    ((∀ statement ∈ derivationReads w.db product, fault statement w = none) ∧
      ((derive data.productId product.bumpPolicy (w.db.activeComponents data.productId)
        ((w.db.latestRelease data.productId).map ReleaseRow.id)).failingIn fault).run w =
          (.ok (w.db.derivationFor product), w)) ∨
    (¬ (∀ statement ∈ derivationReads w.db product, fault statement w = none) ∧
      ∃ error, ((derive data.productId product.bumpPolicy (w.db.activeComponents data.productId)
        ((w.db.latestRelease data.productId).map ReleaseRow.id)).failingIn fault).run w =
          (.error error, w)) := by
  have hderive := run_derive data.productId product w hid
  unfold derive at hderive ⊢
  unfold derivationReads
  split
  · next hpolicy =>
    rw [if_pos hpolicy] at hderive
    exact Or.inl ⟨by simp, hderive⟩
  · next hpolicy =>
    rw [if_neg hpolicy] at hderive
    rw [← hid] at hderive ⊢
    cases hlatest : w.db.latestRelease product.id with
    | none =>
      rw [hlatest] at hderive
      cases hedges : fault .selectEdges w with
      | some error => exact Or.inr ⟨by simp [hedges], error, by simp [priorManifest, hedges]⟩
      | none =>
        refine Or.inl ⟨by simp [hedges], ?_⟩
        rw [← hderive]
        simp [priorManifest, hedges]
    | some release =>
      rw [hlatest] at hderive
      cases hprior : fault .selectPriorManifest w with
      | some error => exact Or.inr ⟨by simp [hprior], error, by simp [priorManifest, hprior]⟩
      | none =>
      cases hedges : fault .selectEdges w with
      | some error =>
        exact Or.inr ⟨by simp [hedges], error, by simp [priorManifest, hprior, hedges]⟩
      | none =>
        refine Or.inl ⟨by simp [hprior, hedges], ?_⟩
        rw [← hderive]
        simp [priorManifest, hprior, hedges]

/-- Without a fault the lookup of a replay is as it was. -/
theorem run_failingIn_findReplay :
    ((findReplay data env).failingIn fault).run w =
      match (if data.idempotencyKey.isSome then fault .selectReleaseByIdempotency w else none) with
      | some error => (.error error, w)
      | none => (.ok (w.db.replayed data env.choice), w) := by
  unfold findReplay Store.replayed
  cases data.idempotencyKey with
  | none => rfl
  | some key => simp

/-- The read of a release changes nothing. -/
theorem loadRelease_within {R : World → World → Prop} (hrefl : ∀ w, R w w) (releaseId : String) :
    (loadRelease releaseId).Within R := by
  refine Prog.within_bind (Prog.within_query hrefl) fun _ => ?_
  refine Prog.within_bind (Prog.within_query hrefl) fun rows => ?_
  cases rows <;> exact trivial

/-- A request that is known and no replay goes on with the fresh cut. -/
theorem cutRelease_fresh (hselect : fault .selectProduct w = none)
    (hlookup : w.db.products.lookup data.productId = [product])
    (hfind : (if data.idempotencyKey.isSome then fault .selectReleaseByIdempotency w else none) =
      none) (hreplay : w.db.replayed data env.choice = none) :
    ((cutRelease data env).failingIn fault).run w =
      ((freshCut data env product).failingIn fault).run w := by
  simp [cutRelease, freshCut, completeRelease, hselect, hlookup, run_failingIn_findReplay, hfind,
    hreplay]

/-- A fresh cut that does not get as far as its first write leaves everything as it was. -/
theorem freshCut_stays (hid : product.id = data.productId)
    (h : ∀ db, fault .selectActiveComponents w = none →
      w.db.activeComponents data.productId ≠ [] → fault .selectLatestRelease w = none →
      (∀ statement ∈ derivationReads w.db product, fault statement w = none) →
      fault .insertRelease w = none →
      ¬ ∃ version, w.db.nextVersion product = .ok version ∧
        w.db.insertRelease (newReleaseRow data env version (w.db.derivationFor product)) =
          .ok db) :
    (((freshCut data env product).failingIn fault).run w).2 = w := by
  cases hread : fault .selectActiveComponents w with
  | some error => simp [freshCut, hread]
  | none =>
  by_cases hactive : w.db.activeComponents data.productId = []
  case pos => simp [freshCut, hread, hactive]
  have hsome : (w.db.activeComponents data.productId).isEmpty = false := by
    simpa using hactive
  cases hlatest : fault .selectLatestRelease w with
  | some error => simp [freshCut, hread, hsome, hlatest]
  | none =>
  rcases run_failingIn_derive fault w hid with
    ⟨hreads, hderive⟩ | ⟨_, error, hderive⟩
  case inr => simp [freshCut, hread, hsome, hlatest, hderive]
  have hcurrent : currentVersion product (w.db.latestRelease data.productId) =
      w.db.currentVersion product := by
    rw [Store.currentVersion, hid]
  have hnext : applyBump (w.db.currentVersion product) (w.db.derivationFor product).bumpLevel =
      w.db.nextVersion product := rfl
  cases hversion : w.db.nextVersion product with
  | error error => simp [freshCut, hread, hsome, hlatest, hderive, hcurrent, hnext, hversion]
  | ok version =>
  cases hrelease : fault .insertRelease w with
  | some error =>
    simp [freshCut, hread, hsome, hlatest, hderive, hcurrent, hnext, hversion, hrelease]
  | none =>
  cases hinsert : w.db.insertRelease
      (newReleaseRow data env version (w.db.derivationFor product)) with
  | error refusal =>
    simp [freshCut, hread, hsome, hlatest, hderive, hcurrent, hnext, hversion, hrelease, hinsert]
  | ok db => exact absurd ⟨version, hversion, hinsert⟩ (h db hread hactive hlatest hreads hrelease)

/-- A cut that does not get as far as its first write leaves everything as it was. -/
theorem cutRelease_stays (h : ¬ ∃ product db, InsertsRelease data env fault w product db) :
    (((cutRelease data env).failingIn fault).run w).2 = w := by
  cases hselect : fault .selectProduct w with
  | some error => simp [cutRelease, hselect]
  | none =>
  by_cases hknown : data.productId ∈ w.db.products.keys
  case neg => simp [cutRelease, hselect, Table.lookup_eq_nil.mpr hknown]
  obtain ⟨product, hproduct, hid, hlookup⟩ := Table.lookup_eq_singleton_of_mem_keys hknown
  cases hfind : (if data.idempotencyKey.isSome then fault .selectReleaseByIdempotency w
      else none) with
  | some error => simp [cutRelease, hselect, hlookup, run_failingIn_findReplay, hfind]
  | none =>
  cases hreplay : w.db.replayed data env.choice with
  | some row =>
    have hwithin : (loadRelease row.id >>= fun release =>
        (pure ⟨release, false⟩ : Query CutReleaseResult)).Within fun w w' => w' = w := by
      refine Prog.within_bind (loadRelease_within (fun w => ?_) row.id) fun _ => trivial
      rfl
    have hstate := (hwithin.failingIn fault fun _ => rfl).run (fun _ => rfl)
      (fun _ _ _ h h' => h'.trans h) w
    simpa [cutRelease, hselect, hlookup, run_failingIn_findReplay, hfind, hreplay] using hstate
  | none =>
  rw [cutRelease_fresh hselect hlookup hfind hreplay]
  refine freshCut_stays hid fun db hread hactive hlatest hreads hrelease hinserted => h ?_
  refine ⟨product, db, hproduct, hid, fun statement hstatement => ?_, hreplay, hid ▸ hactive,
    hrelease, hinserted⟩
  rcases mem_cutReads.mp hstatement with rfl | ⟨hkey, rfl⟩ | rfl | rfl | hstatement
  · exact hselect
  · rwa [if_pos hkey] at hfind
  · exact hread
  · exact hlatest
  · exact hreads statement hstatement

/-- One that does goes on with the manifest. -/
theorem cutRelease_inserts (h : InsertsRelease data env fault w product db) :
    ((cutRelease data env).failingIn fault).run w =
      ((completeRelease env (w.db.activeComponents product.id)
        (w.db.derivationFor product).changeByComponent).failingIn fault).run
          { w with db := db } := by
  obtain ⟨version, hversion, hinsert⟩ := h.inserted
  have hid := h.id
  have hrelease := h.insert
  have hselect : fault .selectProduct w = none := h.reads _ (mem_cutReads.mpr (Or.inl rfl))
  have hlookup : w.db.products.lookup data.productId = [product] := by
    rw [← hid]
    exact Table.lookup_eq_singleton h.known
  have hfind : (if data.idempotencyKey.isSome then fault .selectReleaseByIdempotency w
      else none) = none := by
    split
    · next hkey => exact h.reads _ (mem_cutReads.mpr (Or.inr (Or.inl ⟨hkey, rfl⟩)))
    · rfl
  have hread : fault .selectActiveComponents w = none :=
    h.reads _ (mem_cutReads.mpr (Or.inr (Or.inr (Or.inl rfl))))
  have hlatest : fault .selectLatestRelease w = none :=
    h.reads _ (mem_cutReads.mpr (Or.inr (Or.inr (Or.inr (Or.inl rfl)))))
  have hsome : (w.db.activeComponents data.productId).isEmpty = false := by
    simpa [hid] using h.active
  have hreads : ∀ statement ∈ derivationReads w.db product, fault statement w = none :=
    fun statement hstatement =>
      h.reads _ (mem_cutReads.mpr (Or.inr (Or.inr (Or.inr (Or.inr hstatement)))))
  obtain ⟨_, hderive⟩ := (run_failingIn_derive fault w hid).resolve_right
    fun hraises => hraises.1 hreads
  have hcurrent : currentVersion product (w.db.latestRelease data.productId) =
      w.db.currentVersion product := by
    rw [Store.currentVersion, hid]
  have hnext : applyBump (w.db.currentVersion product) (w.db.derivationFor product).bumpLevel =
      w.db.nextVersion product := rfl
  rw [cutRelease_fresh hselect hlookup hfind h.fresh, hid]
  simp [freshCut, hread, hsome, hlatest, hderive, hcurrent, hnext, hversion, hrelease, hinsert]

/-- The rows of the manifest are inserted, or one of them raises. -/
theorem run_failingIn_manifest (fault : Sql → World → Option ApiError) (w : World)
    (active : List ActiveComponent) (releaseId : String) (changes : Dict String String)
    (db : Store) :
    (∃ db', insertManifest (active.map (newManifestRow releaseId changes)) db = .ok db' ∧
      ManifestHolds fault w (active.map (newManifestRow releaseId changes)) db ∧
      ((forM active fun record => insert .insertReleaseComponent fun db =>
        db.insertReleaseComponent (newManifestRow releaseId changes record)).failingIn fault).run
          { w with db := db } = (.ok ⟨⟩, { w with db := db' })) ∨
    (¬ ((∃ db', insertManifest (active.map (newManifestRow releaseId changes)) db = .ok db') ∧
        ManifestHolds fault w (active.map (newManifestRow releaseId changes)) db) ∧
      ∃ error w', ((forM active fun record => insert .insertReleaseComponent fun db =>
        db.insertReleaseComponent (newManifestRow releaseId changes record)).failingIn fault).run
          { w with db := db } = (.error error, w')) := by
  induction active generalizing db with
  | nil => exact Or.inl ⟨db, rfl, trivial, rfl⟩
  | cons record rest ih =>
    rw [Prog.run_failingIn_forM_cons, run_failingIn_insert, run_insert, List.map_cons]
    cases hfault : fault .insertReleaseComponent { w with db := db } with
    | some error =>
      refine Or.inr ⟨fun h => ?_, error, _, rfl⟩
      cases hfault.symm.trans h.2.1
    | none =>
    cases hrow : db.insertReleaseComponent (newManifestRow releaseId changes record) with
    | error refusal =>
      refine Or.inr ⟨?_, .refused refusal, { w with db := db }, rfl⟩
      rintro ⟨⟨db', hdb'⟩, _⟩
      simp [insertManifest, hrow] at hdb'
    | ok db₁ =>
      simp only [insertManifest, hrow, ManifestHolds, hfault, true_and, Except.ok.injEq,
        forall_eq']
      exact ih db₁

/-- What follows the first write keeps the releases. -/
theorem completeRelease_releases (active : List ActiveComponent) (changes : Dict String String) :
    (((completeRelease env active changes).failingIn fault).run w).2.db.releases =
      w.db.releases := by
  have hwithin : (completeRelease env active changes).Within
      fun w w' => w'.db.releases = w.db.releases := by
    refine Prog.within_bind (Prog.within_forM (fun record => ?_) active) fun _ =>
      Prog.within_bind (loadRelease_within (fun w => ?_) env.ulid) fun _ => trivial
    case refine_2 => rfl
    refine Prog.within_atomically (fun _ => rfl) fun w a w' h => ?_
    dsimp only at h
    split at h
    · next hinsert =>
      cases h
      exact (insertReleaseComponent_ok hinsert).releases
    · cases h
  exact (hwithin.failingIn fault fun _ => rfl).run (fun _ => rfl)
    (fun _ _ _ h h' => h'.trans h) w

/-- The manifest of a cut is inserted exactly if no component has two active versions. -/
theorem insertManifest_isOk_iff (h : InsertsRelease data env fault w product db) :
    (∃ db', insertManifest (w.db.newManifest product env.ulid) db = .ok db') ↔
      ∀ c ∈ w.db.components.rows, c.productId = product.id →
        (w.db.activeVersions c.id).length ≤ 1 := by
  rw [← activeComponents_nodup_iff]
  obtain ⟨version, _, hinsert⟩ := h.inserted
  constructor
  · rintro ⟨db', hmanifest⟩
    have hdistinct := (insertManifest_ok hmanifest).distinct
    rw [GrowthLemmas.newManifest_keys] at hdistinct
    exact hdistinct.of_map _
  · intro hnodup
    rcases run_manifest (w.db.activeComponents product.id) env.ulid
      (w.db.derivationFor product).changeByComponent { w with db := db } with
      ⟨db', hmanifest, _⟩ | ⟨_, _, _, _, _, hrows, hdone, hrefused, _⟩
    · exact ⟨db', hmanifest⟩
    · exact absurd hnodup (not_nodup_of_refused hinsert hrows hdone hrefused)

/-- A cut that has written its release succeeds exactly if it completes it. -/
theorem completeRelease_ok_iff (h : InsertsRelease data env fault w product db) :
    (∃ result, (((cutRelease data env).failingIn fault).run w).1 = .ok result) ↔
      (∀ c ∈ w.db.components.rows, c.productId = product.id →
        (w.db.activeVersions c.id).length ≤ 1) ∧ CompletesRelease env fault w product db := by
  obtain ⟨version, _, hinsert⟩ := h.inserted
  rw [cutRelease_inserts h, ← insertManifest_isOk_iff h, CompletesRelease, Store.newManifest]
  rcases run_failingIn_manifest fault w (w.db.activeComponents product.id)
    env.ulid (w.db.derivationFor product).changeByComponent db with
    ⟨db', hmanifest, hholds, hloop⟩ | ⟨hnot, error, w', hloop⟩
  · have hrow := mem_releases_of_manifest hinsert hmanifest
    have hlookup : db'.releases.lookup env.ulid =
        [newReleaseRow data env version (w.db.derivationFor product)] :=
      Table.lookup_eq_singleton hrow
    simp only [hmanifest, hholds, true_and, Except.ok.injEq, exists_eq', forall_eq']
    cases hread : fault .selectReleaseManifest { w with db := db' } with
    | some error => simp [completeRelease, loadRelease, hloop, hread]
    | none =>
    cases hrelease : fault .selectRelease { w with db := db' } with
    | some error => simp [completeRelease, loadRelease, hloop, hread, hrelease]
    | none => simp [completeRelease, loadRelease, hloop, hread, hrelease, hlookup]
  · refine iff_of_false ?_ fun hright => hnot ⟨hright.1, hright.2.1⟩
    rintro ⟨result, hresult⟩
    simp [completeRelease, hloop] at hresult

end

end AtomicityLemmas

/-- A failed cut leaves the releases and their manifests as they were exactly when it does not get
as far as its first write, or it completes what it writes: no component of the product has two
active versions, and nothing raises after that write. -/
theorem cutRelease_atomic_iff (data : CutReleaseRequest) (env : Env)
    (fault : Sql → World → Option ApiError) (w : World) :
    CutReleaseAtomic data env fault w ↔
      ∀ product db, InsertsRelease data env fault w product db →
        (∀ c ∈ w.db.components.rows, c.productId = product.id →
          (w.db.activeVersions c.id).length ≤ 1) ∧ CompletesRelease env fault w product db := by
  constructor
  · intro hatomic product db hinserts
    rw [← completeRelease_ok_iff hinserts]
    cases hanswer : (((cutRelease data env).failingIn fault).run w).1 with
    | ok result => exact ⟨result, rfl⟩
    | error error =>
      -- The release is there, and it was not before.
      obtain ⟨version, _, hinsert⟩ := hinserts.inserted
      have hreleases := (hatomic error hanswer).1
      rw [cutRelease_inserts hinserts, completeRelease_releases] at hreleases
      have hrows := congrArg Table.rows hreleases
      rw [(insertRelease_ok hinsert).rows] at hrows
      exact absurd hrows (by simp)
  · intro hcompletes error herror
    by_cases hinserts : ∃ product db, InsertsRelease data env fault w product db
    · obtain ⟨product, db, hinserts⟩ := hinserts
      obtain ⟨result, hresult⟩ :=
        (completeRelease_ok_iff hinserts).mpr (hcompletes product db hinserts)
      cases hresult.symm.trans herror
    · rw [cutRelease_stays hinserts]
      exact ⟨rfl, rfl⟩

/-- A store as the migration of the flat table leaves it: one `default` component whose
two versions were both active. -/
def Sample.migrated : World where
  db := Except.toOption (do
    let db ← Store.empty.insertProduct
      ⟨Sample.id 10, "Aurora", none, "0.0.0", "legacy", (Sample.env 10).now⟩
    let db ← db.insertComponent ⟨Sample.id 11, Sample.id 10, "default", .service⟩
    let db ← db.insertVersion
      ⟨Sample.id 20, Sample.id 11, 1, 0, 0, none, some .active, (Sample.env 20).now⟩
    db.insertVersion
      ⟨Sample.id 21, Sample.id 11, 1, 1, 0, none, some .active, (Sample.env 21).now⟩)
    |>.getD Store.empty
  published := []

/-- The second manifest row of the component is refused, and the release with the first
one stays. -/
theorem cutRelease_not_atomic :
    ¬ CutReleaseAtomic (Sample.release none) (Sample.env 30) (fun _ _ => none)
        Sample.migrated := by
  intro h
  have hreleases := congrArg Table.keys
    (h (.refused (.primaryKey "release_components")) (by decide +kernel)).1
  revert hreleases
  decide +kernel

end LavsCore
