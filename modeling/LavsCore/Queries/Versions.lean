import LavsCore.Queries.Catalog

/-!
# Creating and rolling back versions

`create_version_query.py` and `rollback_version_query.py`. `createVersion_run` and
`rollbackVersion_run` say what a call alone answers and leaves, case by case: a
creation whose `INSERT` is refused leaves the superseded rows behind, a rollback that
fails leaves everything as it was.
-/

namespace LavsCore

open Query

/-! ## CreateVersionQuery -/

/-- The row that `_INSERT_VERSION` writes. -/
def newVersionRow (data : CreateVersionModel) (env : Env) (major minor patch : Int) :
    VersionRow where
  id := env.ulid
  componentId := data.componentId
  major := major
  minor := minor
  patch := patch
  prerelease := data.prerelease
  status := some .active
  createdAt := env.now

/-- The `version.created` event. -/
def versionCreated (productId : String) (version : VersionResponseModel) : DomainEvent where
  eventType := .versionCreated
  productId := productId
  data := .obj [("component_id", .str version.componentId), ("version", version.dump)]

/-- `CreateVersionQuery.apply`. -/
def createVersion (eventBus : Bool) (data : CreateVersionModel) (env : Env) :
    Query VersionResponseModel := do
  match ← select .selectComponent fun db => db.components.lookup data.componentId with
  | [] => Prog.raise (componentNotFound data.componentId)
  | component :: _ =>
    execute .supersedeActive fun db => db.supersedeActive data.componentId
    let major ← Prog.lift data.major
    let minor ← Prog.lift data.minor
    let patch ← Prog.lift data.patch
    insert .insertVersion fun db =>
      db.insertVersionOn env.backend (newVersionRow data env major minor patch)
    let created ← firstRow (← select .selectVersion fun db => db.versions.lookup env.ulid)
    let version ← Prog.lift (toVersionResponse created)
    publish eventBus (versionCreated component.productId version)
    return version

/-- What a creation alone answers and leaves. -/
inductive CreateVersionOutcome (eventBus : Bool) (data : CreateVersionModel) (env : Env)
    (w : World) : Except ApiError VersionResponseModel → World → Prop
  | unknown (hunknown : data.componentId ∉ w.db.components.keys) :
      CreateVersionOutcome eventBus data env w (.error (componentNotFound data.componentId)) w
  | refused {major minor patch : Nat} {refusal : Refusal}
      (hcomponent : data.componentId ∈ w.db.components.keys) (hmajor : data.major = .ok major)
      (hminor : data.minor = .ok minor) (hpatch : data.patch = .ok patch)
      (hinsert : (w.db.supersedeActive data.componentId).insertVersionOn env.backend
        (newVersionRow data env major minor patch) = .error refusal) :
      CreateVersionOutcome eventBus data env w (.error (.refused refusal))
        { w with db := w.db.supersedeActive data.componentId }
  | created {major minor patch : Nat} {db : Store} {version : VersionResponseModel}
      {component : ComponentRow} (hcomponent : component ∈ w.db.components.rows)
      (hid : component.id = data.componentId) (hmajor : data.major = .ok major)
      (hminor : data.minor = .ok minor) (hpatch : data.patch = .ok patch)
      (hinsert : (w.db.supersedeActive data.componentId).insertVersion
        (newVersionRow data env major minor patch) = .ok db)
      (hversion : toVersionResponse (newVersionRow data env major minor patch) = .ok version) :
      CreateVersionOutcome eventBus data env w (.ok version)
        ⟨db, w.published ++
          if eventBus then [versionCreated component.productId version] else []⟩

theorem createVersion_run (eventBus : Bool) (data : CreateVersionModel) (env : Env) (w : World) :
    CreateVersionOutcome eventBus data env w ((createVersion eventBus data env).run w).1
      ((createVersion eventBus data env).run w).2 := by
  obtain ⟨major, minor, patch, hmajor, hminor, hpatch⟩ := data.numbers_ok
  by_cases hknown : data.componentId ∈ w.db.components.keys
  · obtain ⟨component, hcomponent, hid, hlookup⟩ :=
      Table.lookup_eq_singleton_of_mem_keys hknown
    obtain ⟨version, hversion⟩ :
        ∃ version, toVersionResponse (newVersionRow data env major minor patch) = .ok version :=
      ⟨_, toVersionResponse_ok_iff.mpr ⟨.active, rfl, negativeFields_natCast rfl rfl rfl, rfl⟩⟩
    cases hinsert : (w.db.supersedeActive data.componentId).insertVersionOn env.backend
      (newVersionRow data env major minor patch) with
    | error refusal =>
      have hrun : (createVersion eventBus data env).run w =
          (.error (.refused refusal), { w with db := w.db.supersedeActive data.componentId }) := by
        simp [createVersion, hlookup, hmajor, hminor, hpatch, hinsert]
      rw [hrun]
      exact .refused hknown hmajor hminor hpatch hinsert
    | ok db =>
      obtain ⟨_, hinserted⟩ := Store.insertVersionOn_ok hinsert
      have hcreated : db.versions.lookup env.ulid = [newVersionRow data env major minor patch] := by
        refine Table.lookup_eq_singleton (r := newVersionRow data env major minor patch) ?_
        rw [(Store.insertVersion_ok hinserted).rows]
        exact List.mem_append_right _ List.mem_cons_self
      have hrun : (createVersion eventBus data env).run w =
          (.ok version, ⟨db, w.published ++
            if eventBus then [versionCreated component.productId version] else []⟩) := by
        simp [createVersion, hlookup, hmajor, hminor, hpatch, hinsert, hcreated,
          hversion]
      rw [hrun]
      exact .created hcomponent hid hmajor hminor hpatch hinserted hversion
  · have hrun : (createVersion eventBus data env).run w =
        (.error (componentNotFound data.componentId), w) := by
      simp [createVersion, Table.lookup_eq_nil.mpr hknown]
    rw [hrun]
    exact .unknown hknown

/-! ## RollbackVersionQuery -/

/-- `(major, minor, patch) < (?, ?, ?)`, expanded. -/
def VersionRow.below (v target : VersionRow) : Bool :=
  v.major < target.major || (v.major = target.major && v.minor < target.minor) ||
    (v.major = target.major && v.minor = target.minor && v.patch < target.patch)

/-- `status <> ?`, which is not true of `NULL`. -/
def VersionRow.statusDiffers (v : VersionRow) (status : VersionStatus) : Bool :=
  match v.status with
  | some s => s ≠ status
  | none => false

/-- `_SELECT_PREVIOUS`: a candidate that no other candidate is above. Among equal
versions the database chooses. -/
def selectPrevious (db : Store) (target : VersionRow) (choice : Nat) : List VersionRow :=
  let candidates := db.versions.rows.filter fun v =>
    v.componentId = target.componentId && v.id ≠ target.id &&
      v.statusDiffers .rolledBack && v.below target
  let highest := candidates.filter fun v => candidates.all fun v' => !v.below v'
  (highest[choice % highest.length]?).toList

/-- `NotFoundError` of an unknown version. -/
def versionNotFound (versionId : String) : ApiError :=
  .notFound s!"Version '{versionId}' does not exist." [("version_id", versionId)]

/-- `ConflictError` of a version without a predecessor. -/
def noPriorVersion (versionId : String) : ApiError :=
  .conflict s!"Version '{versionId}' has no prior version to roll back to."
    [("version_id", versionId)]

/-- The `version.rolled_back` event. -/
def versionRolledBack (productId : String) (target reactivated : VersionResponseModel) :
    DomainEvent where
  eventType := .versionRolledBack
  productId := productId
  data := .obj [("component_id", .str target.componentId), ("version_id", .str target.id),
    ("reactivated_version_id", .str reactivated.id)]

/-- The product that the event of a rollback is for. -/
def eventProduct (eventBus : Bool) (componentId : String) : Query String :=
  if eventBus then do
    match ← select .selectComponentProduct fun db => db.components.lookup componentId with
    | component :: _ => return component.productId
    | [] => Prog.raise (.typeError "'NoneType' object is not subscriptable")
  else pure ""

/-- `RollbackVersionQuery.apply`. -/
def rollbackVersion (eventBus : Bool) (data : RollbackVersionRequest) (env : Env) :
    Query VersionResponseModel := do
  match ← select .selectVersion fun db => db.versions.lookup data.versionId with
  | [] => Prog.raise (versionNotFound data.versionId)
  | targetRow :: _ =>
    let target ← Prog.lift (toVersionResponse targetRow)
    match ← select .selectPrevious fun db => selectPrevious db targetRow env.choice with
    | [] => Prog.raise (noPriorVersion data.versionId)
    | previousRow :: _ =>
      let previous ← Prog.lift (toVersionResponse previousRow)
      execute (.markStatus .rolledBack) fun db => db.markStatus .rolledBack target.id
      execute .supersedeActive fun db => db.supersedeActive target.componentId
      execute (.markStatus .active) fun db => db.markStatus .active previous.id
      let reactivatedRow ←
        firstRow (← select .selectVersion fun db => db.versions.lookup previous.id)
      let reactivated ← Prog.lift (toVersionResponse reactivatedRow)
      let productId ← eventProduct eventBus target.componentId
      publish eventBus (versionRolledBack productId target reactivated)
      return reactivated

/-- The store after the three updates of a rollback. -/
def Store.rollback (db : Store) (target previous : VersionRow) : Store :=
  ((db.markStatus .rolledBack target.id).supersedeActive target.componentId).markStatus
    .active previous.id

/-- The predecessor is another row of the component, below the target. -/
theorem mem_selectPrevious {db : Store} {target previous : VersionRow} {choice : Nat}
    (h : previous ∈ selectPrevious db target choice) :
    previous ∈ db.versions.rows ∧ previous.componentId = target.componentId ∧
      previous.id ≠ target.id ∧ previous.statusDiffers .rolledBack = true ∧
      previous.below target = true := by
  simp only [selectPrevious, Option.mem_toList] at h
  have hrow := (List.mem_filter.mp (List.mem_of_getElem? h)).1
  simp only [List.mem_filter, Bool.and_eq_true, decide_eq_true_eq] at hrow
  exact ⟨hrow.1, hrow.2.1.1.1, hrow.2.1.1.2, hrow.2.1.2, hrow.2.2⟩

/-- The rollback leaves the predecessor active, with its other columns as they were. -/
theorem rollback_lookup {db : Store} {target previous : VersionRow}
    (h : previous ∈ db.versions.rows) :
    (db.rollback target previous).versions.lookup previous.id =
      [{ previous with status := some .active }] := by
  rw [Store.rollback, Store.markStatus_eq, Store.setStatus_lookup, Store.supersedeActive_eq,
    Store.setStatus_lookup, Store.markStatus_eq, Store.setStatus_lookup,
    Table.lookup_eq_singleton h]
  simp only [List.map_cons, List.map_nil]
  rw [Store.withStatus_of_pos (by simp)]
  unfold Store.withStatus
  split <;> split <;> rfl

/-- What a rollback alone answers and leaves. -/
inductive RollbackVersionOutcome (eventBus : Bool) (data : RollbackVersionRequest) (w : World) :
    Except ApiError VersionResponseModel → World → Prop
  | unknown (hunknown : data.versionId ∉ w.db.versions.keys) :
      RollbackVersionOutcome eventBus data w (.error (versionNotFound data.versionId)) w
  | noPrior : RollbackVersionOutcome eventBus data w (.error (noPriorVersion data.versionId)) w
  | unreadable {row : VersionRow} {error : ApiError} (hrow : row ∈ w.db.versions.rows)
      (hread : toVersionResponse row = .error error) :
      RollbackVersionOutcome eventBus data w (.error error) w
  | rolledBack {target previous : VersionRow} {found version : VersionResponseModel}
      {productId : String} (htarget : target ∈ w.db.versions.rows)
      (hid : target.id = data.versionId) (hread : toVersionResponse target = .ok found)
      (hprevious : previous ∈ w.db.versions.rows)
      (hcomponent : previous.componentId = target.componentId) (hne : previous.id ≠ target.id)
      (hversion : toVersionResponse { previous with status := some .active } = .ok version) :
      RollbackVersionOutcome eventBus data w (.ok version)
        ⟨w.db.rollback target previous, w.published ++
          if eventBus then [versionRolledBack productId found version] else []⟩

/-- With or without a bus, the lookup for the event finds the component. -/
theorem run_eventProduct (eventBus : Bool) {componentId : String} {w : World}
    (h : componentId ∈ w.db.components.keys) :
    ∃ productId, (eventProduct eventBus componentId).run w = (.ok productId, w) := by
  obtain ⟨component, _, _, hlookup⟩ := Table.lookup_eq_singleton_of_mem_keys h
  cases eventBus with
  | false => exact ⟨"", rfl⟩
  | true => exact ⟨component.productId, by simp [eventProduct, hlookup]⟩

theorem rollbackVersion_run (eventBus : Bool) (data : RollbackVersionRequest) (env : Env)
    (w : World) :
    RollbackVersionOutcome eventBus data w ((rollbackVersion eventBus data env).run w).1
      ((rollbackVersion eventBus data env).run w).2 := by
  by_cases hknown : data.versionId ∈ w.db.versions.keys
  · obtain ⟨targetRow, htarget, hid, hlookup⟩ := Table.lookup_eq_singleton_of_mem_keys hknown
    cases hread : toVersionResponse targetRow with
    | error error =>
      have hrun : (rollbackVersion eventBus data env).run w = (.error error, w) := by
        simp [rollbackVersion, hlookup, hread]
      rw [hrun]
      exact .unreadable htarget hread
    | ok target =>
      cases hprevious : selectPrevious w.db targetRow env.choice with
      | nil =>
        have hrun : (rollbackVersion eventBus data env).run w =
            (.error (noPriorVersion data.versionId), w) := by
          simp [rollbackVersion, hlookup, hread, hprevious]
        rw [hrun]
        exact .noPrior
      | cons previousRow rest =>
        obtain ⟨hrow, hcomponent, hne, _, _⟩ :=
          mem_selectPrevious (hprevious ▸ List.mem_cons_self : previousRow ∈ _)
        cases hreadPrevious : toVersionResponse previousRow with
        | error error =>
          have hrun : (rollbackVersion eventBus data env).run w = (.error error, w) := by
            simp [rollbackVersion, hlookup, hread, hprevious, hreadPrevious]
          rw [hrun]
          exact .unreadable hrow hreadPrevious
        | ok previous =>
          have htargetId : target.id = targetRow.id ∧
              target.componentId = targetRow.componentId := by
            obtain ⟨_, _, _, rfl⟩ := toVersionResponse_ok_iff.mp hread
            exact ⟨rfl, rfl⟩
          obtain ⟨_, _, hneg, rfl⟩ := toVersionResponse_ok_iff.mp hreadPrevious
          obtain ⟨version, hversion⟩ : ∃ version,
              toVersionResponse { previousRow with status := some .active } = .ok version :=
            ⟨_, toVersionResponse_ok_iff.mpr ⟨.active, rfl, hneg, rfl⟩⟩
          have hstore : ((w.db.markStatus .rolledBack targetRow.id).supersedeActive
              targetRow.componentId).markStatus .active previousRow.id =
                w.db.rollback targetRow previousRow := rfl
          obtain ⟨productId, hproduct⟩ := run_eventProduct eventBus
            (w := { w with db := w.db.rollback targetRow previousRow })
            (w.db.version_component targetRow htarget)
          have hrun : (rollbackVersion eventBus data env).run w =
              (.ok version, ⟨w.db.rollback targetRow previousRow, w.published ++
                if eventBus then [versionRolledBack productId target version] else []⟩) := by
            simp [rollbackVersion, hlookup, hread, hprevious, hreadPrevious, htargetId.1,
              htargetId.2, hstore, rollback_lookup hrow, hversion, hproduct]
          rw [hrun]
          exact .rolledBack htarget hid hread hrow hcomponent hne hversion
  · have hrun : (rollbackVersion eventBus data env).run w =
        (.error (versionNotFound data.versionId), w) := by
      simp [rollbackVersion, Table.lookup_eq_nil.mpr hknown]
    rw [hrun]
    exact .unknown hknown

end LavsCore
