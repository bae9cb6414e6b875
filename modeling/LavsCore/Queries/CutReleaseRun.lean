import LavsCore.Queries.CutRelease

/-!
# What a cut alone does

`cutRelease_run`: the outcomes of a cut that no other call interferes with. They are
named by how far the call gets; `Store.derivationFor` is the derivation on the store
it starts from, and `Store.cutView` the release it shows.
-/

namespace LavsCore

open Query

/-- The previous manifest of a product; empty before the first release. -/
def Store.previousManifest (db : Store) (productId : String) : List (String × VersionTuple) :=
  match db.latestRelease productId with
  | some release => db.priorManifest release.id
  | none => []

/-- What a cut of the product derives. -/
def Store.derivationFor (db : Store) (product : ProductRow) : Derivation :=
  derivation product.bumpPolicy (db.activeComponents product.id) (db.previousManifest product.id)
    (db.edges product.id)

/-- The version that a cut of the product starts from. -/
def Store.currentVersion (db : Store) (product : ProductRow) : String :=
  LavsCore.currentVersion product (db.latestRelease product.id)

/-- The version that a cut of the product derives. -/
def Store.nextVersion (db : Store) (product : ProductRow) : Except ApiError String :=
  applyBump (db.currentVersion product) (db.derivationFor product).bumpLevel

/-- The release that an idempotent request finds. -/
def Store.replayed (db : Store) (data : CutReleaseRequest) (choice : Nat) : Option ReleaseRow :=
  data.idempotencyKey.bind fun key => db.releaseByIdempotency data.productId key choice

/-- The manifest rows of a cut. -/
def Store.newManifest (db : Store) (product : ProductRow) (releaseId : String) :
    List ReleaseComponentRow :=
  (db.activeComponents product.id).map
    (newManifestRow releaseId (db.derivationFor product).changeByComponent)

/-- A release as the cut shows it. -/
def Store.cutView (db : Store) (row : ReleaseRow) : ReleaseResponseModel :=
  toReleaseResponse row ((db.releaseManifest row.id).map toReleaseComponent)

/-! ## The parts of a cut -/

theorem run_derive (productId : String) (product : ProductRow) (w : World)
    (hid : product.id = productId) :
    (derive productId product.bumpPolicy (w.db.activeComponents productId)
      ((w.db.latestRelease productId).map ReleaseRow.id)).run w =
        (.ok (w.db.derivationFor product), w) := by
  subst hid
  unfold derive
  split
  · next hpolicy => simp [Store.derivationFor, derivation, hpolicy]
  · cases hlatest : w.db.latestRelease product.id with
    | none =>
      simp [priorManifest, Store.derivationFor, Store.previousManifest, hlatest]
    | some release =>
      simp [priorManifest, Store.derivationFor, Store.previousManifest, hlatest]

theorem run_findReplay (data : CutReleaseRequest) (env : Env) (w : World) :
    (findReplay data env).run w = (.ok (w.db.replayed data env.choice), w) := by
  unfold findReplay Store.replayed
  cases data.idempotencyKey with
  | none => rfl
  | some key => simp

theorem run_loadRelease {row : ReleaseRow} {w : World} (h : row ∈ w.db.releases.rows) :
    (loadRelease row.id).run w = (.ok (w.db.cutView row), w) := by
  simp [loadRelease, Table.lookup_eq_singleton h, Store.cutView]

/-- The loop of a cut inserts the manifest rows up to the first that is refused. -/
theorem run_manifest (active : List ActiveComponent) (releaseId : String)
    (changes : Dict String String) (w : World) :
    (∃ db, Store.insertManifest (active.map (newManifestRow releaseId changes)) w.db = .ok db ∧
      (forM active fun record => insert .insertReleaseComponent fun db =>
        db.insertReleaseComponent (newManifestRow releaseId changes record)).run w =
          (.ok ⟨⟩, { w with db := db })) ∨
    (∃ done row rest db refusal,
      active.map (newManifestRow releaseId changes) = done ++ row :: rest ∧
      Store.insertManifest done w.db = .ok db ∧
      db.insertReleaseComponent row = .error refusal ∧
      (forM active fun record => insert .insertReleaseComponent fun db =>
        db.insertReleaseComponent (newManifestRow releaseId changes record)).run w =
          (.error (.refused refusal), { w with db := db })) := by
  induction active generalizing w with
  | nil => exact Or.inl ⟨w.db, rfl, rfl⟩
  | cons record rest ih =>
    rw [Prog.run_forM_cons, run_insert, List.map_cons]
    cases hrow : w.db.insertReleaseComponent (newManifestRow releaseId changes record) with
    | error refusal =>
      exact Or.inr ⟨[], _, _, w.db, refusal, rfl, rfl, hrow, rfl⟩
    | ok db =>
      rcases ih { w with db := db } with ⟨db', hdb', hrun⟩ | ⟨done, row, rest', db', refusal, hrows,
        hdone, hrefused, hrun⟩
      · refine Or.inl ⟨db', ?_, hrun⟩
        simp only [Store.insertManifest, hrow, hdb']
      · refine Or.inr ⟨newManifestRow releaseId changes record :: done, row, rest', db', refusal,
          ?_, ?_, hrefused, hrun⟩
        · rw [hrows, List.cons_append]
        · simp only [Store.insertManifest, hrow, hdone]

/-! ## The cut -/

/-- What a cut alone answers and leaves. -/
inductive CutReleaseOutcome (data : CutReleaseRequest) (env : Env) (w : World) :
    Except ApiError CutReleaseResult → World → Prop
  | unknown (hunknown : data.productId ∉ w.db.products.keys) :
      CutReleaseOutcome data env w (.error (productNotFound data.productId)) w
  | replayed {row : ReleaseRow} (hreplay : w.db.replayed data env.choice = some row) :
      CutReleaseOutcome data env w (.ok ⟨w.db.cutView row, false⟩) w
  | nothing (hreplay : w.db.replayed data env.choice = none)
      (hactive : w.db.activeComponents data.productId = []) :
      CutReleaseOutcome data env w (.error (nothingToRelease data.productId)) w
  | unversioned {product : ProductRow} {error : ApiError}
      (hproduct : product ∈ w.db.products.rows) (hid : product.id = data.productId)
      (hreplay : w.db.replayed data env.choice = none)
      (hactive : w.db.activeComponents product.id ≠ [])
      (hversion : w.db.nextVersion product = .error error) :
      CutReleaseOutcome data env w (.error error) w
  | refused {product : ProductRow} {version : String} {refusal : Refusal}
      (hproduct : product ∈ w.db.products.rows) (hid : product.id = data.productId)
      (hreplay : w.db.replayed data env.choice = none)
      (hactive : w.db.activeComponents product.id ≠ [])
      (hversion : w.db.nextVersion product = .ok version)
      (hinsert : w.db.insertRelease
        (newReleaseRow data env version (w.db.derivationFor product)) = .error refusal) :
      CutReleaseOutcome data env w (.error (.refused refusal)) w
  | halted {product : ProductRow} {version : String} {refusal : Refusal} {db db' : Store}
      {done rest : List ReleaseComponentRow} {row : ReleaseComponentRow}
      (hproduct : product ∈ w.db.products.rows) (hid : product.id = data.productId)
      (hreplay : w.db.replayed data env.choice = none)
      (hactive : w.db.activeComponents product.id ≠ [])
      (hversion : w.db.nextVersion product = .ok version)
      (hinsert : w.db.insertRelease
        (newReleaseRow data env version (w.db.derivationFor product)) = .ok db)
      (hrows : w.db.newManifest product env.ulid = done ++ row :: rest)
      (hdone : Store.insertManifest done db = .ok db')
      (hrefused : db'.insertReleaseComponent row = .error refusal) :
      CutReleaseOutcome data env w (.error (.refused refusal)) { w with db := db' }
  | cut {product : ProductRow} {version : String} {db db' : Store}
      (hproduct : product ∈ w.db.products.rows) (hid : product.id = data.productId)
      (hreplay : w.db.replayed data env.choice = none)
      (hactive : w.db.activeComponents product.id ≠ [])
      (hversion : w.db.nextVersion product = .ok version)
      (hinsert : w.db.insertRelease
        (newReleaseRow data env version (w.db.derivationFor product)) = .ok db)
      (hmanifest : Store.insertManifest (w.db.newManifest product env.ulid) db = .ok db') :
      CutReleaseOutcome data env w
        (.ok ⟨db'.cutView (newReleaseRow data env version (w.db.derivationFor product)), true⟩)
        { w with db := db' }

/-- An idempotent request finds a release of its product. -/
theorem Store.replayed_eq_some {db : Store} {data : CutReleaseRequest} {choice : Nat}
    {row : ReleaseRow} (h : db.replayed data choice = some row) :
    row ∈ db.releases.rows ∧ row.productId = data.productId ∧
      data.idempotencyKey.isSome = true ∧ row.idempotencyKey = data.idempotencyKey := by
  obtain ⟨key, hkey, hfound⟩ := Option.bind_eq_some_iff.mp h
  have hmem := List.mem_filter.mp (List.mem_of_getElem? hfound)
  simp only [Bool.and_eq_true, decide_eq_true_eq] at hmem
  exact ⟨hmem.1, hmem.2.1, by rw [hkey]; rfl, hmem.2.2.trans hkey.symm⟩

/-- The release of a cut is loaded from the store that holds its manifest. -/
theorem mem_releases_of_manifest {row : ReleaseRow} {rows : List ReleaseComponentRow}
    {db db₁ db' : Store} (hinsert : db.insertRelease row = .ok db₁)
    (hmanifest : Store.insertManifest rows db₁ = .ok db') : row ∈ db'.releases.rows := by
  rw [(Store.insertManifest_ok hmanifest).releases, (Store.insertRelease_ok hinsert).rows]
  exact List.mem_append_right _ List.mem_cons_self

theorem cutRelease_run (data : CutReleaseRequest) (env : Env) (w : World) :
    CutReleaseOutcome data env w ((cutRelease data env).run w).1
      ((cutRelease data env).run w).2 := by
  by_cases hknown : data.productId ∈ w.db.products.keys
  case neg =>
    have hrun : (cutRelease data env).run w = (.error (productNotFound data.productId), w) := by
      simp [cutRelease, Table.lookup_eq_nil.mpr hknown]
    rw [hrun]
    exact .unknown hknown
  obtain ⟨product, hproduct, hid, hlookup⟩ := Table.lookup_eq_singleton_of_mem_keys hknown
  cases hreplay : w.db.replayed data env.choice with
  | some row =>
    have hrun : (cutRelease data env).run w = (.ok ⟨w.db.cutView row, false⟩, w) := by
      simp [cutRelease, hlookup, run_findReplay, hreplay,
        run_loadRelease (Store.replayed_eq_some hreplay).1]
    rw [hrun]
    exact .replayed hreplay
  | none =>
    by_cases hactive : w.db.activeComponents data.productId = []
    case pos =>
      have hrun : (cutRelease data env).run w =
          (.error (nothingToRelease data.productId), w) := by
        simp [cutRelease, hlookup, run_findReplay, hreplay, hactive]
      rw [hrun]
      exact .nothing hreplay hactive
    have hsome : (w.db.activeComponents data.productId).isEmpty = false := by
      simpa using hactive
    have hcurrent : currentVersion product (w.db.latestRelease data.productId) =
        w.db.currentVersion product := by
      rw [Store.currentVersion, hid]
    have hderive := run_derive data.productId product w hid
    have hactive' : w.db.activeComponents product.id ≠ [] := hid ▸ hactive
    have hnext : applyBump (w.db.currentVersion product) (w.db.derivationFor product).bumpLevel =
        w.db.nextVersion product := rfl
    cases hversion : w.db.nextVersion product with
    | error error =>
      have hrun : (cutRelease data env).run w = (.error error, w) := by
        simp [cutRelease, hlookup, run_findReplay, hreplay, hsome, hderive, hcurrent, hnext,
          hversion]
      rw [hrun]
      exact .unversioned hproduct hid hreplay hactive' hversion
    | ok version =>
      cases hinsert : w.db.insertRelease
          (newReleaseRow data env version (w.db.derivationFor product)) with
      | error refusal =>
        have hrun : (cutRelease data env).run w = (.error (.refused refusal), w) := by
          simp [cutRelease, hlookup, run_findReplay, hreplay, hsome, hderive, hcurrent, hnext,
            hversion, hinsert]
        rw [hrun]
        exact .refused hproduct hid hreplay hactive' hversion hinsert
      | ok db =>
        rcases run_manifest (w.db.activeComponents data.productId) env.ulid
          (w.db.derivationFor product).changeByComponent { w with db := db } with
          ⟨db', hmanifest, hloop⟩ | ⟨done, row, rest, db', refusal, hrows, hdone, hrefused, hloop⟩
        · have hload := @run_loadRelease _ { w with db := db' }
            (mem_releases_of_manifest hinsert hmanifest)
          change (loadRelease env.ulid).run { w with db := db' } =
            (.ok (db'.cutView (newReleaseRow data env version (w.db.derivationFor product))),
              { w with db := db' }) at hload
          have hrun : (cutRelease data env).run w =
              (.ok ⟨db'.cutView (newReleaseRow data env version (w.db.derivationFor product)), true⟩,
                { w with db := db' }) := by
            simp [cutRelease, hlookup, run_findReplay, hreplay, hsome, hderive, hcurrent, hnext,
              hversion, hinsert, hloop, hload]
          rw [hrun]
          refine .cut hproduct hid hreplay hactive' hversion hinsert ?_
          rw [Store.newManifest, hid]
          exact hmanifest
        · have hrun : (cutRelease data env).run w =
              (.error (.refused refusal), { w with db := db' }) := by
            simp [cutRelease, hlookup, run_findReplay, hreplay, hsome, hderive, hcurrent, hnext,
              hversion, hinsert, hloop]
          rw [hrun]
          rw [← hid] at hrows
          exact .halted hproduct hid hreplay hactive' hversion hinsert hrows hdone hrefused

end LavsCore
