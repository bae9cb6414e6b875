import LavsCore.Invariants.Growth

/-!
# The chain of product versions

Each release of a product derives its version from the release before it, the first one
from `0.0.0`. In a run of one process the calls come in the order of their clock
readings and of the ids that they mint (`InOrder`), so `ORDER BY created_at DESC, id
DESC` answers the release that was inserted last (`latestRelease_eq_getLast?`).
`version_chain` is the whole statement.
-/

namespace LavsCore

open Store GrowthLemmas

/-- The strict order of versions. -/
def Core.lt (a b : Core) : Prop := Core.le a b ∧ a ≠ b

/-- The recorded level is what the version differs by from `current`: its numbers never go
back, and they move exactly if the level is not `none`. -/
def DerivesFrom (current : String) (r : ReleaseRow) : Prop :=
  ∃ level core core', r.bumpLevel = some (BumpLevel.value level) ∧
    applyBump current level = .ok r.productVersion ∧ parseCore current = .ok core ∧
    parseCore r.productVersion = .ok core' ∧ Core.le core core' ∧
    (Core.lt core core' ↔ level ≠ .none)

/-- The releases, oldest first, derive one from the other, the first one from `current`. -/
def VersionChain (current : String) : List ReleaseRow → Prop
  | [] => True
  | r :: rest => DerivesFrom current r ∧ VersionChain r.productVersion rest

/-- The version after the releases, oldest first. -/
def lastVersion (current : String) (releases : List ReleaseRow) : String :=
  releases.foldl (fun _ r => r.productVersion) current

/-- The releases of a product in the order in which they were cut. -/
def Store.releaseHistory (db : Store) (productId : String) : List ReleaseRow :=
  db.releases.rows.filter fun r => r.productId = productId

/-- The calls of one process: the clock does not go back and the minted ids increase. -/
def InOrder (requests : List Request) : Prop :=
  requests.Pairwise fun r r' => r.2.now ≤ r'.2.now ∧ r.2.ulid < r'.2.ulid

instance (requests : List Request) : Decidable (InOrder requests) :=
  inferInstanceAs (Decidable (requests.Pairwise _))

namespace VersionChainLemmas

theorem versionChain_append {current : String} {releases : List ReleaseRow} {r : ReleaseRow} :
    VersionChain current (releases ++ [r]) ↔
      VersionChain current releases ∧ DerivesFrom (lastVersion current releases) r := by
  induction releases generalizing current with
  | nil => simp [VersionChain, lastVersion]
  | cons r' rest ih =>
    rw [List.cons_append, VersionChain, VersionChain, ih, and_assoc]
    rfl

/-- The last version of a chain can be parsed. -/
theorem parse_lastVersion {current : String} {releases : List ReleaseRow}
    (hcurrent : ∃ core, parseCore current = .ok core) (h : VersionChain current releases) :
    ∃ core, parseCore (lastVersion current releases) = .ok core := by
  induction releases generalizing current with
  | nil => exact hcurrent
  | cons r rest ih =>
    obtain ⟨⟨_, _, core', _, _, _, hcore', _⟩, hrest⟩ := h
    exact ih ⟨core', hcore'⟩ hrest

/-- A bump of a version that can be parsed is a link of the chain. -/
theorem derivesFrom_of_bump {current : String} {r : ReleaseRow} {level : BumpLevel}
    (hcurrent : ∃ core, parseCore current = .ok core) (hlevel : r.bumpLevel = some level.value)
    (hversion : applyBump current level = .ok r.productVersion) : DerivesFrom current r := by
  obtain ⟨core, hcore⟩ := hcurrent
  refine ⟨level, core, bumpCore level core, hlevel, hversion, hcore,
    apply_bump_core hcore hversion, le_bumpCore level core, ?_⟩
  unfold Core.lt
  rw [ne_comm, Ne, bumpCore_eq_iff]
  exact and_iff_right (le_bumpCore level core)

end VersionChainLemmas

open VersionChainLemmas

/-! ## The latest release -/

/-- The rows of `releases` are in the order of their clock readings and ids. -/
def Store.Chronological (db : Store) : Prop :=
  db.releases.rows.Pairwise fun r r' => r.createdAt ≤ r'.createdAt ∧ r.id < r'.id

/-- A call that reads the clock and mints its id after all releases. -/
def Store.Precedes (db : Store) (env : Env) : Prop :=
  ∀ r ∈ db.releases.rows, r.createdAt ≤ env.now ∧ r.id < env.ulid

theorem newestFirst_eq_reverse {rows : List ReleaseRow}
    (h : rows.Pairwise fun r r' => r.createdAt ≤ r'.createdAt ∧ r.id < r'.id) :
    newestFirst rows = rows.reverse := by
  have hkey : ∀ r r' : ReleaseRow, r.createdAt ≤ r'.createdAt ∧ r.id < r'.id →
      toLex (r.createdAt, r.id) < toLex (r'.createdAt, r'.id) := by
    rintro r r' ⟨htime, hid⟩
    rcases lt_or_eq_of_le htime with hlt | heq
    · exact Prod.Lex.lt_iff.mpr (Or.inl hlt)
    · exact Prod.Lex.lt_iff.mpr (Or.inr ⟨heq, hid⟩)
  have hsorted : rows.Pairwise fun r r' =>
      toLex (r.createdAt, r.id) < toLex (r'.createdAt, r'.id) := h.imp (hkey _ _)
  unfold newestFirst
  refine eq_of_perm_of_sorted ((orderBy_perm _ rows).trans (List.reverse_perm rows).symm) ?_
    (orderBy_sorted _ rows) ?_
  · intro r hr r' hr' heq
    have hid : r.id = r'.id :=
      congrArg (fun k => (ofLex (OrderDual.ofDual k)).2) heq
    have hnodup : (rows.map ReleaseRow.id).Nodup :=
      List.pairwise_map.mpr (h.imp fun hlt => ne_of_lt hlt.2)
    exact List.inj_on_of_nodup_map hnodup (mem_orderBy.mp hr) (mem_orderBy.mp hr') hid
  · exact List.pairwise_reverse.mpr (hsorted.imp fun hlt => le_of_lt hlt)

/-- The latest release is the one that was inserted last. -/
theorem latestRelease_eq_getLast? {db : Store} (h : db.Chronological) (productId : String) :
    db.latestRelease productId = (db.releaseHistory productId).getLast? := by
  rw [latestRelease, releasesOf, newestFirst_eq_reverse (h.filter _), List.head?_reverse]
  rfl

theorem currentVersion_eq_lastVersion {db : Store} (h : db.Chronological) (product : ProductRow) :
    db.currentVersion product = lastVersion product.baseVersion (db.releaseHistory product.id) := by
  rw [Store.currentVersion, latestRelease_eq_getLast? h]
  rcases List.eq_nil_or_concat (db.releaseHistory product.id) with hnil | ⟨older, r, hconcat⟩
  · rw [hnil]
    rfl
  · rw [hconcat]
    simp [currentVersion, lastVersion]

/-! ## One step -/

/-- What a run in order keeps. -/
structure Store.Chained (db : Store) : Prop where
  chronological : db.Chronological
  base : ∀ product ∈ db.products.rows, product.baseVersion = "0.0.0"
  chain : ∀ productId, VersionChain "0.0.0" (db.releaseHistory productId)

theorem parseCore_base : ∃ core, parseCore "0.0.0" = .ok core := ⟨(0, 0, 0), by decide⟩

/-- The current version of every product can be parsed. -/
theorem Store.Chained.parse_currentVersion {db : Store} (h : db.Chained) {product : ProductRow}
    (hproduct : product ∈ db.products.rows) :
    ∃ core, parseCore (db.currentVersion product) = .ok core := by
  rw [currentVersion_eq_lastVersion h.chronological, h.base product hproduct]
  exact parse_lastVersion parseCore_base (h.chain product.id)

section Step

variable {db db' : Store} {ok : Prop} {env : Env}

/-- A call adds one release at most to the ledger, that of a cut, and products only with the base
version. -/
theorem ledger_change (h : Change ok env db db') :
    (db'.releases = db.releases ∧
        ∀ product ∈ db'.products.rows,
          product ∈ db.products.rows ∨ product.baseVersion = "0.0.0") ∨
      ∃ (data : CutReleaseRequest) (product : ProductRow) (version : String),
        product ∈ db.products.rows ∧ product.id = data.productId ∧
          db.nextVersion product = .ok version ∧ db'.products = db.products ∧
            db'.releases.rows =
              db.releases.rows ++ [newReleaseRow data env version (db.derivationFor product)] := by
  have hsame : db'.releases = db.releases → db'.products = db.products →
      db'.releases = db.releases ∧ ∀ product ∈ db'.products.rows,
        product ∈ db.products.rows ∨ product.baseVersion = "0.0.0" :=
    fun hreleases hproducts => ⟨hreleases, fun _ hproduct => .inl (hproducts ▸ hproduct)⟩
  cases h with
  | unchanged => exact .inl (hsame rfl rfl)
  | product hbase hinsert =>
    have hi := insertProduct_ok hinsert
    refine .inl ⟨hi.releases, fun product hproduct => ?_⟩
    rw [hi.rows, List.mem_append, List.mem_singleton] at hproduct
    rcases hproduct with hproduct | rfl
    · exact .inl hproduct
    · exact .inr hbase
  | component hinsert =>
    exact .inl (hsame (insertComponent_ok hinsert).releases (insertComponent_ok hinsert).products)
  | superseded _ _ => exact .inl (hsame rfl rfl)
  | version _ hinsert =>
    exact .inl (hsame (insertVersion_ok hinsert).releases (insertVersion_ok hinsert).products)
  | rollback _ _ _ => exact .inl (hsame rfl rfl)
  | dependency _ hinsert =>
    exact .inl (hsame (insertDependency_ok hinsert).releases (insertDependency_ok hinsert).products)
  | removal _ => exact .inl (hsame rfl rfl)
  | cut hproduct hid hversion hinsert _ _ hmanifest =>
    obtain ⟨hproducts, _, _, _, hreleases, _⟩ := cut_frame hinsert hmanifest
    exact .inr ⟨_, _, _, hproduct, hid, hversion, hproducts, hreleases⟩

theorem precedes_step {env' : Env} (hprec : db.Precedes env) (hnow : env.now ≤ env'.now)
    (hulid : env.ulid < env'.ulid) (h : Change ok env db db') : db'.Precedes env' := by
  have hold : ∀ r ∈ db.releases.rows, r.createdAt ≤ env'.now ∧ r.id < env'.ulid := fun r hr =>
    ⟨(hprec r hr).1.trans hnow, (hprec r hr).2.trans hulid⟩
  intro r hr
  rcases ledger_change h with ⟨hreleases, -⟩ | ⟨_, _, _, -, -, -, -, hreleases⟩
  · exact hold r (hreleases ▸ hr)
  · rw [hreleases, List.mem_append, List.mem_singleton] at hr
    rcases hr with hr | rfl
    · exact hold r hr
    · exact ⟨hnow, hulid⟩

/-- The release of a cut is a link after the last one of its product. -/
theorem chain_cut (hinv : db.Chained) {data : CutReleaseRequest} {product : ProductRow}
    {version : String} (hproduct : product ∈ db.products.rows) (hid : product.id = data.productId)
    (hversion : db.nextVersion product = .ok version)
    (hreleases : db'.releases.rows =
      db.releases.rows ++ [newReleaseRow data env version (db.derivationFor product)])
    (productId : String) : VersionChain "0.0.0" (db'.releaseHistory productId) := by
  rw [Store.releaseHistory, hreleases, List.filter_append]
  rcases eq_or_ne data.productId productId with rfl | hne
  · have hnew : [newReleaseRow data env version (db.derivationFor product)].filter
        (fun r => r.productId = data.productId) =
          [newReleaseRow data env version (db.derivationFor product)] := by
      simp [newReleaseRow]
    rw [hnew, versionChain_append]
    refine ⟨hinv.chain data.productId, ?_⟩
    have hcurrent : lastVersion "0.0.0" (db.releaseHistory data.productId) =
        db.currentVersion product := by
      rw [currentVersion_eq_lastVersion hinv.chronological, hinv.base product hproduct, hid]
    show DerivesFrom (lastVersion "0.0.0" (db.releaseHistory data.productId)) _
    rw [hcurrent]
    exact derivesFrom_of_bump (hinv.parse_currentVersion hproduct) rfl hversion
  · have hnone : [newReleaseRow data env version (db.derivationFor product)].filter
        (fun r => r.productId = productId) = [] := by
      simp [newReleaseRow, hne]
    rw [hnone, List.append_nil]
    exact hinv.chain productId

theorem chained_step (hinv : db.Chained) (hprec : db.Precedes env) (h : Change ok env db db') :
    db'.Chained := by
  rcases ledger_change h with ⟨hreleases, hbase⟩ |
    ⟨data, product, version, hproduct, hid, hversion, hproducts, hreleases⟩
  · refine ⟨?_, fun product hproduct => ?_, fun productId => ?_⟩
    · rw [Store.Chronological, hreleases]
      exact hinv.chronological
    · exact (hbase product hproduct).elim (hinv.base product) id
    · rw [Store.releaseHistory, hreleases]
      exact hinv.chain productId
  · refine ⟨?_, hproducts ▸ hinv.base, chain_cut hinv hproduct hid hversion hreleases⟩
    rw [Store.Chronological, hreleases, List.pairwise_append]
    refine ⟨hinv.chronological, List.pairwise_singleton _ _, ?_⟩
    intro r hr r' hr'
    rw [List.mem_singleton.mp hr']
    exact hprec r hr

end Step

theorem chained_empty : Store.empty.Chained :=
  ⟨List.Pairwise.nil, fun _ h => absurd h List.not_mem_nil, fun _ => trivial⟩

/-- A run in order keeps the chains. -/
theorem chained_run {w : World} (h : w.db.Chained) {requests : List Request}
    (horder : InOrder requests) (hprec : ∀ r ∈ requests, w.db.Precedes r.2) :
    (run w requests).db.Chained := by
  induction requests generalizing w with
  | nil => exact h
  | cons r rest ih =>
    obtain ⟨hfirst, hrest⟩ := List.pairwise_cons.mp horder
    have hr := hprec r List.mem_cons_self
    have hchange := exec_change w r
    refine ih (chained_step h hr hchange) hrest ?_
    intro r' hr'
    exact precedes_step hr (hfirst r' hr').1 (hfirst r' hr').2 hchange

/-! ## The cuts of a run -/

/-- A cut fails with `ValueError` only where the next version is too long to be rendered. -/
theorem cut_valueError {data : CutReleaseRequest} {env : Env} {w : World} (h : w.db.Chained)
    {message : String} (hcut : ((cutRelease data env).run w).1 = .error (.valueError message)) :
    message = digitLimitMessage := by
  obtain ⟨w', _, hrun⟩ := Prog.exists_outcome (cutRelease_run data env w) hcut
  cases hrun with
  | unversioned hproduct _ _ _ hversion =>
    obtain ⟨core, hcore⟩ := h.parse_currentVersion hproduct
    cases apply_bump_error hcore hversion
    rfl

/-- A fresh cut adds one release to the history of its product, the one it answers with. -/
theorem cut_history {data : CutReleaseRequest} {env : Env} {w : World} {result : CutReleaseResult}
    (hcut : ((cutRelease data env).run w).1 = .ok result) (hcreated : result.created = true) :
    ∃ row, ((cutRelease data env).run w).2.db.releaseHistory data.productId =
        w.db.releaseHistory data.productId ++ [row] ∧
      result.release.id = row.id ∧ result.release.productVersion = row.productVersion ∧
      result.release.bumpLevel = row.bumpLevel := by
  obtain ⟨w', hw', hrun⟩ := Prog.exists_outcome (cutRelease_run data env w) hcut
  rw [hw']
  cases hrun with
  | replayed _ => cases hcreated
  | @cut product version _ _ _ _ _ _ _ hinsert hmanifest =>
    obtain ⟨_, _, _, _, hreleases, _⟩ := cut_frame hinsert hmanifest
    refine ⟨newReleaseRow data env version (w.db.derivationFor product), ?_, rfl, rfl, rfl⟩
    rw [Store.releaseHistory, hreleases, List.filter_append]
    simp [Store.releaseHistory, newReleaseRow]

/-- In every run in order from the empty store: the releases of each product, in the order
of their cuts, derive one from the other, the first one from `0.0.0`; every current version
can be parsed, so no cut fails to parse it; and a fresh cut is the next link. -/
theorem version_chain (requests : List Request) (horder : InOrder requests) :
    let w := run World.init requests
    (∀ productId, VersionChain "0.0.0" (w.db.releaseHistory productId)) ∧
      (∀ product ∈ w.db.products.rows, ∃ core, parseCore (w.db.currentVersion product) = .ok core) ∧
      (∀ (data : CutReleaseRequest) (env : Env) (message : String),
        ((cutRelease data env).run w).1 = .error (.valueError message) →
          message = digitLimitMessage) ∧
      ∀ (data : CutReleaseRequest) (env : Env) (result : CutReleaseResult),
        ((cutRelease data env).run w).1 = .ok result → result.created = true →
          ∃ row, ((cutRelease data env).run w).2.db.releaseHistory data.productId =
              w.db.releaseHistory data.productId ++ [row] ∧
            result.release.id = row.id ∧ result.release.productVersion = row.productVersion ∧
            result.release.bumpLevel = row.bumpLevel := by
  intro w
  have hchained : w.db.Chained :=
    chained_run chained_empty horder fun _ _ _ h => absurd h List.not_mem_nil
  exact ⟨hchained.chain, fun _ => hchained.parse_currentVersion, fun _ _ _ => cut_valueError hchained,
    fun _ _ _ => cut_history⟩

/-- Two cuts of the sample product. -/
theorem version_chain_sample :
    InOrder (Sample.setup ++ Sample.versions ++ Sample.releases) ∧
      VersionChain "0.0.0" ((run World.init
        (Sample.setup ++ Sample.versions ++ Sample.releases)).db.releaseHistory (Sample.id 10)) := by
  have horder : InOrder (Sample.setup ++ Sample.versions ++ Sample.releases) := by decide +kernel
  exact ⟨horder, (version_chain _ horder).1 (Sample.id 10)⟩

end LavsCore
