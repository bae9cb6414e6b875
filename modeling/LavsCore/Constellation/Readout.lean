import LavsCore.Invariants.VersionChain
import LavsCore.Live.Endpoints

/-!
# The derived product version

While the meridian moves, the workspace shows which version a cut would give the product:
`derivedProductVersion` of `projection.ts` bumps the minor number of the newest release with
`lib/semver.ts`, or that of `DEFAULT_PRODUCT_BASE` where there is no release yet.

`readout_shows_cut`: in every run the next cut answers with what the workspace has shown exactly
when the product has a release and the cut is a minor bump; with nothing pinned, exactly when the
cut leaves the version. Before the first release the workspace starts from 5.0.0 and the service
from 0.0.0, and no bump makes them meet.
-/

namespace LavsCore

open Store

namespace Semver

/-- The numbers of the client: `Number` of a text of digits, `+ 1`, and the text in a template.
They are doubles, and what holds of them here holds below 2^53, where integers are exact. -/
structure Numbers where
  Num : Type
  number : List Char → Num
  succ : Num → Num
  text : Num → List Char
  text_number : ∀ n < 2 ^ 53, text (number (Nat.toDigits 10 n)) = Nat.toDigits 10 n
  text_succ : ∀ n < 2 ^ 53, text (succ (number (Nat.toDigits 10 n))) = Nat.toDigits 10 (n + 1)

/-- `SemVer`. -/
structure SemVer (js : Numbers) where
  major : js.Num
  minor : js.Num
  patch : js.Num
  prerelease : Option String

/-- `(\d+)`: the digits at the head, and what follows them. -/
def digits (text : List Char) : Option (List Char × List Char) :=
  if text.takeWhile Char.isDigit = [] then none
  else some (text.takeWhile Char.isDigit, text.dropWhile Char.isDigit)

/-- `\.`. -/
def dot : List Char → Option (List Char)
  | '.' :: rest => some rest
  | _ => none

/-- What `.` does not match. -/
def lineTerminator (c : Char) : Bool :=
  c == '\n' || c == '\r' || c == '\u2028' || c == '\u2029'

/-- `(?:-(.+))?$`. -/
def suffix : List Char → Option (Option String)
  | [] => some none
  | '-' :: rest =>
    if rest.isEmpty || rest.any lineTerminator then none else some (some (String.ofList rest))
  | _ => none

/-- `parseVersion`. -/
def parseVersion (js : Numbers) (value : String) : Option (SemVer js) := do
  let (major, rest) ← digits value.toList
  let rest ← dot rest
  let (minor, rest) ← digits rest
  let rest ← dot rest
  let (patch, rest) ← digits rest
  let prerelease ← suffix rest
  return ⟨js.number major, js.number minor, js.number patch, prerelease⟩

/-- `bumpMinor`: a text that is not a version stays as it is. -/
def bumpMinor (js : Numbers) (current : String) : String :=
  match parseVersion js current with
  | none => current
  | some parsed =>
    String.ofList (['.'].intercalate [js.text parsed.major, js.text (js.succ parsed.minor), ['0']])

end Semver

namespace Projection

/-- `DEFAULT_PRODUCT_BASE`. -/
def defaultProductBase : String := "5.0.0"

/-- `derivedProductVersion`. -/
def derivedProductVersion (js : Semver.Numbers) (base : String) (hasAnyPinned : Bool) : String :=
  let resolved := if base.length > 0 then base else defaultProductBase
  if hasAnyPinned then Semver.bumpMinor js resolved else resolved

/-- `productVersion` of `constellation-workspace.tsx`, beside a ledger, newest release first. -/
def productVersion (js : Semver.Numbers) (ledger : List ReleaseResponseModel)
    (hasAnyPinned : Bool) : String :=
  let base := (ledger.head?.map ReleaseResponseModel.productVersion).getD defaultProductBase
  derivedProductVersion js base hasAnyPinned

end Projection

/-! ## The text of a core -/

/-- The text of three numbers. -/
def coreText : Core → String
  | (major, minor, patch) =>
    String.ofList (['.'].intercalate
      [Nat.toDigits 10 major, Nat.toDigits 10 minor, Nat.toDigits 10 patch])

namespace ReadoutLemmas

theorem isDigit_of_mem {n : Nat} {c : Char} (h : c ∈ Nat.toDigits 10 n) : c.isDigit = true :=
  Nat.isDigit_of_mem_toDigits (by decide) (by decide) h

theorem dot_not_mem (n : Nat) : '.' ∉ Nat.toDigits 10 n :=
  fun h => Bool.noConfusion (isDigit_of_mem h)

theorem toDigits_injective : Function.Injective (Nat.toDigits 10) :=
  Function.LeftInverse.injective (g := fun digits => Nat.ofDigitChars 10 digits 0)
    fun _ => Nat.ofDigitChars_ten_toDigits

theorem coreText_injective : Function.Injective coreText := by
  have hparts : ∀ core : Core, Py.split '.' (coreText core).toList =
      [Nat.toDigits 10 core.1, Nat.toDigits 10 core.2.1, Nat.toDigits 10 core.2.2] := by
    intro core
    rw [coreText, String.toList_ofList]
    refine Py.split_intercalate (List.cons_ne_nil _ _) fun part hpart => ?_
    simp only [List.mem_cons, List.not_mem_nil, or_false] at hpart
    rcases hpart with rfl | rfl | rfl <;> exact dot_not_mem _
  intro core core' h
  have heq := hparts core
  rw [h, hparts core'] at heq
  simp only [List.cons.injEq, and_true] at heq
  obtain ⟨hmajor, hminor, hpatch⟩ := heq
  exact Prod.ext (toDigits_injective hmajor.symm)
    (Prod.ext (toDigits_injective hminor.symm) (toDigits_injective hpatch.symm))

theorem eq_coreText {core : Core} {version : String} (h : renderCore core = .ok version) :
    version = coreText core := by
  have hdigits : ∀ {n : Nat} {text : List Char}, Py.str n = some text →
      text = Nat.toDigits 10 n := by
    intro n text htext
    unfold Py.str at htext
    split at htext
    · exact (Option.some.inj htext).symm
    · cases htext
  obtain ⟨a, b, c, ha, hb, hc, htext⟩ := ProductVersionLemmas.render_core_ok h
  rw [coreText, ← hdigits ha, ← hdigits hb, ← hdigits hc, ← htext, String.ofList_toList]

/-! ## What the client makes of it -/

theorem digits_append {n : Nat} {rest : List Char}
    (h : ∀ c, rest.head? = some c → c.isDigit = false) :
    Semver.digits (Nat.toDigits 10 n ++ rest) = some (Nat.toDigits 10 n, rest) := by
  have hall : ∀ c ∈ Nat.toDigits 10 n, c.isDigit = true := fun c hc => isDigit_of_mem hc
  have htake : rest.takeWhile Char.isDigit = [] ∧ rest.dropWhile Char.isDigit = rest := by
    cases rest with
    | nil => exact ⟨rfl, rfl⟩
    | cons c rest =>
      have hc : ¬ c.isDigit = true := by simp [h c rfl]
      exact ⟨List.takeWhile_cons_of_neg hc, List.dropWhile_cons_of_neg hc⟩
  rw [Semver.digits, List.takeWhile_append_of_pos hall, List.dropWhile_append_of_pos hall,
    htake.1, htake.2, List.append_nil, if_neg Nat.toDigits_ne_nil]

/-- The client reads the text of three numbers as the three numbers. -/
theorem parseVersion_coreText (js : Semver.Numbers) (core : Core) :
    Semver.parseVersion js (coreText core) =
      some ⟨js.number (Nat.toDigits 10 core.1), js.number (Nat.toDigits 10 core.2.1),
        js.number (Nat.toDigits 10 core.2.2), none⟩ := by
  obtain ⟨major, minor, patch⟩ := core
  have htext : (coreText (major, minor, patch)).toList =
      Nat.toDigits 10 major ++ '.' :: (Nat.toDigits 10 minor ++ '.' :: Nat.toDigits 10 patch) := by
    simp [coreText, List.intercalate]
  have hdot : ∀ rest : List Char, ∀ c, ('.' :: rest).head? = some c → c.isDigit = false := by
    intro rest c hc
    cases hc
    rfl
  have hpatch : Semver.digits (Nat.toDigits 10 patch) = some (Nat.toDigits 10 patch, []) := by
    have hdigits := @digits_append patch [] fun c hc => by cases hc
    rwa [List.append_nil] at hdigits
  simp [Semver.parseVersion, htext, digits_append (hdot _), hpatch, Semver.dot, Semver.suffix]

theorem bumpMinor_coreText (js : Semver.Numbers) {core : Core} (hmajor : core.1 < 2 ^ 53)
    (hminor : core.2.1 < 2 ^ 53) :
    Semver.bumpMinor js (coreText core) = coreText (bumpCore .minor core) := by
  unfold Semver.bumpMinor
  rw [parseVersion_coreText]
  dsimp only
  rw [js.text_number _ hmajor, js.text_succ _ hminor]
  rfl

theorem coreText_ne_empty (core : Core) : (coreText core).length > 0 := by
  obtain ⟨major, minor, patch⟩ := core
  rw [gt_iff_lt, ← String.length_toList, coreText, String.toList_ofList]
  simp [List.intercalate, List.length_pos_iff, Nat.toDigits_ne_nil]

/-- Beside a newest release with an exact version the workspace shows its bump. -/
theorem derivedProductVersion_coreText (js : Semver.Numbers) {core : Core}
    (hmajor : core.1 < 2 ^ 53) (hminor : core.2.1 < 2 ^ 53) (hasAnyPinned : Bool) :
    Projection.derivedProductVersion js (coreText core) hasAnyPinned =
      coreText (bumpCore (if hasAnyPinned then .minor else .none) core) := by
  unfold Projection.derivedProductVersion
  rw [if_pos (coreText_ne_empty core)]
  cases hasAnyPinned with
  | false => rfl
  | true => exact bumpMinor_coreText js hmajor hminor

theorem bumpCore_injective (core : Core) {level level' : BumpLevel}
    (h : bumpCore level core = bumpCore level' core) : level = level' := by
  obtain ⟨major, minor, patch⟩ := core
  cases level <;> cases level' <;> simp [bumpCore] at h ⊢

end ReadoutLemmas

open ReadoutLemmas

/-! ## The versions of a run -/

/-- The version is the text of numbers up to `n`. -/
def CountedVersion (n : Nat) (version : String) : Prop :=
  ∃ core : Core, renderCore core = .ok version ∧ core.1 ≤ n ∧ core.2.1 ≤ n ∧ core.2.2 ≤ n

/-- No number of a product version is above the number of releases: a cut adds one at most. -/
structure Store.CountsVersions (db : Store) : Prop where
  base : ∀ product ∈ db.products.rows, product.baseVersion = "0.0.0"
  releases : ∀ row ∈ db.releases.rows, CountedVersion db.releases.rows.length row.productVersion

namespace ReadoutLemmas

theorem countedVersion_mono {m n : Nat} {version : String} (h : CountedVersion m version)
    (hle : m ≤ n) : CountedVersion n version := by
  obtain ⟨core, hrender, hmajor, hminor, hpatch⟩ := h
  exact ⟨core, hrender, hmajor.trans hle, hminor.trans hle, hpatch.trans hle⟩

theorem countedVersion_base (n : Nat) : CountedVersion n "0.0.0" :=
  ⟨(0, 0, 0), rfl, Nat.zero_le n, Nat.zero_le n, Nat.zero_le n⟩

theorem renderCore_of_applyBump {core : Core} {current next : String} {level : BumpLevel}
    (hcurrent : renderCore core = .ok current) (h : applyBump current level = .ok next) :
    renderCore (bumpCore level core) = .ok next := by
  have hparse := parse_core_render_core hcurrent
  obtain ⟨major, minor, patch⟩ := core
  cases level with
  | none =>
    cases h
    exact hcurrent
  | patch => rwa [applyBump, bumpPatch, hparse] at h
  | minor => rwa [applyBump, bumpMinor, hparse] at h
  | major => rwa [applyBump, bumpMajor, hparse] at h

theorem countedVersion_applyBump {n : Nat} {current next : String} {level : BumpLevel}
    (hcurrent : CountedVersion n current) (h : applyBump current level = .ok next) :
    CountedVersion (n + 1) next := by
  obtain ⟨⟨major, minor, patch⟩, hrender, hmajor, hminor, hpatch⟩ := hcurrent
  refine ⟨_, renderCore_of_applyBump hrender h, ?_⟩
  cases level <;> simp only [bumpCore] at * <;> omega

theorem countedVersion_current {db : Store} (h : db.CountsVersions) {product : ProductRow}
    (hproduct : product ∈ db.products.rows) :
    CountedVersion db.releases.rows.length (db.currentVersion product) := by
  unfold Store.currentVersion currentVersion
  split
  · next row hrow => exact h.releases row (latestRelease_mem hrow).1
  · rw [h.base product hproduct]
    exact countedVersion_base _

theorem countsVersions_step {db db' : Store} {env : Env} (hinv : db.CountsVersions)
    (h : Change False env db db') : db'.CountsVersions := by
  rcases ledger_change h with ⟨hreleases, hbase⟩ |
    ⟨data, product, version, hproduct, -, hversion, hproducts, hreleases⟩
  · refine ⟨fun product hproduct => ?_, hreleases ▸ hinv.releases⟩
    exact (hbase product hproduct).elim (hinv.base product) id
  · refine ⟨hproducts ▸ hinv.base, ?_⟩
    rw [hreleases, List.length_append]
    intro row hrow
    rcases List.mem_append.mp hrow with hrow | hrow
    · exact countedVersion_mono (hinv.releases row hrow) (Nat.le_add_right _ _)
    · rw [List.mem_singleton.mp hrow]
      exact countedVersion_applyBump (countedVersion_current hinv hproduct) hversion

theorem countsVersions_empty : Store.empty.CountsVersions :=
  ⟨fun _ h => absurd h List.not_mem_nil, fun _ h => absurd h List.not_mem_nil⟩

end ReadoutLemmas

theorem countsVersions_run {w : World} (h : w.db.CountsVersions) (requests : List Request) :
    (run w requests).db.CountsVersions :=
  run_invariant (fun _ _ _ => countsVersions_step) h requests

namespace ReadoutLemmas

variable {js : Semver.Numbers} {db : Store} {product : ProductRow} {version : String}

theorem head?_ledgerView (productId : String) :
    (db.ledgerView productId).head?.map ReleaseResponseModel.productVersion =
      (db.latestRelease productId).map ReleaseRow.productVersion := by
  rw [Store.ledgerView, List.head?_map, Option.map_map]
  rfl

/-- What a cut derives is what the workspace shows, exactly when both start from the same
version and bump it alike. -/
theorem nextVersion_eq_productVersion_iff (hinv : db.CountsVersions)
    (hproduct : product ∈ db.products.rows) (hfew : db.releases.rows.length < 2 ^ 53)
    (hversion : db.nextVersion product = .ok version) (hasAnyPinned : Bool) :
    version = Projection.productVersion js (db.ledgerView product.id) hasAnyPinned ↔
      db.ledgerView product.id ≠ [] ∧
        (db.derivationFor product).bumpLevel = if hasAnyPinned then .minor else .none := by
  obtain ⟨core, hcore, hmajor, hminor, -⟩ := countedVersion_current hinv hproduct
  have hnext := eq_coreText (renderCore_of_applyBump hcore hversion)
  have hempty : db.ledgerView product.id = [] ↔ db.latestRelease product.id = none := by
    rw [Store.ledgerView, List.map_eq_nil_iff, Store.latestRelease, List.head?_eq_none_iff]
  rw [Projection.productVersion, head?_ledgerView, hnext]
  cases hlatest : db.latestRelease product.id with
  | none =>
    -- The service starts from 0.0.0, and one bump does not reach what is shown beside 5.0.0.
    have hbase : core = (0, 0, 0) := by
      have hcurrent : db.currentVersion product = "0.0.0" := by
        rw [Store.currentVersion, hlatest]
        exact hinv.base product hproduct
      rw [hcurrent] at hcore
      exact coreText_injective ((eq_coreText hcore).symm.trans rfl)
    have hshown : Projection.derivedProductVersion js (coreText (5, 0, 0)) hasAnyPinned =
        coreText (bumpCore (if hasAnyPinned then .minor else .none) (5, 0, 0)) :=
      derivedProductVersion_coreText js (by decide) (by decide) hasAnyPinned
    refine iff_of_false ?_ fun h => h.1 (hempty.mpr hlatest)
    show coreText _ ≠ Projection.derivedProductVersion js (coreText (5, 0, 0)) hasAnyPinned
    rw [hshown, hbase]
    refine coreText_injective.ne ?_
    cases hasAnyPinned <;> cases (db.derivationFor product).bumpLevel <;> decide
  | some row =>
    have hrow : row.productVersion = coreText core := by
      rw [← eq_coreText hcore, Store.currentVersion, hlatest]
      rfl
    have hnonempty : db.ledgerView product.id ≠ [] := by
      intro h
      rw [hempty.mp h] at hlatest
      cases hlatest
    show coreText _ = Projection.derivedProductVersion js row.productVersion hasAnyPinned ↔ _
    rw [hrow, derivedProductVersion_coreText js (hmajor.trans_lt hfew) (hminor.trans_lt hfew)]
    constructor
    · exact fun h => ⟨hnonempty, bumpCore_injective core (coreText_injective h)⟩
    · rintro ⟨-, hlevel⟩
      rw [hlevel]

end ReadoutLemmas

/-- In every run with fewer than 2^53 releases: a fresh cut answers with the product version that
the workspace has shown beside the ledger exactly when the ledger holds a release and the cut is a
minor bump; with nothing pinned, exactly when it holds a release and the cut keeps the version. -/
theorem readout_shows_cut (js : Semver.Numbers) (requests : List Request)
    (hfew : (run World.init requests).db.releases.rows.length < 2 ^ 53) (data : CutReleaseRequest)
    (env : Env) (ledger : List ReleaseResponseModel)
    (hledger : ((listReleasesByProduct data.productId).run (run World.init requests)).1 =
      .ok ledger)
    (result : CutReleaseResult)
    (hcut : ((cutRelease data env).run (run World.init requests)).1 = .ok result)
    (hcreated : result.created = true) (hasAnyPinned : Bool) :
    result.release.productVersion = Projection.productVersion js ledger hasAnyPinned ↔
      ledger ≠ [] ∧ result.release.bumpLevel =
        some (if hasAnyPinned then BumpLevel.minor else BumpLevel.none).value := by
  have hinv := countsVersions_run (w := World.init) countsVersions_empty requests
  generalize run World.init requests = w at *
  obtain ⟨w', _, hrun⟩ := Prog.exists_outcome (cutRelease_run data env w) hcut
  cases hrun with
  | replayed _ => cases hcreated
  | @cut product version db db' hproduct hid _ _ hversion _ _ =>
    rw [← hid, run_listReleasesByProduct (Table.key_mem_keys hproduct)] at hledger
    have hview : w.db.ledgerView product.id = ledger := Except.ok.inj hledger
    have hiff := hview ▸
      @nextVersion_eq_productVersion_iff js _ _ _ hinv hproduct hfew hversion hasAnyPinned
    have hlevel : some (w.db.derivationFor product).bumpLevel.value =
        some (if hasAnyPinned then BumpLevel.minor else BumpLevel.none).value ↔
          (w.db.derivationFor product).bumpLevel = if hasAnyPinned then .minor else .none :=
      (Option.some_injective _).eq_iff.trans BumpLevel.value_injective.eq_iff
    exact hiff.trans (and_congr_right fun _ => hlevel.symm)

namespace Sample

/-- Numbers that stay exact above 2^53, too. -/
def numbers : Semver.Numbers where
  Num := Nat
  number := fun text => Nat.ofDigitChars 10 text 0
  succ := Nat.succ
  text := Nat.toDigits 10
  text_number := fun _ _ => congrArg (Nat.toDigits 10) Nat.ofDigitChars_ten_toDigits
  text_succ := fun _ _ =>
    congrArg (fun n => Nat.toDigits 10 (n + 1)) Nat.ofDigitChars_ten_toDigits

/-- After a release `api` gets a minor version. -/
def released : World :=
  run World.init (setup ++ versions ++
    [(.cutRelease (release none), env 30), (.createVersion true api12, env 40)])

def isFreshMinor : Except ApiError CutReleaseResult → Bool
  | .ok result => result.created && result.release.bumpLevel = some BumpLevel.minor.value
  | .error _ => false

end Sample

theorem readout_shows_cut_sample :
    ∃ result, ((cutRelease (Sample.release none) (Sample.env 41)).run Sample.released).1 =
        .ok result ∧
      result.release.productVersion =
        Projection.productVersion Sample.numbers (Sample.released.db.ledgerView (Sample.id 10))
          true := by
  have hminor : Sample.isFreshMinor
      ((cutRelease (Sample.release none) (Sample.env 41)).run Sample.released).1 = true := by
    decide +kernel
  cases hcut : ((cutRelease (Sample.release none) (Sample.env 41)).run Sample.released).1 with
  | error error =>
    rw [hcut] at hminor
    cases hminor
  | ok result =>
    rw [hcut, Sample.isFreshMinor, Bool.and_eq_true, decide_eq_true_eq] at hminor
    refine ⟨result, rfl, ?_⟩
    exact (readout_shows_cut Sample.numbers _ (by decide +kernel) (Sample.release none)
      (Sample.env 41) _ (by rw [run_listReleasesByProduct (by decide +kernel)]; rfl) result hcut
      hminor.1 true).mpr ⟨by decide +kernel, hminor.2⟩

/-- Before the first release the workspace shows 5.1.0 and the service answers with 0.1.0. -/
example :
    Projection.productVersion Sample.numbers (Sample.versioned.db.ledgerView (Sample.id 10)) true =
        "5.1.0" ∧
      (((cutRelease (Sample.release none) (Sample.env 30)).run Sample.versioned).1.toOption.map
        fun result => result.release.productVersion) = some "0.1.0" := by
  decide +kernel

end LavsCore
