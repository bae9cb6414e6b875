import LavsCore.Live.Endpoints
import Mathlib.Data.Set.Finite.Lemmas

/-!
# Which version a rollback goes back to

`_SELECT_PREVIOUS` compares the numbers of the versions and no prerelease. A rollback
should go back to the greatest version before its target (`RollsBack`), where on equal
numbers a prerelease comes before the release.

`rollback_predecessor_iff`: in every reachable store it does exactly if prereleases do not
matter for the target (`PrereleaseFree`). `rollback_ignores_prerelease` is a history in
which they do.
-/

namespace LavsCore

open Store CacheSimulationLemmas EndpointLemmas

/-! ## Precedence -/

/-- An order of the versions with equal numbers: a prerelease comes before the release,
and nothing is said about two prereleases. -/
structure PrereleaseOrder where
  lower : Option String → Option String → Prop
  before_release {p q : Option String} (hp : orNone p ≠ none) (hq : orNone q = none) : lower p q
  not_release_before {p q : Option String} (hp : orNone p = none) : ¬ lower p q

/-- The order in which two prereleases are not compared. -/
def PrereleaseOrder.coarse : PrereleaseOrder where
  lower p q := orNone p ≠ none ∧ orNone q = none
  before_release hp hq := ⟨hp, hq⟩
  not_release_before hp h := h.1 hp

namespace VersionRow

/-- The numbers of a version. -/
def numbers (v : VersionRow) : Int ×ₗ Int ×ₗ Int := toLex (v.major, toLex (v.minor, v.patch))

/-- The precedence of versions. -/
def Precedes (order : PrereleaseOrder) (v w : VersionRow) : Prop :=
  v.numbers < w.numbers ∨ v.numbers = w.numbers ∧ order.lower v.prerelease w.prerelease

/-- The predicate of `_SELECT_PREVIOUS` compares the numbers. -/
theorem below_iff {v target : VersionRow} :
    v.below target = true ↔ v.numbers < target.numbers := by
  simp only [below, numbers, Prod.Lex.toLex_lt_toLex, Bool.or_eq_true, Bool.and_eq_true,
    decide_eq_true_eq]
  tauto

end VersionRow

/-! ## The specification -/

/-- Another version of the component that has not been rolled back. -/
structure Store.Kept (db : Store) (target v : VersionRow) : Prop where
  row : v ∈ db.versions.rows
  component : v.componentId = target.componentId
  other : v.id ≠ target.id
  status : v.status ≠ some .rolledBack

/-- What a rollback of the target should do: re-activate a version such that no other one
before the target comes after it, or else, if there is none before the target, end in a
conflict and change nothing. The rows of other versions stay as they are, except for the
active one. -/
inductive RollsBack (order : PrereleaseOrder) (w : World) (target : VersionRow) :
    Except ApiError VersionResponseModel → World → Prop
  | reactivated {previous : VersionRow} {version : VersionResponseModel} {w' : World}
      (hkept : w.db.Kept target previous) (hprecedes : previous.Precedes order target)
      (hgreatest : ∀ v, w.db.Kept target v → v.Precedes order target → ¬ previous.Precedes order v)
      (hid : version.id = previous.id)
      (hactive : { previous with status := some .active } ∈ w'.db.versions.rows)
      (hframe : ∀ v ∈ w.db.versions.rows, v.id ≠ target.id → v.id ≠ previous.id →
        v.isActiveOf target.componentId = false → v ∈ w'.db.versions.rows) :
      RollsBack order w target (.ok version) w'
  | conflict (hnone : ∀ v, w.db.Kept target v → ¬ v.Precedes order target) :
      RollsBack order w target (.error (noPriorVersion target.id)) w

/-- Prereleases do not matter for the rollback of the target: no other version with its
numbers comes before it, and the versions with the greatest numbers below it do not
precede one another. -/
structure PrereleaseFree (order : PrereleaseOrder) (db : Store) (target : VersionRow) :
    Prop where
  apart : ∀ v, db.Kept target v → v.numbers = target.numbers →
    ¬ order.lower v.prerelease target.prerelease
  tied : ∀ v v', db.Kept target v → db.Kept target v' → v.numbers = v'.numbers →
    v.numbers < target.numbers →
    (∀ u, db.Kept target u → u.numbers < target.numbers → u.numbers ≤ v.numbers) →
      ¬ order.lower v.prerelease v'.prerelease

/-! ## What the statement selects -/

namespace RollbackOrderLemmas

variable {db : Store} {target v : VersionRow} {choice : Nat}

/-- The rows that `_SELECT_PREVIOUS` orders. -/
def rowsBelow (db : Store) (target : VersionRow) : List VersionRow :=
  db.versions.rows.filter fun v =>
    v.componentId = target.componentId && v.id ≠ target.id &&
      v.statusDiffers .rolledBack && v.below target

/-- The rows that may come first in its order. -/
def highestBelow (db : Store) (target : VersionRow) : List VersionRow :=
  (rowsBelow db target).filter fun v => (rowsBelow db target).all fun v' => !v.below v'

theorem selectPrevious_eq : selectPrevious db target choice =
    ((highestBelow db target)[choice % (highestBelow db target).length]?).toList := rfl

theorem mem_rowsBelow (hshown : ∀ v ∈ db.versions.rows, v.Shown) :
    v ∈ rowsBelow db target ↔ db.Kept target v ∧ v.numbers < target.numbers := by
  simp only [rowsBelow, List.mem_filter, Bool.and_eq_true, decide_eq_true_eq, VersionRow.below_iff]
  constructor
  · rintro ⟨hrow, ⟨⟨hcomponent, hother⟩, hstatus⟩, hbelow⟩
    refine ⟨⟨hrow, hcomponent, hother, fun h => ?_⟩, hbelow⟩
    simp [VersionRow.statusDiffers, h] at hstatus
  · rintro ⟨hkept, hbelow⟩
    refine ⟨hkept.row, ⟨⟨hkept.component, hkept.other⟩, ?_⟩, hbelow⟩
    obtain ⟨status, hstatus⟩ := Option.ne_none_iff_exists'.mp (hshown v hkept.row).1
    rw [VersionRow.statusDiffers, hstatus]
    exact decide_eq_true fun h => hkept.status (h ▸ hstatus)

theorem mem_highestBelow :
    v ∈ highestBelow db target ↔
      v ∈ rowsBelow db target ∧ ∀ u ∈ rowsBelow db target, u.numbers ≤ v.numbers := by
  simp only [highestBelow, List.mem_filter, List.all_eq_true, Bool.not_eq_true',
    ← Bool.not_eq_true, VersionRow.below_iff, not_lt]

/-- If there is a row below the target, one of them is highest. -/
theorem highestBelow_ne_nil (h : v ∈ rowsBelow db target) : highestBelow db target ≠ [] := by
  obtain ⟨u, hu, hmax⟩ := Set.exists_max_image {u | u ∈ rowsBelow db target} VersionRow.numbers
    (List.finite_toSet _) ⟨v, h⟩
  exact List.ne_nil_of_mem (mem_highestBelow.mpr ⟨hu, hmax⟩)

/-- The database may choose each of the highest rows. -/
theorem exists_choice (h : v ∈ highestBelow db target) :
    ∃ choice, selectPrevious db target choice = [v] := by
  obtain ⟨i, hi, rfl⟩ := List.mem_iff_getElem.mp h
  refine ⟨i, ?_⟩
  rw [selectPrevious_eq, Nat.mod_eq_of_lt hi, List.getElem?_eq_getElem hi]
  rfl

/-- It chooses one of them if there is a row below the target at all. -/
theorem selectPrevious_cases (db : Store) (target : VersionRow) (choice : Nat) :
    (selectPrevious db target choice = [] ∧ rowsBelow db target = []) ∨
      ∃ v ∈ highestBelow db target, selectPrevious db target choice = [v] := by
  cases hhighest : highestBelow db target with
  | nil =>
    refine Or.inl ⟨by rw [selectPrevious_eq, hhighest]; rfl, ?_⟩
    exact List.eq_nil_iff_forall_not_mem.mpr fun v hv => highestBelow_ne_nil hv hhighest
  | cons v rest =>
    have hlt : choice % (v :: rest).length < (v :: rest).length :=
      Nat.mod_lt _ (Nat.succ_pos rest.length)
    refine Or.inr ⟨(v :: rest)[choice % (v :: rest).length], List.getElem_mem hlt, ?_⟩
    rw [selectPrevious_eq, hhighest, List.getElem?_eq_getElem hlt]
    rfl

/-! ## What the call does -/

variable {w : World}

/-- A rollback of a known version, by what the statement selects. -/
theorem rollbackVersion_selected (hshown : ∀ v ∈ w.db.versions.rows, v.Shown)
    (htarget : target ∈ w.db.versions.rows) (eventBus : Bool) (env : Env) :
    (selectPrevious w.db target env.choice = [] →
      (rollbackVersion eventBus ⟨target.id⟩ env).run w =
        (.error (noPriorVersion target.id), w)) ∧
    ∀ previous, selectPrevious w.db target env.choice = [previous] →
      ∃ published, (rollbackVersion eventBus ⟨target.id⟩ env).run w =
        (.ok (versionView { previous with status := some .active }),
          ⟨w.db.rollback target previous, published⟩) := by
  have hread : ∀ v ∈ w.db.versions.rows, toVersionResponse v = .ok (versionView v) :=
    fun v hv => toVersionResponse_eq_ok.mpr ⟨hshown v hv, rfl⟩
  have hlookup := Table.lookup_eq_singleton htarget
  constructor
  · intro hnil
    simp [rollbackVersion, hlookup, hread target htarget, hnil]
  · intro previous hprevious
    have hrow : previous ∈ w.db.versions.rows :=
      (mem_selectPrevious (hprevious ▸ List.mem_cons_self)).1
    have hreactivated : toVersionResponse { previous with status := some .active } =
        .ok (versionView { previous with status := some .active }) :=
      toVersionResponse_eq_ok.mpr ⟨⟨Option.some_ne_none _, (hshown previous hrow).2⟩, rfl⟩
    have hstore : ((w.db.markStatus .rolledBack target.id).supersedeActive
        target.componentId).markStatus .active previous.id = w.db.rollback target previous := rfl
    obtain ⟨productId, hproduct⟩ := run_eventProduct eventBus
      (w := { w with db := w.db.rollback target previous }) (w.db.version_component target htarget)
    refine ⟨w.published ++ if eventBus then [versionRolledBack productId (versionView target)
      (versionView { previous with status := some .active })] else [], ?_⟩
    simp [rollbackVersion, hlookup, hread target htarget, hprevious, hread previous hrow,
      versionView, hstore, rollback_lookup hrow, hreactivated, hproduct]

/-- A rollback to a version leaves that version active and the rest as it should. -/
theorem rollback_frame {previous : VersionRow} (hprevious : previous ∈ w.db.versions.rows) :
    { previous with status := some .active } ∈ (w.db.rollback target previous).versions.rows ∧
      ∀ v ∈ w.db.versions.rows, v.id ≠ target.id → v.id ≠ previous.id →
        v.isActiveOf target.componentId = false →
          v ∈ (w.db.rollback target previous).versions.rows := by
  constructor
  · have hlookup : (w.db.rollback target previous).versions.lookup previous.id
        = [{ previous with status := some .active }] := rollback_lookup hprevious
    exact (Table.mem_lookup.mp (hlookup ▸ List.mem_cons_self)).1
  · intro v hv hvt hvp hactive
    rw [rollback_rows]
    exact List.mem_map.mpr ⟨v, hv, rolledBackRow_of_not hvt hvp hactive⟩

/-- Going back to one of the highest rows is right if no row before the target comes after
it. -/
theorem rollsBack_ok_iff {order : PrereleaseOrder} (hshown : ∀ v ∈ w.db.versions.rows, v.Shown)
    {previous : VersionRow} (hprevious : previous ∈ highestBelow w.db target)
    (published : List DomainEvent) :
    RollsBack order w target (.ok (versionView { previous with status := some .active }))
        ⟨w.db.rollback target previous, published⟩ ↔
      ∀ v, w.db.Kept target v → v.Precedes order target → ¬ previous.Precedes order v := by
  obtain ⟨hkept, hbelow⟩ := (mem_rowsBelow hshown).mp (mem_highestBelow.mp hprevious).1
  constructor
  · intro h
    cases h with
    | reactivated hkept' _ hgreatest hid _ _ =>
      cases Table.eq_of_key_eq hkept.row hkept'.row hid
      exact hgreatest
  · intro hgreatest
    obtain ⟨hactive, hframe⟩ := rollback_frame hkept.row
    exact .reactivated hkept (Or.inl hbelow) hgreatest rfl hactive hframe

/-- If the rollback does what it should whatever the database chooses, prereleases do not
matter: each row that could be chosen shows one of the ways in which they would. -/
theorem prereleaseFree_of_rollsBack {order : PrereleaseOrder}
    (hshown : ∀ v ∈ w.db.versions.rows, v.Shown) (htarget : target ∈ w.db.versions.rows)
    {eventBus : Bool}
    (hall : ∀ env, RollsBack order w target ((rollbackVersion eventBus ⟨target.id⟩ env).run w).1
      ((rollbackVersion eventBus ⟨target.id⟩ env).run w).2) :
    PrereleaseFree order w.db target := by
  have hselected : ∀ {previous}, previous ∈ highestBelow w.db target →
      ∀ v, w.db.Kept target v → v.Precedes order target → ¬ previous.Precedes order v := by
    intro previous hprevious
    obtain ⟨choice, hchoice⟩ := exists_choice hprevious
    obtain ⟨published, hrun⟩ := (rollbackVersion_selected hshown htarget eventBus
      ⟨0, "", choice, .duckdb⟩).2 previous hchoice
    have h := hall ⟨0, "", choice, .duckdb⟩
    rw [hrun] at h
    exact (rollsBack_ok_iff hshown hprevious published).mp h
  constructor
  · intro v hkept hnumbers hlower
    have hprecedes : v.Precedes order target := Or.inr ⟨hnumbers, hlower⟩
    rcases selectPrevious_cases w.db target 0 with ⟨hnil, _⟩ | ⟨u, hu, _⟩
    · have h := hall ⟨0, "", 0, .duckdb⟩
      rw [(rollbackVersion_selected hshown htarget eventBus ⟨0, "", 0, .duckdb⟩).1 hnil] at h
      cases h with
      | conflict hnone => exact hnone v hkept hprecedes
    · have hbelow := ((mem_rowsBelow hshown).mp (mem_highestBelow.mp hu).1).2
      exact hselected hu v hkept hprecedes (Or.inl (hnumbers ▸ hbelow))
  · intro v v' hkept hkept' hnumbers hbelow hmax hlower
    have hv : v ∈ highestBelow w.db target := by
      refine mem_highestBelow.mpr ⟨(mem_rowsBelow hshown).mpr ⟨hkept, hbelow⟩, fun u hu => ?_⟩
      obtain ⟨hkeptu, hbelowu⟩ := (mem_rowsBelow hshown).mp hu
      exact hmax u hkeptu hbelowu
    exact hselected hv v' hkept' (Or.inl (hnumbers ▸ hbelow)) (Or.inr ⟨hnumbers, hlower⟩)

theorem rollsBack_of_prereleaseFree {order : PrereleaseOrder}
    (hshown : ∀ v ∈ w.db.versions.rows, v.Shown) (htarget : target ∈ w.db.versions.rows)
    (eventBus : Bool) (hfree : PrereleaseFree order w.db target) (env : Env) :
    RollsBack order w target ((rollbackVersion eventBus ⟨target.id⟩ env).run w).1
      ((rollbackVersion eventBus ⟨target.id⟩ env).run w).2 := by
  rcases selectPrevious_cases w.db target env.choice with ⟨hnil, hnone⟩ | ⟨u, hu, hselect⟩
  · rw [(rollbackVersion_selected hshown htarget eventBus env).1 hnil]
    refine .conflict fun v hkept hprecedes => ?_
    rcases hprecedes with hbelow | ⟨hnumbers, hlower⟩
    · have hv : v ∈ rowsBelow w.db target := (mem_rowsBelow hshown).mpr ⟨hkept, hbelow⟩
      rw [hnone] at hv
      exact absurd hv List.not_mem_nil
    · exact hfree.apart v hkept hnumbers hlower
  · obtain ⟨published, hrun⟩ :=
      (rollbackVersion_selected hshown htarget eventBus env).2 u hselect
    rw [hrun, rollsBack_ok_iff hshown hu published]
    obtain ⟨hubelow, humax⟩ := mem_highestBelow.mp hu
    obtain ⟨hukept, hultarget⟩ := (mem_rowsBelow hshown).mp hubelow
    have hmax : ∀ v, w.db.Kept target v → v.numbers < target.numbers → v.numbers ≤ u.numbers :=
      fun v hkept hbelow => humax v ((mem_rowsBelow hshown).mpr ⟨hkept, hbelow⟩)
    intro v hkept hprecedes hafter
    rcases hprecedes with hbelow | ⟨hnumbers, hlower⟩
    · rcases hafter with hlt | ⟨heq, hlower⟩
      · exact absurd hlt (not_lt_of_ge (hmax v hkept hbelow))
      · exact hfree.tied u v hukept hkept heq hultarget hmax hlower
    · exact hfree.apart v hkept hnumbers hlower

end RollbackOrderLemmas

open RollbackOrderLemmas

/-- In every reachable store, a rollback goes back to a version that no other one before its
target comes after, whichever row the database answers, exactly if prereleases do not matter
for the target. No component has two active versions there. -/
theorem rollback_predecessor_iff (order : PrereleaseOrder) (eventBus : Bool)
    (requests : List Request) (target : VersionRow)
    (htarget : target ∈ (run World.init requests).db.versions.rows) :
    let w := run World.init requests
    (w.db.activeVersions target.componentId).length ≤ 1 ∧
      ((∀ env, RollsBack order w target ((rollbackVersion eventBus ⟨target.id⟩ env).run w).1
        ((rollbackVersion eventBus ⟨target.id⟩ env).run w).2) ↔
          PrereleaseFree order w.db target) := by
  intro w
  have hshown : ∀ v ∈ w.db.versions.rows, v.Shown := shown_reachable requests
  have hactive : (w.db.activeVersions target.componentId).length ≤ 1 :=
    atMostOneActive_run (w := World.init) atMostOneActive_empty requests target.componentId
  refine ⟨hactive, fun hall => ?_, fun hfree env => ?_⟩
  · exact prereleaseFree_of_rollsBack hshown htarget hall
  · exact rollsBack_of_prereleaseFree hshown htarget eventBus hfree env

/-- Where no version has a prerelease, none matters. -/
theorem rollback_predecessor_releases :
    ∃ target ∈ Sample.versioned.db.versions.rows, target.id = Sample.id 21 ∧
      ∀ env, RollsBack .coarse Sample.versioned target
        ((rollbackVersion true ⟨target.id⟩ env).run Sample.versioned).1
        ((rollbackVersion true ⟨target.id⟩ env).run Sample.versioned).2 := by
  obtain ⟨target, htarget, hid, _⟩ :=
    Table.lookup_eq_singleton_of_mem_keys (t := Sample.versioned.db.versions) (k := Sample.id 21)
      (by decide +kernel)
  have hreleases : ∀ v ∈ Sample.versioned.db.versions.rows, orNone v.prerelease = none := by
    decide +kernel
  refine ⟨target, htarget, hid, ?_⟩
  refine (rollback_predecessor_iff .coarse true _ target htarget).2.mpr ⟨?_, ?_⟩
  · exact fun v hkept _ hlower => hlower.1 (hreleases v hkept.row)
  · exact fun v _ hkept _ _ _ _ hlower => hlower.1 (hreleases v hkept.row)

namespace Sample

/-- `api` gets the version 1.2.0-rc.1 and then 1.2.0. -/
def candidates : List Request :=
  [(.createVersion true
      { api12 with prerelease := some "rc.1", prerelease_length := by decide }, env 20),
   (.createVersion true api12, env 21)]

/-- The product with these versions. -/
def withCandidate : World := run World.init (setup ++ candidates)

end Sample

/-- The rollback of 1.2.0 ends in a conflict, although 1.2.0-rc.1 comes before it. -/
theorem rollback_ignores_prerelease :
    ∃ target ∈ Sample.withCandidate.db.versions.rows,
      ((rollbackVersion true ⟨target.id⟩ (Sample.env 31)).run Sample.withCandidate).1 =
          .error (noPriorVersion target.id) ∧
        ¬ RollsBack .coarse Sample.withCandidate target
          ((rollbackVersion true ⟨target.id⟩ (Sample.env 31)).run Sample.withCandidate).1
          ((rollbackVersion true ⟨target.id⟩ (Sample.env 31)).run Sample.withCandidate).2 := by
  let candidate : VersionRow :=
    ⟨Sample.id 20, Sample.id 11, 1, 2, 0, some "rc.1", some .superseded, (Sample.env 20).now⟩
  let target : VersionRow :=
    ⟨Sample.id 21, Sample.id 11, 1, 2, 0, none, some .active, (Sample.env 21).now⟩
  have hcandidate : candidate ∈ Sample.withCandidate.db.versions.rows := by decide +kernel
  have htarget : target ∈ Sample.withCandidate.db.versions.rows := by decide +kernel
  have hnil : selectPrevious Sample.withCandidate.db target (Sample.env 31).choice = [] := by
    decide +kernel
  have hshown : ∀ v ∈ Sample.withCandidate.db.versions.rows, v.Shown := shown_reachable _
  refine ⟨target, htarget, ?_⟩
  rw [(rollbackVersion_selected hshown htarget true (Sample.env 31)).1 hnil]
  refine ⟨rfl, fun h => ?_⟩
  cases h with
  | conflict hnone =>
    exact hnone candidate ⟨hcandidate, rfl, by decide, by decide⟩
      (Or.inr ⟨rfl, by decide, by decide⟩)

end LavsCore
