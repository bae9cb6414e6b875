import LavsCore.Invariants.Growth

/-!
# The history of versions

Every run keeps at most one version of a component active (`atMostOneActive_run`). A run
whose calls are all answered keeps exactly one active in every component that has a
version (`exactlyOneActive_run`), so a component that has been released is in the active
set of every later cut (`released_is_active`). `version_history` is the whole statement.
-/

namespace LavsCore

namespace Store

/-- Every component with versions has exactly one active version. -/
def ExactlyOneActive (db : Store) : Prop :=
  ∀ v ∈ db.versions.rows, (db.activeVersions v.componentId).length = 1

/-- No component has two active versions. -/
def AtMostOneActive (db : Store) : Prop := ∀ c, (db.activeVersions c).length ≤ 1

theorem AtMostOneActive.unique {db : Store} (h : db.AtMostOneActive) {c : String}
    {v v' : VersionRow} (hv : v ∈ db.activeVersions c) (hv' : v' ∈ db.activeVersions c) :
    v = v' := by
  obtain ⟨a, ha⟩ := List.length_eq_one_iff.mp
    (le_antisymm (h c) (List.length_pos_of_mem hv))
  rw [ha, List.mem_singleton] at hv hv'
  exact hv.trans hv'.symm

end Store

open Store GrowthLemmas

namespace VersionHistoryLemmas

variable {db db' : Store} {ok : Prop}

theorem cut_versions {row : ReleaseRow} {rows : List ReleaseComponentRow} {db₁ : Store}
    (hinsert : db.insertRelease row = .ok db₁) (hmanifest : insertManifest rows db₁ = .ok db') :
    db'.versions = db.versions := (cut_frame hinsert hmanifest).2.2.1

theorem activeVersions_version {row : VersionRow} (hactive : row.status = some .active)
    (hinsert : (db.supersedeActive row.componentId).insertVersion row = .ok db') (c : String) :
    db'.activeVersions c = if c = row.componentId then [row] else db.activeVersions c := by
  rw [activeVersions_insert (insertVersion_ok hinsert)]
  rcases eq_or_ne c row.componentId with rfl | hne
  · simp [activeVersions_supersede_self, VersionRow.isActiveOf, hactive]
  · simp [activeVersions_supersede_of_ne db hne, VersionRow.isActiveOf, hne, Ne.symm hne]

theorem activeVersions_rollback {target previous : VersionRow}
    (htarget : target ∈ db.versions.rows) (hprevious : previous ∈ db.versions.rows)
    (hcomponent : previous.componentId = target.componentId) (c : String) :
    (c = target.componentId → ((db.rollback target previous).activeVersions c).length = 1) ∧
      (c ≠ target.componentId →
        (db.rollback target previous).activeVersions c = db.activeVersions c) := by
  -- The predecessor, as the two updates before its reactivation leave it.
  obtain ⟨p, hp, hid, hpc⟩ : ∃ p ∈ ((db.markStatus .rolledBack target.id).supersedeActive
      target.componentId).versions.rows,
      p.id = previous.id ∧ p.componentId = target.componentId := by
    have hfixed : ((db.markStatus .rolledBack target.id).supersedeActive
        target.componentId).versions.rows.map VersionRow.fixed =
          db.versions.rows.map VersionRow.fixed := by
      rw [supersedeActive_eq, setStatus_fixed, markStatus_eq, setStatus_fixed]
    obtain ⟨p, hp, hfix⟩ := exists_of_fixed_eq hfixed.symm hprevious
    exact ⟨p, hp, fixed_id hfix, (fixed_componentId hfix).trans hcomponent⟩
  rw [Store.rollback, ← hid]
  constructor
  · rintro rfl
    have hnone := activeVersions_supersede_self (db.markStatus .rolledBack target.id)
      target.componentId
    have hmark := activeVersions_mark_active hp (hpc ▸ hnone)
    rw [hpc] at hmark
    rw [hmark]
    rfl
  · intro hne
    rw [activeVersions_mark_of_ne hp (by rwa [hpc]), activeVersions_supersede_of_ne _ hne,
      activeVersions_mark_of_ne htarget hne]

end VersionHistoryLemmas

open VersionHistoryLemmas

/-! ## One step -/

section Step

variable {db db' : Store} {ok : Prop} {env : Env}

theorem atMostOneActive_step (hinv : db.AtMostOneActive) (h : Change ok env db db') :
    db'.AtMostOneActive := by
  have hsame : ∀ {db' : Store}, db'.versions = db.versions → db'.AtMostOneActive := by
    intro db' heq c
    rw [activeVersions_congr heq]
    exact hinv c
  cases h with
  | unchanged => exact hinv
  | product _ hinsert => exact hsame (insertProduct_ok hinsert).versions
  | component hinsert => exact hsame (insertComponent_ok hinsert).versions
  | superseded componentId _ =>
    intro c
    rcases eq_or_ne c componentId with rfl | hne
    · simp [activeVersions_supersede_self]
    · rw [activeVersions_supersede_of_ne db hne]
      exact hinv c
  | version hactive hinsert =>
    intro c
    rw [activeVersions_version hactive hinsert]
    split
    · exact Nat.le_refl 1
    · exact hinv c
  | rollback htarget hprevious hcomponent =>
    intro c
    obtain ⟨hself, hother⟩ := activeVersions_rollback htarget hprevious hcomponent c
    rcases eq_or_ne c _ with hc | hne
    · exact Nat.le_of_eq (hself hc)
    · rw [hother hne]
      exact hinv c
  | dependency _ hinsert => exact hsame (insertDependency_ok hinsert).versions
  | removal _ => exact hsame rfl
  | cut _ _ _ hinsert _ _ hmanifest => exact hsame (cut_versions hinsert hmanifest)

theorem exactlyOneActive_step (hinv : db.ExactlyOneActive) (h : Change True env db db') :
    db'.ExactlyOneActive := by
  have hsame : ∀ {db' : Store}, db'.versions = db.versions → db'.ExactlyOneActive := by
    intro db' heq v hv
    rw [activeVersions_congr heq]
    exact hinv v (heq ▸ hv)
  cases h with
  | unchanged => exact hinv
  | product _ hinsert => exact hsame (insertProduct_ok hinsert).versions
  | component hinsert => exact hsame (insertComponent_ok hinsert).versions
  | superseded _ hfailed => exact absurd trivial hfailed
  | version hactive hinsert =>
    intro v hv
    rw [activeVersions_version hactive hinsert]
    split
    · rfl
    · next hne =>
      -- The row is not the new one, so its component had a version before.
      rw [(insertVersion_ok hinsert).rows, List.mem_append, List.mem_singleton] at hv
      rcases hv with hv | rfl
      · rw [supersedeActive_eq] at hv
        obtain ⟨v₀, hv₀, heq⟩ := exists_of_fixed_eq (setStatus_fixed db _ _) hv
        rw [← fixed_componentId heq]
        exact hinv v₀ hv₀
      · exact absurd rfl hne
  | @rollback target previous htarget hprevious hcomponent =>
    intro v hv
    obtain ⟨hself, hother⟩ := activeVersions_rollback htarget hprevious hcomponent v.componentId
    rcases eq_or_ne v.componentId target.componentId with hc | hne
    · exact hself hc
    · rw [hother hne]
      obtain ⟨v₀, hv₀, heq⟩ := exists_of_fixed_eq (rollback_fixed db target previous) hv
      rw [← fixed_componentId heq]
      exact hinv v₀ hv₀
  | dependency _ hinsert => exact hsame (insertDependency_ok hinsert).versions
  | removal _ => exact hsame rfl
  | cut _ _ _ hinsert _ _ hmanifest => exact hsame (cut_versions hinsert hmanifest)

end Step

/-! ## Whole runs -/

theorem atMostOneActive_empty : Store.empty.AtMostOneActive := fun _ => Nat.zero_le 1

theorem atMostOneActive_run {w : World} (h : w.db.AtMostOneActive) (requests : List Request) :
    (run w requests).db.AtMostOneActive :=
  run_invariant (fun _ _ _ => atMostOneActive_step) h requests

theorem exactlyOneActive_empty : Store.empty.ExactlyOneActive :=
  fun _ h => absurd h List.not_mem_nil

theorem exactlyOneActive_run {w : World} (h : w.db.ExactlyOneActive) {requests : List Request}
    (hall : AllAnswered w requests) : (run w requests).db.ExactlyOneActive :=
  answered_invariant (fun _ _ _ => exactlyOneActive_step) h hall

section Released

variable {db : Store}

/-- A component with a version in a manifest of the product is in its active set. -/
theorem released_is_active (hactive : db.ExactlyOneActive) (hsound : db.ManifestSound)
    {rc : ReleaseComponentRow} (hrc : rc ∈ db.releaseComponents.rows) {r : ReleaseRow}
    (hr : r ∈ db.releases.rows) (hid : r.id = rc.releaseId) :
    rc.componentId ∈ (db.activeComponents r.productId).map ActiveComponent.componentId := by
  obtain ⟨r', hr', hid', ⟨c, hc, hcid, hproduct⟩, v, hv, _, hvc⟩ := hsound rc hrc
  cases Table.eq_of_key_eq hr hr' (hid.trans hid'.symm)
  obtain ⟨v', hv'⟩ := List.length_eq_one_iff.mp (hactive v hv)
  rw [List.mem_map]
  refine ⟨activeComponent c v', mem_activeComponents.mpr ⟨c, hc, hproduct, v', ?_, rfl⟩, hcid⟩
  rw [hcid, ← hvc, hv']
  exact List.mem_cons_self

/-- The removal branch of the derivation is not taken. -/
theorem removedAny_eq_false (hactive : db.ExactlyOneActive) (hsound : db.ManifestSound)
    (productId : String) :
    removedAny (Dict.ofList (db.previousManifest productId)) (db.activeComponents productId) =
      false := by
  rw [removedAny, List.any_eq_false]
  intro componentId hkey
  rw [decide_eq_true_eq, not_not]
  obtain ⟨⟨_, tuple⟩, hmem, rfl⟩ := List.mem_map.mp (Dict.mem_keys_ofList.mp hkey)
  unfold Store.previousManifest at hmem
  split at hmem
  · next release hlatest =>
    obtain ⟨hrelease, rfl⟩ := latestRelease_mem hlatest
    obtain ⟨rc, hrc, hid, rfl, _⟩ := mem_priorManifest.mp hmem
    exact released_is_active hactive hsound hrc hrelease hid.symm
  · exact absurd hmem List.not_mem_nil

end Released

/-- In a run from the empty store whose calls are all answered: every component with a
version has exactly one active version; no version row goes away or changes in a column
besides its status; a component that has been in a manifest is in every later active
set; and no cut sees a removed component. -/
theorem version_history (before after : List Request)
    (h : AllAnswered World.init (before ++ after)) :
    let db := (run World.init before).db
    let db' := (run World.init (before ++ after)).db
    (∀ v ∈ db'.versions.rows, (db'.activeVersions v.componentId).length = 1) ∧
      db.versions.rows.map VersionRow.fixed <+: db'.versions.rows.map VersionRow.fixed ∧
      (∀ rc ∈ db.releaseComponents.rows, ∀ r ∈ db.releases.rows, r.id = rc.releaseId →
        rc.componentId ∈
          (db'.activeComponents r.productId).map ActiveComponent.componentId) ∧
      ∀ productId, removedAny (Dict.ofList (db'.previousManifest productId))
        (db'.activeComponents productId) = false := by
  intro db db'
  have hactive : db'.ExactlyOneActive := exactlyOneActive_run exactlyOneActive_empty h
  have hsound : db'.ManifestSound := manifestSound_run manifestSound_empty (before ++ after)
  have hext : db.Extends db' := by
    have hrun : db' = (run (run World.init before) after).db := by
      rw [← run_append]
    rw [hrun]
    exact extends_run (run World.init before) after
  refine ⟨hactive, hext.versions, ?_, removedAny_eq_false hactive hsound⟩
  intro rc hrc r hr hid
  obtain ⟨new, hnew, _⟩ := hext.manifest
  exact released_is_active hactive hsound (hnew ▸ List.mem_append_left new hrc)
    (hext.releases.subset hr) hid

/-- Two versions, a cut, a rollback and another cut. -/
theorem version_history_sample :
    AllAnswered World.init (Sample.setup ++ Sample.versions ++ Sample.releases) ∧
      ∀ v ∈ (run World.init (Sample.setup ++ Sample.versions ++ Sample.releases)).db.versions.rows,
        ((run World.init (Sample.setup ++ Sample.versions ++ Sample.releases)).db.activeVersions
          v.componentId).length = 1 := by
  have hall : AllAnswered World.init (Sample.setup ++ Sample.versions ++ Sample.releases) := by
    decide +kernel
  exact ⟨hall, (version_history (Sample.setup ++ Sample.versions) Sample.releases hall).1⟩

end LavsCore
