import LavsCore.Constellation.Projection
import LavsCore.Invariants.CreationOrder

/-!
# Reopening a release

The ledger of the workspace reopens a frozen release by moving the meridian to the latest
tick that the release captured (`reopen`). The manifest next to it is derived from the time
axis alone, so what it shows is not stored with the release.

`reopen_shows_frozen`: after a run that rolls nothing back it is the frozen manifest all the
same, row by row, for every release of the ledger and whatever was created after it.
-/

namespace LavsCore

open Store

namespace Projection

/-! ## The workspace -/

/-- `clamp` of `useScrub`. -/
def clamp (value maxTick : Int) : Int := max 0 (min maxTick value)

/-- `reopen`: where the meridian moves, if it moves. -/
def reopen (axis : TimeAxis) (release : ReleaseResponseModel) : Option Int :=
  let ticks := (release.components.map fun component => axis.tickOf component.versionId).filter
    fun tick => tick ≥ 0
  ticks.max?.map fun tick => clamp tick axis.maxTick

structure FrozenManifestEntry where
  componentId : String
  name : String
  versionId : String
  version : String

/-- `frozenManifestOf`. -/
def frozenManifestOf (release : ReleaseResponseModel) : List FrozenManifestEntry :=
  release.components.map fun component =>
    ⟨component.componentId, component.name, component.versionId, component.version⟩

/-- A component, its name and the version that is pinned for it. -/
abbrev PinnedRow := String × String × String

/-- What a derived manifest pins. -/
def derivedPins (manifest : List ManifestEntry) : List PinnedRow :=
  manifest.filterMap fun entry =>
    entry.version.map fun version => (entry.component.id, entry.component.name, version.id)

/-- What a frozen manifest pins. -/
def frozenPins (entries : List FrozenManifestEntry) : List PinnedRow :=
  entries.map fun entry => (entry.componentId, entry.name, entry.versionId)

/-- The client reads the creation times in the order of the versions. -/
def Clocked (dateParse : String → Int) (db : Store) : Prop :=
  db.created.Pairwise fun u v => createdTime dateParse u < createdTime dateParse v

namespace ReopenLemmas

open ProjectionLemmas CreationOrderLemmas

variable {db : Store} {product : ProductRow} {dateParse : String → Int}

/-! ## Ticks of versions -/

/-- The tick of a version of the product, wherever it is listed. -/
theorem tickOf_versionOf {v : VersionRow} (hv : v ∈ db.versionsOf product.id) :
    createdTime dateParse v ∈ sortedTimes (axisEntries dateParse (db.timelineView product)) ∧
      (buildTimeAxis dateParse (db.timelineView product)).tickOf v.id =
        ((sortedTimes (axisEntries dateParse (db.timelineView product))).idxOf
          (createdTime dateParse v) : Int) := by
  obtain ⟨hrow, c, hc, hid⟩ := mem_versionsOf.mp hv
  exact tickOf_version dateParse hc (mem_versionsOfComponent.mpr ⟨hrow, hid.symm⟩)

theorem tickOf_le_iff {u v : VersionRow} (hu : u ∈ db.versionsOf product.id)
    (hv : v ∈ db.versionsOf product.id) :
    (buildTimeAxis dateParse (db.timelineView product)).tickOf u.id ≤
        (buildTimeAxis dateParse (db.timelineView product)).tickOf v.id ↔
      createdTime dateParse u ≤ createdTime dateParse v := by
  obtain ⟨htime, htick⟩ := tickOf_versionOf hu
  obtain ⟨htime', htick'⟩ := tickOf_versionOf hv
  rw [htick, htick', Int.ofNat_le]
  exact idxOf_le_idxOf_iff (sortedTimes_sorted _) htime htime'

theorem tickOf_range {v : VersionRow} (hv : v ∈ db.versionsOf product.id) :
    0 ≤ (buildTimeAxis dateParse (db.timelineView product)).tickOf v.id ∧
      (buildTimeAxis dateParse (db.timelineView product)).tickOf v.id ≤
        (buildTimeAxis dateParse (db.timelineView product)).maxTick := by
  obtain ⟨htime, htick⟩ := tickOf_versionOf hv
  have hlt := List.idxOf_lt_length_iff.mpr htime
  have hmax : (buildTimeAxis dateParse (db.timelineView product)).maxTick =
      max 0 (((sortedTimes (axisEntries dateParse (db.timelineView product))).length : Int) - 1) :=
    rfl
  rw [htick, hmax]
  omega

/-! ## What a past pins -/

/-- Of the versions in the order of creation the newest of a component has the greatest time. -/
theorem eq_or_lt_newestVersion {past : List VersionRow}
    (hclock : past.Pairwise fun u v => createdTime dateParse u < createdTime dateParse v)
    {c : String} {v : VersionRow} (h : newestVersion past c = some v) {u : VersionRow}
    (hu : u ∈ past) (huc : u.componentId = c) :
    u = v ∨ createdTime dateParse u < createdTime dateParse v := by
  obtain ⟨rows, hrows⟩ := List.getLast?_eq_some_iff.mp h
  have hmem : u ∈ past.filter fun v => v.componentId = c :=
    List.mem_filter.mpr ⟨hu, decide_eq_true huc⟩
  have hsorted := hclock.filter fun v => v.componentId = c
  rw [hrows, List.pairwise_append] at hsorted
  rw [hrows, List.mem_append, List.mem_singleton] at hmem
  rcases hmem with hmem | rfl
  · exact Or.inr (hsorted.2.2 u hmem v (List.mem_singleton_self v))
  · exact Or.inl rfl

theorem ne_of_newestVersion_eq_none {past : List VersionRow} {c : String}
    (h : newestVersion past c = none) {u : VersionRow} (hu : u ∈ past) : u.componentId ≠ c := by
  rw [newestVersion, List.getLast?_eq_none_iff, List.filter_eq_nil_iff] at h
  exact fun huc => h u hu (decide_eq_true huc)

/-- The tick divides the versions of the product into the past and the rest. -/
def Divides (dateParse : String → Int) (db : Store) (product : ProductRow)
    (past : List VersionRow) (tick : Int) : Prop :=
  ∀ u ∈ db.versionsOf product.id,
    ((buildTimeAxis dateParse (db.timelineView product)).tickOf u.id ≤ tick ↔ u.fixed ∈ past)

/-- At such a tick a component pins its newest version of the past. -/
theorem pinnedFor_of_divides {past : List VersionRow} {tick : Int}
    (hclock : Clocked dateParse db) (hpast : past <+: db.created)
    (hdivides : Divides dateParse db product past tick) {c : ComponentRow}
    (hc : c ∈ db.componentsOf product.id) :
    (pinnedFor (db.componentView c) (buildTimeAxis dateParse (db.timelineView product))
        tick).map VersionResponseModel.id = (newestVersion past c.id).map VersionRow.id := by
  have hof : ∀ {u}, u ∈ db.versionsOfComponent c.id → u ∈ db.versionsOf product.id := by
    intro u hu
    obtain ⟨hrow, hid⟩ := mem_versionsOfComponent.mp hu
    exact mem_versionsOf.mpr ⟨hrow, c, hc, hid.symm⟩
  rw [pinnedFor_eq]
  cases hnewest : newestVersion past c.id with
  | none =>
    have hnone : ((db.componentView c).versions.filter fun v =>
        Reached (buildTimeAxis dateParse (db.timelineView product)) tick v) = [] := by
      refine List.filter_eq_nil_iff.mpr fun version hversion hreached => ?_
      obtain ⟨u, hu, rfl⟩ := List.mem_map.mp hversion
      have hmem := (hdivides u (hof hu)).mp (of_decide_eq_true hreached).2
      exact ne_of_newestVersion_eq_none hnewest hmem (mem_versionsOfComponent.mp hu).2
    rw [hnone]
    rfl
  | some v =>
    obtain ⟨hv, hvc⟩ := mem_of_newestVersion hnewest
    obtain ⟨u, hu, rfl⟩ := mem_created.mp (hpast.subset hv)
    have huc : u ∈ db.versionsOfComponent c.id := mem_versionsOfComponent.mpr ⟨hu, hvc⟩
    have hlast : lastMax (fun v : VersionResponseModel =>
        (buildTimeAxis dateParse (db.timelineView product)).tickOf v.id)
        ((db.componentView c).versions.filter fun v =>
          Reached (buildTimeAxis dateParse (db.timelineView product)) tick v) =
          some (versionView u) := by
      refine lastMax_of_forall_lt ?_ fun version hversion hne => ?_
      · refine List.mem_filter.mpr ⟨List.mem_map_of_mem huc, decide_eq_true ?_⟩
        exact ⟨(tickOf_range (hof huc)).1, (hdivides u (hof huc)).mpr hv⟩
      · obtain ⟨hversion, hreached⟩ := List.mem_filter.mp hversion
        obtain ⟨x, hx, rfl⟩ := List.mem_map.mp hversion
        have hmem := (hdivides x (hof hx)).mp (of_decide_eq_true hreached).2
        rcases eq_or_lt_newestVersion (hclock.sublist hpast.sublist) hnewest hmem
          (mem_versionsOfComponent.mp hx).2 with heq | hlt
        · have hid : x.id = u.id := GrowthLemmas.fixed_id heq
          cases Table.eq_of_key_eq (mem_versionsOfComponent.mp hx).1 hu hid
          exact absurd rfl hne
        · exact not_le.mp fun hle => absurd hlt
            (not_lt_of_ge ((tickOf_le_iff (hof huc) (hof hx)).mp hle))
    rw [hlast]
    rfl

/-! ## What a release froze -/

/-- The manifest of a release shows what its past pins. -/
theorem mem_frozenPins {row : ReleaseRow} {past : List VersionRow} (h : db.Freezes row past)
    {componentId name versionId : String} :
    (componentId, name, versionId) ∈ frozenPins (frozenManifestOf (db.readView row)) ↔
      ∃ c ∈ db.componentsOf row.productId, c.id = componentId ∧ c.name = name ∧
        (newestVersion past componentId).map VersionRow.id = some versionId := by
  have hrow : ∀ {rc : ReleaseComponentRow}, rc ∈ db.releaseComponents.rows ∧
      rc.releaseId = row.id ↔ rc ∈ db.releaseComponents.rows.filter (·.releaseId = row.id) := by
    simp
  simp only [frozenPins, frozenManifestOf, List.map_map]
  show _ ∈ List.map _ (List.map toManifestComponent (db.manifestOf [row.id])) ↔ _
  rw [List.map_map, List.mem_map]
  constructor
  · rintro ⟨e, he, heq⟩
    obtain ⟨rc, hrc, hid, c, hc, hcid, v, hv, hvid, rfl⟩ :=
      mem_manifestEntries.mp (mem_orderBy.mp he)
    obtain ⟨rfl, rfl, rfl⟩ : rc.componentId = componentId ∧ c.name = name ∧
      rc.versionId = versionId := by simpa [manifestEntry, toManifestComponent] using heq
    obtain ⟨⟨c', hc', hcid', hproduct⟩, u, hnewest, huid⟩ := (h.pins _ _).mp
      ⟨rc, hrow.mp ⟨hrc, List.mem_singleton.mp hid⟩, rfl, rfl⟩
    cases Table.eq_of_key_eq hc' hc (hcid'.trans hcid.symm)
    exact ⟨c, mem_componentsOf.mpr ⟨hc, hproduct⟩, hcid, rfl, by rw [hnewest, ← huid]; rfl⟩
  · rintro ⟨c, hc, rfl, rfl, hnewest⟩
    obtain ⟨hcrow, hproduct⟩ := mem_componentsOf.mp hc
    obtain ⟨u, hu, rfl⟩ := Option.map_eq_some_iff.mp hnewest
    obtain ⟨rc, hrc, hrcid, hrcv⟩ := (h.pins c.id u.id).mpr ⟨⟨c, hcrow, rfl, hproduct⟩, u, hu, rfl⟩
    obtain ⟨hrc, hid⟩ := hrow.mpr hrc
    obtain ⟨v, hv, rfl⟩ := mem_created.mp (h.past_created.subset (mem_of_newestVersion hu).1)
    refine ⟨manifestEntry rc c v, mem_orderBy.mpr (mem_manifestEntries.mpr ⟨rc, hrc,
      List.mem_singleton.mpr hid, c, hcrow, hrcid.symm, v, hv, hrcv.symm, rfl⟩), ?_⟩
    show (rc.componentId, c.name, rc.versionId) = _
    rw [hrcid, hrcv]

theorem manifestEntries_componentIds (hsound : db.ManifestSound) (id : String) :
    (db.manifestEntries [id]).map ManifestEntry.componentId =
      (db.releaseComponents.rows.filter fun rc => rc.releaseId = id).map
        ReleaseComponentRow.componentId := by
  have hone : ∀ rc ∈ db.releaseComponents.rows,
      (db.joinManifest rc).map ManifestEntry.componentId = [rc.componentId] := by
    intro rc hrc
    obtain ⟨_, _, _, ⟨c, hc, hcid, _⟩, v, hv, hvid, _⟩ := hsound rc hrc
    rw [joinManifest, ← hcid, Table.lookup_eq_singleton hc, ← hvid, Table.lookup_eq_singleton hv]
    simp [manifestEntry, hcid]
  simp only [manifestEntries, List.mem_singleton]
  rw [List.map_flatMap, ← List.flatMap_singleton' (List.map _ _), List.flatMap_map]
  exact List.flatMap_congr fun rc hrc => hone rc (List.mem_of_mem_filter hrc)

/-- A manifest has one entry for a component. -/
theorem manifestEntries_nodup (hsound : db.ManifestSound) (id : String) :
    (db.manifestEntries [id]).Nodup := by
  refine List.Nodup.of_map ManifestEntry.componentId ?_
  rw [manifestEntries_componentIds hsound]
  have hkeys := db.releaseComponents.nodup_keys.sublist
    ((List.filter_sublist (p := fun rc => decide (rc.releaseId = id))).map ReleaseComponentRow.key)
  have hpair : ∀ rc ∈ db.releaseComponents.rows.filter (fun rc => rc.releaseId = id),
      rc.key = (id, rc.componentId) := fun rc hrc =>
    congrArg (fun releaseId => (releaseId, rc.componentId)) (of_decide_eq_true
      (List.mem_filter.mp hrc).2)
  rw [List.map_congr_left hpair] at hkeys
  refine List.Nodup.of_map (fun componentId => (id, componentId)) ?_
  rwa [List.map_map]

/-- Both manifests are listed by name, and then by id. -/
def listed (row : PinnedRow) : String ×ₗ String := toLex (row.2.1, row.1)

theorem frozenPins_strict (hsound : db.ManifestSound) (row : ReleaseRow) :
    (frozenPins (frozenManifestOf (db.readView row))).Pairwise fun a b => listed a < listed b := by
  have hstrict : (db.manifestOf [row.id]).Pairwise fun a b : LavsCore.ManifestEntry =>
      toLex (a.name, a.componentId) < toLex (b.name, b.componentId) := by
    refine orderBy_strict (manifestEntries_nodup hsound row.id) fun a ha b hb hkey => ?_
    refine manifestEntries_inj ha hb ?_ (congrArg (fun k => (ofLex k).2) hkey)
    obtain ⟨_, _, hid, _, _, _, _, _, _, rfl⟩ := mem_manifestEntries.mp ha
    obtain ⟨_, _, hid', _, _, _, _, _, _, rfl⟩ := mem_manifestEntries.mp hb
    exact (List.mem_singleton.mp hid).trans (List.mem_singleton.mp hid').symm
  simp only [frozenPins, frozenManifestOf, Store.readView, toReleaseResponse, List.map_map]
  exact List.pairwise_map.mpr hstrict

/-- What the components of a product pin, as the manifest lists it. -/
theorem derivedPins_strict (axis : TimeAxis) (tick : Int) :
    (derivedPins (deriveManifest (db.timelineView product) axis tick)).Pairwise
      fun a b => listed a < listed b := by
  have hstrict : (db.componentsOf product.id).Pairwise fun a b : ComponentRow =>
      toLex (a.name, a.id) < toLex (b.name, b.id) := by
    refine orderBy_strict (db.components.nodup_keys.of_map.filter _) fun a ha b hb hkey => ?_
    exact Table.eq_of_key_eq (List.mem_of_mem_filter ha) (List.mem_of_mem_filter hb)
      (congrArg (fun k => (ofLex k).2) hkey)
  rw [derivedPins, deriveManifest, Store.timelineView, List.pairwise_filterMap, List.pairwise_map,
    List.pairwise_map]
  refine hstrict.imp fun hlt => ?_
  rintro r hr r' hr'
  obtain ⟨_, _, rfl⟩ := Option.map_eq_some_iff.mp hr
  obtain ⟨_, _, rfl⟩ := Option.map_eq_some_iff.mp hr'
  exact hlt

theorem mem_derivedPins {past : List VersionRow} {tick : Int} (hclock : Clocked dateParse db)
    (hpast : past <+: db.created) (hdivides : Divides dateParse db product past tick)
    {componentId name versionId : String} :
    (componentId, name, versionId) ∈ derivedPins (deriveManifest (db.timelineView product)
        (buildTimeAxis dateParse (db.timelineView product)) tick) ↔
      ∃ c ∈ db.componentsOf product.id, c.id = componentId ∧ c.name = name ∧
        (newestVersion past componentId).map VersionRow.id = some versionId := by
  simp only [derivedPins, deriveManifest, Store.timelineView, List.map_map, List.filterMap_map,
    List.mem_filterMap]
  constructor
  · rintro ⟨c, hc, hpinned⟩
    obtain ⟨version, hversion, hrow⟩ := Option.map_eq_some_iff.mp hpinned
    obtain ⟨rfl, rfl, rfl⟩ : c.id = componentId ∧ c.name = name ∧ version.id = versionId := by
      simpa [componentView, toComponentWithVersions] using hrow
    refine ⟨c, hc, rfl, rfl, ?_⟩
    rw [← pinnedFor_of_divides hclock hpast hdivides hc]
    exact Option.map_eq_some_iff.mpr ⟨version, hversion, rfl⟩
  · rintro ⟨c, hc, rfl, rfl, hnewest⟩
    rw [← pinnedFor_of_divides hclock hpast hdivides hc] at hnewest
    obtain ⟨version, hversion, rfl⟩ := Option.map_eq_some_iff.mp hnewest
    exact ⟨c, hc, Option.map_eq_some_iff.mpr ⟨version, hversion, rfl⟩⟩

/-- Every version of the past of a release is of a component that the release pins. -/
theorem exists_pinned {row : ReleaseRow} {past : List VersionRow} (h : db.Freezes row past)
    {u : VersionRow} (hu : u ∈ db.versionsOf row.productId) (hpast : u.fixed ∈ past) :
    ∃ v ∈ db.versionsOf row.productId, newestVersion past u.componentId = some v.fixed ∧
      ∃ component ∈ (db.readView row).components, component.versionId = v.id := by
  obtain ⟨hrow, c, hc, hid⟩ := mem_versionsOf.mp hu
  cases hnewest : newestVersion past u.componentId with
  | none => exact absurd rfl (ne_of_newestVersion_eq_none hnewest (u := u.fixed) hpast)
  | some w =>
    obtain ⟨hw, hwc⟩ := mem_of_newestVersion hnewest
    obtain ⟨v, hv, rfl⟩ := mem_created.mp (h.past_created.subset hw)
    have hvc : v.componentId = u.componentId := hwc
    refine ⟨v, mem_versionsOf.mpr ⟨hv, c, hc, hid.trans hvc.symm⟩, rfl, ?_⟩
    have hmem : (u.componentId, c.name, v.id) ∈ frozenPins (frozenManifestOf (db.readView row)) :=
      (mem_frozenPins h).mpr ⟨c, hc, hid, rfl, by rw [hnewest]; rfl⟩
    simp only [frozenPins, frozenManifestOf, List.map_map, List.mem_map] at hmem
    obtain ⟨component, hcomponent, heq⟩ := hmem
    exact ⟨component, hcomponent, congrArg (fun r : PinnedRow => r.2.2) heq⟩

/-- Every entry of a release pins a version of its past. -/
theorem exists_past {row : ReleaseRow} {past : List VersionRow} (h : db.Freezes row past)
    {component : ReleaseComponentResponseModel}
    (hcomponent : component ∈ (db.readView row).components) :
    ∃ v ∈ db.versionsOf row.productId, v.fixed ∈ past ∧ component.versionId = v.id := by
  have hmem : (component.componentId, component.name, component.versionId) ∈
      frozenPins (frozenManifestOf (db.readView row)) := by
    simp only [frozenPins, frozenManifestOf, List.map_map]
    exact List.mem_map.mpr ⟨component, hcomponent, rfl⟩
  obtain ⟨c, hc, hcid, _, hnewest⟩ := (mem_frozenPins h).mp hmem
  obtain ⟨w, hw, hid⟩ := Option.map_eq_some_iff.mp hnewest
  obtain ⟨hwpast, hwc⟩ := mem_of_newestVersion hw
  obtain ⟨v, hv, rfl⟩ := mem_created.mp (h.past_created.subset hwpast)
  have hvc : v.componentId = component.componentId := hwc
  exact ⟨v, mem_versionsOf.mpr ⟨hv, c, hc, hcid.trans hvc.symm⟩, hwpast, hid.symm⟩

/-- The tick of the latest version that a release pins is the end of its past. -/
theorem divides_of_latest {row : ReleaseRow} {past : List VersionRow}
    (hclock : Clocked dateParse db) (h : db.Freezes row past)
    (hproduct : product.id = row.productId) {m : VersionRow}
    (hm : m ∈ db.versionsOf product.id) (hmpast : m.fixed ∈ past)
    (hle : ∀ component ∈ (db.readView row).components,
      (buildTimeAxis dateParse (db.timelineView product)).tickOf component.versionId ≤
        (buildTimeAxis dateParse (db.timelineView product)).tickOf m.id) :
    Divides dateParse db product past
      ((buildTimeAxis dateParse (db.timelineView product)).tickOf m.id) := by
  intro u hu
  obtain ⟨future, hcreated⟩ := h.past_created
  have hsorted := hclock
  rw [Clocked, ← hcreated, List.pairwise_append] at hsorted
  rw [tickOf_le_iff hu hm]
  constructor
  · intro hbefore
    have hmem : u.fixed ∈ past ++ future :=
      hcreated ▸ mem_created.mpr ⟨u, (mem_versionsOf.mp hu).1, rfl⟩
    rcases List.mem_append.mp hmem with hmem | hmem
    · exact hmem
    · have hlt : createdTime dateParse m < createdTime dateParse u :=
        hsorted.2.2 m.fixed hmpast u.fixed hmem
      exact absurd hbefore (not_le_of_gt hlt)
  · intro hupast
    -- The newest version of the component is pinned, and so not later than `m`.
    obtain ⟨v, hv, hnewest, component, hcomponent, hid⟩ :=
      exists_pinned h (hproduct ▸ hu) hupast
    have hvm := hle component hcomponent
    rw [hid, tickOf_le_iff (hproduct ▸ hv) hm] at hvm
    rcases eq_or_lt_newestVersion hsorted.1 hnewest (u := u.fixed) hupast rfl with heq | hlt
    · have hfixed : createdTime dateParse u.fixed = createdTime dateParse v.fixed :=
        congrArg (createdTime dateParse) heq
      exact le_of_eq_of_le hfixed hvm
    · have htime : createdTime dateParse u < createdTime dateParse v := hlt
      exact htime.le.trans hvm

theorem readView_components_ne_nil {row : ReleaseRow} {past : List VersionRow}
    (h : db.Freezes row past) (hsound : db.ManifestSound) : (db.readView row).components ≠ [] := by
  obtain ⟨rc, hrc, hid⟩ := h.pinned
  obtain ⟨_, _, _, ⟨c, hc, hcid, _⟩, v, hv, hvid, _⟩ := hsound rc hrc
  have hentry := mem_manifestEntries.mpr
    ⟨rc, hrc, List.mem_singleton.mpr hid, c, hc, hcid, v, hv, hvid, rfl⟩
  exact List.ne_nil_of_mem (List.mem_map_of_mem (mem_orderBy.mpr hentry))

/-- Reopening a release moves the meridian to the latest version that it pins. -/
theorem reopen_eq (dateParse : String → Int) {row : ReleaseRow} {past : List VersionRow}
    (h : db.Freezes row past) (hsound : db.ManifestSound) (hproduct : product.id = row.productId) :
    ∃ m ∈ db.versionsOf product.id, m.fixed ∈ past ∧
      (∀ component ∈ (db.readView row).components,
        (buildTimeAxis dateParse (db.timelineView product)).tickOf component.versionId ≤
          (buildTimeAxis dateParse (db.timelineView product)).tickOf m.id) ∧
      reopen (buildTimeAxis dateParse (db.timelineView product)) (db.readView row) =
        some ((buildTimeAxis dateParse (db.timelineView product)).tickOf m.id) := by
  generalize hcomponents : (db.readView row).components = components
  generalize haxis : buildTimeAxis dateParse (db.timelineView product) = axis
  have hpast : ∀ component ∈ components, ∃ v ∈ db.versionsOf product.id, v.fixed ∈ past ∧
      component.versionId = v.id := fun component hcomponent =>
    hproduct ▸ exists_past h (hcomponents ▸ hcomponent)
  have hrange : ∀ v ∈ db.versionsOf product.id, 0 ≤ axis.tickOf v.id ∧
      axis.tickOf v.id ≤ axis.maxTick := fun v hv => haxis ▸ tickOf_range hv
  -- Every tick is known, so none is left out.
  have hknown : (components.map fun component => axis.tickOf component.versionId).filter
      (fun tick => tick ≥ 0) = components.map fun component => axis.tickOf component.versionId := by
    refine List.filter_eq_self.mpr fun tick htick => ?_
    obtain ⟨component, hcomponent, rfl⟩ := List.mem_map.mp htick
    obtain ⟨v, hv, _, hid⟩ := hpast component hcomponent
    exact decide_eq_true (hid ▸ (hrange v hv).1)
  simp only [reopen, hcomponents, hknown]
  cases hmax : (components.map fun component => axis.tickOf component.versionId).max? with
  | none =>
    have hnil := List.map_eq_nil_iff.mp (List.max?_eq_none_iff.mp hmax)
    exact absurd (hcomponents.trans hnil) (readView_components_ne_nil h hsound)
  | some tick =>
    obtain ⟨hmem, hle⟩ := List.max?_eq_some_iff.mp hmax
    obtain ⟨component, hcomponent, rfl⟩ := List.mem_map.mp hmem
    obtain ⟨m, hm, hmpast, hid⟩ := hpast component hcomponent
    obtain ⟨hzero, hlast⟩ := hrange m hm
    rw [hid] at hle
    refine ⟨m, hm, hmpast, fun component hcomponent => hle _ (List.mem_map_of_mem hcomponent), ?_⟩
    have hclamp : clamp (axis.tickOf m.id) axis.maxTick = axis.tickOf m.id := by
      rw [clamp]
      omega
    rw [Option.map_some, hid, hclamp]

end ReopenLemmas

open ReopenLemmas

/-- The times at which the client sees versions submitted increase along the run. -/
def ClockedRun (dateParse : String → Int) (requests : List Request) : Prop :=
  ((requests.filter fun r => r.1.isSubmission).map fun r =>
    dateParse (Py.isoformat r.2.now)).Pairwise (· < ·)

theorem clocked_run {dateParse : String → Int} {requests : List Request}
    (hall : AllAnswered World.init requests) (hforward : ∀ r ∈ requests, r.1.isRollback = false)
    (hclock : ClockedRun dateParse requests) :
    Clocked dateParse (run World.init requests).db := by
  obtain ⟨times, hsub, hrows⟩ := createdAt_run hall hforward
  have htimes : (times.map fun time => dateParse (Py.isoformat time)).Pairwise (· < ·) := by
    refine List.Pairwise.sublist (hsub.map _) ?_
    rw [List.map_map]
    exact hclock
  have hempty : World.init.db.versions.rows.map VersionRow.createdAt = [] := rfl
  rw [hempty, List.nil_append] at hrows
  rw [← hrows, List.map_map, List.pairwise_map] at htimes
  exact List.pairwise_map.mpr htimes

/-- In every run whose calls are all answered, that rolls nothing back and whose versions the
client sees created one after the other: for every release of the ledger of a product,
reopening it moves the meridian to a tick where the manifest derived from the timeline is the
frozen manifest, row by row. -/
theorem reopen_shows_frozen (dateParse : String → Int) (requests : List Request)
    (hall : AllAnswered World.init requests) (hforward : ∀ r ∈ requests, r.1.isRollback = false)
    (hclock : ClockedRun dateParse requests) (productId : String)
    (timeline : TimelineResponseModel) (ledger : List ReleaseResponseModel)
    (htimeline : ((getTimeline productId).run (run World.init requests)).1 = .ok timeline)
    (hledger : ((listReleasesByProduct productId).run (run World.init requests)).1 = .ok ledger) :
    ∀ release ∈ ledger, ∃ tick,
      reopen (buildTimeAxis dateParse timeline) release = some tick ∧
        derivedPins (deriveManifest timeline (buildTimeAxis dateParse timeline) tick) =
          frozenPins (frozenManifestOf release) := by
  have hchronicle := chronicle_run (w := World.init) chronicle_empty hall hforward
  have hclocked := clocked_run hall hforward hclock
  have hsound := manifestSound_run (w := World.init) manifestSound_empty requests
  obtain ⟨product, hproduct, rfl, _, rfl⟩ := getTimeline_ok_iff.mp htimeline
  rw [run_listReleasesByProduct (Table.key_mem_keys hproduct)] at hledger
  generalize (run World.init requests).db = db at *
  obtain rfl := Except.ok.inj hledger
  intro release hrelease
  obtain ⟨row, hrow, rfl⟩ := List.mem_map.mp hrelease
  obtain ⟨hrow, hid⟩ := mem_releasesOf.mp hrow
  obtain ⟨past, hpast⟩ := hchronicle.frozen row hrow
  obtain ⟨m, hm, hmpast, hle, hreopen⟩ :=
    reopen_eq dateParse hpast hsound hid.symm
  refine ⟨_, hreopen, ?_⟩
  have hdivides := divides_of_latest hclocked hpast hid.symm hm hmpast hle
  refine eq_of_strict (derivedPins_strict _ _) (frozenPins_strict hsound row) ?_
  rintro ⟨componentId, name, versionId⟩
  rw [mem_derivedPins hclocked hpast.past_created hdivides, mem_frozenPins hpast, hid]

end Projection

namespace Sample

/-- `api` is released with 1.2.0 and gets 1.3.0 afterwards. -/
def forward : List Request :=
  List.zipWith (fun r n => (r.1, second n)) setup [10, 11] ++
    [(.createVersion true api12, second 20), (.cutRelease (release none), second 30),
     (.createVersion true api13, second 40)]

def forwardTimeline : TimelineResponseModel :=
  (run World.init forward).db.timelineView secondRow

def forwardLedger : List ReleaseResponseModel :=
  ((run World.init forward).db.releasesOf (id 10)).map (run World.init forward).db.readView

theorem forwardLedger_length : forwardLedger.length = 1 := by decide +kernel

def forwardRelease : ReleaseResponseModel :=
  forwardLedger.get ⟨0, forwardLedger_length ▸ Nat.one_pos⟩

end Sample

open Projection

theorem reopen_shows_frozen_sample :
    ∃ tick,
      reopen (buildTimeAxis Sample.dateParse Sample.forwardTimeline) Sample.forwardRelease =
          some tick ∧
        derivedPins (deriveManifest Sample.forwardTimeline
            (buildTimeAxis Sample.dateParse Sample.forwardTimeline) tick) =
          frozenPins (frozenManifestOf Sample.forwardRelease) :=
  Projection.reopen_shows_frozen Sample.dateParse Sample.forward (by decide +kernel)
    (by decide +kernel) (by unfold ClockedRun; decide +kernel) (Sample.id 10) _ _
    (getTimeline_ok_iff.mpr ⟨Sample.secondRow, by decide +kernel, rfl, by decide +kernel, rfl⟩)
    (by rw [run_listReleasesByProduct (by decide +kernel)]; rfl)
    Sample.forwardRelease (List.get_mem Sample.forwardLedger _)

/-- The release is in the ledger, and the newer version of its component is not shown. -/
example : Sample.forwardLedger.map (fun release =>
    derivedPins (deriveManifest Sample.forwardTimeline
      (buildTimeAxis Sample.dateParse Sample.forwardTimeline)
      ((reopen (buildTimeAxis Sample.dateParse Sample.forwardTimeline) release).getD (-1)))) =
    [[(Sample.id 11, "api", Sample.id 20)]] := by
  decide +kernel

end LavsCore
