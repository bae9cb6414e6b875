import LavsCore.Invariants.VersionHistory
import LavsCore.Lib.Ranking
import LavsCore.Queries.TimelineRead
import Mathlib.Data.List.Dedup

/-!
# The constellation's projection

`geometry.ts` turns the creation times of all versions into ticks, and `projection.ts` pins
for each component the latest version at or before a tick. The client never reads the status
of a version here.

`pinned_at_end`: at the last tick a component pins its most recently created version, and of
several the one that is listed last. `projection_pins_iff`: this is what a cut freezes
exactly if the active version is that one.
-/

namespace LavsCore

open Store

namespace Projection

/-! ## The time axis -/

structure TimeAxis where
  maxTick : Int
  tickOf : String → Int

structure AxisEntry where
  versionId : String
  time : Int

/-- The entries of `buildTimeAxis`. `Date.parse` is the browser's: what it makes of a text
without a zone depends on the zone of the client, and it drops microseconds. -/
def axisEntries (dateParse : String → Int) (timeline : TimelineResponseModel) : List AxisEntry :=
  timeline.components.flatMap fun component =>
    component.versions.map fun version => ⟨version.id, dateParse version.createdAt⟩

/-- The distinct times, ascending. -/
def sortedTimes (entries : List AxisEntry) : List Int :=
  orderBy (fun time => time) (entries.map AxisEntry.time).dedup

/-- `tickByTime`. -/
def tickByTime (times : List Int) : Dict Int Int :=
  Dict.ofList (times.zipIdx.map fun e => (e.1, (e.2 : Int)))

/-- `tickByVersion`. -/
def tickByVersion (entries : List AxisEntry) : Dict String Int :=
  Dict.ofList (entries.map fun e =>
    (e.versionId, (Dict.get? (tickByTime (sortedTimes entries)) e.time).getD (-1)))

def buildTimeAxis (dateParse : String → Int) (timeline : TimelineResponseModel) : TimeAxis :=
  let entries := axisEntries dateParse timeline
  { maxTick := max 0 ((sortedTimes entries).length - 1)
    tickOf := fun versionId => (Dict.get? (tickByVersion entries) versionId).getD (-1) }

/-! ## The manifest -/

structure ManifestEntry where
  component : ComponentWithVersionsResponseModel
  version : Option VersionResponseModel

/-- One version in the loop of `pinnedFor`. -/
def pinStep (axis : TimeAxis) (tick : Int) (best : Option VersionResponseModel × Int)
    (version : VersionResponseModel) : Option VersionResponseModel × Int :=
  let versionTick := axis.tickOf version.id
  if versionTick ≥ 0 ∧ versionTick ≤ tick ∧ versionTick ≥ best.2 then (some version, versionTick)
  else best

def pinnedFor (component : ComponentWithVersionsResponseModel) (axis : TimeAxis) (tick : Int) :
    Option VersionResponseModel :=
  (component.versions.foldl (pinStep axis tick) (none, -1)).1

def deriveManifest (timeline : TimelineResponseModel) (axis : TimeAxis) (tick : Int) :
    List ManifestEntry :=
  timeline.components.map fun component => ⟨component, pinnedFor component axis tick⟩

/-! ## Ticks -/

namespace ProjectionLemmas

variable {dateParse : String → Int} {timeline : TimelineResponseModel} {axis : TimeAxis}

/-- The best version so far, with its tick. -/
def withTick (axis : TimeAxis) (best : Option VersionResponseModel) :
    Option VersionResponseModel × Int :=
  (best, best.elim (-1) fun v => axis.tickOf v.id)

/-- The version has been reached at the tick. -/
def Reached (axis : TimeAxis) (tick : Int) (v : VersionResponseModel) : Prop :=
  0 ≤ axis.tickOf v.id ∧ axis.tickOf v.id ≤ tick

instance (axis : TimeAxis) (tick : Int) (v : VersionResponseModel) :
    Decidable (Reached axis tick v) := inferInstanceAs (Decidable (_ ∧ _))

theorem pinStep_withTick {tick : Int} {best : Option VersionResponseModel}
    {v : VersionResponseModel} :
    pinStep axis tick (withTick axis best) v =
      withTick axis (if Reached axis tick v then keepMax (fun v => axis.tickOf v.id) best v
        else best) := by
  by_cases hreached : Reached axis tick v
  · obtain ⟨hzero, htick⟩ := id hreached
    rw [if_pos hreached]
    cases best with
    | none =>
      have hmin : axis.tickOf v.id ≥ -1 := by omega
      simp [pinStep, withTick, keepMax, hzero, htick, hmin]
    | some b =>
      by_cases hle : axis.tickOf b.id ≤ axis.tickOf v.id
      · simp [pinStep, withTick, keepMax, hzero, htick, hle]
      · simp [pinStep, withTick, keepMax, hle]
  · rw [if_neg hreached]
    exact if_neg fun h => hreached ⟨h.1, h.2.1⟩

/-- The loop of `pinnedFor` looks for the last of the greatest ticks in range. -/
theorem pinnedFor_eq (component : ComponentWithVersionsResponseModel) (axis : TimeAxis)
    (tick : Int) :
    pinnedFor component axis tick = lastMax (fun v => axis.tickOf v.id)
      (component.versions.filter fun v => Reached axis tick v) := by
  have hloop : ∀ versions : List VersionResponseModel,
      versions.foldl (pinStep axis tick) (none, -1) = withTick axis
        (lastMax (fun v => axis.tickOf v.id) (versions.filter fun v => Reached axis tick v)) := by
    intro versions
    induction versions using List.reverseRecOn with
    | nil => rfl
    | append_singleton versions v ih =>
      rw [List.foldl_append, ih, List.foldl_cons, List.foldl_nil, pinStep_withTick,
        List.filter_append, List.filter_singleton]
      by_cases hreached : Reached axis tick v
      · simp [hreached, lastMax_append_singleton]
      · simp [hreached]
  rw [pinnedFor, hloop]
  rfl

theorem sortedTimes_sorted (entries : List AxisEntry) :
    (sortedTimes entries).Pairwise (· < ·) := by
  have hnodup : (sortedTimes entries).Nodup :=
    (orderBy_perm _ _).nodup_iff.mpr (List.nodup_dedup _)
  exact ((orderBy_sorted _ _).and hnodup).imp fun h => lt_of_le_of_ne h.1 h.2

theorem mem_sortedTimes {entries : List AxisEntry} {e : AxisEntry} (h : e ∈ entries) :
    e.time ∈ sortedTimes entries :=
  mem_orderBy.mpr (List.mem_dedup.mpr (List.mem_map_of_mem h))

/-- The tick of a time is its place among the distinct times. -/
theorem get?_tickByTime {entries : List AxisEntry} {time : Int}
    (h : time ∈ sortedTimes entries) :
    Dict.get? (tickByTime (sortedTimes entries)) time =
      some ((sortedTimes entries).idxOf time : Int) := by
  have hkeys : ((sortedTimes entries).zipIdx.map fun e => (e.1, (e.2 : Int))).map Prod.fst =
      sortedTimes entries := by
    rw [List.map_map]
    exact List.zipIdx_map_fst 0 _
  have hnodup : (sortedTimes entries).Nodup := (sortedTimes_sorted entries).imp fun h => h.ne
  rw [tickByTime, Dict.get?_eq_some, Dict.ofList_rows (by rwa [hkeys])]
  refine List.mem_map.mpr ⟨(time, (sortedTimes entries).idxOf time), ?_, rfl⟩
  rw [List.mem_zipIdx_iff_getElem?]
  exact List.getElem?_idxOf h

/-- All entries of one version have the time of one text. -/
def Consistent (entries : List AxisEntry) : Prop :=
  ∀ e ∈ entries, ∀ e' ∈ entries, e.versionId = e'.versionId → e.time = e'.time

theorem get?_tickByVersion {entries : List AxisEntry} (hconsistent : Consistent entries)
    {e : AxisEntry} (h : e ∈ entries) :
    Dict.get? (tickByVersion entries) e.versionId =
      some ((sortedTimes entries).idxOf e.time : Int) := by
  refine Dict.get?_ofList (List.mem_map.mpr ⟨e, h, ?_⟩) fun tick hmem => ?_
  · rw [get?_tickByTime (mem_sortedTimes h)]
    rfl
  · obtain ⟨e', he', hpair⟩ := List.mem_map.mp hmem
    obtain ⟨hid, rfl⟩ := Prod.mk.injEq .. ▸ hpair
    rw [get?_tickByTime (mem_sortedTimes he'), hconsistent e' he' e h hid]
    rfl

end ProjectionLemmas

open ProjectionLemmas

/-! ## What the last tick pins -/

/-- When the version was created, as the client reads it. -/
def createdTime (dateParse : String → Int) (v : VersionRow) : Int :=
  dateParse (Py.isoformat v.createdAt)

namespace ProjectionLemmas

variable {db : Store} {product : ProductRow} {dateParse : String → Int}

theorem mem_axisEntries {e : AxisEntry} :
    e ∈ axisEntries dateParse (db.timelineView product) ↔
      ∃ c ∈ db.componentsOf product.id, ∃ v ∈ db.versionsOfComponent c.id,
        e = ⟨v.id, createdTime dateParse v⟩ := by
  simp only [axisEntries, Store.timelineView, List.mem_flatMap, List.mem_map]
  constructor
  · rintro ⟨_, ⟨c, hc, rfl⟩, _, hversion, rfl⟩
    obtain ⟨v, hv, rfl⟩ := List.mem_map.mp hversion
    exact ⟨c, hc, v, hv, rfl⟩
  · rintro ⟨c, hc, v, hv, rfl⟩
    exact ⟨_, ⟨c, hc, rfl⟩, versionView v, List.mem_map_of_mem hv, rfl⟩

theorem consistent_axisEntries : Consistent (axisEntries dateParse (db.timelineView product)) := by
  intro e he e' he' hid
  obtain ⟨_, _, v, hv, rfl⟩ := mem_axisEntries.mp he
  obtain ⟨_, _, v', hv', rfl⟩ := mem_axisEntries.mp he'
  cases Table.eq_of_key_eq (mem_versionsOfComponent.mp hv).1 (mem_versionsOfComponent.mp hv').1 hid
  rfl

/-- The tick of a version of the product. -/
theorem tickOf_version (dateParse : String → Int) {c : ComponentRow} {v : VersionRow}
    (hc : c ∈ db.componentsOf product.id) (hv : v ∈ db.versionsOfComponent c.id) :
    createdTime dateParse v ∈ sortedTimes (axisEntries dateParse (db.timelineView product)) ∧
      (buildTimeAxis dateParse (db.timelineView product)).tickOf v.id =
        ((sortedTimes (axisEntries dateParse (db.timelineView product))).idxOf
          (createdTime dateParse v) : Int) := by
  have hentry : ⟨v.id, createdTime dateParse v⟩ ∈ axisEntries dateParse (db.timelineView product) :=
    mem_axisEntries.mpr ⟨c, hc, v, hv, rfl⟩
  refine ⟨mem_sortedTimes hentry, ?_⟩
  show (Dict.get? (tickByVersion _) _).getD (-1) = _
  rw [get?_tickByVersion consistent_axisEntries hentry]
  rfl

end ProjectionLemmas

/-- At the last tick a component pins the version that was created last, and of several the
one that is listed last. -/
theorem pinned_at_end {db : Store} {product : ProductRow} (dateParse : String → Int)
    {c : ComponentRow} (hc : c ∈ db.componentsOf product.id) :
    pinnedFor (db.componentView c) (buildTimeAxis dateParse (db.timelineView product))
        (buildTimeAxis dateParse (db.timelineView product)).maxTick =
      (lastMax (createdTime dateParse) (db.versionsOfComponent c.id)).map versionView := by
  have hreached : ∀ version ∈ (db.versionsOfComponent c.id).map versionView,
      Reached (buildTimeAxis dateParse (db.timelineView product))
        (buildTimeAxis dateParse (db.timelineView product)).maxTick version := by
    intro version hversion
    obtain ⟨v, hv, rfl⟩ := List.mem_map.mp hversion
    obtain ⟨htime, htick⟩ := tickOf_version dateParse hc hv
    have hlt := List.idxOf_lt_length_iff.mpr htime
    show 0 ≤ (buildTimeAxis _ _).tickOf v.id ∧ (buildTimeAxis _ _).tickOf v.id ≤ max 0 (_ - 1)
    rw [htick]
    omega
  rw [pinnedFor_eq]
  show lastMax _ (((db.versionsOfComponent c.id).map versionView).filter _) = _
  rw [List.filter_eq_self.mpr fun v hv => decide_eq_true (hreached v hv), lastMax_map]
  congr 1
  refine lastMax_congr fun v hv v' hv' => ?_
  obtain ⟨htime, htick⟩ := tickOf_version dateParse hc hv
  obtain ⟨htime', htick'⟩ := tickOf_version dateParse hc hv'
  show (buildTimeAxis _ _).tickOf v.id ≤ (buildTimeAxis _ _).tickOf v'.id ↔ _
  rw [htick, htick', Int.ofNat_le]
  exact idxOf_le_idxOf_iff (sortedTimes_sorted _) htime htime'

/-! ## Against the cut -/

/-- The manifest pins for every component exactly what `_SELECT_ACTIVE_COMPONENTS` finds
for it, and nothing exactly for the components without versions. -/
def PinsTheCut (db : Store) (productId : String) (manifest : List ManifestEntry) : Prop :=
  ∀ entry ∈ manifest,
    (∀ versionId, (∃ version, entry.version = some version ∧ version.id = versionId) ↔
      ∃ r ∈ db.activeComponents productId,
        r.componentId = entry.component.id ∧ r.versionId = versionId) ∧
    (entry.version = none ↔ entry.component.versions = [])

/-- The semantic version, and the id that breaks ties. -/
def semver (v : VersionRow) : Int ×ₗ Int ×ₗ Int ×ₗ String :=
  toLex (v.major, toLex (v.minor, toLex (v.patch, v.id)))

/-- The active version of every component that has versions was created after the others;
of those that the client takes to be created at the same time, it is the lowest. -/
def ActiveIsLatest (dateParse : String → Int) (db : Store) (productId : String) : Prop :=
  ∀ c ∈ db.componentsOf productId, (∃ u ∈ db.versions.rows, u.componentId = c.id) →
    ∃ v ∈ db.activeVersions c.id, ∀ u ∈ db.versions.rows, u.componentId = c.id → u ≠ v →
      createdTime dateParse u < createdTime dateParse v ∨
        createdTime dateParse u = createdTime dateParse v ∧ semver v < semver u

namespace ProjectionLemmas

variable {db : Store} {productId : String} {dateParse : String → Int}

/-- The scan over the versions of a component, which the server lists highest first. -/
theorem lastMax_versions {c : ComponentRow} {v : VersionRow} :
    lastMax (createdTime dateParse) (db.versionsOfComponent c.id) = some v ↔
      (v ∈ db.versions.rows ∧ v.componentId = c.id) ∧ ∀ u ∈ db.versions.rows,
        u.componentId = c.id → u ≠ v → createdTime dateParse u < createdTime dateParse v ∨
          createdTime dateParse u = createdTime dateParse v ∧ semver v < semver u := by
  have hnodup : (db.versions.rows.filter fun v => v.componentId = c.id).Nodup :=
    db.versions.nodup_keys.of_map.filter _
  rw [versionsOfComponent, highestFirst, lastMax_orderBy hnodup]
  · simp only [List.mem_filter, decide_eq_true_eq, and_imp]
    rfl
  · intro u hu v hv hkey
    have hid : u.id = v.id :=
      congrArg (fun k => (ofLex (ofLex (ofLex (OrderDual.ofDual k)).2).2).2) hkey
    exact Table.eq_of_key_eq (List.mem_of_mem_filter hu) (List.mem_of_mem_filter hv) hid

/-- What a cut freezes of one component. -/
theorem mem_activeComponents_of {c : ComponentRow} (hc : c ∈ db.componentsOf productId)
    {versionId : String} :
    (∃ r ∈ db.activeComponents productId, r.componentId = c.id ∧ r.versionId = versionId) ↔
      ∃ v ∈ db.activeVersions c.id, v.id = versionId := by
  obtain ⟨hrow, hproduct⟩ := mem_componentsOf.mp hc
  simp only [mem_activeComponents]
  constructor
  · rintro ⟨_, ⟨c', hc', _, v, hv, rfl⟩, hid, rfl⟩
    cases Table.eq_of_key_eq hc' hrow hid
    exact ⟨v, hv, rfl⟩
  · rintro ⟨v, hv, rfl⟩
    exact ⟨_, ⟨c, hrow, hproduct, v, hv, rfl⟩, rfl, rfl⟩

end ProjectionLemmas

/-- For every store that a run reaches, every reading of time and the timeline that the
server returns: at the last tick the client pins what a cut freezes, and nothing exactly
for the components without versions, if and only if the active version of every component
with versions is the one created last. -/
theorem projection_pins_iff (dateParse : String → Int) (requests : List Request)
    (productId : String) (timeline : TimelineResponseModel)
    (htimeline : ((getTimeline productId).run (run World.init requests)).1 = .ok timeline) :
    PinsTheCut (run World.init requests).db productId
        (deriveManifest timeline (buildTimeAxis dateParse timeline)
          (buildTimeAxis dateParse timeline).maxTick) ↔
      ActiveIsLatest dateParse (run World.init requests).db productId := by
  obtain ⟨product, _, rfl, _, rfl⟩ := getTimeline_ok_iff.mp htimeline
  have hone := atMostOneActive_run atMostOneActive_empty requests (w := World.init)
  generalize (run World.init requests).db = db at hone ⊢
  -- The entry of a component, with the version that the scan finds.
  have hentries : ∀ entry, entry ∈ deriveManifest (db.timelineView product)
      (buildTimeAxis dateParse (db.timelineView product))
      (buildTimeAxis dateParse (db.timelineView product)).maxTick ↔
        ∃ c ∈ db.componentsOf product.id, entry = ⟨db.componentView c,
          (lastMax (createdTime dateParse) (db.versionsOfComponent c.id)).map versionView⟩ := by
    intro entry
    rw [deriveManifest, Store.timelineView, List.map_map, List.mem_map]
    constructor
    · rintro ⟨c, hc, rfl⟩
      exact ⟨c, hc, congrArg (ManifestEntry.mk _) (pinned_at_end dateParse hc)⟩
    · rintro ⟨c, hc, rfl⟩
      exact ⟨c, hc, congrArg (ManifestEntry.mk _) (pinned_at_end dateParse hc)⟩
  constructor
  · rintro hpins c hc ⟨u, hu, huc⟩
    obtain ⟨hversion, _⟩ := hpins _ ((hentries _).mpr ⟨c, hc, rfl⟩)
    cases hlast : lastMax (createdTime dateParse) (db.versionsOfComponent c.id) with
    | none =>
      have hnil := lastMax_eq_none.mp hlast
      have hmem : u ∈ db.versionsOfComponent c.id := mem_versionsOfComponent.mpr ⟨hu, huc⟩
      exact absurd (hnil ▸ hmem) List.not_mem_nil
    | some v =>
      obtain ⟨⟨hv, _⟩, hlatest⟩ := lastMax_versions.mp hlast
      rw [hlast] at hversion
      obtain ⟨a, ha, hid⟩ :=
        (mem_activeComponents_of hc).mp ((hversion v.id).mp ⟨_, rfl, rfl⟩)
      cases Table.eq_of_key_eq (mem_activeVersions.mp ha).1 hv hid
      exact ⟨v, ha, hlatest⟩
  · intro hlatest entry hentry
    obtain ⟨c, hc, rfl⟩ := (hentries entry).mp hentry
    refine ⟨fun versionId => ?_, ?_⟩
    · show (∃ version, Option.map versionView _ = some version ∧ _) ↔
        ∃ r ∈ db.activeComponents product.id, r.componentId = c.id ∧ _
      rw [mem_activeComponents_of hc]
      constructor
      · rintro ⟨_, hpinned, rfl⟩
        obtain ⟨v, hlast, rfl⟩ := Option.map_eq_some_iff.mp hpinned
        obtain ⟨hv, _⟩ := lastMax_versions.mp hlast
        obtain ⟨a, ha, hmax⟩ := hlatest c hc ⟨v, hv⟩
        obtain ⟨harow, hac, _⟩ := mem_activeVersions.mp ha
        have hlast' := lastMax_versions.mpr ⟨⟨harow, hac⟩, hmax⟩
        cases hlast.symm.trans hlast'
        exact ⟨v, ha, rfl⟩
      · rintro ⟨v, hv, rfl⟩
        obtain ⟨hrow, hvc, _⟩ := mem_activeVersions.mp hv
        obtain ⟨a, ha, hmax⟩ := hlatest c hc ⟨v, hrow, hvc⟩
        obtain rfl : v = a := hone.unique hv ha
        exact ⟨versionView v, by rw [lastMax_versions.mpr ⟨⟨hrow, hvc⟩, hmax⟩]; rfl, rfl⟩
    · show Option.map versionView _ = none ↔ (db.versionsOfComponent c.id).map versionView = []
      rw [Option.map_eq_none_iff, lastMax_eq_none, List.map_eq_nil_iff]

end Projection

namespace Sample

/-- The surroundings of the call that mints `id n`, in a second of its own. -/
def second (n : Nat) : Env := ⟨1782734400000000 + n * 1000000, id n, 0, .duckdb⟩

/-- `api` gets the versions 1.2.0 and 1.3.0, and 1.3.0 is rolled back. -/
def rewound : List Request :=
  List.zipWith (fun r n => (r.1, second n)) setup [10, 11] ++
    [(.createVersion true api12, second 20), (.createVersion true api13, second 21),
     (.rollbackVersion true { versionId := id 21 }, second 31)]

/-- What `Date.parse` makes of these seconds, in a client whose zone is UTC. -/
def dateParse (text : String) : Int :=
  match (List.range 60).find? fun n => Py.isoformat (second n).now = text with
  | some n => 1782734400000 + n * 1000
  | none => 0

/-- The row of the product. -/
def secondRow : ProductRow := ⟨id 10, "Aurora", none, "0.0.0", "default", 1782734410000000⟩

end Sample

open Projection

theorem rewound_timeline :
    ((getTimeline (Sample.id 10)).run (run World.init Sample.rewound)).1 =
      .ok ((run World.init Sample.rewound).db.timelineView Sample.secondRow) :=
  getTimeline_ok_iff.mpr ⟨Sample.secondRow, by decide +kernel, rfl, by decide +kernel, rfl⟩

theorem projection_pins_iff_sample :
    PinsTheCut (run World.init Sample.rewound).db (Sample.id 10)
        (deriveManifest ((run World.init Sample.rewound).db.timelineView Sample.secondRow)
          (buildTimeAxis Sample.dateParse
            ((run World.init Sample.rewound).db.timelineView Sample.secondRow))
          (buildTimeAxis Sample.dateParse
            ((run World.init Sample.rewound).db.timelineView Sample.secondRow)).maxTick) ↔
      ActiveIsLatest Sample.dateParse (run World.init Sample.rewound).db (Sample.id 10) :=
  projection_pins_iff Sample.dateParse Sample.rewound (Sample.id 10) _ rewound_timeline

/-- After a rollback the client pins the version that was rolled back, and the cut freezes
its predecessor. -/
theorem projection_misses_rollback :
    ∃ timeline,
      ((getTimeline (Sample.id 10)).run (run World.init Sample.rewound)).1 = .ok timeline ∧
      (deriveManifest timeline (buildTimeAxis Sample.dateParse timeline)
          (buildTimeAxis Sample.dateParse timeline).maxTick).map
        (fun entry => entry.version.map fun version => (version.id, version.status)) =
          [some (Sample.id 21, .rolledBack)] ∧
      ((run World.init Sample.rewound).db.activeComponents (Sample.id 10)).map
        ActiveComponent.versionId = [Sample.id 20] ∧
      ¬ PinsTheCut (run World.init Sample.rewound).db (Sample.id 10)
        (deriveManifest timeline (buildTimeAxis Sample.dateParse timeline)
          (buildTimeAxis Sample.dateParse timeline).maxTick) := by
  refine ⟨_, rewound_timeline, by decide +kernel, by decide +kernel, fun hpins => ?_⟩
  have hfrozen : ∀ entry ∈ deriveManifest
      ((run World.init Sample.rewound).db.timelineView Sample.secondRow)
      (buildTimeAxis Sample.dateParse
        ((run World.init Sample.rewound).db.timelineView Sample.secondRow))
      (buildTimeAxis Sample.dateParse
        ((run World.init Sample.rewound).db.timelineView Sample.secondRow)).maxTick,
      ∀ version ∈ entry.version, ∃ r ∈ (run World.init Sample.rewound).db.activeComponents
        (Sample.id 10), r.componentId = entry.component.id ∧ r.versionId = version.id :=
    fun entry hentry version hversion =>
      ((hpins entry hentry).1 version.id).mp ⟨version, hversion, rfl⟩
  exact absurd hfrozen (by decide +kernel)

end LavsCore
