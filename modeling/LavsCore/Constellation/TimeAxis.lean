import LavsCore.Constellation.Projection

/-!
# The ordinal time axis

`time_axis_ordinal`: the ticks of a timeline are the ranks of its distinct times, and at any
tick a component pins the last of its latest versions that have been reached.
-/

namespace LavsCore

namespace Projection

/-- The versions of all components, in the order of the loops of `buildTimeAxis`. -/
def timelineVersions (timeline : TimelineResponseModel) : List VersionResponseModel :=
  timeline.components.flatMap ComponentWithVersionsResponseModel.versions

/-- The ticks of the versions are the ranks of their times. -/
structure Ordinal (axis : TimeAxis) (time : VersionResponseModel → Int)
    (versions : List VersionResponseModel) : Prop where
  inRange : ∀ v ∈ versions, 0 ≤ axis.tickOf v.id ∧ axis.tickOf v.id ≤ axis.maxTick
  before : ∀ a ∈ versions, ∀ b ∈ versions, axis.tickOf a.id < axis.tickOf b.id ↔ time a < time b
  same : ∀ a ∈ versions, ∀ b ∈ versions, axis.tickOf a.id = axis.tickOf b.id ↔ time a = time b
  used : versions ≠ [] → ∀ tick, 0 ≤ tick → tick ≤ axis.maxTick →
    ∃ v ∈ versions, axis.tickOf v.id = tick
  unknown : ∀ versionId, versionId ∉ versions.map VersionResponseModel.id →
    axis.tickOf versionId = -1

/-- The version is the last-listed of those with the greatest tick up to `tick`. -/
def LatestReached (axis : TimeAxis) (tick : Int) (versions : List VersionResponseModel)
    (v : VersionResponseModel) : Prop :=
  ∃ listed later, versions = listed ++ v :: later ∧
    (0 ≤ axis.tickOf v.id ∧ axis.tickOf v.id ≤ tick) ∧
    (∀ u ∈ listed, axis.tickOf u.id ≤ tick → axis.tickOf u.id ≤ axis.tickOf v.id) ∧
    ∀ u ∈ later, axis.tickOf u.id ≤ tick → axis.tickOf u.id < axis.tickOf v.id

namespace TimeAxisLemmas

open ProjectionLemmas

variable {dateParse : String → Int} {timeline : TimelineResponseModel}

/-! ## Ticks -/

theorem axisEntries_eq (dateParse : String → Int) (timeline : TimelineResponseModel) :
    axisEntries dateParse timeline =
      (timelineVersions timeline).map fun v => ⟨v.id, dateParse v.createdAt⟩ := by
  rw [timelineVersions, List.map_flatMap]
  rfl

theorem consistent_of_distinct
    (distinct : ((timelineVersions timeline).map VersionResponseModel.id).Nodup) :
    Consistent (axisEntries dateParse timeline) := by
  intro e he e' he' hid
  rw [axisEntries_eq] at he he'
  obtain ⟨v, hv, rfl⟩ := List.mem_map.mp he
  obtain ⟨v', hv', rfl⟩ := List.mem_map.mp he'
  cases List.inj_on_of_nodup_map distinct hv hv' hid
  rfl

/-- The times of the axis are those of the versions. -/
theorem mem_axisTimes {time : Int} :
    time ∈ sortedTimes (axisEntries dateParse timeline) ↔
      ∃ v ∈ timelineVersions timeline, dateParse v.createdAt = time := by
  rw [sortedTimes, mem_orderBy, List.mem_dedup, axisEntries_eq, List.map_map, List.mem_map]
  rfl

/-- The tick of a version is the rank of its time. -/
theorem tickOf_eq (distinct : ((timelineVersions timeline).map VersionResponseModel.id).Nodup)
    {v : VersionResponseModel} (hv : v ∈ timelineVersions timeline) :
    (buildTimeAxis dateParse timeline).tickOf v.id =
      ((sortedTimes (axisEntries dateParse timeline)).idxOf (dateParse v.createdAt) : Int) := by
  have hentry : (⟨v.id, dateParse v.createdAt⟩ : AxisEntry) ∈ axisEntries dateParse timeline := by
    rw [axisEntries_eq]
    exact List.mem_map_of_mem hv
  show (Dict.get? (tickByVersion _) _).getD (-1) = _
  rw [get?_tickByVersion (consistent_of_distinct distinct) hentry]
  rfl

theorem tickOf_unknown {versionId : String}
    (h : versionId ∉ (timelineVersions timeline).map VersionResponseModel.id) :
    (buildTimeAxis dateParse timeline).tickOf versionId = -1 := by
  have hnone : Dict.get? (tickByVersion (axisEntries dateParse timeline)) versionId = none := by
    rw [Dict.get?_eq_none, tickByVersion, Dict.mem_keys_ofList, List.map_map, axisEntries_eq,
      List.map_map]
    exact h
  show (Dict.get? (tickByVersion _) _).getD (-1) = _
  rw [hnone]
  rfl

theorem ordinal_buildTimeAxis
    (distinct : ((timelineVersions timeline).map VersionResponseModel.id).Nodup) :
    Ordinal (buildTimeAxis dateParse timeline) (fun v => dateParse v.createdAt)
      (timelineVersions timeline) := by
  let times := sortedTimes (axisEntries dateParse timeline)
  have hsorted : times.Pairwise (· < ·) := sortedTimes_sorted _
  have htime : ∀ {v}, v ∈ timelineVersions timeline → dateParse v.createdAt ∈ times :=
    fun hv => mem_axisTimes.mpr ⟨_, hv, rfl⟩
  have hmax : (buildTimeAxis dateParse timeline).maxTick = max 0 ((times.length : Int) - 1) := rfl
  constructor
  case inRange =>
    intro v hv
    have hlt : times.idxOf (dateParse v.createdAt) < times.length :=
      List.idxOf_lt_length_iff.mpr (htime hv)
    rw [tickOf_eq distinct hv, hmax]
    show (0 : Int) ≤ times.idxOf _ ∧ (times.idxOf _ : Int) ≤ _
    omega
  case before =>
    intro a ha b hb
    rw [tickOf_eq distinct ha, tickOf_eq distinct hb, Int.ofNat_lt, ← not_le, ← not_le,
      idxOf_le_idxOf_iff hsorted (htime hb) (htime ha)]
  case same =>
    intro a ha b hb
    rw [tickOf_eq distinct ha, tickOf_eq distinct hb, Int.ofNat_inj]
    exact List.idxOf_inj (htime ha)
  case used =>
    intro hne tick hzero hle
    obtain ⟨u, hu⟩ := List.exists_mem_of_ne_nil _ hne
    have hpos : 0 < times.length := List.length_pos_of_mem (htime hu)
    have hlt : tick.toNat < times.length := by omega
    obtain ⟨v, hv, hat⟩ := mem_axisTimes.mp (List.getElem_mem hlt)
    refine ⟨v, hv, ?_⟩
    have hidx : times.idxOf (times[tick.toNat]) = tick.toNat :=
      List.Nodup.idxOf_getElem (hsorted.imp fun h => h.ne) _ hlt
    rw [tickOf_eq distinct hv, hat, hidx]
    exact Int.toNat_of_nonneg hzero
  case unknown => exact fun _ => tickOf_unknown

/-! ## Pins -/

variable {axis : TimeAxis} {tick : Int} {component : ComponentWithVersionsResponseModel}

theorem pinnedFor_eq_none :
    pinnedFor component axis tick = none ↔ ∀ v ∈ component.versions, ¬ Reached axis tick v := by
  rw [pinnedFor_eq, lastMax_eq_none, List.filter_eq_nil_iff]
  simp only [decide_eq_true_eq]

/-- A version without a tick is out of the running: the winner has one. -/
theorem reached_le_iff {u v : VersionResponseModel} {P : Int → Int → Prop}
    (hneg : ∀ {s t : Int}, s < 0 → 0 ≤ t → P s t) (hv : 0 ≤ axis.tickOf v.id) :
    (Reached axis tick u → P (axis.tickOf u.id) (axis.tickOf v.id)) ↔
      (axis.tickOf u.id ≤ tick → P (axis.tickOf u.id) (axis.tickOf v.id)) := by
  constructor
  · intro h hle
    by_cases hzero : 0 ≤ axis.tickOf u.id
    · exact h ⟨hzero, hle⟩
    · exact hneg (not_le.mp hzero) hv
  · exact fun h hreached => h hreached.2

theorem pinnedFor_eq_some {v : VersionResponseModel} :
    pinnedFor component axis tick = some v ↔ LatestReached axis tick component.versions v := by
  rw [pinnedFor_eq, lastMax_eq_some]
  constructor
  · rintro ⟨before, after, hsplit, hbefore, hafter⟩
    obtain ⟨listed, rest, hversions, rfl, hrest⟩ := List.filter_eq_append_iff.mp hsplit
    obtain ⟨skipped, later, rfl, hskipped, hv, rfl⟩ := List.filter_eq_cons_iff.mp hrest
    have hreached : Reached axis tick v := of_decide_eq_true hv
    refine ⟨listed ++ skipped, later, by rw [hversions, List.append_assoc], hreached, ?_, ?_⟩
    · intro u hu
      refine (reached_le_iff (P := (· ≤ ·)) (fun h h' => (h.trans_le h').le) hreached.1).mp ?_
      intro hin
      rcases List.mem_append.mp hu with hu | hu
      · exact hbefore u (List.mem_filter.mpr ⟨hu, decide_eq_true hin⟩)
      · exact absurd (decide_eq_true hin) (hskipped u hu)
    · intro u hu
      refine (reached_le_iff (P := (· < ·)) (fun h h' => h.trans_le h') hreached.1).mp ?_
      exact fun hin => hafter u (List.mem_filter.mpr ⟨hu, decide_eq_true hin⟩)
  · rintro ⟨listed, later, hversions, hrange, hlisted, hlater⟩
    have hreached : Reached axis tick v := hrange
    refine ⟨listed.filter fun u => Reached axis tick u, later.filter fun u => Reached axis tick u,
      ?_, ?_, ?_⟩
    · rw [hversions, List.filter_append, List.filter_cons, if_pos (decide_eq_true hreached)]
    · intro u hu
      obtain ⟨hmem, hin⟩ := List.mem_filter.mp hu
      exact hlisted u hmem (of_decide_eq_true hin).2
    · intro u hu
      obtain ⟨hmem, hin⟩ := List.mem_filter.mp hu
      exact hlater u hmem (of_decide_eq_true hin).2

/-- What is pinned has the greatest tick of the versions that have been reached. -/
theorem greatest_of_latestReached {versions : List VersionResponseModel}
    {v u : VersionResponseModel} (h : LatestReached axis tick versions v) (hu : u ∈ versions)
    (hle : axis.tickOf u.id ≤ tick) : axis.tickOf u.id ≤ axis.tickOf v.id := by
  obtain ⟨listed, later, rfl, -, hlisted, hlater⟩ := h
  rcases List.mem_append.mp hu with hu | hu
  · exact hlisted u hu hle
  · rcases List.mem_cons.mp hu with rfl | hu
    · exact le_refl _
    · exact (hlater u hu hle).le

theorem mem_of_latestReached {versions : List VersionResponseModel} {v : VersionResponseModel}
    (h : LatestReached axis tick versions v) : v ∈ versions := by
  obtain ⟨listed, later, rfl, -⟩ := h
  exact List.mem_append_right _ List.mem_cons_self

/-- A later tick pins a version that is no earlier. -/
theorem pinnedFor_mono {tick' : Int} (hle : tick ≤ tick') {v : VersionResponseModel}
    (h : pinnedFor component axis tick = some v) :
    ∃ v', pinnedFor component axis tick' = some v' ∧ axis.tickOf v.id ≤ axis.tickOf v'.id := by
  have hpinned := pinnedFor_eq_some.mp h
  obtain ⟨_, _, -, hreached, -⟩ := id hpinned
  have hreached' : Reached axis tick' v := ⟨hreached.1, hreached.2.trans hle⟩
  cases hnext : pinnedFor component axis tick' with
  | none => exact absurd hreached' (pinnedFor_eq_none.mp hnext v (mem_of_latestReached hpinned))
  | some v' =>
    have hlatest := pinnedFor_eq_some.mp hnext
    exact ⟨v', rfl, greatest_of_latestReached hlatest (mem_of_latestReached hpinned) hreached'.2⟩

end TimeAxisLemmas

open TimeAxisLemmas

/-- A version that the axis does not know has no tick; all versions of the timeline have one. -/
theorem time_axis_ordinal (dateParse : String → Int) {timeline : TimelineResponseModel}
    (distinct : ((timelineVersions timeline).map VersionResponseModel.id).Nodup) :
    Ordinal (buildTimeAxis dateParse timeline) (fun v => dateParse v.createdAt)
        (timelineVersions timeline) ∧
      ∀ (component : ComponentWithVersionsResponseModel) (tick : Int),
        (pinnedFor component (buildTimeAxis dateParse timeline) tick = none ↔
          ∀ v ∈ component.versions, ¬ (0 ≤ (buildTimeAxis dateParse timeline).tickOf v.id ∧
            (buildTimeAxis dateParse timeline).tickOf v.id ≤ tick)) ∧
        (∀ v, pinnedFor component (buildTimeAxis dateParse timeline) tick = some v ↔
          LatestReached (buildTimeAxis dateParse timeline) tick component.versions v) ∧
        ∀ tick', tick ≤ tick' → ∀ v,
          pinnedFor component (buildTimeAxis dateParse timeline) tick = some v →
            ∃ v', pinnedFor component (buildTimeAxis dateParse timeline) tick' = some v' ∧
              (buildTimeAxis dateParse timeline).tickOf v.id ≤
                (buildTimeAxis dateParse timeline).tickOf v'.id ∧
              (component ∈ timeline.components →
                dateParse v.createdAt ≤ dateParse v'.createdAt) := by
  have hordinal : Ordinal (buildTimeAxis dateParse timeline) (fun v => dateParse v.createdAt)
      (timelineVersions timeline) := ordinal_buildTimeAxis distinct
  refine ⟨hordinal, fun component tick => ⟨pinnedFor_eq_none, fun v => pinnedFor_eq_some, ?_⟩⟩
  intro tick' hle v h
  obtain ⟨v', hpinned, hticks⟩ := pinnedFor_mono hle h
  refine ⟨v', hpinned, hticks, fun hcomponent => not_lt.mp fun hlt => ?_⟩
  have hmem : ∀ {u}, u ∈ component.versions → u ∈ timelineVersions timeline :=
    fun hu => List.mem_flatMap.mpr ⟨component, hcomponent, hu⟩
  have hv := hmem (mem_of_latestReached (pinnedFor_eq_some.mp h))
  have hv' := hmem (mem_of_latestReached (pinnedFor_eq_some.mp hpinned))
  exact absurd ((hordinal.before v' hv' v hv).mpr hlt) (not_lt.mpr hticks)

end Projection

namespace Sample

/-- A version of the components below. -/
def station (id componentId createdAt : String) (minor : Int) : VersionResponseModel :=
  ⟨id, componentId, 1, minor, 0, none, .active, createdAt⟩

/-- `ui` has two versions of one day, listed after a later one; `docs` has none. -/
def lanes : TimelineResponseModel where
  product := ⟨"p", "Aurora", none, "5.0.0", "2026-05-01T00:00:00+00:00"⟩
  components :=
    [⟨"api", "p", "api", .service, [station "api-0" "api" "2026-05-01T00:00:00+00:00" 0]⟩,
     ⟨"ui", "p", "ui", .ui, [station "ui-2" "ui" "2026-05-03T00:00:00+00:00" 2,
       station "ui-0" "ui" "2026-05-01T00:00:00+00:00" 0,
       station "ui-1" "ui" "2026-05-01T00:00:00+00:00" 1]⟩,
     ⟨"docs", "p", "docs", .library, []⟩]

/-- What `Date.parse` makes of these days. -/
def parseDay (text : String) : Int :=
  if text = "2026-05-01T00:00:00+00:00" then 1777593600000
  else if text = "2026-05-03T00:00:00+00:00" then 1777766400000
  else 0

end Sample

open Projection

theorem time_axis_ordinal_lanes :
    Ordinal (buildTimeAxis Sample.parseDay Sample.lanes)
        (fun v => Sample.parseDay v.createdAt) (timelineVersions Sample.lanes) ∧
      Sample.lanes.components.map (fun component =>
          (pinnedFor component (buildTimeAxis Sample.parseDay Sample.lanes) 0).map
            VersionResponseModel.id) = [some "api-0", some "ui-1", none] :=
  ⟨(time_axis_ordinal Sample.parseDay (by decide)).1, by decide⟩

end LavsCore
