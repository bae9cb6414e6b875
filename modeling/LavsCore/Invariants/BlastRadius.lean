import LavsCore.Domain.EffectiveLevels
import LavsCore.Invariants.DependencyEdges
import LavsCore.Queries.Impact

/-!
# The blast radius of a component

`impact_eq_dependents`: on an acyclic graph between components of the product, the
components that `ImpactQuery` answers are exactly the transitive dependents of the one in
question. `impact_run`: that is so in every reachable store.
-/

namespace LavsCore

open EdgeList

namespace ImpactLemmas

variable {componentIds : List String} {componentId : String}

theorem impactOwnLevels_get? (id : String) :
    (impactOwnLevels componentIds componentId).get? id =
      if id = componentId then some .major
      else if id ∈ componentIds then some .none else none := by
  rw [impactOwnLevels, Dict.get?_set]
  refine ite_congr rfl (fun _ => rfl) fun _ => ?_
  split
  · next h =>
    refine Dict.get?_ofList (List.mem_map.mpr ⟨id, h, rfl⟩) fun l hl => ?_
    obtain ⟨_, _, heq⟩ := List.mem_map.mp hl
    cases heq
    rfl
  · next h =>
    rw [Dict.get?_eq_none, Dict.mem_keys_ofList, List.map_map]
    intro hid
    obtain ⟨id', hid', rfl⟩ := List.mem_map.mp hid
    exact h hid'

theorem mem_impactOwnLevels_keys (hcomponent : componentId ∈ componentIds) {id : String} :
    id ∈ (impactOwnLevels componentIds componentId).keys ↔ id ∈ componentIds := by
  rw [Dict.mem_keys_iff, impactOwnLevels_get?]
  split
  · next h =>
    subst h
    exact iff_of_true ⟨_, rfl⟩ hcomponent
  · split
    · next h => exact iff_of_true ⟨_, rfl⟩ h
    · next h => exact iff_of_false (by rintro ⟨_, ⟨⟩⟩) h

/-- The impacted components are the dependents, with the text of their level. -/
theorem mem_impactedComponents {edges : List (String × String)} (hac : Acyclic edges)
    (hends : ∀ e ∈ edges, e.1 ∈ componentIds ∧ e.2 ∈ componentIds)
    (hcomponent : componentId ∈ componentIds) (id level : String) :
    ⟨id, level⟩ ∈ impactedComponents componentIds edges componentId ↔
      id ∈ componentIds ∧ id ≠ componentId ∧ Reach edges id componentId ∧
        level = if (id, componentId) ∈ edges then "minor" else "patch" := by
  have hkeys : ∀ {v}, v ∈ (impactOwnLevels componentIds componentId).keys ↔ v ∈ componentIds :=
    mem_impactOwnLevels_keys hcomponent
  have hchanged : (impactOwnLevels componentIds componentId).get? componentId = some .major := by
    rw [impactOwnLevels_get?, if_pos rfl]
  have hothers : ∀ v l, (impactOwnLevels componentIds componentId).get? v = some l →
      v ≠ componentId → l = .none := by
    intro v l hl hne
    rw [impactOwnLevels_get?, if_neg hne] at hl
    split at hl
    · exact (Option.some.inj hl).symm
    · cases hl
  have hlevel : ∀ v ∈ componentIds, v ≠ componentId → _ := fun v hv hne =>
    effective_levels_of_change (fun e he => ⟨hkeys.mpr (hends e he).1, hkeys.mpr (hends e he).2⟩)
      hchanged hothers hac (hkeys.mpr hv) hne
  simp only [impactedComponents, List.mem_map, List.mem_filter, decide_eq_true_eq,
    ImpactedComponentModel.mk.injEq]
  constructor
  · rintro ⟨id, ⟨hid, hne, hnone⟩, rfl, rfl⟩
    obtain ⟨hiff, heq⟩ := hlevel id hid hne
    refine ⟨hid, hne, hiff.mp hnone, ?_⟩
    rw [heq (hiff.mp hnone)]
    split <;> rfl
  · rintro ⟨hid, hne, hreach, rfl⟩
    obtain ⟨hiff, heq⟩ := hlevel id hid hne
    refine ⟨id, ⟨hid, hne, hiff.mpr hreach⟩, rfl, ?_⟩
    rw [heq hreach]
    split <;> rfl

theorem impactedComponents_ids (edges : List (String × String)) :
    ((impactedComponents componentIds edges componentId).map
      ImpactedComponentModel.componentId).Sublist componentIds := by
  rw [impactedComponents, List.map_map]
  exact (List.map_id'' (fun _ => rfl) _).symm ▸ List.filter_sublist

end ImpactLemmas

open ImpactLemmas

/-- The blast radius of a component: where the edges of its product form no cycle, the
impacted components are exactly those from which it can be reached, each of them once and
in the order of the ids; the direct dependents get a minor change and the others a patch. -/
theorem impact_eq_dependents (w : World) (data : ImpactRequest)
    (hac : Acyclic (w.db.edges data.productId))
    (hends : ∀ e ∈ w.db.edges data.productId,
      w.db.OwnsComponent data.productId e.1 ∧ w.db.OwnsComponent data.productId e.2)
    (hcomponent : w.db.OwnsComponent data.productId data.componentId) :
    ∃ impacted, (readImpact data).run w = (.ok ⟨data.componentId, impacted⟩, w) ∧
      (∀ id level, ⟨id, level⟩ ∈ impacted ↔
        w.db.OwnsComponent data.productId id ∧ id ≠ data.componentId ∧
          Reach (w.db.edges data.productId) id data.componentId ∧
          level = if (id, data.componentId) ∈ w.db.edges data.productId then "minor"
            else "patch") ∧
      (impacted.map ImpactedComponentModel.componentId).Pairwise (· < ·) := by
  refine ⟨_, readImpact_run hcomponent, fun id level => ?_, ?_⟩
  · rw [← Store.mem_componentIds]
    refine mem_impactedComponents hac (fun e he => ?_) (Store.mem_componentIds.mpr hcomponent) id
      level
    exact ⟨Store.mem_componentIds.mpr (hends e he).1, Store.mem_componentIds.mpr (hends e he).2⟩
  · exact (w.db.componentIds_sorted data.productId).sublist (impactedComponents_ids _)

/-- `aaa → api → web`. -/
theorem impact_eq_dependents_chain :
    let w := run World.init (Sample.setup ++ Sample.third ++
      [(.addDependency true ⟨Sample.id 10, Sample.id 11, Sample.id 12⟩, Sample.env 40),
       (.addDependency true ⟨Sample.id 10, Sample.id 13, Sample.id 11⟩, Sample.env 41)])
    ∃ impacted, (readImpact ⟨Sample.id 10, Sample.id 12⟩).run w =
        (.ok ⟨Sample.id 12, impacted⟩, w) ∧
      ⟨Sample.id 11, "minor"⟩ ∈ impacted ∧ ⟨Sample.id 13, "patch"⟩ ∈ impacted := by
  intro w
  have hsound : SoundEdges w.db (Sample.id 10) (w.db.edges (Sample.id 10)) :=
    soundGraph_run (w := World.init) soundGraph_empty _ (Sample.id 10)
  have hedges : w.db.edges (Sample.id 10) =
      [(Sample.id 11, Sample.id 12), (Sample.id 13, Sample.id 11)] := by decide +kernel
  have hapi : Edge (w.db.edges (Sample.id 10)) (Sample.id 11) (Sample.id 12) := by
    rw [hedges]
    exact List.mem_cons_self
  have haaa : Edge (w.db.edges (Sample.id 10)) (Sample.id 13) (Sample.id 11) := by
    rw [hedges]
    exact List.mem_cons_of_mem _ List.mem_cons_self
  obtain ⟨impacted, hrun, hmem, _⟩ := impact_eq_dependents w ⟨Sample.id 10, Sample.id 12⟩
    hsound.acyclic hsound.endpoints (hsound.endpoints _ hapi).2
  refine ⟨impacted, hrun, (hmem _ _).mpr ?_, (hmem _ _).mpr ?_⟩
  · refine ⟨(hsound.endpoints _ hapi).1, by decide, .single hapi, ?_⟩
    exact (if_pos hapi).symm
  · refine ⟨(hsound.endpoints _ haaa).1, by decide, .tail (.single haaa) hapi, ?_⟩
    rw [hedges]
    decide

/-- In every reachable store the query answers the blast radius of each component. -/
theorem impact_run (requests : List Request) (data : ImpactRequest) :
    let w := run World.init requests
    w.db.OwnsComponent data.productId data.componentId →
      ∃ impacted, (readImpact data).run w = (.ok ⟨data.componentId, impacted⟩, w) ∧
        ∀ id level, ⟨id, level⟩ ∈ impacted ↔
          id ∈ w.db.componentIds data.productId ∧ id ≠ data.componentId ∧
            Reach (w.db.edges data.productId) id data.componentId ∧
            level = if (id, data.componentId) ∈ w.db.edges data.productId then "minor"
              else "patch" := by
  intro w hcomponent
  have hsound : SoundEdges w.db data.productId (w.db.edges data.productId) :=
    soundGraph_run (w := World.init) soundGraph_empty requests data.productId
  refine ⟨_, readImpact_run hcomponent, fun id level => ?_⟩
  refine mem_impactedComponents hsound.acyclic (fun e he => ?_)
    (Store.mem_componentIds.mpr hcomponent) id level
  exact ⟨Store.mem_componentIds.mpr (hsound.endpoints e he).1,
    Store.mem_componentIds.mpr (hsound.endpoints e he).2⟩

end LavsCore
