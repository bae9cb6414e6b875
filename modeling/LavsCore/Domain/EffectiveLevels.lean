import LavsCore.Lib.Propagation
import LavsCore.Domain.BumpPropagation

/-!
# What the effective levels are

On an acyclic graph the memoised recursion `effective` answers, in whatever order it
meets the nodes, with the greatest contribution along walks (`effective_exact`): every
memo entry is one, and no call ever meets a node that is being visited.

* `effective_levels_solve`: on every acyclic graph the effective levels are the only
  solution of the propagation equation, whatever the order and the multiplicity of the
  edges.
* `derive_product_bump_contraction`: on every graph between components with an own
  level, cyclic or not, the edges do not count for the product bump.
* `effective_levels_of_change`: if a single component changes, the level of another one
  tells a direct dependent from a transitive one and from all others.
-/

namespace LavsCore

open EdgeList BumpPropagationLemmas

theorem propagate_monotone : Monotone propagate := fun _ _ h => propagate_mono h

theorem maxLevel_eq_of_isGreatest {levels : List BumpLevel} {s : Set BumpLevel} {l : BumpLevel}
    (hs : ∀ l', l' ∈ levels ↔ l' ∈ s) (hl : IsGreatest s l) : maxLevel levels = l :=
  le_antisymm (maxLevel_le_iff.mpr fun l' hl' => hl.2 ((hs l').mp hl'))
    (le_maxLevel ((hs l).mpr hl.1))

variable {V : Type}

/-- The nodes of a graph: the components with an own level and the edge endpoints. -/
def IsNode (ownLevels : Dict V BumpLevel) (edges : List (V × V)) (v : V) : Prop :=
  v ∈ ownLevels.keys ∨ ∃ e ∈ edges, v = e.1 ∨ v = e.2

theorem IsNode.head {ownLevels : Dict V BumpLevel} {edges : List (V × V)} {v w : V}
    (h : Edge edges v w) : IsNode ownLevels edges w :=
  Or.inr ⟨(v, w), h, Or.inr rfl⟩

/-- If the edges are between components with an own level, these are the only nodes. -/
theorem isNode_iff_key {ownLevels : Dict V BumpLevel} {edges : List (V × V)}
    (hclosed : ∀ e ∈ edges, e.1 ∈ ownLevels.keys ∧ e.2 ∈ ownLevels.keys) {v : V} :
    IsNode ownLevels edges v ↔ v ∈ ownLevels.keys := by
  refine ⟨?_, Or.inl⟩
  rintro (h | ⟨e, he, rfl | rfl⟩)
  · exact h
  · exact (hclosed e he).1
  · exact (hclosed e he).2

variable [DecidableEq V]

namespace EffectiveLevelsLemmas

section Exact

variable {deps : Dict V (List V)} {base level : V → BumpLevel} {edges : List (V × V)}

/-- Every memoised level is the level of its node. -/
def ExactMemo (level : V → BumpLevel) (memo : Dict V BumpLevel) : Prop :=
  ∀ v l, memo.get? v = some l → l = level v

/-- One call answers with the level of its node, if the graph is acyclic and the
visited nodes are all behind it. The induction is on the fuel, of which there is more
than there are nodes left to visit. -/
theorem effective_exact (hac : Acyclic edges)
    (hdeps : ∀ v w, w ∈ dependenciesOf deps v ↔ Edge edges v w)
    (hlevel : ∀ v, IsGreatest (candidates edges base propagate level v) (level v))
    (hclosed : ∀ v w, Edge edges v w → w ∈ deps.keys) (fuel : Nat) (visiting : List V)
    (hnodup : visiting.Nodup) (hvisiting : visiting ⊆ deps.keys)
    (hfuel : deps.keys.length < fuel + visiting.length) (memo : Dict V BumpLevel)
    (hmemo : ExactMemo level memo) (node : V) (hnode : node ∈ deps.keys)
    (hbehind : ∀ u ∈ visiting, Path edges u node) :
    let r := effective deps base fuel visiting memo node
    r.1 = level node ∧ ExactMemo level r.2 := by
  induction fuel generalizing visiting memo node with
  | zero =>
    have hle : visiting.length ≤ deps.keys.length :=
      (List.subperm_of_subset hnodup hvisiting).length_le
    omega
  | succ fuel ih =>
    have hnew : node ∉ visiting := fun h => hac node (hbehind node h)
    intro r
    cases hget : memo.get? node with
    | some l =>
      have hr : r = (l, memo) := by simp only [r, effective, hget]
      rw [hr]
      exact ⟨hmemo node l hget, hmemo⟩
    | none =>
      have hcall : ∀ memo, ExactMemo level memo → ∀ d ∈ dependenciesOf deps node,
          let r := effective deps base fuel (node :: visiting) memo d
          r.1 = level d ∧ ExactMemo level r.2 := by
        intro memo hmemo d hd
        have hedge : Edge edges node d := (hdeps node d).mp hd
        exact ih (node :: visiting) (List.nodup_cons.mpr ⟨hnew, hnodup⟩)
          (List.cons_subset.mpr ⟨hnode, hvisiting⟩) (by rw [List.length_cons]; omega) memo hmemo d
          (hclosed node d hedge)
          (List.forall_mem_cons.mpr ⟨.single hedge, fun u hu => (hbehind u hu).tail hedge⟩)
      obtain ⟨levels, after, hrun, hafter, hfrom, hfound⟩ :=
        effective_new hget hnew (R := fun d l => l = level d) hcall hmemo
      have hresult : maxLevel (base node :: levels) = level node := by
        refine maxLevel_eq_of_isGreatest (fun l => ?_) (hlevel node)
        rw [List.mem_cons]
        refine or_congr Iff.rfl ⟨fun hl => ?_, fun hl => ?_⟩
        · obtain ⟨d, hd, below, rfl, rfl⟩ := hfrom l hl
          exact ⟨d, (hdeps node d).mp hd, rfl⟩
        · obtain ⟨d, hd, rfl⟩ := hl
          obtain ⟨below, rfl, hmem⟩ := hfound d ((hdeps node d).mpr hd)
          exact hmem
      have hr : r = (maxLevel (base node :: levels), _) := hrun
      rw [hr]
      exact ⟨hresult, Dict.forall_get?_set hafter hresult⟩

end Exact

end EffectiveLevelsLemmas

open EffectiveLevelsLemmas

/-- On every graph exactly the nodes get an effective level. -/
theorem effective_levels_keys (ownLevels : Dict V BumpLevel) (edges : List (V × V)) (v : V) :
    v ∈ (effectiveLevels ownLevels edges).keys ↔ IsNode ownLevels edges v := by
  obtain ⟨_, hkeys⟩ := effective_levels_run ownLevels edges
    (Q := fun _ => True) (R := fun _ _ => True) trivial fun _ _ _ _ => ⟨trivial, trivial⟩
  exact (hkeys v).trans mem_dependencyMap_keys

/-- On an acyclic graph the nodes have an effective level each, and it is the greatest
contribution. -/
theorem effective_levels_get? {ownLevels : Dict V BumpLevel} {edges : List (V × V)}
    (hac : Acyclic edges) {level : V → BumpLevel}
    (hlevel : ∀ v, IsGreatest (contributions edges (baseLevel ownLevels) propagate v) (level v))
    (v : V) :
    (IsNode ownLevels edges v → (effectiveLevels ownLevels edges).get? v = some (level v)) ∧
      (¬ IsNode ownLevels edges v → (effectiveLevels ownLevels edges).get? v = none) := by
  have hsolves : Solves Set.univ edges (baseLevel ownLevels) propagate level :=
    solves_of_contributions (fun _ _ _ _ => Set.mem_univ _) propagate_monotone
      fun v _ => hlevel v
  have hclosed : ∀ v w, Edge edges v w → w ∈ (dependencyMap ownLevels edges).keys :=
    fun v w h => mem_dependencyMap_keys.mpr (IsNode.head h)
  obtain ⟨hout, _⟩ := effective_levels_run ownLevels edges (Q := ExactMemo level)
    (R := fun v l => l = level v) (fun v l h => by cases h) (fun memo hmemo node hnode =>
      effective_exact hac (fun _ _ => mem_dependenciesOf) (fun v => hsolves v (Set.mem_univ v))
        hclosed _ [] List.nodup_nil (List.nil_subset _) (Nat.lt_succ_self _) memo hmemo node hnode
        fun _ h => absurd h List.not_mem_nil)
  have hnode := effective_levels_keys ownLevels edges v
  constructor
  · intro h
    obtain ⟨l, hl⟩ := Dict.mem_keys_iff.mp (hnode.mpr h)
    rw [hl, hout v l hl]
  · exact fun h => Dict.get?_eq_none.mpr fun hk => h (hnode.mp hk)

/-- On an acyclic graph the effective level of a node is its greatest contribution. -/
theorem effective_levels_isGreatest {ownLevels : Dict V BumpLevel} {edges : List (V × V)}
    (hac : Acyclic edges) {v : V} (hv : IsNode ownLevels edges v) :
    IsGreatest (contributions edges (baseLevel ownLevels) propagate v)
      (effectiveOf (effectiveLevels ownLevels edges) v) := by
  have hexists : ∀ v, ∃ l, IsGreatest (contributions edges (baseLevel ownLevels) propagate v) l :=
    exists_greatest hac propagate_monotone
  choose level hlevel using hexists
  rw [effectiveOf, (effective_levels_get? hac hlevel v).1 hv]
  exact hlevel v

/-- On an acyclic graph the effective levels are those of the nodes, and they are the
only solution of the propagation equation: at every node the greatest contribution along
walks. They depend on nothing but the own level of each component and on which edges
there are, and the recursion has fuel to spare. -/
theorem effective_levels_solve {ownLevels : Dict V BumpLevel} {edges : List (V × V)}
    (hac : Acyclic edges) :
    let effectives := effectiveLevels ownLevels edges
    let nodes : Set V := {v | IsNode ownLevels edges v}
    (∀ v, v ∈ effectives.keys ↔ v ∈ nodes) ∧
      Solves nodes edges (baseLevel ownLevels) propagate (effectiveOf effectives) ∧
      (∀ level, Solves nodes edges (baseLevel ownLevels) propagate level →
        ∀ v ∈ nodes, level v = effectiveOf effectives v) ∧
      (∀ v ∈ nodes, IsGreatest (contributions edges (baseLevel ownLevels) propagate v)
        (effectiveOf effectives v)) ∧
      (∀ (ownLevels' : Dict V BumpLevel) (edges' : List (V × V)),
        (∀ v, ownLevels'.get? v = ownLevels.get? v) → (∀ e, e ∈ edges' ↔ e ∈ edges) →
        ∀ v, (effectiveLevels ownLevels' edges').get? v = effectives.get? v) ∧
      ∀ more memo, ∀ v ∈ nodes,
        effective (dependencyMap ownLevels edges) (baseLevel ownLevels)
            ((dependencyMap ownLevels edges).keys.length + 1 + more) [] memo v =
          effective (dependencyMap ownLevels edges) (baseLevel ownLevels)
            ((dependencyMap ownLevels edges).keys.length + 1) [] memo v := by
  intro effectives nodes
  have hexists : ∀ v, ∃ l, IsGreatest (contributions edges (baseLevel ownLevels) propagate v) l :=
    exists_greatest hac propagate_monotone
  choose level hlevel using hexists
  have hget := effective_levels_get? hac hlevel
  have hclosed : ∀ v ∈ nodes, ∀ w, Edge edges v w → w ∈ nodes := fun _ _ _ h => IsNode.head h
  have hgreatest : ∀ v ∈ nodes, IsGreatest
      (contributions edges (baseLevel ownLevels) propagate v) (effectiveOf effectives v) :=
    fun v hv => effective_levels_isGreatest hac hv
  have hsolves := solves_of_contributions hclosed propagate_monotone hgreatest
  refine ⟨effective_levels_keys ownLevels edges, hsolves, ?_, hgreatest, ?_, ?_⟩
  · exact fun level' h v hv => h.unique hclosed hac propagate_monotone hsolves hv
  · intro ownLevels' edges' hown hedges v
    have hbase : baseLevel ownLevels' = baseLevel ownLevels :=
      funext fun v => by rw [baseLevel, baseLevel, hown v]
    have hnode : IsNode ownLevels' edges' v ↔ IsNode ownLevels edges v := by
      simp only [IsNode, Dict.mem_keys_iff, hown, hedges]
    have hlevel' : ∀ v, IsGreatest (contributions edges' (baseLevel ownLevels') propagate v)
        (level v) := by
      intro v
      rw [contributions_congr hedges, hbase]
      exact hlevel v
    have hget' := effective_levels_get? (hac.mono fun e he => (hedges e).mp he) hlevel' v
    rcases Classical.em (IsNode ownLevels edges v) with hv | hv
    · rw [hget'.1 (hnode.mpr hv), (hget v).1 hv]
    · rw [hget'.2 (mt hnode.mp hv), (hget v).2 hv]
  · exact fun more memo v hv =>
      effective_levels_fuel ownLevels edges more memo (mem_dependencyMap_keys.mpr hv)

/-- A chain over an endpoint without an own level, with one edge twice: the minor
contribution of that endpoint arrives as a patch. -/
theorem effective_levels_solve_dangling :
    let ownLevels : Dict Nat BumpLevel := Dict.ofList [(1, .none), (2, .patch)]
    let edges := [(1, 2), (2, 3), (1, 2)]
    (effectiveLevels ownLevels edges).rows = [(1, .patch), (2, .minor), (3, .major)] ∧
      Solves {v | IsNode ownLevels edges v} edges (baseLevel ownLevels) propagate
        (effectiveOf (effectiveLevels ownLevels edges)) := by
  intro ownLevels edges
  have hlt : ∀ v w, Path edges v w → v < w := by
    intro v w h
    have hedge : ∀ e ∈ edges, e.1 < e.2 := by decide
    induction h with
    | single he => exact hedge _ he
    | tail _ he ih => exact lt_trans ih (hedge _ he)
  exact ⟨by decide, (effective_levels_solve fun v h => Nat.lt_irrefl v (hlt v v h)).2.1⟩

/-! ## Contraction -/

namespace EffectiveLevelsLemmas

/-- A bound of all own levels is respected by the propagation rule. -/
theorem propagate_bound_le {ownLevels : Dict V BumpLevel} {edges : List (V × V)}
    (hclosed : ∀ e ∈ edges, e.1 ∈ ownLevels.keys ∧ e.2 ∈ ownLevels.keys) (bound : BumpLevel) :
    let upper : V → BumpLevel := fun v => if v ∈ ownLevels.keys then bound else .major
    ∀ e ∈ edges, propagate (upper e.2) ≤ upper e.1 := by
  intro upper e he
  show propagate (if e.2 ∈ ownLevels.keys then bound else .major) ≤
    if e.1 ∈ ownLevels.keys then bound else .major
  rw [if_pos (hclosed e he).1, if_pos (hclosed e he).2]
  exact propagate_le bound

theorem base_le_bound {ownLevels : Dict V BumpLevel} {bound : BumpLevel}
    (hbound : ∀ v l, ownLevels.get? v = some l → l ≤ bound) (v : V) :
    baseLevel ownLevels v ≤ if v ∈ ownLevels.keys then bound else .major := by
  split
  · next hv =>
    obtain ⟨l, hl⟩ := Dict.mem_keys_iff.mp hv
    rw [baseLevel, hl]
    exact hbound v l hl
  · exact BumpLevel.le_major _

end EffectiveLevelsLemmas

/-- Between components with an own level no edge raises the product bump: it is the
greatest own level, or major if a component was removed. No effective level is above the
greatest own level, and none below the own level of its component. The edges may form
cycles. -/
theorem derive_product_bump_contraction {ownLevels : Dict V BumpLevel} {edges : List (V × V)}
    (hclosed : ∀ e ∈ edges, e.1 ∈ ownLevels.keys ∧ e.2 ∈ ownLevels.keys) (removedAny : Bool) :
    ∃ greatest, IsLUB {l | ∃ v, ownLevels.get? v = some l} greatest ∧
      deriveProductBump ownLevels edges removedAny =
        (if removedAny then .major else greatest) ∧
      (∀ v l, (effectiveLevels ownLevels edges).get? v = some l →
        ∃ own, ownLevels.get? v = some own ∧ own ≤ l ∧ l ≤ greatest) ∧
      (∀ v ∈ ownLevels.keys, v ∈ (effectiveLevels ownLevels edges).keys) ∧
      ∀ more memo, ∀ v ∈ ownLevels.keys,
        effective (dependencyMap ownLevels edges) (baseLevel ownLevels)
            ((dependencyMap ownLevels edges).keys.length + 1 + more) [] memo v =
          effective (dependencyMap ownLevels edges) (baseLevel ownLevels)
            ((dependencyMap ownLevels edges).keys.length + 1) [] memo v := by
  have hown : ∀ v l, ownLevels.get? v = some l → l ≤ deriveProductBump ownLevels edges false := by
    intro v l hl
    have hle : baseLevel ownLevels v ≤ deriveProductBump ownLevels edges false :=
      (le_derive_product_bump (Dict.mem_keys_iff.mpr ⟨l, hl⟩)).1
    rwa [baseLevel, hl] at hle
  have hbump : deriveProductBump ownLevels edges removedAny =
      if removedAny then .major else deriveProductBump ownLevels edges false := by
    cases removedAny with
    | false => rfl
    | true => exact derive_product_bump_removed ownLevels edges
  have hlevel : ∀ v ∈ ownLevels.keys, ∃ l, (effectiveLevels ownLevels edges).get? v = some l ∧
      baseLevel ownLevels v ≤ l ∧ l ≤ deriveProductBump ownLevels edges false := by
    intro v hv
    obtain ⟨l, hl, hlow, hhigh, _⟩ := effective_levels_bounds (base_le_bound hown)
      (propagate_bound_le hclosed _) (mem_dependencyMap_keys.mpr (Or.inl hv))
    rw [if_pos hv] at hhigh
    exact ⟨l, hl, hlow, hhigh⟩
  refine ⟨deriveProductBump ownLevels edges false, ⟨?_, ?_⟩, hbump, ?_, ?_, ?_⟩
  · rintro l ⟨v, hl⟩
    exact hown v l hl
  · intro bound hbound
    refine derive_product_bump_le (base_le_bound fun v l hl => hbound ⟨v, hl⟩)
      (propagate_bound_le hclosed bound) fun v hv => ?_
    rw [if_pos hv]
  · intro v l hl
    have hkey : v ∈ ownLevels.keys := by
      have hnode := (effective_levels_keys ownLevels edges v).mp (Dict.mem_keys_iff.mpr ⟨l, hl⟩)
      exact (isNode_iff_key hclosed).mp hnode
    obtain ⟨own, hown'⟩ := Dict.mem_keys_iff.mp hkey
    obtain ⟨l', hl', hlow, hhigh⟩ := hlevel v hkey
    rw [hl] at hl'
    cases hl'
    rw [baseLevel, hown'] at hlow
    exact ⟨own, hown', hlow, hhigh⟩
  · intro v hv
    obtain ⟨l, hl, _⟩ := hlevel v hv
    exact Dict.mem_keys_iff.mpr ⟨l, hl⟩
  · exact fun more memo v hv =>
      effective_levels_fuel ownLevels edges more memo (mem_dependencyMap_keys.mpr (Or.inl hv))

/-- Two components that depend on each other, one of them on itself as well. -/
theorem derive_product_bump_contraction_cycle :
    let ownLevels : Dict Nat BumpLevel := Dict.ofList [(1, .none), (2, .minor)]
    let edges := [(1, 2), (2, 1), (1, 1), (1, 2)]
    deriveProductBump ownLevels edges false = .minor ∧
      ∃ greatest, IsLUB {l | ∃ v, ownLevels.get? v = some l} greatest ∧
        deriveProductBump ownLevels edges false = greatest := by
  intro ownLevels edges
  obtain ⟨greatest, hlub, hbump, _⟩ :=
    @derive_product_bump_contraction Nat _ ownLevels edges (by decide) false
  exact ⟨by decide, greatest, hlub, hbump⟩

/-! ## One changed component -/

namespace EffectiveLevelsLemmas

theorem iterate_propagate_none (k : Nat) : propagate^[k] .none = .none :=
  Function.iterate_fixed rfl k

theorem iterate_propagate_major (k : Nat) : propagate^[k + 2] .major = .patch := by
  show propagate^[k] .patch = .patch
  exact Function.iterate_fixed rfl k

end EffectiveLevelsLemmas

section SingleChange

variable {ownLevels : Dict V BumpLevel} {edges : List (V × V)} {changed : V}
  (hclosed : ∀ e ∈ edges, e.1 ∈ ownLevels.keys ∧ e.2 ∈ ownLevels.keys)
  (hchanged : ownLevels.get? changed = some .major)
  (hothers : ∀ v l, ownLevels.get? v = some l → v ≠ changed → l = .none)
include hclosed hchanged hothers

/-- Nothing but the change contributes to another component. -/
theorem EffectiveLevelsLemmas.contributions_of_change {v : V} {l : BumpLevel}
    (hv : v ∈ ownLevels.keys) (hne : v ≠ changed)
    (hl : l ∈ contributions edges (baseLevel ownLevels) propagate v) :
    l = .none ∨ (l = .minor ∧ Edge edges v changed) ∨ (l = .patch ∧ Reach edges v changed) := by
  obtain ⟨k, w, hk, rfl⟩ := hl
  rcases eq_or_ne w changed with rfl | hw
  · rw [baseLevel, hchanged]
    rcases hk.short_cases with ⟨-, rfl⟩ | ⟨rfl, he⟩ | ⟨j, rfl⟩
    · exact absurd rfl hne
    · exact Or.inr (Or.inl ⟨rfl, he⟩)
    · exact Or.inr (Or.inr ⟨iterate_propagate_major j, hk.reach⟩)
  · have hkey : w ∈ ownLevels.keys := by
      cases hk.reach.cases_tail with
      | inl h => exact h ▸ hv
      | inr h =>
        obtain ⟨u, _, he⟩ := h
        exact (hclosed _ he).2
    obtain ⟨own, hown⟩ := Dict.mem_keys_iff.mp hkey
    left
    rw [baseLevel, hown, hothers w own hown hw]
    exact iterate_propagate_none k

/-- If one component has a major change and no other component any, then the level of
another component says how it depends on the changed one. -/
theorem effective_levels_of_change (hac : Acyclic edges) {v : V} (hv : v ∈ ownLevels.keys)
    (hne : v ≠ changed) :
    let level := effectiveOf (effectiveLevels ownLevels edges) v
    (level ≠ .none ↔ Reach edges v changed) ∧
      (Reach edges v changed → level = if (v, changed) ∈ edges then .minor else .patch) := by
  intro level
  obtain ⟨hmem, hmax⟩ : IsGreatest (contributions edges (baseLevel ownLevels) propagate v) level :=
    effective_levels_isGreatest hac (Or.inl hv)
  have hcases := contributions_of_change hclosed hchanged hothers hv hne hmem
  have hwalk : ∀ k, Walk edges k v changed → propagate^[k] .major ≤ level := by
    intro k hk
    refine hmax ⟨k, changed, hk, ?_⟩
    rw [baseLevel, hchanged]
    rfl
  have hreach : Reach edges v changed →
      level = if (v, changed) ∈ edges then .minor else .patch := by
    intro h
    obtain ⟨k, hk⟩ := reach_iff_walk.mp h
    split
    · next he =>
      have hle : BumpLevel.minor ≤ level := hwalk 1 (.cons he (.nil changed))
      rcases hcases with heq | ⟨heq, _⟩ | ⟨heq, _⟩
      · exact absurd (heq ▸ hle) (by decide)
      · exact heq
      · exact absurd (heq ▸ hle) (by decide)
    · next hnot =>
      have hle : BumpLevel.patch ≤ level := by
        rcases hk.short_cases with ⟨-, rfl⟩ | ⟨-, he⟩ | ⟨j, rfl⟩
        · exact absurd rfl hne
        · exact absurd he hnot
        · exact iterate_propagate_major j ▸ hwalk (j + 2) hk
      rcases hcases with heq | ⟨_, he⟩ | ⟨heq, _⟩
      · exact absurd (heq ▸ hle) (by decide)
      · exact absurd he hnot
      · exact heq
  refine ⟨⟨?_, ?_⟩, hreach⟩
  · intro hnot
    rcases hcases with heq | ⟨_, he⟩ | ⟨_, h⟩
    · exact absurd heq hnot
    · exact Relation.ReflTransGen.single he
    · exact h
  · intro h
    rw [hreach h]
    split <;> decide

end SingleChange

end LavsCore
