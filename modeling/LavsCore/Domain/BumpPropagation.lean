import LavsCore.Lib.Dict
import LavsCore.Domain.ChangeClassifier

/-!
# Propagation of change levels

`app/domain/bump_propagation.py`: the effective level of every component of a
product and the bump of the product.

`effective_levels_bounds` holds on every graph, cyclic or not: an effective level is
at least the base level of its node and at least what a direct dependency's base
contributes, and it is below every function that is closed under the propagation
rule. `derive_product_bump_le` and `le_derive_product_bump` are the same facts for
the product bump, and `derive_product_bump_eq_iff` says when the edges do not count for
it. `effective_levels_fuel` shows that the recursion never runs out of fuel.
-/

namespace LavsCore

/-- `max_level`: the highest level, `none` for the empty list. -/
def maxLevel (levels : List BumpLevel) : BumpLevel :=
  BumpLevel.byOrdinal (levels.foldl (fun highest level => max highest level.ordinal) 0)

/-- `propagate`: what a dependency contributes to its dependents. -/
def propagate : BumpLevel → BumpLevel
  | .none => .none
  | .patch => .patch
  | .minor => .patch
  | .major => .minor

variable {V : Type} [DecidableEq V]

/-- The dependencies of every node: the components with an own level and every edge
endpoint. -/
def dependencyMap (ownLevels : Dict V BumpLevel) (edges : List (V × V)) : Dict V (List V) :=
  edges.foldl
    (fun d e => (Dict.setDefault (Dict.setDefault d e.1 []) e.2 []).modify e.1 (· ++ [e.2]))
    (ownLevels.mapValues fun _ _ => [])

/-- `own_levels.get(node, BumpLevel.MAJOR)`. -/
def baseLevel (ownLevels : Dict V BumpLevel) (node : V) : BumpLevel :=
  (ownLevels.get? node).getD .major

/-- `dependencies[node]`. -/
def dependenciesOf (deps : Dict V (List V)) (node : V) : List V := (deps.get? node).getD []

/-- The recursion `effective` of `effective_levels`, with the memo passed along.
The source adds the node to `visiting` before it descends and discards it after, so
the set is passed down here. Every descent visits one more node; the fuel-less
branch would be the back-edge branch of the source, and it is never reached
(`effective_levels_fuel`). -/
def effective (deps : Dict V (List V)) (base : V → BumpLevel) :
    Nat → List V → Dict V BumpLevel → V → BumpLevel × Dict V BumpLevel
  | 0, _, memo, node => (base node, memo)
  | fuel + 1, visiting, memo, node =>
    match memo.get? node with
    | some level => (level, memo)
    | none =>
      if node ∈ visiting then (base node, memo)
      else
        let below := (dependenciesOf deps node).foldl
          (fun acc dependency =>
            let r := effective deps base fuel (node :: visiting) acc.2 dependency
            (acc.1 ++ [propagate r.1], r.2))
          ([], memo)
        let result := maxLevel (base node :: below.1)
        (result, below.2.set node result)

/-- `effective_levels`. -/
def effectiveLevels (ownLevels : Dict V BumpLevel) (edges : List (V × V)) : Dict V BumpLevel :=
  let deps := dependencyMap ownLevels edges
  (deps.keys.foldl
    (fun acc node =>
      let r := effective deps (baseLevel ownLevels) (deps.keys.length + 1) [] acc.2 node
      (Dict.set acc.1 node r.1, r.2))
    ((Table.empty : Dict V BumpLevel), (Table.empty : Dict V BumpLevel))).1

/-- `effective[component]`. Every component with an own level is a key
(`effective_levels_bounds`). -/
def effectiveOf (levels : Dict V BumpLevel) (component : V) : BumpLevel :=
  (levels.get? component).getD .none

/-- `derive_product_bump`. -/
def deriveProductBump (ownLevels : Dict V BumpLevel) (edges : List (V × V))
    (removedAny : Bool) : BumpLevel :=
  let levels := ownLevels.keys.map (effectiveOf (effectiveLevels ownLevels edges))
  maxLevel (if removedAny then levels ++ [.major] else levels)

/-! ## Levels -/

namespace BumpPropagationLemmas

theorem foldl_max_le_iff (levels : List BumpLevel) (start bound : Nat) :
    levels.foldl (fun highest level => max highest level.ordinal) start ≤ bound ↔
      start ≤ bound ∧ ∀ l ∈ levels, l.ordinal ≤ bound := by
  induction levels generalizing start with
  | nil => simp
  | cons l levels ih =>
    rw [List.foldl_cons, ih, Nat.max_le, List.forall_mem_cons, and_assoc]

theorem ordinal_maxLevel (levels : List BumpLevel) :
    (maxLevel levels).ordinal =
      levels.foldl (fun highest level => max highest level.ordinal) 0 := by
  refine BumpLevel.ordinal_byOrdinal ?_
  exact (foldl_max_le_iff levels 0 3).mpr ⟨Nat.zero_le 3, fun l _ => l.ordinal_le⟩

end BumpPropagationLemmas

open BumpPropagationLemmas

theorem maxLevel_le_iff {levels : List BumpLevel} {bound : BumpLevel} :
    maxLevel levels ≤ bound ↔ ∀ l ∈ levels, l ≤ bound := by
  rw [BumpLevel.le_iff_ordinal, ordinal_maxLevel, foldl_max_le_iff]
  simp [BumpLevel.le_iff_ordinal]

theorem le_maxLevel {levels : List BumpLevel} {l : BumpLevel} (h : l ∈ levels) :
    l ≤ maxLevel levels :=
  maxLevel_le_iff.mp le_rfl l h

theorem propagate_mono {a b : BumpLevel} (h : a ≤ b) : propagate a ≤ propagate b := by
  revert h
  cases a <;> cases b <;> decide

/-- The propagation never raises a level. -/
theorem propagate_le (l : BumpLevel) : propagate l ≤ l := by
  cases l <;> decide

/-! ## The dependency map -/

namespace BumpPropagationLemmas

theorem dependenciesOf_step (d : Dict V (List V)) (a b v : V) :
    dependenciesOf ((Dict.setDefault (Dict.setDefault d a []) b []).modify a (· ++ [b])) v =
      if v = a then dependenciesOf d v ++ [b] else dependenciesOf d v := by
  have hdefault : ∀ (d : Dict V (List V)) (k : V),
      dependenciesOf (Dict.setDefault d k []) v = dependenciesOf d v := by
    intro d k
    unfold dependenciesOf
    rw [Dict.get?_setDefault]
    split
    · next h => rw [Dict.get?_eq_none.mpr (h.1 ▸ h.2)]; rfl
    · rfl
  unfold dependenciesOf at hdefault ⊢
  rw [Dict.get?_modify]
  split
  · next h =>
    have hkey : v ∈ (Dict.setDefault (Dict.setDefault d a []) b []).keys := by simp [h]
    obtain ⟨ds, hds⟩ := Dict.mem_keys_iff.mp hkey
    rw [← hdefault d a, ← hdefault (Dict.setDefault d a []) b, hds]
    rfl
  · rw [hdefault, hdefault]

theorem dependenciesOf_foldl (edges : List (V × V)) (d : Dict V (List V)) (v : V) :
    dependenciesOf (edges.foldl
        (fun d e => (Dict.setDefault (Dict.setDefault d e.1 []) e.2 []).modify e.1 (· ++ [e.2])) d)
        v =
      dependenciesOf d v ++ (edges.filter fun e => e.1 = v).map Prod.snd := by
  induction edges generalizing d with
  | nil => simp
  | cons e edges ih =>
    rw [List.foldl_cons, ih, dependenciesOf_step]
    by_cases hv : v = e.1
    · simp [hv]
    · simp [hv, Ne.symm hv]

theorem mem_keys_foldl (edges : List (V × V)) (d : Dict V (List V)) (v : V) :
    v ∈ (edges.foldl
        (fun d e => (Dict.setDefault (Dict.setDefault d e.1 []) e.2 []).modify e.1 (· ++ [e.2]))
        d).keys ↔
      v ∈ d.keys ∨ ∃ e ∈ edges, v = e.1 ∨ v = e.2 := by
  induction edges generalizing d with
  | nil => simp
  | cons e edges ih =>
    rw [List.foldl_cons, ih]
    simp [or_assoc]

end BumpPropagationLemmas

/-- The nodes are the components with an own level and the edge endpoints. -/
theorem mem_dependencyMap_keys {ownLevels : Dict V BumpLevel} {edges : List (V × V)} {v : V} :
    v ∈ (dependencyMap ownLevels edges).keys ↔
      v ∈ ownLevels.keys ∨ ∃ e ∈ edges, v = e.1 ∨ v = e.2 := by
  rw [dependencyMap, mem_keys_foldl, Dict.mapValues_keys]

theorem mem_dependenciesOf {ownLevels : Dict V BumpLevel} {edges : List (V × V)} {v w : V} :
    w ∈ dependenciesOf (dependencyMap ownLevels edges) v ↔ (v, w) ∈ edges := by
  have hstart : dependenciesOf (ownLevels.mapValues fun _ _ => ([] : List V)) v = [] := by
    rw [dependenciesOf, Dict.get?_mapValues]
    cases ownLevels.get? v <;> rfl
  rw [dependencyMap, dependenciesOf_foldl, hstart]
  simp

/-! ## The fuel -/

/-- Every descent visits one more node, so more fuel than there are nodes left changes
nothing. -/
theorem effective_fuel {deps : Dict V (List V)} {base : V → BumpLevel}
    (hclosed : ∀ v ∈ deps.keys, ∀ d ∈ dependenciesOf deps v, d ∈ deps.keys) (fuel more : Nat)
    (visiting : List V) (hnodup : visiting.Nodup) (hvisiting : visiting ⊆ deps.keys)
    (hfuel : deps.keys.length < fuel + visiting.length) (memo : Dict V BumpLevel) (node : V)
    (hnode : node ∈ deps.keys) :
    effective deps base (fuel + more) visiting memo node =
      effective deps base fuel visiting memo node := by
  induction fuel generalizing visiting memo node with
  | zero =>
    have hle : visiting.length ≤ deps.keys.length :=
      (List.subperm_of_subset hnodup hvisiting).length_le
    omega
  | succ fuel ih =>
    rw [Nat.succ_add, effective, effective]
    split
    · rfl
    · split
      · rfl
      · next hnew =>
        have hloop : ∀ (acc : List BumpLevel × Dict V BumpLevel), ∀ d ∈ dependenciesOf deps node,
            effective deps base (fuel + more) (node :: visiting) acc.2 d =
              effective deps base fuel (node :: visiting) acc.2 d := by
          intro acc d hd
          refine ih (node :: visiting) (List.nodup_cons.mpr ⟨hnew, hnodup⟩)
            (List.cons_subset.mpr ⟨hnode, hvisiting⟩) ?_ acc.2 d (hclosed node hnode d hd)
          rw [List.length_cons]
          omega
        rw [List.foldl_ext _ _ _ fun acc d hd => by rw [hloop acc d hd]]

/-- The recursion of `effectiveLevels` starts with enough fuel: more does not change it. -/
theorem effective_levels_fuel (ownLevels : Dict V BumpLevel) (edges : List (V × V)) (more : Nat)
    (memo : Dict V BumpLevel) {node : V} (hnode : node ∈ (dependencyMap ownLevels edges).keys) :
    effective (dependencyMap ownLevels edges) (baseLevel ownLevels)
        ((dependencyMap ownLevels edges).keys.length + 1 + more) [] memo node =
      effective (dependencyMap ownLevels edges) (baseLevel ownLevels)
        ((dependencyMap ownLevels edges).keys.length + 1) [] memo node := by
  refine effective_fuel ?_ _ more [] List.nodup_nil (List.nil_subset _) (Nat.lt_succ_self _) memo
    node hnode
  intro v _ d hd
  exact mem_dependencyMap_keys.mpr (Or.inr ⟨(v, d), mem_dependenciesOf.mp hd, Or.inr rfl⟩)

/-! ## The loop over the nodes -/

theorem BumpPropagationLemmas.levels_foldl
    {call : Dict V BumpLevel → V → BumpLevel × Dict V BumpLevel}
    {Q : Dict V BumpLevel → Prop} {R : V → BumpLevel → Prop} (nodes : List V)
    (hcall : ∀ memo, Q memo → ∀ node ∈ nodes, R node (call memo node).1 ∧ Q (call memo node).2)
    (acc : Dict V BumpLevel × Dict V BumpLevel)
    (hacc : ∀ v level, acc.1.get? v = some level → R v level) (hmemo : Q acc.2) :
    let out := nodes.foldl
      (fun acc node => (Dict.set acc.1 node (call acc.2 node).1, (call acc.2 node).2)) acc
    (∀ v level, out.1.get? v = some level → R v level) ∧
      ∀ v, v ∈ out.1.keys ↔ v ∈ acc.1.keys ∨ v ∈ nodes := by
  induction nodes generalizing acc with
  | nil => exact ⟨hacc, fun v => (or_iff_left List.not_mem_nil).symm⟩
  | cons node nodes ih =>
    obtain ⟨hnode, hnodes⟩ := hcall acc.2 hmemo node List.mem_cons_self
    obtain ⟨hout, hkeys⟩ := ih
      (fun memo hm v hv => hcall memo hm v (List.mem_cons_of_mem node hv))
      (Dict.set acc.1 node (call acc.2 node).1, (call acc.2 node).2)
      (Dict.forall_get?_set hacc hnode) hnodes
    refine ⟨hout, fun v => (hkeys v).trans ?_⟩
    rw [Dict.mem_keys_set, List.mem_cons, or_assoc]

/-- If every call for a node keeps `Q` of the memo and answers within `R`, then exactly
the nodes get a level, and each of them one within `R`. -/
theorem effective_levels_run (ownLevels : Dict V BumpLevel) (edges : List (V × V))
    {Q : Dict V BumpLevel → Prop} {R : V → BumpLevel → Prop} (hempty : Q Table.empty)
    (hcall : ∀ memo, Q memo → ∀ node ∈ (dependencyMap ownLevels edges).keys,
      let r := effective (dependencyMap ownLevels edges) (baseLevel ownLevels)
        ((dependencyMap ownLevels edges).keys.length + 1) [] memo node
      R node r.1 ∧ Q r.2) :
    (∀ v level, (effectiveLevels ownLevels edges).get? v = some level → R v level) ∧
      ∀ v, v ∈ (effectiveLevels ownLevels edges).keys ↔
        v ∈ (dependencyMap ownLevels edges).keys := by
  obtain ⟨hout, hkeys⟩ := levels_foldl (dependencyMap ownLevels edges).keys hcall
    (Table.empty, Table.empty) (fun v level h => by cases h) hempty
  exact ⟨hout, fun v => (hkeys v).trans (or_iff_right List.not_mem_nil)⟩

/-! ## The loop over the dependencies -/

namespace BumpPropagationLemmas

omit [DecidableEq V] in
/-- If every call for a dependency keeps `Q` of the memo and answers within `R`, the loop
collects what levels within `R` contribute, and nothing else. -/
theorem dependencies_foldl
    {call : Dict V BumpLevel → V → BumpLevel × Dict V BumpLevel}
    {Q : Dict V BumpLevel → Prop} {R : V → BumpLevel → Prop} (ds : List V)
    (hcall : ∀ memo, Q memo → ∀ d ∈ ds, R d (call memo d).1 ∧ Q (call memo d).2)
    (acc : List BumpLevel × Dict V BumpLevel) (hmemo : Q acc.2) :
    let out := ds.foldl
      (fun acc d => (acc.1 ++ [propagate (call acc.2 d).1], (call acc.2 d).2)) acc
    Q out.2 ∧ (∀ l ∈ out.1, l ∈ acc.1 ∨ ∃ d ∈ ds, ∃ below, R d below ∧ l = propagate below) ∧
      (∀ l ∈ acc.1, l ∈ out.1) ∧ ∀ d ∈ ds, ∃ below, R d below ∧ propagate below ∈ out.1 := by
  induction ds generalizing acc with
  | nil =>
    exact ⟨hmemo, fun _ hl => Or.inl hl, fun _ hl => hl, fun _ hd => absurd hd List.not_mem_nil⟩
  | cons d ds ih =>
    obtain ⟨hlevel, hnext⟩ := hcall acc.2 hmemo d List.mem_cons_self
    obtain ⟨hq, hfrom, hkeep, hfound⟩ := ih
      (fun memo hm d' hd' => hcall memo hm d' (List.mem_cons_of_mem d hd'))
      (acc.1 ++ [propagate (call acc.2 d).1], (call acc.2 d).2) hnext
    refine ⟨hq, fun l hl => ?_, fun l hl => hkeep l (List.mem_append_left _ hl), ?_⟩
    · rcases hfrom l hl with hl | ⟨d', hd', below, hbelow, rfl⟩
      · rcases List.mem_append.mp hl with hl | hl
        · exact Or.inl hl
        · exact Or.inr ⟨d, List.mem_cons_self, _, hlevel, List.mem_singleton.mp hl⟩
      · exact Or.inr ⟨d', List.mem_cons_of_mem d hd', below, hbelow, rfl⟩
    · intro d' hd'
      rcases List.mem_cons.mp hd' with rfl | hd'
      · exact ⟨_, hlevel, hkeep _ (List.mem_append_right _ List.mem_cons_self)⟩
      · exact hfound d' hd'

/-- A call for a node that is neither memoised nor being visited. -/
theorem effective_new {deps : Dict V (List V)} {base : V → BumpLevel} {fuel : Nat}
    {visiting : List V} {memo : Dict V BumpLevel} {node : V} (hmiss : memo.get? node = none)
    (hnew : node ∉ visiting) {Q : Dict V BumpLevel → Prop} {R : V → BumpLevel → Prop}
    (hcall : ∀ memo, Q memo → ∀ d ∈ dependenciesOf deps node,
      let r := effective deps base fuel (node :: visiting) memo d
      R d r.1 ∧ Q r.2)
    (hmemo : Q memo) :
    ∃ levels after, effective deps base (fuel + 1) visiting memo node =
        (maxLevel (base node :: levels), after.set node (maxLevel (base node :: levels))) ∧
      Q after ∧
      (∀ l ∈ levels, ∃ d ∈ dependenciesOf deps node, ∃ below, R d below ∧ l = propagate below) ∧
      ∀ d ∈ dependenciesOf deps node, ∃ below, R d below ∧ propagate below ∈ levels := by
  obtain ⟨hq, hfrom, -, hfound⟩ :=
    dependencies_foldl (dependenciesOf deps node) hcall ([], memo) hmemo
  refine ⟨_, _, ?_, hq, fun l hl => ?_, hfound⟩
  · rw [effective, hmiss]
    exact if_neg hnew
  · exact (hfrom l hl).resolve_left List.not_mem_nil

end BumpPropagationLemmas

/-! ## Bounds on effective levels -/

namespace BumpPropagationLemmas

section Bounds

variable {deps : Dict V (List V)} {base upper : V → BumpLevel}

/-- What is known of a level that has been computed for a node. -/
def Bounded (deps : Dict V (List V)) (base upper : V → BumpLevel) (node : V)
    (level : BumpLevel) : Prop :=
  base node ≤ level ∧ level ≤ upper node ∧
    ∀ d ∈ dependenciesOf deps node, propagate (base d) ≤ level

/-- Every memoised level is known to be bounded. -/
def BoundedMemo (deps : Dict V (List V)) (base upper : V → BumpLevel)
    (memo : Dict V BumpLevel) : Prop :=
  ∀ node level, memo.get? node = some level → Bounded deps base upper node level

/-- One call keeps the memo bounded and answers within the bounds. On a back edge
the answer is the base level; in every other case it is bounded from its
dependencies too. -/
theorem effective_bounds (hbase : ∀ v, base v ≤ upper v)
    (hupper : ∀ v, ∀ d ∈ dependenciesOf deps v, propagate (upper d) ≤ upper v)
    (fuel : Nat) (visiting : List V) (memo : Dict V BumpLevel) (node : V)
    (hm : BoundedMemo deps base upper memo) :
    let r := effective deps base fuel visiting memo node
    base node ≤ r.1 ∧ r.1 ≤ upper node ∧ BoundedMemo deps base upper r.2 ∧
      (0 < fuel → node ∉ visiting → Bounded deps base upper node r.1) := by
  induction fuel generalizing visiting memo node with
  | zero => exact ⟨le_rfl, hbase node, hm, fun h => absurd h (Nat.lt_irrefl 0)⟩
  | succ fuel ih =>
    intro r
    cases hget : memo.get? node with
    | some level =>
      have hr : r = (level, memo) := by simp only [r, effective, hget]
      have hb := hm node level hget
      rw [hr]
      exact ⟨hb.1, hb.2.1, hm, fun _ _ => hb⟩
    | none =>
      rcases Classical.em (node ∈ visiting) with hvisiting | hnew
      · have hr : r = (base node, memo) := by simp only [r, effective, hget, if_pos hvisiting]
        rw [hr]
        exact ⟨le_rfl, hbase node, hm, fun _ hnot => absurd hvisiting hnot⟩
      · -- each contribution lies between that of the dependency's base level and the bound
        have hcall : ∀ memo, BoundedMemo deps base upper memo → ∀ d ∈ dependenciesOf deps node,
            let r := effective deps base fuel (node :: visiting) memo d
            (base d ≤ r.1 ∧ r.1 ≤ upper d) ∧ BoundedMemo deps base upper r.2 := by
          intro memo hmemo d _
          obtain ⟨hlow, hhigh, hafter, -⟩ := ih (node :: visiting) memo d hmemo
          exact ⟨⟨hlow, hhigh⟩, hafter⟩
        obtain ⟨levels, after, hrun, hafter, hfrom, hfound⟩ := effective_new hget hnew
          (R := fun d l => base d ≤ l ∧ l ≤ upper d) hcall hm
        have hb : Bounded deps base upper node (maxLevel (base node :: levels)) := by
          refine ⟨le_maxLevel List.mem_cons_self, ?_, fun d hd => ?_⟩
          · refine maxLevel_le_iff.mpr (List.forall_mem_cons.mpr ⟨hbase node, fun l hl => ?_⟩)
            obtain ⟨d, hd, below, ⟨-, hhigh⟩, rfl⟩ := hfrom l hl
            exact le_trans (propagate_mono hhigh) (hupper node d hd)
          · obtain ⟨below, ⟨hlow, -⟩, hmem⟩ := hfound d hd
            exact le_trans (propagate_mono hlow) (le_maxLevel (List.mem_cons_of_mem _ hmem))
        have hr : r = (maxLevel (base node :: levels), _) := hrun
        rw [hr]
        exact ⟨hb.1, hb.2.1, Dict.forall_get?_set hafter hb, fun _ _ => hb⟩

end Bounds

end BumpPropagationLemmas

/-- Every node has an effective level, and on every graph it lies between its base
level (and the contribution of each direct dependency's base level) and any bound
that the propagation rule respects. -/
theorem effective_levels_bounds {ownLevels : Dict V BumpLevel} {edges : List (V × V)}
    {upper : V → BumpLevel} (hbase : ∀ v, baseLevel ownLevels v ≤ upper v)
    (hupper : ∀ e ∈ edges, propagate (upper e.2) ≤ upper e.1) {v : V}
    (hv : v ∈ (dependencyMap ownLevels edges).keys) :
    ∃ level, (effectiveLevels ownLevels edges).get? v = some level ∧
      baseLevel ownLevels v ≤ level ∧ level ≤ upper v ∧
      ∀ w, (v, w) ∈ edges → propagate (baseLevel ownLevels w) ≤ level := by
  have hclosed : ∀ v, ∀ d ∈ dependenciesOf (dependencyMap ownLevels edges) v,
      propagate (upper d) ≤ upper v := fun v d hd => hupper (v, d) (mem_dependenciesOf.mp hd)
  obtain ⟨hlevels, hkeys⟩ := effective_levels_run ownLevels edges
    (Q := BoundedMemo (dependencyMap ownLevels edges) (baseLevel ownLevels) upper)
    (R := Bounded (dependencyMap ownLevels edges) (baseLevel ownLevels) upper)
    (fun node level h => by cases h) (by
      intro memo hmemo node _
      obtain ⟨_, _, hmemo', hb⟩ := effective_bounds hbase hclosed
        ((dependencyMap ownLevels edges).keys.length + 1) [] memo node hmemo
      exact ⟨hb (Nat.succ_pos _) List.not_mem_nil, hmemo'⟩)
  obtain ⟨level, hlevel⟩ := Dict.mem_keys_iff.mp ((hkeys v).mpr hv)
  obtain ⟨hlow, hhigh, hdeps⟩ := hlevels v level hlevel
  exact ⟨level, hlevel, hlow, hhigh, fun w hw => hdeps w (mem_dependenciesOf.mpr hw)⟩

/-! ## The product bump -/

/-- The product bump is below every bound that the propagation rule respects, as far
as the components with an own level are concerned. -/
theorem derive_product_bump_le {ownLevels : Dict V BumpLevel} {edges : List (V × V)}
    {upper : V → BumpLevel} {bound : BumpLevel} (hbase : ∀ v, baseLevel ownLevels v ≤ upper v)
    (hupper : ∀ e ∈ edges, propagate (upper e.2) ≤ upper e.1)
    (hbound : ∀ v ∈ ownLevels.keys, upper v ≤ bound) :
    deriveProductBump ownLevels edges false ≤ bound := by
  refine maxLevel_le_iff.mpr ?_
  intro l hl
  obtain ⟨v, hv, rfl⟩ := List.mem_map.mp hl
  obtain ⟨level, hlevel, _, hhigh, _⟩ := effective_levels_bounds hbase hupper
    (mem_dependencyMap_keys.mpr (Or.inl hv))
  rw [effectiveOf, hlevel]
  exact le_trans hhigh (hbound v hv)

/-- The product bump is at least every own level and every direct contribution of a
dependency's base level. -/
theorem le_derive_product_bump {ownLevels : Dict V BumpLevel} {edges : List (V × V)} {v : V}
    (hv : v ∈ ownLevels.keys) :
    baseLevel ownLevels v ≤ deriveProductBump ownLevels edges false ∧
      ∀ w, (v, w) ∈ edges →
        propagate (baseLevel ownLevels w) ≤ deriveProductBump ownLevels edges false := by
  have hmajor : ∀ e ∈ edges, propagate BumpLevel.major ≤ BumpLevel.major :=
    fun _ _ => propagate_le _
  have hbase : ∀ v, baseLevel ownLevels v ≤ (fun _ => BumpLevel.major) v :=
    fun _ => BumpLevel.le_major _
  obtain ⟨level, hlevel, hlow, _, hdeps⟩ := effective_levels_bounds hbase hmajor
    (mem_dependencyMap_keys.mpr (Or.inl hv))
  have hle : level ≤ deriveProductBump ownLevels edges false := by
    refine le_maxLevel (List.mem_map.mpr ⟨v, hv, ?_⟩)
    rw [effectiveOf, hlevel]
    rfl
  exact ⟨le_trans hlow hle, fun w hw => le_trans (hdeps w hw) hle⟩

theorem derive_product_bump_removed (ownLevels : Dict V BumpLevel) (edges : List (V × V)) :
    deriveProductBump ownLevels edges true = .major :=
  le_antisymm (BumpLevel.le_major _) (le_maxLevel (List.mem_append_right _ List.mem_cons_self))

/-- The edges do not count for the product bump exactly if no component depends on one
without an own level, or some component has a minor change anyway. -/
theorem derive_product_bump_eq_iff {ownLevels : Dict V BumpLevel} {edges : List (V × V)} :
    deriveProductBump ownLevels edges false = deriveProductBump ownLevels [] false ↔
      (∀ e ∈ edges, e.1 ∈ ownLevels.keys → e.2 ∈ ownLevels.keys) ∨
        ∃ v ∈ ownLevels.keys, .minor ≤ baseLevel ownLevels v := by
  have hown : ∀ (bound : BumpLevel), (∀ v ∈ ownLevels.keys, baseLevel ownLevels v ≤ bound) →
      deriveProductBump ownLevels [] false ≤ bound := fun bound h =>
    derive_product_bump_le (fun _ => le_rfl) (fun _ he => absurd he List.not_mem_nil) h
  constructor
  · intro heq
    by_contra hnot
    rw [not_or] at hnot
    obtain ⟨hdangling, hsmall⟩ := hnot
    push Not at hdangling hsmall
    obtain ⟨⟨v, w⟩, he, hv, hw⟩ := hdangling
    -- The dependency contributes a minor level, and no own level reaches that.
    have hminor : BumpLevel.minor ≤ deriveProductBump ownLevels edges false := by
      have hle : propagate (baseLevel ownLevels w) ≤ deriveProductBump ownLevels edges false :=
        (le_derive_product_bump hv).2 w he
      rwa [baseLevel, Dict.get?_eq_none.mpr hw] at hle
    have hpatch : deriveProductBump ownLevels [] false ≤ .patch := by
      refine hown .patch fun v hv => ?_
      have hlt := hsmall v hv
      revert hlt
      cases baseLevel ownLevels v <;> decide
    rw [heq] at hminor
    exact absurd (le_trans hminor hpatch) (by decide)
  · intro h
    refine le_antisymm ?_ (hown _ fun v hv => (le_derive_product_bump hv).1)
    -- Bound the nodes with an own level by the bump without edges, and no other node.
    have hbase : ∀ v, baseLevel ownLevels v ≤
        if v ∈ ownLevels.keys then deriveProductBump ownLevels [] false else .major := by
      intro v
      split
      · next hv => exact (le_derive_product_bump hv).1
      · exact BumpLevel.le_major _
    refine derive_product_bump_le hbase ?_ ?_
    · intro e he
      split
      · next hw =>
        split
        · exact propagate_le _
        · exact BumpLevel.le_major _
      · next hw =>
        split
        · next hv =>
          rcases h with hclosed | ⟨v, hv', hminor⟩
          · exact absurd (hclosed e he hv) hw
          · exact le_trans hminor (le_derive_product_bump hv').1
        · exact BumpLevel.le_major _
    · intro v hv
      rw [if_pos hv]

end LavsCore
