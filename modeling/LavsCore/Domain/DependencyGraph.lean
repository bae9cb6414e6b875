import LavsCore.Lib.Dict
import LavsCore.Lib.EdgeList

/-!
# Reachability in the dependency graph

`app/domain/dependency_graph.py`: the depth-first search that rejects cycles when
an edge is added. An edge `(from, to)` says that `from` depends on `to`.

`is_reachable_iff`: the search ends, and it answers whether there is a path, for
every list of edges. `would_create_cycle_iff`: on an acyclic graph the answer is
exactly whether the new edge closes a cycle.
-/

namespace LavsCore

variable {V : Type} [DecidableEq V]

/-- `_adjacency`: the targets of the edges of each source, in edge order. -/
def adjacency (edges : List (V × V)) : Dict V (List V) :=
  edges.foldl (fun d e => (Dict.setDefault d e.1 []).modify e.1 (· ++ [e.2])) Table.empty

/-- `adjacency.get(node, [])`. -/
def successors (adj : Dict V (List V)) (node : V) : List V := (Dict.get? adj node).getD []

/-- The loop of `is_reachable`. The head of `stack` is its top: `stack.extend(xs)`
puts the last element of `xs` on top. Each turn uses one unit of fuel; `none` means
that the fuel has run out. -/
def searchLoop (adj : Dict V (List V)) (target : V) : Nat → List V → List V → Option Bool
  | _, [], _ => some false
  | 0, _ :: _, _ => none
  | fuel + 1, node :: stack, seen =>
    if node = target then some true
    else if node ∈ seen then searchLoop adj target fuel stack seen
    else searchLoop adj target fuel ((successors adj node).reverse ++ stack) (node :: seen)

/-- `is_reachable`. Every turn takes a vertex off the stack, and each edge puts at
most one vertex on it, so the fuel suffices (`searchLoop_isSome`). -/
def isReachable (edges : List (V × V)) (start target : V) : Bool :=
  (searchLoop (adjacency edges) target (edges.length + 1) [start] []).getD false

/-- `would_create_cycle`. -/
def wouldCreateCycle (edges : List (V × V)) (fromId toId : V) : Bool :=
  isReachable edges toId fromId

/-! ## The adjacency map -/

namespace DependencyGraphLemmas

theorem successors_step (adj : Dict V (List V)) (a b v : V) :
    successors ((Dict.setDefault adj a []).modify a (· ++ [b])) v =
      if v = a then successors adj v ++ [b] else successors adj v := by
  unfold successors
  rw [Dict.get?_modify, Dict.get?_setDefault]
  by_cases hv : v = a
  · subst hv
    by_cases hk : v ∈ adj.keys
    · obtain ⟨ds, hds⟩ := Dict.mem_keys_iff.mp hk
      simp [hds, hk]
    · simp [Dict.get?_eq_none.mpr hk, hk]
  · simp [hv]

theorem successors_foldl (edges : List (V × V)) (adj : Dict V (List V)) (v : V) :
    successors (edges.foldl
        (fun d e => (Dict.setDefault d e.1 []).modify e.1 (· ++ [e.2])) adj) v =
      successors adj v ++ (edges.filter fun e => e.1 = v).map Prod.snd := by
  induction edges generalizing adj with
  | nil => simp
  | cons e edges ih =>
    rw [List.foldl_cons, ih, successors_step]
    by_cases hv : v = e.1
    · simp [hv]
    · simp [hv, Ne.symm hv]

theorem successors_adjacency (edges : List (V × V)) (v : V) :
    successors (adjacency edges) v = (edges.filter fun e => e.1 = v).map Prod.snd := by
  rw [adjacency, successors_foldl]
  rfl

theorem mem_successors {edges : List (V × V)} {v w : V} :
    w ∈ successors (adjacency edges) v ↔ EdgeList.Edge edges v w := by
  rw [successors_adjacency]
  simp [EdgeList.Edge]

end DependencyGraphLemmas

open DependencyGraphLemmas

/-! ## Termination -/

namespace DependencyGraphLemmas

/-- The edges whose source has not been expanded yet. -/
def unexpanded (edges : List (V × V)) (seen : List V) : Nat :=
  (edges.filter fun e => e.1 ∉ seen).length

/-- Expanding a vertex trades its edges for stack entries. -/
theorem unexpanded_cons (edges : List (V × V)) {node : V} {seen : List V} (h : node ∉ seen) :
    unexpanded edges (node :: seen) + (successors (adjacency edges) node).length =
      unexpanded edges seen := by
  rw [successors_adjacency, List.length_map]
  induction edges with
  | nil => rfl
  | cons e edges ih =>
    unfold unexpanded at ih ⊢
    by_cases he : e.1 = node
    · simp [he, h] at ih ⊢
      omega
    · by_cases hs : e.1 ∈ seen
      · simpa [List.filter_cons, he, hs] using ih
      · simp [he, hs] at ih ⊢
        omega

theorem searchLoop_isSome_of_fuel (edges : List (V × V)) (target : V) (fuel : Nat)
    (stack seen : List V) (h : stack.length + unexpanded edges seen ≤ fuel) :
    (searchLoop (adjacency edges) target fuel stack seen).isSome = true := by
  induction fuel generalizing stack seen with
  | zero =>
    cases stack with
    | nil => rfl
    | cons node stack => simp at h
  | succ fuel ih =>
    cases stack with
    | nil => rfl
    | cons node stack =>
      rw [List.length_cons] at h
      unfold searchLoop
      split
      · rfl
      · split
        · exact ih stack seen (by omega)
        · next hseen =>
          have htrade := unexpanded_cons edges hseen
          refine ih _ _ ?_
          rw [List.length_append, List.length_reverse]
          omega

end DependencyGraphLemmas

/-- One turn for the start and one for each edge are enough. -/
theorem searchLoop_isSome (edges : List (V × V)) (start target : V) {fuel : Nat}
    (hfuel : edges.length + 1 ≤ fuel) :
    (searchLoop (adjacency edges) target fuel [start] []).isSome = true := by
  refine searchLoop_isSome_of_fuel edges target _ _ _ ?_
  have hle : unexpanded edges [] ≤ edges.length := List.length_filter_le _ _
  rw [List.length_singleton]
  omega

/-! ## Soundness and completeness -/

namespace DependencyGraphLemmas

/-- Everything on the stack is reachable, so a hit is a path. -/
theorem searchLoop_sound {edges : List (V × V)} {start target : V} {fuel : Nat}
    {stack seen : List V} (hstack : ∀ v ∈ stack, EdgeList.Reach edges start v)
    (h : searchLoop (adjacency edges) target fuel stack seen = some true) :
    EdgeList.Reach edges start target := by
  induction fuel generalizing stack seen with
  | zero => cases stack <;> simp [searchLoop] at h
  | succ fuel ih =>
    cases stack with
    | nil => simp [searchLoop] at h
    | cons node stack =>
      have hnode := hstack node List.mem_cons_self
      have htail : ∀ v ∈ stack, EdgeList.Reach edges start v :=
        fun v hv => hstack v (List.mem_cons_of_mem node hv)
      unfold searchLoop at h
      split at h
      · next heq => exact heq ▸ hnode
      · split at h
        · exact ih htail h
        · refine ih ?_ h
          intro v hv
          rcases List.mem_append.mp hv with hv | hv
          · exact hnode.tail (mem_successors.mp (List.mem_reverse.mp hv))
          · exact htail v hv

/-- The frontier invariant: the expanded vertices do not include the target, and
every edge out of one leads to an expanded vertex or to the stack. -/
structure Frontier (edges : List (V × V)) (start target : V) (stack seen : List V) : Prop where
  start_mem : start ∈ seen ∨ start ∈ stack
  target_not_mem : target ∉ seen
  closed : ∀ v ∈ seen, ∀ w, EdgeList.Edge edges v w → w ∈ seen ∨ w ∈ stack

omit [DecidableEq V] in
/-- Once the stack is empty, everything reachable has been expanded. -/
theorem Frontier.not_reach {edges : List (V × V)} {start target : V} {seen : List V}
    (hf : Frontier edges start target [] seen) : ¬ EdgeList.Reach edges start target := by
  intro h
  have hall : ∀ v, EdgeList.Reach edges start v → v ∈ seen := by
    intro v hv
    induction hv with
    | refl => simpa using hf.start_mem
    | tail _ he ih => simpa using hf.closed _ ih _ he
  exact hf.target_not_mem (hall target h)

theorem searchLoop_complete {edges : List (V × V)} {start target : V} {fuel : Nat}
    {stack seen : List V} (hf : Frontier edges start target stack seen)
    (h : searchLoop (adjacency edges) target fuel stack seen = some false) :
    ¬ EdgeList.Reach edges start target := by
  induction fuel generalizing stack seen with
  | zero =>
    cases stack with
    | nil => exact hf.not_reach
    | cons node stack => simp [searchLoop] at h
  | succ fuel ih =>
    cases stack with
    | nil => exact hf.not_reach
    | cons node stack =>
      unfold searchLoop at h
      split at h
      · cases h
      · next hne =>
        split at h
        · -- The vertex has been expanded before: dropping it keeps the frontier.
          next hseen =>
          refine ih ⟨?_, hf.target_not_mem, ?_⟩ h
          · rcases hf.start_mem with hs | hs
            · exact Or.inl hs
            · rcases List.mem_cons.mp hs with rfl | hs
              · exact Or.inl hseen
              · exact Or.inr hs
          · intro v hv w hw
            rcases hf.closed v hv w hw with hw | hw
            · exact Or.inl hw
            · rcases List.mem_cons.mp hw with rfl | hw
              · exact Or.inl hseen
              · exact Or.inr hw
        · refine ih ⟨?_, ?_, ?_⟩ h
          · rcases hf.start_mem with hs | hs
            · exact Or.inl (List.mem_cons_of_mem node hs)
            · rcases List.mem_cons.mp hs with rfl | hs
              · exact Or.inl List.mem_cons_self
              · exact Or.inr (List.mem_append_right _ hs)
          · intro hmem
            rcases List.mem_cons.mp hmem with heq | hmem
            · exact hne heq.symm
            · exact hf.target_not_mem hmem
          · intro v hv w hw
            rcases List.mem_cons.mp hv with rfl | hv
            · refine Or.inr (List.mem_append_left _ (List.mem_reverse.mpr ?_))
              exact mem_successors.mpr hw
            · rcases hf.closed v hv w hw with hw | hw
              · exact Or.inl (List.mem_cons_of_mem node hw)
              · rcases List.mem_cons.mp hw with rfl | hw
                · exact Or.inl List.mem_cons_self
                · exact Or.inr (List.mem_append_right _ hw)

end DependencyGraphLemmas

/-- `is_reachable` answers whether there is a path, on every list of edges. -/
theorem is_reachable_iff (edges : List (V × V)) (start target : V) :
    isReachable edges start target = true ↔ EdgeList.Reach edges start target := by
  unfold isReachable
  have hsome := searchLoop_isSome edges start target (Nat.le_refl _)
  cases hr : searchLoop (adjacency edges) target (edges.length + 1) [start] [] with
  | none => simp [hr] at hsome
  | some b =>
    cases b with
    | true =>
      have hreach : EdgeList.Reach edges start target :=
        searchLoop_sound (by simp [EdgeList.Reach, Relation.ReflTransGen.refl]) hr
      simp [hreach]
    | false =>
      have hnot : ¬ EdgeList.Reach edges start target :=
        searchLoop_complete ⟨by simp, by simp, by simp⟩ hr
      simp [hnot]

/-- On an acyclic graph `would_create_cycle` rejects exactly the edges that close
a cycle. -/
theorem would_create_cycle_iff {edges : List (V × V)} (hac : EdgeList.Acyclic edges)
    (fromId toId : V) :
    wouldCreateCycle edges fromId toId = true ↔
      ¬ EdgeList.Acyclic (edges ++ [(fromId, toId)]) := by
  rw [wouldCreateCycle, is_reachable_iff, EdgeList.acyclic_append_iff hac, not_not]

/-- However much fuel it is given beyond one turn for the start and one for each edge, the
search ends with the answer of `is_reachable`. -/
theorem searchLoop_eq_isReachable (edges : List (V × V)) (start target : V) {fuel : Nat}
    (hfuel : edges.length + 1 ≤ fuel) :
    searchLoop (adjacency edges) target fuel [start] [] =
      some (isReachable edges start target) := by
  obtain ⟨answer, hanswer⟩ :=
    Option.isSome_iff_exists.mp (searchLoop_isSome edges start target hfuel)
  rw [hanswer]
  cases answer with
  | true =>
    have hreach : EdgeList.Reach edges start target :=
      searchLoop_sound (by simp [EdgeList.Reach, Relation.ReflTransGen.refl]) hanswer
    rw [(is_reachable_iff edges start target).mpr hreach]
  | false =>
    have hnot : ¬ EdgeList.Reach edges start target :=
      searchLoop_complete ⟨by simp, by simp, by simp⟩ hanswer
    rw [Bool.eq_false_iff.mpr fun h => hnot ((is_reachable_iff edges start target).mp h)]

/-- The search ends, with one turn more than there are edges, and finds exactly the components
that a path of edges leads to; so the guard of an acyclic graph rejects exactly the edges that
would close a cycle. -/
theorem is_reachable_exact (edges : List (V × V)) :
    (∀ start target,
      (∀ fuel, edges.length + 1 ≤ fuel →
        searchLoop (adjacency edges) target fuel [start] [] =
          some (isReachable edges start target)) ∧
      (isReachable edges start target = true ↔
        target = start ∨ EdgeList.Path edges start target)) ∧
    (EdgeList.Acyclic edges → ∀ fromId toId,
      wouldCreateCycle edges fromId toId = true ↔
        ∃ v, EdgeList.Path (edges ++ [(fromId, toId)]) v v) := by
  refine ⟨fun start target => ⟨fun fuel hfuel => ?_, ?_⟩, fun hac fromId toId => ?_⟩
  · exact searchLoop_eq_isReachable edges start target hfuel
  · rw [is_reachable_iff, EdgeList.Reach, Relation.reflTransGen_iff_eq_or_transGen]
    rfl
  · rw [would_create_cycle_iff hac, EdgeList.Acyclic]
    push Not
    rfl

/-- The search along a chain ends, and an edge back from its end would close a cycle. -/
theorem is_reachable_exact_chain :
    let edges := [("app", "api"), ("api", "core")]
    searchLoop (adjacency edges) "app" 3 ["core"] [] = some false ∧
      ∃ v, EdgeList.Path (edges ++ [("core", "app")]) v v := by
  intro edges
  have hone : EdgeList.Acyclic ([] ++ [("app", "api")]) :=
    (EdgeList.acyclic_append_iff EdgeList.acyclic_nil "app" "api").mpr
      (mt (is_reachable_iff [] "api" "app").mpr (by decide +kernel))
  have hac : EdgeList.Acyclic edges :=
    (EdgeList.acyclic_append_iff hone "api" "core").mpr
      (mt (is_reachable_iff _ "core" "api").mpr (by decide +kernel))
  obtain ⟨hsearch, hcycle⟩ := is_reachable_exact edges
  have hback : isReachable edges "core" "app" = false := by decide +kernel
  refine ⟨?_, (hcycle hac "core" "app").mp (by decide +kernel)⟩
  rw [(hsearch "core" "app").1 3 (by decide), hback]

end LavsCore
