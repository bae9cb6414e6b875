import LavsCore.Lib.EdgeList
import Mathlib.Data.Set.Finite.Lemmas
import Mathlib.Logic.Function.Iterate
import Mathlib.Order.Bounds.Basic

/-!
# Levels that propagate along edges

Every vertex of a graph has a base level, and what a vertex contributes to those with
an edge to it is `push` of its own level.

* `Solves`: every level is the greatest of the base level and the contributions of
  the direct successors.
* `contributions`: what all vertices at the end of a walk contribute, pushed once for
  each edge of the walk.
* On an acyclic graph every vertex has a greatest contribution (`exists_greatest`). These
  solve the equation (`solves_of_contributions`) and nothing else does
  (`Solves.isGreatest`, `Solves.unique`).
-/

namespace EdgeList

variable {V : Type}

/-- There is a walk of `k` edges from `a` to `b`. -/
inductive Walk (edges : List (V × V)) : Nat → V → V → Prop
  | nil (a : V) : Walk edges 0 a a
  | cons {k : Nat} {a b c : V} : Edge edges a b → Walk edges k b c → Walk edges (k + 1) a c

namespace Walk

theorem reach {edges : List (V × V)} {k : Nat} {a b : V} (h : Walk edges k a b) :
    Reach edges a b := by
  induction h with
  | nil a => exact Relation.ReflTransGen.refl
  | cons he _ ih => exact Relation.ReflTransGen.head he ih

theorem mono {edges edges' : List (V × V)} (h : ∀ e ∈ edges, e ∈ edges') {k : Nat} {a b : V}
    (hab : Walk edges k a b) : Walk edges' k a b := by
  induction hab with
  | nil a => exact .nil a
  | cons he _ ih => exact .cons (h _ he) ih

/-- A walk has no edge, one edge or more. -/
theorem short_cases {edges : List (V × V)} {k : Nat} {a b : V} (h : Walk edges k a b) :
    (k = 0 ∧ a = b) ∨ (k = 1 ∧ Edge edges a b) ∨ ∃ j, k = j + 2 := by
  cases h with
  | nil => exact Or.inl ⟨rfl, rfl⟩
  | cons he hw =>
    cases hw with
    | nil => exact Or.inr (Or.inl ⟨rfl, he⟩)
    | cons _ _ => exact Or.inr (Or.inr ⟨_, rfl⟩)

end Walk

theorem reach_iff_walk {edges : List (V × V)} {a b : V} :
    Reach edges a b ↔ ∃ k, Walk edges k a b := by
  constructor
  · intro h
    induction h using Relation.ReflTransGen.head_induction_on with
    | refl => exact ⟨0, .nil b⟩
    | head he _ ih =>
      obtain ⟨k, hk⟩ := ih
      exact ⟨k + 1, .cons he hk⟩
  · rintro ⟨k, hk⟩
    exact hk.reach

/-- Following the edges of an acyclic graph ends: every edge leads to a vertex with
fewer vertices ahead of it. -/
theorem Acyclic.wellFounded {edges : List (V × V)} (h : Acyclic edges) :
    WellFounded fun b a => Edge edges a b := by
  classical
  let ahead : V → Finset V := fun a => (edges.map Prod.snd).toFinset.filter (Path edges a)
  refine Subrelation.wf ?_ (measure fun a => (ahead a).card).wf
  intro b a hab
  refine Finset.card_lt_card ((Finset.ssubset_iff_of_subset ?_).mpr ⟨b, ?_, ?_⟩)
  · intro c hc
    rw [Finset.mem_filter] at hc ⊢
    exact ⟨hc.1, Relation.TransGen.head hab hc.2⟩
  · rw [Finset.mem_filter, List.mem_toFinset]
    exact ⟨List.mem_map.mpr ⟨(a, b), hab, rfl⟩, Relation.TransGen.single hab⟩
  · rw [Finset.mem_filter]
    exact fun hb => h b hb.2

section Levels

variable {L : Type}

/-- What reaches a vertex from all vertices ahead of it, itself included. -/
def contributions (edges : List (V × V)) (base : V → L) (push : L → L) (v : V) : Set L :=
  {l | ∃ k w, Walk edges k v w ∧ l = push^[k] (base w)}

/-- The base level of a vertex and what its direct successors contribute. -/
def candidates (edges : List (V × V)) (base : V → L) (push : L → L) (level : V → L) (v : V) :
    Set L :=
  insert (base v) {l | ∃ w, Edge edges v w ∧ l = push (level w)}

variable {edges : List (V × V)} {base : V → L} {push : L → L}

theorem base_mem_contributions (v : V) : base v ∈ contributions edges base push v :=
  ⟨0, v, .nil v, rfl⟩

theorem push_mem_contributions {v w : V} {l : L} (he : Edge edges v w)
    (hl : l ∈ contributions edges base push w) : push l ∈ contributions edges base push v := by
  obtain ⟨k, u, hk, rfl⟩ := hl
  exact ⟨k + 1, u, .cons he hk, (Function.iterate_succ_apply' push k (base u)).symm⟩

/-- Neither the order nor the multiplicity of the edges counts. -/
theorem contributions_congr {edges' : List (V × V)} (h : ∀ e, e ∈ edges' ↔ e ∈ edges) (v : V) :
    contributions edges' base push v = contributions edges base push v := by
  ext l
  constructor
  · rintro ⟨k, w, hk, rfl⟩
    exact ⟨k, w, hk.mono fun e he => (h e).mp he, rfl⟩
  · rintro ⟨k, w, hk, rfl⟩
    exact ⟨k, w, hk.mono fun e he => (h e).mpr he, rfl⟩

variable [PartialOrder L]

/-- The propagation equation at some vertices: every level is the greatest of its
candidates. -/
def Solves (nodes : Set V) (edges : List (V × V)) (base : V → L) (push : L → L)
    (level : V → L) : Prop :=
  ∀ v ∈ nodes, IsGreatest (candidates edges base push level v) (level v)

/-- The greatest candidate is the greatest contribution, if the successors' levels are. -/
theorem isGreatest_contributions (hpush : Monotone push) {level : V → L} {v : V} {l : L}
    (hnext : ∀ w, Edge edges v w → IsGreatest (contributions edges base push w) (level w))
    (hl : IsGreatest (candidates edges base push level v) l) :
    IsGreatest (contributions edges base push v) l := by
  constructor
  · rcases hl.1 with rfl | ⟨w, he, rfl⟩
    · exact base_mem_contributions v
    · exact push_mem_contributions he (hnext w he).1
  · rintro _ ⟨k, u, hk, rfl⟩
    cases hk with
    | nil => exact hl.2 (Set.mem_insert _ _)
    | @cons k _ w _ he hk =>
      have hle : push^[k] (base u) ≤ level w := (hnext w he).2 ⟨k, u, hk, rfl⟩
      rw [Function.iterate_succ_apply']
      exact le_trans (hpush hle) (hl.2 (Set.mem_insert_of_mem _ ⟨w, he, rfl⟩))

/-- On an acyclic graph every vertex has a greatest contribution. -/
theorem exists_greatest {L : Type} [LinearOrder L] {edges : List (V × V)} {base : V → L}
    {push : L → L} (hac : Acyclic edges) (hpush : Monotone push) (v : V) :
    ∃ l, IsGreatest (contributions edges base push v) l := by
  induction v using hac.wellFounded.induction with
  | _ v ih =>
    have : Nonempty L := ⟨base v⟩
    choose! level hlevel using ih
    have hfinite : (candidates edges base push level v).Finite := by
      refine Set.Finite.insert _ (Set.Finite.subset
        ((edges.map fun e => push (level e.2)).toFinset.finite_toSet) ?_)
      rintro _ ⟨w, he, rfl⟩
      exact List.mem_toFinset.mpr (List.mem_map.mpr ⟨(v, w), he, rfl⟩)
    obtain ⟨l, hl, hmax⟩ := Set.exists_max_image _ id hfinite ⟨base v, Set.mem_insert _ _⟩
    exact ⟨l, isGreatest_contributions hpush hlevel ⟨hl, hmax⟩⟩

section Closed

variable {nodes : Set V} (hclosed : ∀ v ∈ nodes, ∀ w, Edge edges v w → w ∈ nodes)
include hclosed

/-- On an acyclic graph a solution is the greatest contribution at every vertex. -/
theorem Solves.isGreatest (hac : Acyclic edges) (hpush : Monotone push) {level : V → L}
    (h : Solves nodes edges base push level) {v : V} (hv : v ∈ nodes) :
    IsGreatest (contributions edges base push v) (level v) := by
  induction v using hac.wellFounded.induction with
  | _ v ih =>
    exact isGreatest_contributions hpush (fun w he => ih w he (hclosed v hv w he)) (h v hv)

/-- The greatest contributions solve the equation, on every graph. -/
theorem solves_of_contributions (hpush : Monotone push) {level : V → L}
    (h : ∀ v ∈ nodes, IsGreatest (contributions edges base push v) (level v)) :
    Solves nodes edges base push level := by
  intro v hv
  have hnext : ∀ w, Edge edges v w → IsGreatest (contributions edges base push w) (level w) :=
    fun w he => h w (hclosed v hv w he)
  constructor
  · obtain ⟨k, u, hk, hl⟩ := (h v hv).1
    cases hk with
    | nil => exact Or.inl hl
    | @cons k _ w _ he hk =>
      refine Or.inr ⟨w, he, le_antisymm ?_ ?_⟩
      · rw [hl, Function.iterate_succ_apply']
        exact hpush ((hnext w he).2 ⟨k, u, hk, rfl⟩)
      · exact (h v hv).2 (push_mem_contributions he (hnext w he).1)
  · rintro _ (rfl | ⟨w, he, rfl⟩)
    · exact (h v hv).2 (base_mem_contributions v)
    · exact (h v hv).2 (push_mem_contributions he (hnext w he).1)

/-- The propagation equation has at most one solution on an acyclic graph. -/
theorem Solves.unique (hac : Acyclic edges) (hpush : Monotone push) {level level' : V → L}
    (h : Solves nodes edges base push level) (h' : Solves nodes edges base push level') {v : V}
    (hv : v ∈ nodes) : level v = level' v :=
  (h.isGreatest hclosed hac hpush hv).unique (h'.isGreatest hclosed hac hpush hv)

end Closed

end Levels

end EdgeList
