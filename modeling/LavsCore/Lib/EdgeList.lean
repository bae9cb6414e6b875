import Mathlib.Logic.Relation

/-!
# Directed graphs as edge lists

A graph is a finite list of pairs; `(a, b)` is an edge from `a` to `b`. Order and
multiplicity of the pairs do not matter for any notion here.

`acyclic_append_iff`: a new edge from `a` to `b` keeps an acyclic graph acyclic
exactly when `b` does not reach `a`.
-/

namespace EdgeList

variable {V : Type}

/-- There is an edge from `a` to `b`. -/
def Edge (edges : List (V × V)) (a b : V) : Prop := (a, b) ∈ edges

/-- There is a path from `a` to `b`, possibly empty. -/
def Reach (edges : List (V × V)) : V → V → Prop := Relation.ReflTransGen (Edge edges)

/-- There is a path from `a` to `b` with at least one edge. -/
def Path (edges : List (V × V)) : V → V → Prop := Relation.TransGen (Edge edges)

/-- No vertex has a path back to itself. -/
def Acyclic (edges : List (V × V)) : Prop := ∀ v, ¬ Path edges v v

theorem acyclic_nil : Acyclic ([] : List (V × V)) := by
  intro v h
  obtain ⟨w, hvw, _⟩ := Relation.TransGen.head'_iff.mp h
  exact absurd hvw List.not_mem_nil

theorem Path.mono {edges edges' : List (V × V)} (h : ∀ e ∈ edges, e ∈ edges') {a b : V}
    (hab : Path edges a b) : Path edges' a b :=
  Relation.TransGen.mono (fun _ _ he => h _ he) a b hab

/-- Removing edges closes no cycle. -/
theorem Acyclic.mono {edges edges' : List (V × V)} (h : ∀ e ∈ edges, e ∈ edges')
    (hac : Acyclic edges') : Acyclic edges :=
  fun v hv => hac v (hv.mono h)

/-- A path in the graph with one more edge uses the old edges only, or goes
through the new edge: to its tail first, and from its head at the end. -/
theorem path_append {edges : List (V × V)} {a b x y : V} (h : Path (edges ++ [(a, b)]) x y) :
    Path edges x y ∨ (Reach edges x a ∧ Reach edges b y) := by
  have edge_cases : ∀ {u v : V}, Edge (edges ++ [(a, b)]) u v →
      Edge edges u v ∨ (u = a ∧ v = b) := by
    intro u v he
    rcases List.mem_append.mp he with he | he
    · exact Or.inl he
    · exact Or.inr (Prod.mk.inj (List.mem_singleton.mp he))
  induction h with
  | single he =>
    rcases edge_cases he with he | ⟨rfl, rfl⟩
    · exact Or.inl (Relation.TransGen.single he)
    · exact Or.inr ⟨Relation.ReflTransGen.refl, Relation.ReflTransGen.refl⟩
  | tail _ he ih =>
    rcases edge_cases he with he | ⟨rfl, rfl⟩
    · rcases ih with hold | ⟨hxa, hby⟩
      · exact Or.inl (hold.tail he)
      · exact Or.inr ⟨hxa, hby.tail he⟩
    · rcases ih with hold | ⟨hxa, _⟩
      · exact Or.inr ⟨hold.to_reflTransGen, Relation.ReflTransGen.refl⟩
      · exact Or.inr ⟨hxa, Relation.ReflTransGen.refl⟩

theorem acyclic_append_iff {edges : List (V × V)} (hac : Acyclic edges) (a b : V) :
    Acyclic (edges ++ [(a, b)]) ↔ ¬ Reach edges b a := by
  constructor
  · intro h hba
    have hnew : Edge (edges ++ [(a, b)]) a b := List.mem_append_right _ List.mem_cons_self
    have hback : Reach (edges ++ [(a, b)]) b a :=
      Relation.ReflTransGen.mono (fun _ _ he => List.mem_append_left _ he) b a hba
    exact h a (Relation.TransGen.head' hnew hback)
  · intro hba v hv
    rcases path_append hv with hold | ⟨hva, hbv⟩
    · exact hac v hold
    · exact hba (Relation.ReflTransGen.trans hbv hva)

end EdgeList
