import Mathlib.Order.BoundedOrder.Lattice
import Mathlib.Order.Lattice

/-!
# Cascades of tests

Two values are told apart by a list of tests, of which the first that fails decides: its
level is how far apart they are. The tests stand in the order of their levels, the highest
first (`Descending`).

`classify_le_max`: the level is an ultrametric. `le_of_steps`: going from one value to
another in several steps is no further than the furthest step.
-/

namespace Cascade

variable {V L : Type}

/-- A test: whether two values are the same in some respect, and the level of a difference. -/
structure Test (V L : Type) where
  level : L
  same : V → V → Prop
  equivalence : Equivalence same
  decide : DecidableRel same

section

variable [LinearOrder L] [OrderBot L]

/-- The level of the first test that fails. -/
def classify : List (Test V L) → V → V → L
  | [], _, _ => ⊥
  | test :: rest, a, b =>
    have := test.decide
    if test.same a b then classify rest a b else test.level

/-- The levels do not rise along the list, and none of them is the bottom. -/
def Descending : List (Test V L) → Prop
  | [] => True
  | test :: rest => test.level ≠ ⊥ ∧ (∀ test' ∈ rest, test'.level ≤ test.level) ∧ Descending rest

theorem classify_of_same {test : Test V L} {rest : List (Test V L)} {a b : V}
    (h : test.same a b) : classify (test :: rest) a b = classify rest a b := if_pos h

theorem classify_of_not_same {test : Test V L} {rest : List (Test V L)} {a b : V}
    (h : ¬ test.same a b) : classify (test :: rest) a b = test.level := if_neg h

theorem classify_le {tests : List (Test V L)} {bound : L}
    (h : ∀ test ∈ tests, test.level ≤ bound) (a b : V) : classify tests a b ≤ bound := by
  induction tests with
  | nil => exact bot_le
  | cons test rest ih =>
    rcases Classical.em (test.same a b) with hsame | hdiffer
    · rw [classify_of_same hsame]
      exact ih fun test' htest' => h test' (List.mem_cons_of_mem test htest')
    · rw [classify_of_not_same hdiffer]
      exact h test List.mem_cons_self

theorem classify_comm (tests : List (Test V L)) (a b : V) :
    classify tests a b = classify tests b a := by
  induction tests with
  | nil => rfl
  | cons test rest ih =>
    rcases Classical.em (test.same a b) with hsame | hdiffer
    · rw [classify_of_same hsame, classify_of_same (test.equivalence.symm hsame), ih]
    · have hdiffer' : ¬ test.same b a := fun h => hdiffer (test.equivalence.symm h)
      rw [classify_of_not_same hdiffer, classify_of_not_same hdiffer']

/-- The level is the bottom exactly if no test tells the values apart. -/
theorem classify_eq_bot_iff {tests : List (Test V L)} (hdesc : Descending tests) (a b : V) :
    classify tests a b = ⊥ ↔ ∀ test ∈ tests, test.same a b := by
  induction tests with
  | nil => exact iff_of_true rfl fun _ h => absurd h List.not_mem_nil
  | cons test rest ih =>
    obtain ⟨hlevel, -, hrest⟩ := hdesc
    rw [List.forall_mem_cons]
    rcases Classical.em (test.same a b) with hsame | hdiffer
    · rw [classify_of_same hsame, ih hrest]
      exact (and_iff_right hsame).symm
    · rw [classify_of_not_same hdiffer]
      exact iff_of_false hlevel fun h => hdiffer h.1

/-- The strong triangle inequality. Where the first test tells `a` and `c` apart it tells one
of them from `b`; where it does not, the tests after it are no higher. -/
theorem classify_le_max {tests : List (Test V L)} (hdesc : Descending tests) (a b c : V) :
    classify tests a c ≤ max (classify tests a b) (classify tests b c) := by
  induction tests with
  | nil => exact bot_le
  | cons test rest ih =>
    obtain ⟨-, hbelow, hrest⟩ := hdesc
    have hle : classify (test :: rest) a c ≤ test.level :=
      classify_le (List.forall_mem_cons.mpr ⟨le_rfl, hbelow⟩) a c
    rcases Classical.em (test.same a b) with hab | hab
    · rcases Classical.em (test.same b c) with hbc | hbc
      · rw [classify_of_same hab, classify_of_same hbc,
          classify_of_same (test.equivalence.trans hab hbc)]
        exact ih hrest
      · rw [classify_of_not_same hbc]
        exact hle.trans (le_max_right _ _)
    · rw [classify_of_not_same hab]
      exact hle.trans (le_max_left _ _)

end

/-- Several steps lead no further than the furthest of them. -/
theorem le_of_steps [LinearOrder L] {distance : V → V → L}
    (triangle : ∀ a b c, distance a c ≤ max (distance a b) (distance b c)) {a c : V}
    {between : List V} {bound : L}
    (h : ∀ l ∈ List.zipWith distance (a :: between) (between ++ [c]), l ≤ bound) :
    distance a c ≤ bound := by
  induction between generalizing a with
  | nil => exact h _ List.mem_cons_self
  | cons b rest ih =>
    obtain ⟨hfirst, hrest⟩ := List.forall_mem_cons.mp h
    exact (triangle a b c).trans (max_le hfirst (ih hrest))

end Cascade
