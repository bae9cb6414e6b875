import LavsCore.Domain.BumpPropagation
import LavsCore.Lib.Cascade

/-!
# How far apart two versions are

`classify_change` compares position by position, which is a cascade of tests
(`classifyChange_eq_cascade`).

`classify_change_ultrametric`: it is an ultrametric on versions, so one cut after several
changes is no higher than the highest of the cuts that could have been made in between.
-/

namespace LavsCore

open Cascade

/-- The same numbers, and the same prerelease, where an empty one counts as none. -/
def SameVersion (a b : VersionTuple) : Prop :=
  a.1 = b.1 ∧ a.2.1 = b.2.1 ∧ a.2.2.1 = b.2.2.1 ∧ orNone a.2.2.2 = orNone b.2.2.2

instance : OrderBot BumpLevel where
  bot := .none
  bot_le l := Nat.zero_le l.ordinal

namespace ChangeMetricLemmas

/-- Two versions agree in a position. -/
def position {κ : Type} [DecidableEq κ] (level : BumpLevel) (key : VersionTuple → κ) :
    Test VersionTuple BumpLevel where
  level := level
  same a b := key a = key b
  equivalence := ⟨fun _ => rfl, Eq.symm, Eq.trans⟩
  decide _ _ := inferInstance

/-- The positions in the order in which `classify_change` compares them. -/
def positions : List (Test VersionTuple BumpLevel) :=
  [position .major fun v => v.1, position .minor fun v => v.2.1, position .patch fun v => v.2.2.1,
    position .patch fun v => orNone v.2.2.2]

theorem descending_positions : Descending positions := by
  simp only [positions, Descending, List.forall_mem_cons, List.not_mem_nil, false_implies,
    implies_true, and_true]
  decide

theorem classifyChange_eq_cascade (a b : VersionTuple) :
    classifyChange (some a) b = classify positions a b := by
  obtain ⟨major, minor, patch, prerelease⟩ := a
  obtain ⟨major', minor', patch', prerelease'⟩ := b
  simp only [classifyChange, positions, classify, position, ite_not]
  rfl

theorem max_eq_maxLevel (l l' : BumpLevel) : max l l' = maxLevel [l, l'] :=
  le_antisymm (max_le (le_maxLevel (by simp)) (le_maxLevel (by simp)))
    (maxLevel_le_iff.mpr (by simp))

end ChangeMetricLemmas

open ChangeMetricLemmas

/-- The level of a change is an ultrametric: it is `NONE` for the same version only, it does not
depend on the direction, and no chain of changes that are all smaller adds up to it. -/
theorem classify_change_ultrametric :
    (∀ a b, classifyChange (some a) b = .none ↔ SameVersion a b) ∧
      (∀ a b, classifyChange (some a) b = classifyChange (some b) a) ∧
      (∀ a b c, classifyChange (some a) c ≤
        maxLevel [classifyChange (some a) b, classifyChange (some b) c]) ∧
      ∀ a between c, classifyChange (some a) c ≤
        maxLevel (List.zipWith (fun v v' => classifyChange (some v) v') (a :: between)
          (between ++ [c])) := by
  have htriangle : ∀ a b c, classifyChange (some a) c ≤
      max (classifyChange (some a) b) (classifyChange (some b) c) := by
    intro a b c
    simp only [classifyChange_eq_cascade]
    exact classify_le_max descending_positions a b c
  refine ⟨fun a b => ?_, fun a b => ?_, fun a b c => ?_, fun a between c => ?_⟩
  · rw [classifyChange_eq_cascade]
    refine (classify_eq_bot_iff descending_positions a b).trans ?_
    simp [positions, position, SameVersion]
  · rw [classifyChange_eq_cascade, classifyChange_eq_cascade, classify_comm]
  · rw [← max_eq_maxLevel]
    exact htriangle a b c
  · exact le_of_steps htriangle fun l hl => le_maxLevel hl

end LavsCore
