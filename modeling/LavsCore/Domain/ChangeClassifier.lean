import Mathlib.Data.Nat.Basic
import Mathlib.Order.Lattice

/-!
# Change levels

`app/models/enums/bump_level.py` and `app/domain/change_classifier.py`: the four
levels in their semantic order, and the level of a component's own change since the
previous release.
-/

namespace LavsCore

/-- `BumpLevel`. -/
inductive BumpLevel where
  | none | patch | minor | major
  deriving DecidableEq, Repr

namespace BumpLevel

/-- The persisted text of a level. -/
def value : BumpLevel → String
  | none => "none"
  | patch => "patch"
  | minor => "minor"
  | major => "major"

/-- `_ORDER`. -/
def ordinal : BumpLevel → Nat
  | none => 0
  | patch => 1
  | minor => 2
  | major => 3

/-- `_BY_ORDINAL`. -/
def byOrdinal : Nat → BumpLevel
  | 0 => none
  | 1 => patch
  | 2 => minor
  | _ => major

theorem ordinal_injective : Function.Injective ordinal := by
  intro a b h
  cases a <;> cases b <;> first | rfl | cases h

theorem value_injective : Function.Injective value := by
  intro a b h
  cases a <;> cases b <;> first | rfl | exact absurd h (by decide)

/-- `none < patch < minor < major`. -/
instance : LinearOrder BumpLevel := LinearOrder.lift' ordinal ordinal_injective

theorem le_iff_ordinal {a b : BumpLevel} : a ≤ b ↔ a.ordinal ≤ b.ordinal := Iff.rfl

theorem ordinal_le (l : BumpLevel) : l.ordinal ≤ 3 := by cases l <;> decide

theorem ordinal_byOrdinal {n : Nat} (h : n ≤ 3) : (byOrdinal n).ordinal = n := by
  match n, h with
  | 0, _ | 1, _ | 2, _ | 3, _ => rfl

theorem le_major (l : BumpLevel) : l ≤ major := ordinal_le l

end BumpLevel

/-- `VersionTuple`: the numbers of a version and its prerelease. -/
abbrev VersionTuple := Int × Int × Int × Option String

/-- `prerelease or None`: an empty prerelease counts as none. -/
def orNone : Option String → Option String
  | some "" => none
  | prerelease => prerelease

/-- `classify_change`: the level of the first position that differs, in whichever
direction. A component that was not in the previous release is a minor change. -/
def classifyChange (prior : Option VersionTuple) (current : VersionTuple) : BumpLevel :=
  match prior with
  | none => .minor
  | some (priorMajor, priorMinor, priorPatch, priorPrerelease) =>
    let (currentMajor, currentMinor, currentPatch, currentPrerelease) := current
    if priorMajor ≠ currentMajor then .major
    else if priorMinor ≠ currentMinor then .minor
    else if priorPatch ≠ currentPatch then .patch
    else if orNone priorPrerelease ≠ orNone currentPrerelease then .patch
    else .none

end LavsCore
