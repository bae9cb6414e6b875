import LavsCore.Errors
import LavsCore.Domain.ChangeClassifier
import LavsCore.Python.Text

/-!
# The product version

`app/domain/product_version.py`: parsing the core of a version text and the four
bumps.

`parse_core_render_core`: parsing inverts rendering. `apply_bump_core` says what a
bump does to a parsed core; it never goes back (`le_bumpCore`) and moves exactly
when the level is not `none` (`bumpCore_eq_iff`).
-/

namespace LavsCore

/-- The three numbers of a version. -/
abbrev Core := Nat × Nat × Nat

/-- The text of `ValueError` when a number is too long to be rendered. -/
def digitLimitMessage : String :=
  "Exceeds the limit (4300 digits) for integer string conversion; " ++
    "use sys.set_int_max_str_digits() to increase the limit"

/-- `(int(part) for part in parts)`. -/
def parseParts (version : String) (parts : List (List Char)) : Except ApiError (List Int) :=
  parts.mapM fun part =>
    match Py.int part with
    | some n => .ok n
    | none => .error (.valueError s!"Version '{version}' has non-integer components.")

/-- `_parse_core`: the numbers before the first `-`. -/
def parseCore (version : String) : Except ApiError Core := do
  let core := Py.splitHead '-' version.toList
  let parts := Py.split '.' core
  if parts.length ≠ 3 then
    throw (.valueError s!"Version '{version}' is not in major.minor.patch form.")
  match ← parseParts version parts with
  | [major, minor, patch] =>
    if major < 0 ∨ minor < 0 ∨ patch < 0 then
      throw (.valueError s!"Version '{version}' has negative components.")
    return (major.toNat, minor.toNat, patch.toNat)
  | _ => throw (.valueError s!"Version '{version}' is not in major.minor.patch form.")

/-- `f"{major}.{minor}.{patch}"`. -/
def renderCore : Core → Except ApiError String
  | (major, minor, patch) =>
    match Py.str major, Py.str minor, Py.str patch with
    | some a, some b, some c => .ok (String.ofList (['.'].intercalate [a, b, c]))
    | _, _, _ => .error (.valueError digitLimitMessage)

/-- `bump_minor`. -/
def bumpMinor (version : String) : Except ApiError String := do
  let (major, minor, _) ← parseCore version
  renderCore (major, minor + 1, 0)

/-- `bump_major`. -/
def bumpMajor (version : String) : Except ApiError String := do
  let (major, _, _) ← parseCore version
  renderCore (major + 1, 0, 0)

/-- `bump_patch`. -/
def bumpPatch (version : String) : Except ApiError String := do
  let (major, minor, patch) ← parseCore version
  renderCore (major, minor, patch + 1)

/-- `apply_bump`: `none` returns the version text unchanged, without parsing it. -/
def applyBump (current : String) : BumpLevel → Except ApiError String
  | .major => bumpMajor current
  | .minor => bumpMinor current
  | .patch => bumpPatch current
  | .none => .ok current

/-- What a level does to the three numbers. -/
def bumpCore : BumpLevel → Core → Core
  | .major, (major, _, _) => (major + 1, 0, 0)
  | .minor, (major, minor, _) => (major, minor + 1, 0)
  | .patch, (major, minor, patch) => (major, minor, patch + 1)
  | .none, core => core

/-- The order of versions: by major, then minor, then patch. -/
def Core.le (a b : Core) : Prop :=
  a.1 < b.1 ∨ (a.1 = b.1 ∧ (a.2.1 < b.2.1 ∨ (a.2.1 = b.2.1 ∧ a.2.2 ≤ b.2.2)))

instance (a b : Core) : Decidable (Core.le a b) := by
  unfold Core.le
  infer_instance

/-! ## Parsing inverts rendering -/

namespace ProductVersionLemmas

theorem not_mem_of_str {n : Nat} {text : List Char} (h : Py.str n = some text) {c : Char}
    (hc : c.isDigit = false) : c ∉ text := by
  intro hmem
  rw [Py.isDigit_of_str h c hmem] at hc
  cases hc

/-- Rendering succeeds only when each number can be rendered. -/
theorem render_core_ok {core : Core} {version : String} (h : renderCore core = .ok version) :
    ∃ a b c, Py.str core.1 = some a ∧ Py.str core.2.1 = some b ∧ Py.str core.2.2 = some c ∧
      version.toList = ['.'].intercalate [a, b, c] := by
  obtain ⟨major, minor, patch⟩ := core
  unfold renderCore at h
  cases ha : Py.str major with
  | none => simp [ha] at h
  | some a =>
    cases hb : Py.str minor with
    | none => simp [ha, hb] at h
    | some b =>
      cases hc : Py.str patch with
      | none => simp [ha, hb, hc] at h
      | some c =>
        simp only [ha, hb, hc, Except.ok.injEq] at h
        exact ⟨a, b, c, rfl, rfl, rfl, h ▸ String.toList_ofList⟩

end ProductVersionLemmas

open ProductVersionLemmas

theorem parse_core_render_core {core : Core} {version : String}
    (h : renderCore core = .ok version) : parseCore version = .ok core := by
  obtain ⟨a, b, c, ha, hb, hc, htext⟩ := render_core_ok h
  have hdash : '-' ∉ version.toList := by
    rw [htext]
    simp only [List.intercalate, List.intersperse_cons_cons, List.intersperse_singleton,
      List.flatten_cons, List.flatten_nil, List.append_nil, List.mem_append, List.mem_singleton,
      not_or]
    exact ⟨not_mem_of_str ha rfl, by decide, not_mem_of_str hb rfl, by decide,
      not_mem_of_str hc rfl⟩
  have hsplit : Py.split '.' (Py.splitHead '-' version.toList) = [a, b, c] := by
    rw [Py.splitHead_of_not_mem hdash, htext]
    refine Py.split_intercalate (by simp) ?_
    intro part hpart
    simp only [List.mem_cons, List.not_mem_nil, or_false] at hpart
    rcases hpart with rfl | rfl | rfl
    · exact not_mem_of_str ha rfl
    · exact not_mem_of_str hb rfl
    · exact not_mem_of_str hc rfl
  have hparts : parseParts version [a, b, c] =
      .ok [(core.1 : Int), (core.2.1 : Int), (core.2.2 : Int)] := by
    simp only [parseParts, List.mapM_cons, List.mapM_nil, Py.int_str ha, Py.int_str hb,
      Py.int_str hc]
    rfl
  have hneg : ¬ ((core.1 : Int) < 0 ∨ (core.2.1 : Int) < 0 ∨ (core.2.2 : Int) < 0) := by omega
  simp only [parseCore, hsplit, hparts]
  simp [hneg, bind, Except.bind, pure, Except.pure]

/-! ## Bumping -/

/-- A bump that succeeds parses the current version, bumps its numbers and renders
them; `none` keeps the text. -/
theorem apply_bump_core {current next : String} {level : BumpLevel} {core : Core}
    (hcur : parseCore current = .ok core) (h : applyBump current level = .ok next) :
    parseCore next = .ok (bumpCore level core) := by
  obtain ⟨major, minor, patch⟩ := core
  cases level with
  | none =>
    cases h
    exact hcur
  | patch =>
    rw [applyBump, bumpPatch, hcur] at h
    exact parse_core_render_core h
  | minor =>
    rw [applyBump, bumpMinor, hcur] at h
    exact parse_core_render_core h
  | major =>
    rw [applyBump, bumpMajor, hcur] at h
    exact parse_core_render_core h

/-- A bump of a version that can be parsed fails only where a number is too long to be
rendered. -/
theorem apply_bump_error {current : String} {level : BumpLevel} {core : Core} {error : ApiError}
    (hcur : parseCore current = .ok core) (h : applyBump current level = .error error) :
    error = .valueError digitLimitMessage := by
  have hrender : ∀ a b c : Nat, renderCore (a, b, c) = .error error →
      error = .valueError digitLimitMessage := by
    intro a b c hcore
    simp only [renderCore] at hcore
    split at hcore
    · cases hcore
    · exact (Except.error.inj hcore).symm
  obtain ⟨major, minor, patch⟩ := core
  cases level with
  | none => cases h
  | patch =>
    rw [applyBump, bumpPatch, hcur] at h
    exact hrender _ _ _ h
  | minor =>
    rw [applyBump, bumpMinor, hcur] at h
    exact hrender _ _ _ h
  | major =>
    rw [applyBump, bumpMajor, hcur] at h
    exact hrender _ _ _ h

/-- A bump never goes back. -/
theorem le_bumpCore (level : BumpLevel) (core : Core) : Core.le core (bumpCore level core) := by
  obtain ⟨major, minor, patch⟩ := core
  cases level <;> simp [bumpCore, Core.le]

/-- A bump moves the numbers exactly when its level is not `none`. -/
theorem bumpCore_eq_iff (level : BumpLevel) (core : Core) :
    bumpCore level core = core ↔ level = .none := by
  obtain ⟨major, minor, patch⟩ := core
  cases level <;> simp [bumpCore]

end LavsCore
