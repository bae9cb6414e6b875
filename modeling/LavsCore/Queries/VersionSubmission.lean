import LavsCore.Runs

/-!
# What a submitted version is stored as

The numbers of a version are read from its text and its prerelease from a field of its own;
what follows the numbers in the text is checked and then left out.

`submission_lossless_iff`: the rows of two submissions without a prerelease render their
texts, and the classifier tells different texts apart, exactly if neither text goes on after
its numbers.
-/

namespace LavsCore

open Query

/-- A version text with its numbers in decimal form, without leading zeros. -/
structure CanonicalVersion (version : String) (major minor patch : Nat) (tail : String) :
    Prop where
  text : version = s!"{major}.{minor}.{patch}" ++ tail
  accepted : matchesSuffix tail.toList = true

/-- The row that a submission stores. -/
structure StoredBy (eventBus : Bool) (data : CreateVersionModel) (env : Env) (w : World)
    (row : VersionRow) : Prop where
  completes : ((createVersion eventBus data env).run w).1.isOk = true
  stored : row ∈ ((createVersion eventBus data env).run w).2.db.versions.rows
  id : row.id = env.ulid

/-- `format_version` of a row. -/
def VersionRow.format (v : VersionRow) : String :=
  formatVersion v.major v.minor v.patch v.prerelease

namespace VersionSubmissionLemmas

variable {eventBus : Bool} {data : CreateVersionModel} {env : Env} {w : World} {row : VersionRow}
  {major minor patch : Nat} {tail : String}

theorem isDigits_toDigits (n : Nat) : IsDigits (Nat.toDigits 10 n) :=
  ⟨Nat.toDigits_ne_nil, fun _ hc => Py.isSome_digit?_of_isDigit
    (Nat.isDigit_of_mem_toDigits (by decide) (by decide) hc)⟩

theorem digitsValue_toDigits (n : Nat) : digitsValue (Nat.toDigits 10 n) = n := by
  rw [digitsValue, Py.ofDigits_map_ascii, Nat.ofDigitChars_ten_toDigits]
  exact fun _ hc => Nat.isDigit_of_mem_toDigits (by decide) (by decide) hc

theorem numbers_of_canonical (h : CanonicalVersion data.version major minor patch tail) :
    data.major = .ok (major : Int) ∧ data.minor = .ok (minor : Int) ∧
      data.patch = .ok (patch : Int) := by
  have htext : data.version.toList = Nat.toDigits 10 major ++ '.' ::
      (Nat.toDigits 10 minor ++ '.' :: (Nat.toDigits 10 patch ++ tail.toList)) := by
    rw [h.text]
    simp
    rfl
  have hnumbers := data.numbers_eq htext (isDigits_toDigits major) (isDigits_toDigits minor)
    (isDigits_toDigits patch) h.accepted
  simpa only [digitsValue_toDigits] using hnumbers

/-- The stored row has the numbers of the text and the prerelease of the request. -/
theorem row_of_canonical (hrow : StoredBy eventBus data env w row)
    (h : CanonicalVersion data.version major minor patch tail) :
    row = newVersionRow data env major minor patch := by
  obtain ⟨hmajor, hminor, hpatch⟩ := numbers_of_canonical h
  obtain ⟨hcompletes, hmem, hid⟩ := hrow
  have hrun := createVersion_run eventBus data env w
  generalize ((createVersion eventBus data env).run w).1 = answer at hrun hcompletes
  generalize ((createVersion eventBus data env).run w).2 = w' at hrun hmem
  cases hrun with
  | unknown _ => cases hcompletes
  | refused _ _ _ _ _ => cases hcompletes
  | created _ _ hmajor' hminor' hpatch' hinsert _ =>
    rw [hmajor'] at hmajor
    rw [hminor'] at hminor
    rw [hpatch'] at hpatch
    cases hmajor
    cases hminor
    cases hpatch
    have hrows := (Store.insertVersion_ok hinsert).rows
    refine Table.eq_of_key_eq hmem ?_ hid
    rw [hrows]
    exact List.mem_append_right _ List.mem_cons_self

theorem format_of_numbers (major minor patch : Nat) :
    formatVersion major minor patch none = s!"{major}.{minor}.{patch}" := rfl

theorem format_of_canonical (hrow : StoredBy eventBus data env w row)
    (hprerelease : data.prerelease = none)
    (h : CanonicalVersion data.version major minor patch tail) :
    row.format = s!"{major}.{minor}.{patch}" := by
  rw [row_of_canonical hrow h, VersionRow.format, newVersionRow, hprerelease]
  exact format_of_numbers major minor patch

theorem format_eq_version_iff (hrow : StoredBy eventBus data env w row)
    (hprerelease : data.prerelease = none)
    (h : CanonicalVersion data.version major minor patch tail) :
    row.format = data.version ↔ tail = "" := by
  rw [format_of_canonical hrow hprerelease h, h.text]
  generalize s!"{major}.{minor}.{patch}" = core
  constructor
  · intro heq
    have hlength := congrArg String.length heq
    rw [String.length_append] at hlength
    exact String.length_eq_zero_iff.mp (by omega)
  · rintro rfl
    exact String.append_empty.symm

/-- The classifier sees no change between versions without a prerelease exactly if they have
the same numbers. -/
theorem classifyChange_eq_none_iff {prior current : VersionRow} (hprior : prior.prerelease = none)
    (hcurrent : current.prerelease = none) :
    classifyChange (some prior.tuple) current.tuple = .none ↔ prior.tuple = current.tuple := by
  simp only [classifyChange, VersionRow.tuple, hprior, hcurrent, Prod.mk.injEq]
  split
  · next h => simp [h]
  · split
    · next h => simp [h]
    · split
      · next h => simp [h]
      · simp_all

end VersionSubmissionLemmas

open VersionSubmissionLemmas

/-- Two submissions without a prerelease are stored without loss, and told apart if their
texts differ, exactly if both texts end after their numbers. -/
theorem submission_lossless_iff {eventBus : Bool} {data data' : CreateVersionModel}
    {env env' : Env} {w w' : World} {row row' : VersionRow}
    {major minor patch major' minor' patch' : Nat} {tail tail' : String}
    (hrow : StoredBy eventBus data env w row) (hrow' : StoredBy eventBus data' env' w' row')
    (hprerelease : data.prerelease = none) (hprerelease' : data'.prerelease = none)
    (h : CanonicalVersion data.version major minor patch tail)
    (h' : CanonicalVersion data'.version major' minor' patch' tail') :
    (row.format = data.version ∧ row'.format = data'.version ∧
      (data.version ≠ data'.version → classifyChange (some row.tuple) row'.tuple ≠ .none)) ↔
        tail = "" ∧ tail' = "" := by
  rw [format_eq_version_iff hrow hprerelease h, format_eq_version_iff hrow' hprerelease' h']
  refine ⟨fun hall => ⟨hall.1, hall.2.1⟩, fun htails => ⟨htails.1, htails.2, fun hne hnone => ?_⟩⟩
  have hstored : row.prerelease = none ∧ row'.prerelease = none := by
    rw [row_of_canonical hrow h, row_of_canonical hrow' h']
    exact ⟨hprerelease, hprerelease'⟩
  have htuple := (classifyChange_eq_none_iff hstored.1 hstored.2).mp hnone
  have hformat : row.format = row'.format := by
    simp only [VersionRow.tuple, Prod.mk.injEq] at htuple
    obtain ⟨hmajor, hminor, hpatch, hpre⟩ := htuple
    rw [VersionRow.format, VersionRow.format, hmajor, hminor, hpatch, hpre]
  refine hne ?_
  rw [← (format_eq_version_iff hrow hprerelease h).mpr htails.1, hformat,
    (format_eq_version_iff hrow' hprerelease' h').mpr htails.2]

/-- The submissions of 1.2.0 and 1.3.0 lose nothing. -/
theorem submission_lossless_numbers :
    ∃ row row', StoredBy true Sample.api12 (Sample.env 50) Sample.versioned row ∧
      StoredBy true Sample.api13 (Sample.env 51) Sample.versioned row' ∧
      row.format = "1.2.0" ∧ row'.format = "1.3.0" ∧
      classifyChange (some row.tuple) row'.tuple ≠ .none := by
  let row : VersionRow :=
    ⟨Sample.id 50, Sample.id 11, 1, 2, 0, none, some .active, (Sample.env 50).now⟩
  let row' : VersionRow :=
    ⟨Sample.id 51, Sample.id 11, 1, 3, 0, none, some .active, (Sample.env 51).now⟩
  have hrow : StoredBy true Sample.api12 (Sample.env 50) Sample.versioned row :=
    ⟨by decide +kernel, by decide +kernel, rfl⟩
  have hrow' : StoredBy true Sample.api13 (Sample.env 51) Sample.versioned row' :=
    ⟨by decide +kernel, by decide +kernel, rfl⟩
  have h : CanonicalVersion Sample.api12.version 1 2 0 "" := ⟨by decide, rfl⟩
  have h' : CanonicalVersion Sample.api13.version 1 3 0 "" := ⟨by decide, rfl⟩
  obtain ⟨hformat, hformat', hdiffers⟩ :=
    (submission_lossless_iff hrow hrow' rfl rfl h h').mpr ⟨rfl, rfl⟩
  exact ⟨row, row', hrow, hrow', hformat, hformat', hdiffers (by decide)⟩

namespace Sample

/-- A request for 1.2.0-rc.1 with the prerelease in the text only. -/
def api12Candidate : CreateVersionModel :=
  { api12 with version := "1.2.0-rc.1", version_matches := by decide, version_length := by decide }

end Sample

/-- 1.2.0-rc.1 is stored as 1.2.0, and the classifier sees no change between them. -/
theorem submission_loses_suffix :
    ∃ row row', StoredBy true Sample.api12Candidate (Sample.env 50) Sample.versioned row ∧
      StoredBy true Sample.api12 (Sample.env 51) Sample.versioned row' ∧
      row.format = "1.2.0" ∧ row.format ≠ Sample.api12Candidate.version ∧
      classifyChange (some row.tuple) row'.tuple = .none := by
  let row : VersionRow :=
    ⟨Sample.id 50, Sample.id 11, 1, 2, 0, none, some .active, (Sample.env 50).now⟩
  let row' : VersionRow :=
    ⟨Sample.id 51, Sample.id 11, 1, 2, 0, none, some .active, (Sample.env 51).now⟩
  exact ⟨row, row', ⟨by decide +kernel, by decide +kernel, rfl⟩,
    ⟨by decide +kernel, by decide +kernel, rfl⟩, by decide, by decide, by decide⟩

end LavsCore
