import LavsCore.Models.Requests

/-!
# The version field of a request

`CreateVersionModel` reads its version with `validate_version`, which runs before the
type of the value is checked, and then with `MaxLen(256)`.

`version_field_iff`: the field is read as its grammar says (`ReadsGrammar`) exactly if the
value is a text, and one that the pattern accepts is plain ASCII without a newline. The
pattern accepts digits of any script and a newline at the end, and `re.match` raises
`TypeError` for everything that is not a text.
-/

namespace LavsCore

/-! ## Reading the field -/

/-- A value of a JSON body. A number that is no integer is kept as it was written. -/
inductive JsonValue where
  | null
  | bool (b : Bool)
  | int (n : Int)
  | float (literal : String)
  | string (s : String)
  | list (items : List JsonValue)
  | dict (fields : List (String × JsonValue))

/-- `type(value).__name__`. -/
def JsonValue.typeName : JsonValue → String
  | .null => "NoneType"
  | .bool _ => "bool"
  | .int _ => "int"
  | .float _ => "float"
  | .string _ => "str"
  | .list _ => "list"
  | .dict _ => "dict"

/-- `validate_version`. -/
def validateVersion : JsonValue → Except ApiError { s : String // matchesVersion s = true }
  | .string s =>
    if h : matchesVersion s = true then .ok ⟨s, h⟩
    else .error (.valueError "version must be a semantic version number.")
  | value => .error (.typeError s!"expected string or bytes-like object, got '{value.typeName}'")

/-- `CreateVersionModel`, with a component and a prerelease that have been accepted. -/
def CreateVersionModel.parse (componentId : String) (version : JsonValue)
    (prerelease : Option { p : String // p.length ≤ 256 }) : Except ApiError CreateVersionModel :=
  match validateVersion version with
  | .error error => .error error
  | .ok ⟨s, hmatches⟩ =>
    if hlength : s.length ≤ 256 then
      .ok {
        componentId := componentId
        version := s
        prerelease := prerelease.map Subtype.val
        version_matches := hmatches
        version_length := hlength
        prerelease_length := by
          intro p hp
          obtain ⟨q, _, rfl⟩ := Option.map_eq_some_iff.mp hp
          exact q.2 }
    else .error (.validation "CreateVersionModel" ["version"])

/-- The errors that pydantic collects into a `ValidationError`. -/
def ApiError.isValueError : ApiError → Bool
  | .valueError _ | .validation _ _ => true
  | _ => false

/-! ## The grammar -/

/-- `D.D.D` or `D.D.D-S`, where `D` are ASCII digits and `S` is of `[0-9A-Za-z.-]`. -/
structure VersionForm (s : String) (major minor patch : List Char) : Prop where
  major_digits : major ≠ [] ∧ ∀ c ∈ major, c.isDigit = true
  minor_digits : minor ≠ [] ∧ ∀ c ∈ minor, c.isDigit = true
  patch_digits : patch ≠ [] ∧ ∀ c ∈ patch, c.isDigit = true
  text : ∃ suffix, s.toList = major ++ '.' :: (minor ++ '.' :: (patch ++ suffix)) ∧
    (suffix = [] ∨
      ∃ body, suffix = '-' :: body ∧ body ≠ [] ∧ ∀ c ∈ body, isPrereleaseChar c = true)

/-- The field is read as the grammar says: it is accepted if it is a text of the form, with
the values of its digits, and everything else ends in a validation error. -/
def ReadsGrammar (value : JsonValue) : Except ApiError CreateVersionModel → Prop
  | .ok data => value = .string data.version ∧ data.version.length ≤ 256 ∧
      ∃ major minor patch, VersionForm data.version major minor patch ∧
        data.major = .ok (Nat.ofDigitChars 10 major 0 : Nat) ∧
        data.minor = .ok (Nat.ofDigitChars 10 minor 0 : Nat) ∧
        data.patch = .ok (Nat.ofDigitChars 10 patch 0 : Nat)
  | .error error => error.isValueError = true ∧
      ∀ s, value = .string s → s.length ≤ 256 →
        ∀ major minor patch, ¬ VersionForm s major minor patch

/-! ## The pattern and the grammar -/

namespace VersionTextLemmas

open RequestLemmas

theorem isDigits_of_ascii {digits : List Char} (h : digits ≠ [] ∧ ∀ c ∈ digits, c.isDigit = true) :
    IsDigits digits :=
  ⟨h.1, fun c hc => Py.isSome_digit?_of_isDigit (h.2 c hc)⟩

/-- Among the digits of all scripts only those of ASCII are below 128. -/
theorem isDigit_of_digit? {c : Char} (h : (Py.digit? c).isSome = true) (hascii : c.toNat < 128) :
    c.isDigit = true := by
  obtain ⟨z, hz, hlow, hhigh⟩ := Py.exists_zero_of_digit? h
  have hzero : ∀ z ∈ Py.digitZeros, z < 128 → z = 48 := by decide
  obtain rfl := hzero z hz (Nat.lt_of_le_of_lt hlow hascii)
  simp only [Char.isDigit, Bool.and_eq_true, decide_eq_true_eq, UInt32.le_iff_toNat_le]
  exact ⟨hlow, Nat.le_of_lt_succ hhigh⟩

theorem digitsPrefix_append {digits rest : List Char} (h : IsDigits digits)
    (hrest : ∀ c ∈ rest.head?, (Py.digit? c).isSome = false) :
    digitsPrefix (digits ++ rest) = some (digits, rest) := by
  have htake : (digits ++ rest).takeWhile (fun c => (Py.digit? c).isSome) = digits := by
    rw [List.takeWhile_append_of_pos h.2]
    cases rest with
    | nil => exact List.append_nil digits
    | cons c rest =>
      rw [List.takeWhile_cons_of_neg (by simp [hrest c rfl]), List.append_nil]
  simp only [digitsPrefix, htake, if_neg h.1, List.drop_left]

theorem head_of_matchesSuffix {suffix : List Char} (h : matchesSuffix suffix = true) :
    ∀ c ∈ suffix.head?, (Py.digit? c).isSome = false := by
  unfold matchesSuffix at h
  split at h
  · intro c hc
    cases hc
  · intro c hc
    cases hc
    decide
  · intro c hc
    cases hc
    decide
  · cases h

/-- The pattern accepts three digit groups and a suffix. -/
theorem matchesVersion_of_text {version : String} {major minor patch suffix : List Char}
    (htext : version.toList = major ++ '.' :: (minor ++ '.' :: (patch ++ suffix)))
    (hmajor : IsDigits major) (hminor : IsDigits minor) (hpatch : IsDigits patch)
    (hsuffix : matchesSuffix suffix = true) : matchesVersion version = true := by
  have hdot : ∀ rest : List Char, ∀ c ∈ ('.' :: rest).head?, (Py.digit? c).isSome = false := by
    intro rest c hc
    cases hc
    decide
  unfold matchesVersion
  rw [htext, digitsPrefix_append hmajor (hdot _)]
  split
  · next heq =>
    cases heq
    rw [digitsPrefix_append hminor (hdot _)]
    split
    · next heq =>
      cases heq
      rw [digitsPrefix_append hpatch (head_of_matchesSuffix hsuffix)]
      exact hsuffix
    · next hother => exact absurd rfl (hother _ _)
  · next hother => exact absurd rfl (hother _ _)

theorem matchesSuffix_of_body {body : List Char} (hne : body ≠ [])
    (h : ∀ c ∈ body, isPrereleaseChar c = true) : matchesSuffix ('-' :: body) = true := by
  have hdrop : body.dropWhile isPrereleaseChar = [] := List.dropWhile_eq_nil_iff.mpr h
  simp [matchesSuffix, hdrop, Ne.symm hne]

/-- A character below 128 that is no newline. -/
def IsPlain (c : Char) : Prop := c.toNat < 128 ∧ c ≠ '\n'

theorem isPlain_of_isDigit {c : Char} (h : c.isDigit = true) : IsPlain c := by
  have hc := Py.toNat_of_isDigit h
  refine ⟨by omega, ?_⟩
  rintro rfl
  cases h

theorem isPlain_of_isPrereleaseChar {c : Char} (h : isPrereleaseChar c = true) : IsPlain c := by
  refine ⟨?_, ?_⟩
  · have hplain : ∀ high : Char, c.val ≤ high.val → high.toNat < 128 → c.toNat < 128 :=
      fun high hle hhigh => Nat.lt_of_le_of_lt (UInt32.le_iff_toNat_le.mp hle) hhigh
    simp only [isPrereleaseChar, Bool.or_eq_true, decide_eq_true_eq] at h
    rcases h with (halnum | rfl) | rfl
    · rcases Bool.or_eq_true_iff.mp halnum with halpha | hdigit
      · rcases Bool.or_eq_true_iff.mp halpha with hupper | hlower
        · exact hplain 'Z' (of_decide_eq_true hupper).2 (by decide)
        · exact hplain 'z' (of_decide_eq_true (Bool.and_eq_true_iff.mp hlower).2) (by decide)
      · exact (isPlain_of_isDigit hdigit).1
    · decide
    · decide
  · rintro rfl
    exact absurd h (by decide)

variable {s : String} {major minor patch : List Char}

theorem matchesVersion_of_form (h : VersionForm s major minor patch) :
    matchesVersion s = true := by
  obtain ⟨suffix, htext, hsuffix⟩ := h.text
  refine matchesVersion_of_text htext (isDigits_of_ascii h.major_digits)
    (isDigits_of_ascii h.minor_digits) (isDigits_of_ascii h.patch_digits) ?_
  rcases hsuffix with rfl | ⟨body, rfl, hne, hbody⟩
  · rfl
  · exact matchesSuffix_of_body hne hbody

/-- A text of the form is plain. -/
theorem isPlain_of_form (h : VersionForm s major minor patch) : ∀ c ∈ s.toList, IsPlain c := by
  obtain ⟨suffix, htext, hsuffix⟩ := h.text
  have hdot : IsPlain '.' := ⟨by decide, by decide⟩
  have hsuffix : ∀ c ∈ suffix, IsPlain c := by
    rcases hsuffix with rfl | ⟨body, rfl, _, hbody⟩
    · exact fun c hc => absurd hc List.not_mem_nil
    · exact List.forall_mem_cons.mpr
        ⟨⟨by decide, by decide⟩, fun c hc => isPlain_of_isPrereleaseChar (hbody c hc)⟩
  intro c hc
  rw [htext] at hc
  simp only [List.mem_append, List.mem_cons] at hc
  rcases hc with hc | rfl | hc | rfl | hc | hc
  · exact isPlain_of_isDigit (h.major_digits.2 c hc)
  · exact hdot
  · exact isPlain_of_isDigit (h.minor_digits.2 c hc)
  · exact hdot
  · exact isPlain_of_isDigit (h.patch_digits.2 c hc)
  · exact hsuffix c hc

/-- A suffix without a newline is that of the form. -/
theorem suffix_of_matchesSuffix {suffix : List Char} (h : matchesSuffix suffix = true)
    (hplain : ∀ c ∈ suffix, IsPlain c) :
    suffix = [] ∨
      ∃ body, suffix = '-' :: body ∧ body ≠ [] ∧ ∀ c ∈ body, isPrereleaseChar c = true := by
  unfold matchesSuffix at h
  split at h
  · exact Or.inl rfl
  · exact absurd rfl (hplain '\n' List.mem_cons_self).2
  · next body =>
    simp only [Bool.and_eq_true, Bool.or_eq_true, decide_eq_true_eq] at h
    obtain ⟨hne, hrest | hrest⟩ := h
    · refine Or.inr ⟨body, rfl, ?_, List.dropWhile_eq_nil_iff.mp hrest⟩
      rintro rfl
      exact hne rfl
    · have hnewline : '\n' ∈ body := (List.dropWhile_suffix _).subset (hrest ▸ List.mem_cons_self)
      exact absurd rfl (hplain '\n' (List.mem_cons_of_mem _ hnewline)).2
  · cases h

/-- A plain text that the pattern accepts is of the form. -/
theorem exists_form (h : matchesVersion s = true) (hplain : ∀ c ∈ s.toList, IsPlain c) :
    ∃ major minor patch, VersionForm s major minor patch := by
  obtain ⟨major, minor, patch, suffix, htext, hmajor, hminor, hpatch, hsuffix⟩ :=
    exists_of_matchesVersion h
  rw [htext] at hplain
  have hascii : ∀ {digits : List Char}, IsDigits digits →
      (∀ c ∈ digits, c ∈ major ++ '.' :: (minor ++ '.' :: (patch ++ suffix))) →
      digits ≠ [] ∧ ∀ c ∈ digits, c.isDigit = true :=
    fun hdigits hmem => ⟨hdigits.1, fun c hc =>
      isDigit_of_digit? (hdigits.2 c hc) (hplain c (hmem c hc)).1⟩
  refine ⟨major, minor, patch, hascii hmajor ?_, hascii hminor ?_, hascii hpatch ?_, suffix, htext,
    suffix_of_matchesSuffix hsuffix fun c hc => hplain c ?_⟩
  · exact fun c hc => List.mem_append_left _ hc
  · intro c hc
    simp [hc]
  · intro c hc
    simp [hc]
  · simp [hc]

theorem numbers_of_form {data : CreateVersionModel}
    (h : VersionForm data.version major minor patch) :
    data.major = .ok (Nat.ofDigitChars 10 major 0 : Nat) ∧
      data.minor = .ok (Nat.ofDigitChars 10 minor 0 : Nat) ∧
      data.patch = .ok (Nat.ofDigitChars 10 patch 0 : Nat) := by
  obtain ⟨suffix, htext, hsuffix⟩ := h.text
  have hmatches : matchesSuffix suffix = true := by
    rcases hsuffix with rfl | ⟨body, rfl, hne, hbody⟩
    · rfl
    · exact matchesSuffix_of_body hne hbody
  have hvalue : ∀ {digits : List Char}, (∀ c ∈ digits, c.isDigit = true) →
      digitsValue digits = Nat.ofDigitChars 10 digits 0 :=
    fun hdigits => Py.ofDigits_map_ascii hdigits
  rw [← hvalue h.major_digits.2, ← hvalue h.minor_digits.2, ← hvalue h.patch_digits.2]
  exact data.numbers_eq htext (isDigits_of_ascii h.major_digits) (isDigits_of_ascii h.minor_digits)
    (isDigits_of_ascii h.patch_digits) hmatches

end VersionTextLemmas

open VersionTextLemmas

/-- The field is read as its grammar says exactly if the value is a text, and the ones that
the pattern accepts within 256 characters are plain ASCII without a newline. -/
theorem version_field_iff (componentId : String) (value : JsonValue)
    (prerelease : Option { p : String // p.length ≤ 256 }) :
    ReadsGrammar value (CreateVersionModel.parse componentId value prerelease) ↔
      ∃ s, value = .string s ∧
        (matchesVersion s = true → s.length ≤ 256 →
          ∀ c ∈ s.toList, c.toNat < 128 ∧ c ≠ '\n') := by
  cases value with
  | string s =>
    simp only [JsonValue.string.injEq, exists_eq_left']
    cases hmatches : matchesVersion s with
    | false =>
      refine iff_of_true ?_ (fun h => Bool.noConfusion h)
      simp only [CreateVersionModel.parse, validateVersion, hmatches, Bool.false_eq_true,
        dite_false]
      refine ⟨rfl, fun s' heq _ major minor patch hform => ?_⟩
      cases heq
      rw [matchesVersion_of_form hform] at hmatches
      cases hmatches
    | true =>
      rcases Nat.lt_or_ge 256 s.length with hlong | hlength
      · refine iff_of_true ?_ (fun _ h => absurd h (Nat.not_le_of_lt hlong))
        simp only [CreateVersionModel.parse, validateVersion, hmatches, dite_true,
          Nat.not_le_of_lt hlong, dite_false]
        refine ⟨rfl, fun s' heq h => ?_⟩
        cases heq
        exact absurd h (Nat.not_le_of_lt hlong)
      · simp only [CreateVersionModel.parse, validateVersion, hmatches, dite_true, hlength]
        constructor
        · rintro ⟨_, _, major, minor, patch, hform, _⟩ _ _
          exact isPlain_of_form hform
        · intro hplain
          obtain ⟨major, minor, patch, hform⟩ := exists_form hmatches (hplain trivial trivial)
          exact ⟨rfl, hlength, major, minor, patch, hform, numbers_of_form hform⟩
  | _ => exact iff_of_false (fun h => Bool.noConfusion h.1) (by rintro ⟨s, ⟨⟩, _⟩)

/-- A number raises `TypeError`; a newline at the end and a digit of another script are
accepted. -/
theorem version_field_deviates :
    ¬ ReadsGrammar (.int 1)
        (CreateVersionModel.parse "01KW8WHA6STWW5N1VYRSHDTK11" (.int 1) none) ∧
      ¬ ReadsGrammar (.string "1.0.0\n")
        (CreateVersionModel.parse "01KW8WHA6STWW5N1VYRSHDTK11" (.string "1.0.0\n") none) ∧
      ¬ ReadsGrammar (.string "\u0661.0.0")
        (CreateVersionModel.parse "01KW8WHA6STWW5N1VYRSHDTK11" (.string "\u0661.0.0") none) := by
  refine ⟨fun h => Bool.noConfusion h.1, ?_, ?_⟩
  · rintro ⟨_, _, _, _, _, hform, _⟩
    exact (isPlain_of_form hform '\n' (by decide)).2 rfl
  · rintro ⟨_, _, _, _, _, hform, _⟩
    exact absurd (isPlain_of_form hform '\u0661' (by decide)).1 (by decide)

end LavsCore
