import LavsCore.Errors
import LavsCore.Python.Text
import LavsCore.Store.Schema

/-!
# Requests

`app/models/requests/` and the request classes beside the queries. The limits that
pydantic checks are fields of the models, so a request that the service would
reject cannot be built.

`CreateVersionModel.numbers_ok`: for every accepted version text the three computed
numbers are natural numbers. They are not bounded otherwise.
-/

namespace LavsCore

/-- `CreateProductModel`. -/
structure CreateProductModel where
  name : String
  description : Option String
  name_length : 1 ≤ name.length ∧ name.length ≤ 256 := by decide
  description_length : ∀ d ∈ description, d.length ≤ 4096 := by decide

/-- `CreateComponentModel`. -/
structure CreateComponentModel where
  productId : String
  name : String
  kind : ComponentKind
  name_length : 1 ≤ name.length ∧ name.length ≤ 256 := by decide

/-- `RollbackVersionRequest`. -/
structure RollbackVersionRequest where
  versionId : String

/-- `CutReleaseRequest`. -/
structure CutReleaseRequest where
  productId : String
  label : Option String
  notes : Option String
  idempotencyKey : Option String

/-- `CreateDependencyRequest`. -/
structure CreateDependencyRequest where
  productId : String
  fromComponentId : String
  toComponentId : String

/-- `RemoveDependencyRequest`. -/
structure RemoveDependencyRequest where
  productId : String
  fromComponentId : String
  toComponentId : String

/-- `ImpactRequest`. -/
structure ImpactRequest where
  productId : String
  componentId : String

/-! ## The version text -/

/-- `\d+` in front of the text: the digits and what follows them. -/
def digitsPrefix (text : List Char) : Option (List Char × List Char) :=
  let digits := text.takeWhile fun c => (Py.digit? c).isSome
  if digits = [] then none else some (digits, text.drop digits.length)

/-- A character of `[0-9A-Za-z.-]`. -/
def isPrereleaseChar (c : Char) : Bool := c.isAlphanum || c = '.' || c = '-'

/-- `(-[0-9A-Za-z.-]+)?$`. The `$` also accepts a newline at the very end. -/
def matchesSuffix (text : List Char) : Bool :=
  match text with
  | [] => true
  | ['\n'] => true
  | '-' :: body =>
    let rest := body.dropWhile isPrereleaseChar
    decide (rest ≠ body) && (rest = [] || rest = ['\n'])
  | _ => false

/-- `^\d+\.\d+\.\d+(-[0-9A-Za-z.-]+)?$`, as `re.match` applies it. -/
def matchesVersion (version : String) : Bool :=
  match digitsPrefix version.toList with
  | some (_, '.' :: rest) =>
    match digitsPrefix rest with
    | some (_, '.' :: rest) =>
      match digitsPrefix rest with
      | some (_, rest) => matchesSuffix rest
      | none => false
    | _ => false
  | _ => false

example : matchesVersion "2.4.0-rc.1" = true := by decide

example : matchesVersion "2.4" = false := by decide

/-- `CreateVersionModel`. The prerelease is a field of its own; the suffix of the
version text is checked and not used. -/
structure CreateVersionModel where
  componentId : String
  version : String
  prerelease : Option String
  version_matches : matchesVersion version = true := by decide
  version_length : version.length ≤ 256 := by decide
  prerelease_length : ∀ p ∈ prerelease, p.length ≤ 256 := by decide

/-- The text of `ValueError` from `int(text)`. -/
def invalidIntMessage (text : List Char) : String :=
  s!"invalid literal for int() with base 10: '{String.ofList text}'"

/-- `int(version.split(".")[index])`, after `extract`. -/
def versionNumber (version : String) (index : Nat) (extract : List Char → List Char) :
    Except ApiError Int :=
  match (Py.split '.' version.toList)[index]? with
  | none => .error (.indexError "list index out of range")
  | some segment =>
    match Py.int (extract segment) with
    | some n => .ok n
    | none => .error (.valueError (invalidIntMessage (extract segment)))

namespace CreateVersionModel

/-- The computed field `major`. -/
def major (data : CreateVersionModel) : Except ApiError Int := versionNumber data.version 0 id

/-- The computed field `minor`. -/
def minor (data : CreateVersionModel) : Except ApiError Int := versionNumber data.version 1 id

/-- The computed field `patch`. -/
def patch (data : CreateVersionModel) : Except ApiError Int :=
  versionNumber data.version 2 (Py.splitHead '-')

end CreateVersionModel

/-! ## Accepted texts have numbers -/

/-- `\d+`: digits of any script, at least one. -/
def IsDigits (digits : List Char) : Prop :=
  digits ≠ [] ∧ ∀ c ∈ digits, (Py.digit? c).isSome = true

/-- The number that digits denote. -/
def digitsValue (digits : List Char) : Nat :=
  Py.ofDigits (digits.map fun c => (Py.digit? c).getD 0)

namespace RequestLemmas

theorem digitsPrefix_eq_some {text digits rest : List Char}
    (h : digitsPrefix text = some (digits, rest)) :
    text = digits ++ rest ∧ digits ≠ [] ∧ ∀ c ∈ digits, (Py.digit? c).isSome = true := by
  simp only [digitsPrefix] at h
  split at h
  · cases h
  · next hne =>
    cases h
    refine ⟨?_, hne, fun c hc => ?_⟩
    · exact (List.prefix_iff_eq_append.mp (List.takeWhile_prefix _)).symm
    · exact List.mem_takeWhile_imp (p := fun c => (Py.digit? c).isSome) hc

theorem not_mem_of_digits {digits : List Char} (h : ∀ c ∈ digits, (Py.digit? c).isSome = true)
    {other : Char} (hother : (Py.digit? other).isSome = false) : other ∉ digits :=
  fun hmem => Py.ne_of_digit? (h other hmem) hother rfl

theorem splitHead_append {sep : Char} {digits rest : List Char} (h : sep ∉ digits) :
    Py.splitHead sep (digits ++ rest) = digits ++ Py.splitHead sep rest := by
  refine List.takeWhile_append_of_pos fun c hc => decide_eq_true ?_
  rintro rfl
  exact h hc

/-- Up to a newline at the end, the patch segment is its digits. -/
theorem patch_segment {digits suffix : List Char}
    (h : ∀ c ∈ digits, (Py.digit? c).isSome = true) (hs : matchesSuffix suffix = true) :
    Py.splitHead '-' (Py.splitHead '.' (digits ++ suffix)) = digits ∨
      Py.splitHead '-' (Py.splitHead '.' (digits ++ suffix)) = digits ++ ['\n'] := by
  rw [splitHead_append (not_mem_of_digits h (by decide)),
    splitHead_append (not_mem_of_digits h (by decide))]
  unfold matchesSuffix at hs
  split at hs
  · exact Or.inl (List.append_nil digits)
  · exact Or.inr rfl
  · exact Or.inl (List.append_nil digits)
  · cases hs

/-- An accepted text is three digit groups and a suffix. -/
theorem exists_of_matchesVersion {version : String} (h : matchesVersion version = true) :
    ∃ major minor patch suffix : List Char,
      version.toList = major ++ '.' :: (minor ++ '.' :: (patch ++ suffix)) ∧
      IsDigits major ∧ IsDigits minor ∧ IsDigits patch ∧ matchesSuffix suffix = true := by
  unfold matchesVersion at h
  split at h
  · next major rest hmajor =>
    split at h
    · next minor rest' hminor =>
      split at h
      · next patch suffix hpatch =>
        obtain ⟨hcat₁, hmajor⟩ := digitsPrefix_eq_some hmajor
        obtain ⟨hcat₂, hminor⟩ := digitsPrefix_eq_some hminor
        obtain ⟨hcat₃, hpatch⟩ := digitsPrefix_eq_some hpatch
        exact ⟨major, minor, patch, suffix, by rw [hcat₁, hcat₂, hcat₃], hmajor, hminor, hpatch, h⟩
      · cases h
    · cases h
  · cases h

theorem versionNumber_eq {version : String} {index : Nat} {extract : List Char → List Char}
    {segment digits : List Char} (hsegment : (Py.split '.' version.toList)[index]? = some segment)
    (hstrip : Py.strip (extract segment) = digits) (hne : digits ≠ [])
    (hdigits : ∀ c ∈ digits, (Py.digit? c).isSome = true) (hlen : digits.length ≤ 256) :
    versionNumber version index extract = .ok (digitsValue digits : Int) := by
  have hint := Py.int_of_strip hstrip hne hdigits (Nat.le_trans hlen (by decide))
  simp only [versionNumber, hsegment, hint]
  rfl

end RequestLemmas

open RequestLemmas

/-- The computed fields are the values of the three digit groups. -/
theorem CreateVersionModel.numbers_eq (data : CreateVersionModel) {a b c suffix : List Char}
    (htext : data.version.toList = a ++ '.' :: (b ++ '.' :: (c ++ suffix))) (ha : IsDigits a)
    (hb : IsDigits b) (hc : IsDigits c) (hsuffix : matchesSuffix suffix = true) :
    data.major = .ok (digitsValue a : Int) ∧ data.minor = .ok (digitsValue b : Int) ∧
      data.patch = .ok (digitsValue c : Int) := by
  have hlen : a.length ≤ 256 ∧ b.length ≤ 256 ∧ c.length ≤ 256 := by
    have hversion := data.version_length
    rw [← String.length_toList, htext] at hversion
    simp only [List.length_append, List.length_cons] at hversion
    omega
  have hdot : ∀ {digits : List Char}, IsDigits digits → '.' ∉ digits :=
    fun h => not_mem_of_digits h.2 (by decide)
  have hsplit : Py.split '.' data.version.toList = a :: b :: Py.split '.' (c ++ suffix) := by
    rw [htext, Py.split_append_cons (hdot ha), Py.split_append_cons (hdot hb)]
  have hspace : ∀ {digits : List Char}, IsDigits digits → ∀ c ∈ digits, Py.isSpace c = false :=
    fun h c hc => Py.not_isSpace_of_digit? (h.2 c hc)
  have hfirst : (Py.split '.' data.version.toList)[0]? = some a := by rw [hsplit]; rfl
  have hsecond : (Py.split '.' data.version.toList)[1]? = some b := by rw [hsplit]; rfl
  have hthird : (Py.split '.' data.version.toList)[2]? =
      some (Py.splitHead '.' (c ++ suffix)) := by
    rw [hsplit, ← Py.head?_split, List.head?_eq_getElem?]
    rfl
  have hstrip : Py.strip (Py.splitHead '-' (Py.splitHead '.' (c ++ suffix))) = c := by
    rcases patch_segment hc.2 hsuffix with h | h
    · rw [h, Py.strip_of_not_isSpace (hspace hc)]
    · rw [h, Py.strip_append_newline hc.1 (hspace hc)]
  exact ⟨versionNumber_eq hfirst (Py.strip_of_not_isSpace (hspace ha)) ha.1 ha.2 hlen.1,
    versionNumber_eq hsecond (Py.strip_of_not_isSpace (hspace hb)) hb.1 hb.2 hlen.2.1,
    versionNumber_eq hthird hstrip hc.1 hc.2 hlen.2.2⟩

/-- The computed fields of an accepted request are natural numbers. -/
theorem CreateVersionModel.numbers_ok (data : CreateVersionModel) :
    ∃ major minor patch : Nat, data.major = .ok (major : Int) ∧ data.minor = .ok (minor : Int) ∧
      data.patch = .ok (patch : Int) := by
  obtain ⟨a, b, c, suffix, htext, ha, hb, hc, hsuffix⟩ :=
    exists_of_matchesVersion data.version_matches
  exact ⟨_, _, _, data.numbers_eq htext ha hb hc hsuffix⟩

end LavsCore
