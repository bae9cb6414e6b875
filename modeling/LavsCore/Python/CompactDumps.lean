import LavsCore.Python.Encode
import LavsCore.Python.Text

/-!
# Compact JSON

`json.dumps(value, separators=(",", ":"))` on everything that it takes: beside the values of
`Json` there are floats, and a text may hold surrogates that are not paired.

`printable_dumpsCompact`: with ASCII escaping nothing but printable ASCII is written.
-/

namespace Py

/-- A code point of a Python text: a character, or a surrogate. -/
inductive CodePoint where
  | char (c : Char)
  | surrogate (n : Fin 0x800)

/-- What `float.__repr__` writes, or one of the names of the special values. -/
structure FloatText where
  text : List Char
  alphabet : text ⊆ "0123456789.e+-NaInfity".toList

/-- A value that `json.dumps` encodes. A dictionary lists its entries in order; its keys are
texts. -/
inductive Value where
  | null
  | bool (b : Bool)
  | int (n : Int)
  | float (x : FloatText)
  | str (s : List CodePoint)
  | arr (items : List Value)
  | obj (fields : List (List CodePoint × Value))

def escapePoint : CodePoint → List Char
  | .char c => escapeChar c
  | .surrogate n => '\\' :: 'u' :: hex4 (0xd800 + n)

def encodeText (s : List CodePoint) : List Char := '"' :: s.flatMap escapePoint ++ ['"']

mutual

def encodeValue : Value → List Char
  | .null => "null".toList
  | .bool true => "true".toList
  | .bool false => "false".toList
  | .int n => encodeInt n
  | .float x => x.text
  | .str s => encodeText s
  | .arr items => '[' :: [','].intercalate (encodeValues items) ++ [']']
  | .obj fields => '{' :: [','].intercalate (encodeEntries fields) ++ ['}']

def encodeValues : List Value → List (List Char)
  | [] => []
  | item :: rest => encodeValue item :: encodeValues rest

def encodeEntries : List (List CodePoint × Value) → List (List Char)
  | [] => []
  | (name, value) :: rest => (encodeText name ++ ':' :: encodeValue value) :: encodeEntries rest

end

/-- `json.dumps(value, separators=(",", ":"))`. -/
def dumpsCompact (value : Value) : String := String.ofList (encodeValue value)

mutual

/-- A value of `Json` as one of these. -/
def Json.toValue : Json → Value
  | .null => .null
  | .bool b => .bool b
  | .int n => .int n
  | .str s => .str (s.toList.map .char)
  | .arr items => .arr (Json.toValues items)
  | .obj fields => .obj (Json.toEntries fields)

def Json.toValues : List Json → List Value
  | [] => []
  | item :: rest => Json.toValue item :: Json.toValues rest

def Json.toEntries : List (String × Json) → List (List CodePoint × Value)
  | [] => []
  | (name, value) :: rest => (name.toList.map .char, Json.toValue value) :: Json.toEntries rest

end

/-! ## ASCII -/

/-- The character is printable ASCII. -/
def Printable (c : Char) : Prop := 0x20 ≤ c.toNat ∧ c.toNat < 0x7f

instance (c : Char) : Decidable (Printable c) := inferInstanceAs (Decidable (_ ∧ _))

/-- All characters of a text are printable ASCII. -/
def AllPrintable (text : List Char) : Prop := ∀ c ∈ text, Printable c

namespace CompactDumpsLemmas

theorem allPrintable_nil : AllPrintable [] := by simp [AllPrintable]

theorem allPrintable_cons {c : Char} {text : List Char} (hc : Printable c)
    (h : AllPrintable text) : AllPrintable (c :: text) := List.forall_mem_cons.mpr ⟨hc, h⟩

theorem allPrintable_append {text rest : List Char} (h : AllPrintable text)
    (hrest : AllPrintable rest) : AllPrintable (text ++ rest) := by
  intro c hc
  exact (List.mem_append.mp hc).elim (h c) (hrest c)

/-- A text without surprises, checked character by character. -/
theorem allPrintable_of_all {text : List Char}
    (h : text.all (fun c => decide (Printable c)) = true) : AllPrintable text := by
  intro c hc
  exact of_decide_eq_true (List.all_eq_true.mp h c hc)

theorem printable_digitChar {n : Nat} (h : n < 16) : Printable (Nat.digitChar n) := by
  have hall : (List.range 16).all (fun n => decide (Printable (Nat.digitChar n))) = true := by
    decide
  exact of_decide_eq_true (List.all_eq_true.mp hall n (List.mem_range.mpr h))

theorem allPrintable_hex4 (n : Nat) : AllPrintable (hex4 n) := by
  have hdigit : ∀ m : Nat, Printable (Nat.digitChar (m % 16)) :=
    fun m => printable_digitChar (Nat.mod_lt m (by decide))
  exact allPrintable_cons (hdigit _) (allPrintable_cons (hdigit _) (allPrintable_cons (hdigit _)
    (allPrintable_cons (hdigit n) allPrintable_nil)))

theorem allPrintable_escape (n : Nat) : AllPrintable ('\\' :: 'u' :: hex4 n) :=
  allPrintable_cons (by decide) (allPrintable_cons (by decide) (allPrintable_hex4 n))

theorem allPrintable_ite {p : Prop} [Decidable p] {text rest : List Char}
    (h : p → AllPrintable text) (hrest : AllPrintable rest) :
    AllPrintable (if p then text else rest) := by
  split
  · next hp => exact h hp
  · exact hrest

theorem allPrintable_escapeChar (c : Char) : AllPrintable (escapeChar c) := by
  unfold escapeChar
  -- The characters with an escape of their own.
  iterate 7 refine allPrintable_ite (fun _ => allPrintable_of_all (by decide)) ?_
  refine allPrintable_ite (fun h => allPrintable_cons h allPrintable_nil) ?_
  refine allPrintable_ite (fun _ => allPrintable_escape _) ?_
  exact allPrintable_append (allPrintable_escape _) (allPrintable_escape _)

theorem allPrintable_encodeText (s : List CodePoint) : AllPrintable (encodeText s) := by
  have hpoints : AllPrintable (s.flatMap escapePoint) := by
    intro c hc
    obtain ⟨point, -, hpoint⟩ := List.mem_flatMap.mp hc
    cases point with
    | char c' => exact allPrintable_escapeChar c' c hpoint
    | surrogate n => exact allPrintable_escape _ c hpoint
  refine allPrintable_append (allPrintable_cons (by decide) hpoints) ?_
  exact allPrintable_of_all (by decide)

theorem allPrintable_encodeInt (n : Int) : AllPrintable (encodeInt n) := by
  have hdigits : AllPrintable (Nat.toDigits 10 n.natAbs) := by
    intro c hc
    have hdigit := Nat.isDigit_of_mem_toDigits (by decide) (by decide) hc
    obtain ⟨hlow, hhigh⟩ := toNat_of_isDigit hdigit
    exact ⟨by omega, by omega⟩
  exact allPrintable_ite (fun _ => allPrintable_cons (by decide) hdigits) hdigits

theorem allPrintable_intercalate {parts : List (List Char)}
    (h : ∀ part ∈ parts, AllPrintable part) : AllPrintable ([','].intercalate parts) := by
  induction parts with
  | nil => exact allPrintable_nil
  | cons part parts ih =>
    obtain ⟨hpart, hparts⟩ := List.forall_mem_cons.mp h
    rcases eq_or_ne parts [] with rfl | hne
    · rw [List.intercalate_singleton]
      exact hpart
    · rw [List.intercalate_cons_of_ne_nil hne, List.append_assoc]
      exact allPrintable_append hpart (allPrintable_cons (by decide) (ih hparts))

/-- Brackets around parts that are separated by commas. -/
theorem allPrintable_group {first last : Char} (hfirst : Printable first) (hlast : Printable last)
    {parts : List (List Char)} (h : ∀ part ∈ parts, AllPrintable part) :
    AllPrintable (first :: [','].intercalate parts ++ [last]) :=
  allPrintable_append (allPrintable_cons hfirst (allPrintable_intercalate h))
    (allPrintable_cons hlast allPrintable_nil)

theorem allPrintable_encodeValue (value : Value) : AllPrintable (encodeValue value) := by
  refine @Value.rec (fun value => AllPrintable (encodeValue value))
    (fun items => ∀ text ∈ encodeValues items, AllPrintable text)
    (fun fields => ∀ text ∈ encodeEntries fields, AllPrintable text)
    (fun field => AllPrintable (encodeValue field.2))
    ?null ?bool ?int ?float ?str ?arr ?obj ?values ?value ?entries ?entry ?field value
  case null => exact allPrintable_of_all (by decide)
  case bool =>
    intro b
    cases b with
    | _ => exact allPrintable_of_all (by decide)
  case int => exact allPrintable_encodeInt
  case float =>
    intro x c hc
    have hall : AllPrintable "0123456789.e+-NaInfity".toList := allPrintable_of_all (by decide)
    exact hall c (x.alphabet hc)
  case str => exact allPrintable_encodeText
  case arr => exact fun items ih => allPrintable_group (by decide) (by decide) ih
  case obj => exact fun fields ih => allPrintable_group (by decide) (by decide) ih
  case values => exact fun text h => absurd h List.not_mem_nil
  case value => exact fun item items hitem hitems => List.forall_mem_cons.mpr ⟨hitem, hitems⟩
  case entries => exact fun text h => absurd h List.not_mem_nil
  case entry =>
    intro entry entries hentry hentries
    refine List.forall_mem_cons.mpr ⟨?_, hentries⟩
    exact allPrintable_append (allPrintable_encodeText entry.1) (allPrintable_cons (by decide) hentry)
  case field => exact fun name value ih => ih

end CompactDumpsLemmas

theorem printable_dumpsCompact (value : Value) : AllPrintable (dumpsCompact value).toList := by
  rw [dumpsCompact, String.toList_ofList]
  exact CompactDumpsLemmas.allPrintable_encodeValue value

end Py
