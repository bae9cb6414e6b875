import Mathlib.Data.List.TakeWhile

/-!
# Python text

The part of Python's `str` and `int` that the service relies on: `split`, the
conversion `int(text)` and the rendering `f"{n}"`. A text is the list of its code
points.

`int` accepts more than ASCII digits: white space around the number, one sign,
single underscores between digits, and the decimal digits of every script. Both
conversions refuse numbers of more than 4300 digits.
-/

namespace Py

/-- The code points of the zeros of the Unicode decimal digits (category `Nd`).
The digits `0` to `9` of a script are ten consecutive code points. -/
def digitZeros : List Nat :=
  [0x30, 0x660, 0x6f0, 0x7c0, 0x966, 0x9e6, 0xa66, 0xae6, 0xb66, 0xbe6, 0xc66, 0xce6, 0xd66,
   0xde6, 0xe50, 0xed0, 0xf20, 0x1040, 0x1090, 0x17e0, 0x1810, 0x1946, 0x19d0, 0x1a80, 0x1a90,
   0x1b50, 0x1bb0, 0x1c40, 0x1c50, 0xa620, 0xa8d0, 0xa900, 0xa9d0, 0xa9f0, 0xaa50, 0xabf0,
   0xff10, 0x104a0, 0x10d30, 0x10d40, 0x11066, 0x110f0, 0x11136, 0x111d0, 0x112f0, 0x11450,
   0x114d0, 0x11650, 0x116c0, 0x116d0, 0x116da, 0x11730, 0x118e0, 0x11950, 0x11bf0, 0x11c50,
   0x11d50, 0x11da0, 0x11f50, 0x16130, 0x16a60, 0x16ac0, 0x16b50, 0x1ccf0, 0x1d7ce, 0x1d7d8,
   0x1d7e2, 0x1d7ec, 0x1d7f6, 0x1e140, 0x1e2f0, 0x1e4f0, 0x1e5f1, 0x1e950, 0x1fbf0]

/-- The value of a decimal digit: the class `\d` of `re`, and what `int` reads. -/
def digit? (c : Char) : Option Nat :=
  digitZeros.findSome? fun z =>
    if z ≤ c.toNat ∧ c.toNat < z + 10 then some (c.toNat - z) else none

/-- The white space that `int` strips. -/
def isSpace (c : Char) : Bool :=
  (9 ≤ c.toNat && c.toNat ≤ 13) || c.toNat = 0x20 || c.toNat = 0x85 || c.toNat = 0xa0 ||
    c.toNat = 0x1680 || (0x2000 ≤ c.toNat && c.toNat ≤ 0x200a) || c.toNat = 0x2028 ||
    c.toNat = 0x2029 || c.toNat = 0x202f || c.toNat = 0x205f || c.toNat = 0x3000

def strip (text : List Char) : List Char :=
  ((text.dropWhile isSpace).reverse.dropWhile isSpace).reverse

/-- The white space of `str.strip`: `int` does not strip the four separators. -/
def isWhitespace (c : Char) : Bool := isSpace c || (0x1c ≤ c.toNat && c.toNat ≤ 0x1f)

/-- `text.strip()`. -/
def stripText (text : List Char) : List Char :=
  ((text.dropWhile isWhitespace).reverse.dropWhile isWhitespace).reverse

/-- Digits with single underscores between them; at least one digit. -/
def digits? : List Char → Option (List Nat)
  | [] => none
  | [c] => (digit? c).map fun d => [d]
  | c :: '_' :: rest => do
    let d ← digit? c
    let ds ← digits? rest
    some (d :: ds)
  | c :: rest => do
    let d ← digit? c
    let ds ← digits? rest
    some (d :: ds)

/-- `sys.get_int_max_str_digits()`. -/
def maxStrDigits : Nat := 4300

/-- The number a list of decimal digits denotes. -/
def ofDigits (ds : List Nat) : Nat := ds.foldl (fun acc d => 10 * acc + d) 0

/-- An unsigned `int` literal. -/
def nat? (text : List Char) : Option Nat :=
  match digits? text with
  | some ds => if ds.length ≤ maxStrDigits then some (ofDigits ds) else none
  | none => none

/-- `int(text)`; `none` stands for `ValueError`. -/
def int (text : List Char) : Option Int :=
  match strip text with
  | '-' :: rest => (nat? rest).map fun n => -(n : Int)
  | '+' :: rest => (nat? rest).map fun n => (n : Int)
  | rest => (nat? rest).map fun n => (n : Int)

/-- `f"{n}"` for a number that is not negative; `none` stands for `ValueError`. -/
def str (n : Nat) : Option (List Char) :=
  if (Nat.toDigits 10 n).length ≤ maxStrDigits then some (Nat.toDigits 10 n) else none

/-- `text.split(sep)`. -/
def split (sep : Char) (text : List Char) : List (List Char) := text.splitOn sep

/-- `text.split(sep, 1)[0]`. -/
def splitHead (sep : Char) (text : List Char) : List Char := text.takeWhile (· ≠ sep)

/-! ## Digits -/

theorem toNat_of_isDigit {c : Char} (h : c.isDigit = true) : 48 ≤ c.toNat ∧ c.toNat ≤ 57 := by
  simp only [Char.isDigit, Bool.and_eq_true, decide_eq_true_eq, UInt32.le_iff_toNat_le] at h
  exact h

theorem digit?_of_isDigit {c : Char} (h : c.isDigit = true) :
    digit? c = some (c.toNat - 48) := by
  have hc := toNat_of_isDigit h
  have hzero : 0x30 ≤ c.toNat ∧ c.toNat < 0x30 + 10 := by omega
  simp only [digit?, digitZeros, List.findSome?_cons, if_pos hzero]

/-- A decimal digit lies in the block of one of the zeros. -/
theorem exists_zero_of_digit? {c : Char} (h : (digit? c).isSome = true) :
    ∃ z ∈ digitZeros, z ≤ c.toNat ∧ c.toNat < z + 10 := by
  obtain ⟨d, hd⟩ := Option.isSome_iff_exists.mp h
  obtain ⟨z, hz, hc⟩ := List.exists_of_findSome?_eq_some hd
  split at hc
  · next hrange => exact ⟨z, hz, hrange⟩
  · cases hc

/-- A character outside the digit blocks is no digit. -/
theorem ne_of_digit? {c other : Char} (h : (digit? c).isSome = true)
    (hother : (digit? other).isSome = false) : c ≠ other := by
  rintro rfl
  rw [h] at hother
  cases hother

theorem not_isSpace_of_digit? {c : Char} (h : (digit? c).isSome = true) : isSpace c = false := by
  obtain ⟨z, hz, hlow, hhigh⟩ := exists_zero_of_digit? h
  have hblocks : ∀ z ∈ digitZeros, 0x30 ≤ z ∧ (z + 10 ≤ 0x85 ∨ 0xa0 < z) ∧
      (z + 10 ≤ 0x1680 ∨ 0x1680 < z) ∧ (z + 10 ≤ 0x2000 ∨ 0x3000 < z) := by decide
  have hblock := hblocks z hz
  simp only [isSpace, Bool.or_eq_false_iff, Bool.and_eq_false_iff, decide_eq_false_iff_not]
  omega

/-- A non-empty list of digits is read digit by digit. -/
theorem digits?_of_digits {text : List Char} (hne : text ≠ [])
    (h : ∀ c ∈ text, (digit? c).isSome = true) :
    digits? text = some (text.map fun c => (digit? c).getD 0) := by
  induction text with
  | nil => exact absurd rfl hne
  | cons c rest ih =>
    obtain ⟨d, hd⟩ := Option.isSome_iff_exists.mp (h c List.mem_cons_self)
    cases rest with
    | nil => simp [digits?, hd]
    | cons c' rest =>
      have hc' : c' ≠ '_' := ne_of_digit? (h c' (by simp)) (by decide)
      have hrest := ih (by simp) fun x hx => h x (List.mem_cons_of_mem c hx)
      rw [digits?.eq_4 c (c' :: rest) (by simp) (fun rest' e => hc' (List.cons.inj e).1), hd, hrest]
      simp [hd]

theorem dropWhile_isSpace {text : List Char} (h : ∀ c ∈ text, isSpace c = false) :
    text.dropWhile isSpace = text := by
  cases text with
  | nil => rfl
  | cons c rest => simp [h c List.mem_cons_self]

theorem strip_of_not_isSpace {text : List Char} (h : ∀ c ∈ text, isSpace c = false) :
    strip text = text := by
  have hrev : ∀ c ∈ text.reverse, isSpace c = false := fun c hc => h c (List.mem_reverse.mp hc)
  rw [strip, dropWhile_isSpace h, dropWhile_isSpace hrev, List.reverse_reverse]

/-- White space at the end is not part of the number. -/
theorem strip_append_newline {text : List Char} (hne : text ≠ [])
    (h : ∀ c ∈ text, isSpace c = false) : strip (text ++ ['\n']) = text := by
  have hrev : ∀ c ∈ text.reverse, isSpace c = false := fun c hc => h c (List.mem_reverse.mp hc)
  have hfront : (text ++ ['\n']).dropWhile isSpace = text ++ ['\n'] := by
    cases text with
    | nil => exact absurd rfl hne
    | cons c rest => simp [h c List.mem_cons_self]
  rw [strip, hfront, List.reverse_append, List.reverse_singleton, List.singleton_append,
    List.dropWhile_cons_of_pos (by decide), dropWhile_isSpace hrev, List.reverse_reverse]

/-- `int` of a text that strips to at most 4300 digits is their decimal value. -/
theorem int_of_strip {text digits : List Char} (hstrip : strip text = digits)
    (hne : digits ≠ []) (h : ∀ c ∈ digits, (digit? c).isSome = true)
    (hlen : digits.length ≤ maxStrDigits) :
    int text = some ((ofDigits (digits.map fun c => (digit? c).getD 0) : Nat) : Int) := by
  have hnat : nat? digits = some (ofDigits (digits.map fun c => (digit? c).getD 0)) := by
    simp only [nat?, digits?_of_digits hne h, List.length_map, if_pos hlen]
  cases digits with
  | nil => exact absurd rfl hne
  | cons c rest =>
    have hc := h c List.mem_cons_self
    have hminus : c ≠ '-' := ne_of_digit? hc (by decide)
    have hplus : c ≠ '+' := ne_of_digit? hc (by decide)
    unfold int
    rw [hstrip]
    split
    · next heq => exact absurd (List.cons.inj heq).1 hminus
    · next heq => exact absurd (List.cons.inj heq).1 hplus
    · rw [hnat]
      rfl

theorem ofDigits_map_ascii {text : List Char} (h : ∀ c ∈ text, c.isDigit = true) :
    ofDigits (text.map fun c => (digit? c).getD 0) = Nat.ofDigitChars 10 text 0 := by
  have hmap : (text.map fun c => (digit? c).getD 0) = text.map fun c => c.toNat - 48 := by
    refine List.map_congr_left fun c hc => ?_
    rw [digit?_of_isDigit (h c hc)]
    rfl
  rw [hmap, ofDigits, List.foldl_map, Nat.ofDigitChars_eq_foldl]
  rfl

theorem isSome_digit?_of_isDigit {c : Char} (h : c.isDigit = true) :
    (digit? c).isSome = true := by
  rw [digit?_of_isDigit h]
  rfl

/-- Rendering and reading a number are inverse wherever rendering succeeds. -/
theorem int_str {n : Nat} {text : List Char} (h : str n = some text) : int text = some (n : Int) := by
  unfold str at h
  split at h
  · next hlen =>
    cases h
    have hdigit : ∀ c ∈ Nat.toDigits 10 n, c.isDigit = true := fun c hc =>
      Nat.isDigit_of_mem_toDigits (by decide) (by decide) hc
    have hsome : ∀ c ∈ Nat.toDigits 10 n, (digit? c).isSome = true := fun c hc =>
      isSome_digit?_of_isDigit (hdigit c hc)
    rw [int_of_strip (strip_of_not_isSpace fun c hc => not_isSpace_of_digit? (hsome c hc))
      Nat.toDigits_ne_nil hsome hlen, ofDigits_map_ascii hdigit, Nat.ofDigitChars_ten_toDigits]
  · cases h

theorem isDigit_of_str {n : Nat} {text : List Char} (h : str n = some text) :
    ∀ c ∈ text, c.isDigit = true := by
  unfold str at h
  split at h
  · cases h
    exact fun c hc => Nat.isDigit_of_mem_toDigits (by decide) (by decide) hc
  · cases h

/-! ## Splitting -/

/-- Joining texts that do not contain the separator and splitting again. -/
theorem split_intercalate {sep : Char} {parts : List (List Char)} (hne : parts ≠ [])
    (h : ∀ part ∈ parts, sep ∉ part) : split sep ([sep].intercalate parts) = parts :=
  List.splitOn_intercalate sep h hne

/-- The first part is what stands before the first separator. -/
theorem split_append_cons {sep : Char} {part : List Char} (h : sep ∉ part) (rest : List Char) :
    split sep (part ++ sep :: rest) = part :: split sep rest :=
  List.splitOn_append_cons_self_of_not_mem h rest

theorem head?_split (sep : Char) (text : List Char) :
    (split sep text).head? = some (splitHead sep text) := by
  have hpart : sep ∉ splitHead sep text := by
    intro hmem
    have := List.mem_takeWhile_imp hmem
    simp at this
  have hcat : splitHead sep text ++ text.dropWhile (· ≠ sep) = text :=
    List.takeWhile_append_dropWhile
  cases hrest : text.dropWhile (· ≠ sep) with
  | nil =>
    rw [hrest, List.append_nil] at hcat
    rw [← hcat, split, List.splitOn_eq_singleton (hcat ▸ hpart)]
    simp [hcat]
  | cons c rest =>
    have hc : c = sep := by
      have := List.head?_dropWhile_not (· ≠ sep) text
      rw [hrest] at this
      simpa using this
    rw [hrest, hc] at hcat
    have hsplit : split sep text = splitHead sep text :: split sep rest := by
      rw [← split_append_cons hpart, hcat]
    rw [hsplit]
    rfl

theorem splitHead_of_not_mem {sep : Char} {text : List Char} (h : sep ∉ text) :
    splitHead sep text = text := by
  rw [splitHead, List.takeWhile_eq_self_iff]
  intro c hc
  exact decide_eq_true fun e => h (e ▸ hc)

end Py
