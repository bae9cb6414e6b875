import Mathlib.Data.List.Forall2
import Mathlib.Data.List.TakeDrop
import Mathlib.Data.List.TakeWhile

/-!
# JSON texts

A parser of JSON texts, and the grammar as a relation: `Writes (.value v) text` says that the text
denotes the value. Whoever writes JSON shows that what it writes is in the grammar, and has by
`parse_of_writes` that every parser reads it back.

A text is a list of UTF-16 code units, as in JavaScript, so that an escaped surrogate needs no
partner. A number is its literal.
-/

namespace JsonText

/-- The value of a JSON text. An object lists its members as they are written. -/
inductive Value where
  | null
  | bool (b : Bool)
  | number (literal : List Char)
  | string (units : List Nat)
  | arr (items : List Value)
  | obj (members : List (List Nat × Value))

/-! ## The parser -/

def isSpace (c : Char) : Bool := c = ' ' || c = '\t' || c = '\n' || c = '\r'

def skipSpace (text : List Char) : List Char := text.dropWhile isSpace

/-- The code units of a character. -/
def units (c : Char) : List Nat :=
  if c.toNat < 0x10000 then [c.toNat]
  else [0xd800 + (c.toNat - 0x10000) / 0x400, 0xdc00 + (c.toNat - 0x10000) % 0x400]

def hexDigit? (c : Char) : Option Nat :=
  if '0' ≤ c ∧ c ≤ '9' then some (c.toNat - 48)
  else if 'a' ≤ c ∧ c ≤ 'f' then some (c.toNat - 87)
  else if 'A' ≤ c ∧ c ≤ 'F' then some (c.toNat - 55)
  else none

/-- The code unit of `\uXXXX`. -/
def hex4? (a b c d : Char) : Option Nat :=
  match hexDigit? a, hexDigit? b, hexDigit? c, hexDigit? d with
  | some a, some b, some c, some d => some (a * 4096 + b * 256 + c * 16 + d)
  | _, _, _, _ => none

/-- The code unit of an escape of one letter. -/
def shortEscape? (c : Char) : Option Nat :=
  if c = '"' then some 34
  else if c = '\\' then some 92
  else if c = '/' then some 47
  else if c = 'b' then some 8
  else if c = 'f' then some 12
  else if c = 'n' then some 10
  else if c = 'r' then some 13
  else if c = 't' then some 9
  else none

/-- A string after its opening quote, and what follows the closing one. -/
def parseString : List Char → Option (List Nat × List Char)
  | '\\' :: 'u' :: a :: b :: c :: d :: rest =>
    match hex4? a b c d with
    | some unit => (parseString rest).map fun r => (unit :: r.1, r.2)
    | none => none
  | '\\' :: e :: rest =>
    match shortEscape? e with
    | some unit => (parseString rest).map fun r => (unit :: r.1, r.2)
    | none => none
  | c :: rest =>
    if c = '"' then some ([], rest)
    else if c = '\\' ∨ c.toNat < 0x20 then none
    else (parseString rest).map fun r => (units c ++ r.1, r.2)
  | [] => none

def dropSign (signs : List Char) : List Char → List Char
  | [] => []
  | c :: rest => if c ∈ signs then rest else c :: rest

def isDigits (text : List Char) : Bool := text ≠ [] && text.all Char.isDigit

/-- Digits without a leading zero. -/
def isInteger (digits : List Char) : Bool :=
  isDigits digits && (digits = ['0'] || digits.head? ≠ some '0')

def isExponent : List Char → Bool
  | [] => true
  | c :: rest => (c = 'e' || c = 'E') && isDigits (dropSign ['+', '-'] rest)

/-- What may follow the integer of a number. -/
def isFraction : List Char → Bool
  | [] => true
  | c :: rest =>
    if c = '.' then
      isDigits (rest.takeWhile Char.isDigit) && isExponent (rest.dropWhile Char.isDigit)
    else isExponent (c :: rest)

def isNumber (literal : List Char) : Bool :=
  let unsigned := dropSign ['-'] literal
  isInteger (unsigned.takeWhile Char.isDigit) && isFraction (unsigned.dropWhile Char.isDigit)

/-- A character that numbers are written with. -/
def isNumeric (c : Char) : Bool :=
  c.isDigit || c = '+' || c = '-' || c = '.' || c = 'e' || c = 'E'

/-- A name or a number. -/
def parseLiteral (text : List Char) : Option (Value × List Char) :=
  match text with
  | 'n' :: 'u' :: 'l' :: 'l' :: rest => some (.null, rest)
  | 't' :: 'r' :: 'u' :: 'e' :: rest => some (.bool true, rest)
  | 'f' :: 'a' :: 'l' :: 's' :: 'e' :: rest => some (.bool false, rest)
  | text =>
    if isNumber (text.takeWhile isNumeric) then
      some (.number (text.takeWhile isNumeric), text.dropWhile isNumeric)
    else none

mutual

/-- The value at the start of a text, and what follows it. -/
def parseValue : Nat → List Char → Option (Value × List Char)
  | 0, _ => none
  | fuel + 1, text =>
    match skipSpace text with
    | '"' :: rest => (parseString rest).map fun r => (.string r.1, r.2)
    | '[' :: rest =>
      match skipSpace rest with
      | ']' :: after => some (.arr [], after)
      | _ => (parseItems fuel rest).map fun r => (.arr r.1, r.2)
    | '{' :: rest =>
      match skipSpace rest with
      | '}' :: after => some (.obj [], after)
      | _ => (parseMembers fuel rest).map fun r => (.obj r.1, r.2)
    | rest => parseLiteral rest

/-- The items of an array that is not empty, with its closing bracket. -/
def parseItems : Nat → List Char → Option (List Value × List Char)
  | 0, _ => none
  | fuel + 1, text =>
    match parseValue fuel text with
    | none => none
    | some (item, rest) =>
      match skipSpace rest with
      | ',' :: rest => (parseItems fuel rest).map fun r => (item :: r.1, r.2)
      | ']' :: rest => some ([item], rest)
      | _ => none

/-- The members of an object that is not empty, with its closing brace. -/
def parseMembers : Nat → List Char → Option (List (List Nat × Value) × List Char)
  | 0, _ => none
  | fuel + 1, text =>
    match skipSpace text with
    | '"' :: rest =>
      match parseString rest with
      | none => none
      | some (name, rest) =>
        match skipSpace rest with
        | ':' :: rest =>
          match parseValue fuel rest with
          | none => none
          | some (value, rest) =>
            match skipSpace rest with
            | ',' :: rest => (parseMembers fuel rest).map fun r => ((name, value) :: r.1, r.2)
            | '}' :: rest => some ([(name, value)], rest)
            | _ => none
        | _ => none
    | _ => none

end

/-- The value of a text. Every step of the parser reads a character, so the length of the text is
fuel enough (`parse_of_writes`). -/
def parse (text : List Char) : Option Value :=
  match parseValue (text.length + 1) text with
  | some (value, rest) => if skipSpace rest = [] then some value else none
  | none => none

/-! ## The grammar -/

def Spaces (s : List Char) : Prop := ∀ c ∈ s, isSpace c = true

/-- The text between two quotes stands for the code units. -/
inductive WritesUnits : List Nat → List Char → Prop
  | nil : WritesUnits [] []
  | plain {c : Char} {us : List Nat} {body : List Char} (hlow : 0x20 ≤ c.toNat) (hquote : c ≠ '"')
      (hback : c ≠ '\\') (h : WritesUnits us body) : WritesUnits (units c ++ us) (c :: body)
  | short {e : Char} {u : Nat} {us : List Nat} {body : List Char} (he : shortEscape? e = some u)
      (h : WritesUnits us body) : WritesUnits (u :: us) ('\\' :: e :: body)
  | unicode {a b c d : Char} {u : Nat} {us : List Nat} {body : List Char}
      (hu : hex4? a b c d = some u) (h : WritesUnits us body) :
      WritesUnits (u :: us) ('\\' :: 'u' :: a :: b :: c :: d :: body)

/-- What a text can stand for: a value, or what is between the brackets of an array or an object
that is not empty. -/
inductive Part where
  | value (value : Value)
  | items (items : List Value)
  | members (members : List (List Nat × Value))

inductive Writes : Part → List Char → Prop
  | null : Writes (.value .null) ['n', 'u', 'l', 'l']
  | true : Writes (.value (.bool true)) ['t', 'r', 'u', 'e']
  | false : Writes (.value (.bool false)) ['f', 'a', 'l', 's', 'e']
  | number {literal : List Char} (h : isNumber literal = true) :
      Writes (.value (.number literal)) literal
  | string {us : List Nat} {body : List Char} (h : WritesUnits us body) :
      Writes (.value (.string us)) ('"' :: body ++ ['"'])
  | emptyArr {s : List Char} (hs : Spaces s) : Writes (.value (.arr [])) ('[' :: s ++ [']'])
  | arr {items : List Value} {body : List Char} (h : Writes (.items items) body) :
      Writes (.value (.arr items)) ('[' :: body ++ [']'])
  | emptyObj {s : List Char} (hs : Spaces s) : Writes (.value (.obj [])) ('{' :: s ++ ['}'])
  | obj {members : List (List Nat × Value)} {body : List Char}
      (h : Writes (.members members) body) : Writes (.value (.obj members)) ('{' :: body ++ ['}'])
  | item {v : Value} {text s s' : List Char} (hs : Spaces s) (hs' : Spaces s')
      (h : Writes (.value v) text) : Writes (.items [v]) (s ++ text ++ s')
  | items {v : Value} {vs : List Value} {text body s s' : List Char} (hs : Spaces s)
      (hs' : Spaces s') (h : Writes (.value v) text) (hrest : Writes (.items vs) body) :
      Writes (.items (v :: vs)) (s ++ text ++ s' ++ ',' :: body)
  | member {us : List Nat} {v : Value} {name text s₁ s₂ s₃ s₄ : List Char} (hs₁ : Spaces s₁)
      (hs₂ : Spaces s₂) (hs₃ : Spaces s₃) (hs₄ : Spaces s₄) (hname : WritesUnits us name)
      (h : Writes (.value v) text) :
      Writes (.members [(us, v)]) (s₁ ++ '"' :: name ++ '"' :: s₂ ++ ':' :: s₃ ++ text ++ s₄)
  | members {us : List Nat} {v : Value} {ms : List (List Nat × Value)}
      {name text body s₁ s₂ s₃ s₄ : List Char} (hs₁ : Spaces s₁) (hs₂ : Spaces s₂) (hs₃ : Spaces s₃)
      (hs₄ : Spaces s₄) (hname : WritesUnits us name) (h : Writes (.value v) text)
      (hrest : Writes (.members ms) body) :
      Writes (.members ((us, v) :: ms))
        (s₁ ++ '"' :: name ++ '"' :: s₂ ++ ':' :: s₃ ++ text ++ s₄ ++ ',' :: body)

/-! ## The parser reads what the grammar writes -/

/-- What the parser makes of the text of a part, whatever follows it. -/
def Part.Reads : Part → List Char → Prop
  | .value v, text => ∀ fuel rest, text.length < fuel → (∀ c ∈ rest.head?, isNumeric c = false) →
      parseValue fuel (text ++ rest) = some (v, rest)
  | .items vs, text => ∀ fuel rest, text.length + 1 < fuel →
      parseItems fuel (text ++ ']' :: rest) = some (vs, rest)
  | .members ms, text => ∀ fuel rest, text.length + 1 < fuel →
      parseMembers fuel (text ++ '}' :: rest) = some (ms, rest)

/-- The text does not start with a space or with a closing bracket. -/
def Opens (text : List Char) : Prop :=
  ∃ c rest, text = c :: rest ∧ isSpace c = false ∧ c ≠ ']' ∧ c ≠ '}'

theorem skipSpace_append {s : List Char} (hs : Spaces s) (text : List Char) :
    skipSpace (s ++ text) = skipSpace text := by
  induction s with
  | nil => rfl
  | cons c s ih =>
    have hc : isSpace c = true := hs c List.mem_cons_self
    rw [List.cons_append, skipSpace, List.dropWhile_cons_of_pos hc]
    exact ih fun c' hc' => hs c' (List.mem_cons_of_mem c hc')

theorem skipSpace_cons {c : Char} (hc : isSpace c = false) (rest : List Char) :
    skipSpace (c :: rest) = c :: rest := by
  simp [skipSpace, hc]

theorem skipSpace_spaces {s : List Char} (hs : Spaces s) {c : Char} (hc : isSpace c = false)
    (rest : List Char) : skipSpace (s ++ c :: rest) = c :: rest := by
  rw [skipSpace_append hs, skipSpace_cons hc]

theorem isNumeric_of_isSpace {c : Char} (h : isSpace c = true) : isNumeric c = false := by
  simp only [isSpace, Bool.or_eq_true, decide_eq_true_eq] at h
  rcases h with ((rfl | rfl) | rfl) | rfl <;> rfl

/-- After a value come spaces and a character that no number is written with. -/
theorem head_spaces {s : List Char} (hs : Spaces s) {c : Char} (hc : isNumeric c = false)
    (rest : List Char) : ∀ x ∈ (s ++ c :: rest).head?, isNumeric x = false := by
  cases s with
  | nil =>
    rintro _ ⟨⟩
    exact hc
  | cons c' s =>
    rintro _ ⟨⟩
    exact isNumeric_of_isSpace (hs c' List.mem_cons_self)

/-! ### Strings -/

theorem parseString_writes {us : List Nat} {body : List Char} (h : WritesUnits us body)
    (rest : List Char) : parseString (body ++ '"' :: rest) = some (us, rest) := by
  induction h with
  | nil =>
    rw [List.nil_append, parseString, if_pos rfl]
    · rintro _ _ _ _ _ ⟨⟩
    · rintro _ _ ⟨⟩
  | @plain c us body hlow hquote hback _ ih =>
    have hplain : ¬ (c = '\\' ∨ c.toNat < 0x20) :=
      not_or.mpr ⟨hback, Nat.not_lt.mpr hlow⟩
    rw [List.cons_append, parseString, if_neg hquote, if_neg hplain, ih]
    · rfl
    · exact fun _ _ _ _ _ h _ => hback h
    · exact fun _ _ h _ => hback h
  | @short e u us body he _ ih =>
    have hu : e ≠ 'u' := by
      rintro rfl
      cases he
    rw [List.cons_append, List.cons_append, parseString, he, ih]
    · rfl
    · exact fun _ _ _ _ _ h _ => hu h
  | @unicode a b c d u us body hu _ ih =>
    simp only [List.cons_append]
    rw [parseString, hu, ih]
    rfl

/-! ### Numbers -/

theorem isNumeric_of_isDigit {c : Char} (h : c.isDigit = true) : isNumeric c = true := by
  simp [isNumeric, h]

theorem all_numeric_of_digits {text : List Char} (h : isDigits text = true) :
    ∀ c ∈ text, isNumeric c = true := by
  rw [isDigits, Bool.and_eq_true, List.all_eq_true] at h
  exact fun c hc => isNumeric_of_isDigit (h.2 c hc)

/-- A text whose signs, dropped or not, leave numeric characters. -/
theorem all_numeric_of_dropSign (signs : List Char) {text : List Char}
    (hsigns : signs.all isNumeric = true)
    (h : ∀ c ∈ dropSign signs text, isNumeric c = true) : ∀ c ∈ text, isNumeric c = true := by
  cases text with
  | nil => simp
  | cons c rest =>
    rw [dropSign] at h
    split at h
    · next hc => exact List.forall_mem_cons.mpr ⟨List.all_eq_true.mp hsigns c hc, h⟩
    · exact h

theorem all_numeric_of_exponent {text : List Char} (h : isExponent text = true) :
    ∀ c ∈ text, isNumeric c = true := by
  cases text with
  | nil => simp
  | cons c rest =>
    simp only [isExponent, Bool.and_eq_true, Bool.or_eq_true, decide_eq_true_eq] at h
    refine List.forall_mem_cons.mpr ⟨?_, ?_⟩
    · rcases h.1 with rfl | rfl <;> rfl
    · exact all_numeric_of_dropSign ['+', '-'] rfl (all_numeric_of_digits h.2)

theorem all_numeric_of_fraction {text : List Char} (h : isFraction text = true) :
    ∀ c ∈ text, isNumeric c = true := by
  cases text with
  | nil => simp
  | cons c rest =>
    rw [isFraction] at h
    split at h
    · next hc =>
      rw [Bool.and_eq_true] at h
      refine List.forall_mem_cons.mpr ⟨hc ▸ rfl, ?_⟩
      rw [← List.takeWhile_append_dropWhile (p := Char.isDigit) (l := rest)]
      refine List.forall_mem_append.mpr ⟨?_, all_numeric_of_exponent h.2⟩
      exact all_numeric_of_digits h.1
    · exact all_numeric_of_exponent h

theorem all_numeric {literal : List Char} (h : isNumber literal = true) :
    ∀ c ∈ literal, isNumeric c = true := by
  simp only [isNumber, isInteger, Bool.and_eq_true] at h
  refine all_numeric_of_dropSign ['-'] rfl ?_
  rw [← List.takeWhile_append_dropWhile (p := Char.isDigit) (l := dropSign ['-'] literal)]
  refine List.forall_mem_append.mpr ⟨?_, all_numeric_of_fraction h.2⟩
  exact all_numeric_of_digits h.1.1

/-- A number starts with a digit or a minus. -/
theorem head_number {literal : List Char} (h : isNumber literal = true) :
    ∃ c rest, literal = c :: rest ∧ (c.isDigit = true ∨ c = '-') := by
  cases literal with
  | nil => cases h
  | cons c rest =>
    refine ⟨c, rest, rfl, ?_⟩
    by_cases hc : c = '-'
    · exact Or.inr hc
    · simp only [isNumber, isInteger, isDigits, dropSign, List.mem_singleton, if_neg hc,
        Bool.and_eq_true, decide_eq_true_eq] at h
      left
      by_contra hdigit
      rw [List.takeWhile_cons_of_neg hdigit] at h
      exact h.1.1.1 rfl

theorem takeWhile_append_rest {p : Char → Bool} {text rest : List Char}
    (htext : ∀ c ∈ text, p c = true) (hrest : ∀ c ∈ rest.head?, p c = false) :
    (text ++ rest).takeWhile p = text ∧ (text ++ rest).dropWhile p = rest := by
  rw [List.takeWhile_append_of_pos htext, List.dropWhile_append_of_pos htext]
  cases rest with
  | nil => simp
  | cons c rest =>
    have hc : ¬ p c = true := by simp [hrest c rfl]
    rw [List.takeWhile_cons_of_neg hc, List.dropWhile_cons_of_neg hc, List.append_nil]
    exact ⟨rfl, rfl⟩

theorem digit_ne {c : Char} (h : c.isDigit = true ∨ c = '-') :
    isSpace c = false ∧ c ≠ '"' ∧ c ≠ '[' ∧ c ≠ '{' ∧ c ≠ ']' ∧ c ≠ '}' ∧ c ≠ 'n' ∧ c ≠ 't' ∧
      c ≠ 'f' := by
  rcases h with h | rfl
  · have hne : ∀ x : Char, x.isDigit = false → c ≠ x := by
      rintro _ hx rfl
      rw [h] at hx
      cases hx
    refine ⟨?_, hne _ rfl, hne _ rfl, hne _ rfl, hne _ rfl, hne _ rfl, hne _ rfl, hne _ rfl,
      hne _ rfl⟩
    simp [isSpace, hne ' ' rfl, hne '\t' rfl, hne '\n' rfl, hne '\r' rfl]
  · exact ⟨rfl, by decide, by decide, by decide, by decide, by decide, by decide, by decide,
      by decide⟩

/-! ### Values -/

theorem opens_writes {v : Value} {text : List Char} (h : Writes (.value v) text) : Opens text := by
  cases h with
  | null => exact ⟨_, _, rfl, rfl, by decide, by decide⟩
  | true => exact ⟨_, _, rfl, rfl, by decide, by decide⟩
  | false => exact ⟨_, _, rfl, rfl, by decide, by decide⟩
  | number h =>
    obtain ⟨c, rest, rfl, hc⟩ := head_number h
    obtain ⟨hspace, -, -, -, hbracket, hbrace, -⟩ := digit_ne hc
    exact ⟨c, rest, rfl, hspace, hbracket, hbrace⟩
  | string _ => exact ⟨_, _, rfl, rfl, by decide, by decide⟩
  | emptyArr _ => exact ⟨_, _, rfl, rfl, by decide, by decide⟩
  | arr _ => exact ⟨_, _, rfl, rfl, by decide, by decide⟩
  | emptyObj _ => exact ⟨_, _, rfl, rfl, by decide, by decide⟩
  | obj _ => exact ⟨_, _, rfl, rfl, by decide, by decide⟩

theorem parseValue_spaces {s : List Char} (hs : Spaces s) (fuel : Nat) (text : List Char) :
    parseValue fuel (s ++ text) = parseValue fuel text := by
  cases fuel with
  | zero => rfl
  | succ fuel => rw [parseValue, parseValue, skipSpace_append hs]

theorem parseLiteral_number {literal rest : List Char} (h : isNumber literal = true)
    (hrest : ∀ c ∈ rest.head?, isNumeric c = false) :
    parseLiteral (literal ++ rest) = some (.number literal, rest) := by
  obtain ⟨htake, hdrop⟩ := takeWhile_append_rest (all_numeric h) hrest
  obtain ⟨c, tail, rfl, hc⟩ := head_number h
  obtain ⟨-, -, -, -, -, -, hn, ht, hf⟩ := digit_ne hc
  unfold parseLiteral
  split
  · next heq => exact absurd (List.cons.inj heq).1 hn
  · next heq => exact absurd (List.cons.inj heq).1 ht
  · next heq => exact absurd (List.cons.inj heq).1 hf
  · rw [htake, hdrop, if_pos h]

/-- The items of an array start with a value. -/
theorem skipSpace_items {vs : List Value} {body : List Char} (h : Writes (.items vs) body)
    (rest : List Char) : ∃ c tail, skipSpace (body ++ rest) = c :: tail ∧ c ≠ ']' := by
  have hopens : ∀ {s text tail : List Char} {v : Value}, Spaces s → Writes (.value v) text →
      ∃ c tail', skipSpace (s ++ (text ++ tail)) = c :: tail' ∧ c ≠ ']' := by
    intro s text tail v hs htext
    obtain ⟨c, tail', rfl, hc, hne, -⟩ := opens_writes htext
    exact ⟨c, tail' ++ tail, skipSpace_spaces hs hc _, hne⟩
  cases h with
  | item hs _ h =>
    simp only [List.append_assoc]
    exact hopens hs h
  | items hs _ h _ =>
    simp only [List.append_assoc]
    exact hopens hs h

/-- The members of an object start with a quote. -/
theorem skipSpace_members {ms : List (List Nat × Value)} {body : List Char}
    (h : Writes (.members ms) body) (rest : List Char) :
    ∃ tail, skipSpace (body ++ rest) = '"' :: tail := by
  cases h with
  | member hs _ _ _ _ _ =>
    simp only [List.append_assoc]
    exact ⟨_, skipSpace_spaces hs rfl _⟩
  | members hs _ _ _ _ _ _ =>
    simp only [List.append_assoc]
    exact ⟨_, skipSpace_spaces hs rfl _⟩

/-- The parser reads every part that the grammar writes, whatever follows it. -/
theorem reads_writes {part : Part} {text : List Char} (h : Writes part text) : part.Reads text := by
  induction h with
  | null =>
    intro fuel rest hfuel _
    obtain ⟨fuel, rfl⟩ := Nat.exists_eq_succ_of_ne_zero (Nat.ne_zero_of_lt hfuel)
    rfl
  | true =>
    intro fuel rest hfuel _
    obtain ⟨fuel, rfl⟩ := Nat.exists_eq_succ_of_ne_zero (Nat.ne_zero_of_lt hfuel)
    rfl
  | false =>
    intro fuel rest hfuel _
    obtain ⟨fuel, rfl⟩ := Nat.exists_eq_succ_of_ne_zero (Nat.ne_zero_of_lt hfuel)
    rfl
  | @number literal h =>
    intro fuel rest hfuel hrest
    obtain ⟨fuel, rfl⟩ := Nat.exists_eq_succ_of_ne_zero (Nat.ne_zero_of_lt hfuel)
    rw [← parseLiteral_number h hrest]
    obtain ⟨c, tail, rfl, hc⟩ := head_number h
    obtain ⟨hspace, hquote, hbracket, hbrace, -⟩ := digit_ne hc
    rw [List.cons_append, parseValue, skipSpace_cons hspace]
    split
    · next heq => exact absurd (List.cons.inj heq).1 hquote
    · next heq => exact absurd (List.cons.inj heq).1 hbracket
    · next heq => exact absurd (List.cons.inj heq).1 hbrace
    · rfl
  | string h =>
    intro fuel rest hfuel _
    obtain ⟨fuel, rfl⟩ := Nat.exists_eq_succ_of_ne_zero (Nat.ne_zero_of_lt hfuel)
    simp only [List.cons_append, List.append_assoc, List.nil_append]
    rw [parseValue, skipSpace_cons rfl]
    simp only [parseString_writes h, Option.map_some]
  | emptyArr hs =>
    intro fuel rest hfuel _
    obtain ⟨fuel, rfl⟩ := Nat.exists_eq_succ_of_ne_zero (Nat.ne_zero_of_lt hfuel)
    simp only [List.cons_append, List.append_assoc, List.nil_append]
    rw [parseValue, skipSpace_cons rfl]
    simp only [skipSpace_spaces hs (rfl : isSpace ']' = false)]
  | @arr items body h ih =>
    intro fuel rest hfuel _
    obtain ⟨fuel, rfl⟩ := Nat.exists_eq_succ_of_ne_zero (Nat.ne_zero_of_lt hfuel)
    have hitems : parseItems fuel (body ++ ']' :: rest) = some (items, rest) := by
      refine ih fuel rest ?_
      simp only [List.length_append, List.length_cons, List.length_nil] at hfuel
      omega
    obtain ⟨c, tail, hskip, hc⟩ := skipSpace_items h (']' :: rest)
    simp only [List.cons_append, List.append_assoc, List.nil_append]
    rw [parseValue, skipSpace_cons rfl]
    simp only [hskip]
    split
    · next heq => exact absurd (List.cons.inj heq).1 hc
    · rw [hitems]
      rfl
  | emptyObj hs =>
    intro fuel rest hfuel _
    obtain ⟨fuel, rfl⟩ := Nat.exists_eq_succ_of_ne_zero (Nat.ne_zero_of_lt hfuel)
    simp only [List.cons_append, List.append_assoc, List.nil_append]
    rw [parseValue, skipSpace_cons rfl]
    simp only [skipSpace_spaces hs (rfl : isSpace '}' = false)]
  | @obj members body h ih =>
    intro fuel rest hfuel _
    obtain ⟨fuel, rfl⟩ := Nat.exists_eq_succ_of_ne_zero (Nat.ne_zero_of_lt hfuel)
    have hmembers : parseMembers fuel (body ++ '}' :: rest) = some (members, rest) := by
      refine ih fuel rest ?_
      simp only [List.length_append, List.length_cons, List.length_nil] at hfuel
      omega
    obtain ⟨tail, hskip⟩ := skipSpace_members h ('}' :: rest)
    simp only [List.cons_append, List.append_assoc, List.nil_append]
    rw [parseValue, skipSpace_cons rfl]
    simp only [hskip, hmembers, Option.map_some]
    rfl
  | @item v text s s' hs hs' _ ih =>
    intro fuel rest hfuel
    obtain ⟨fuel, rfl⟩ := Nat.exists_eq_succ_of_ne_zero (Nat.ne_zero_of_lt hfuel)
    simp only [List.length_append] at hfuel
    simp only [List.append_assoc]
    rw [parseItems, parseValue_spaces hs, ih fuel _ (by omega) (head_spaces hs' rfl rest)]
    simp only [skipSpace_spaces hs' (rfl : isSpace ']' = false)]
  | @items v vs text body s s' hs hs' _ _ ih ihrest =>
    intro fuel rest hfuel
    obtain ⟨fuel, rfl⟩ := Nat.exists_eq_succ_of_ne_zero (Nat.ne_zero_of_lt hfuel)
    simp only [List.length_append, List.length_cons] at hfuel
    simp only [List.append_assoc, List.cons_append]
    rw [parseItems, parseValue_spaces hs, ih fuel _ (by omega) (head_spaces hs' rfl _)]
    simp only [skipSpace_spaces hs' (rfl : isSpace ',' = false)]
    rw [ihrest fuel rest (by omega)]
    rfl
  | @member us v name text s₁ s₂ s₃ s₄ hs₁ hs₂ hs₃ hs₄ hname _ ih =>
    intro fuel rest hfuel
    obtain ⟨fuel, rfl⟩ := Nat.exists_eq_succ_of_ne_zero (Nat.ne_zero_of_lt hfuel)
    simp only [List.length_append, List.length_cons] at hfuel
    simp only [List.append_assoc, List.cons_append]
    have hvalue := ih fuel (s₄ ++ '}' :: rest) (by omega) (head_spaces hs₄ rfl rest)
    rw [parseMembers, skipSpace_spaces hs₁ rfl]
    simp only [parseString_writes hname, skipSpace_spaces hs₂ (rfl : isSpace ':' = false),
      parseValue_spaces hs₃, hvalue, skipSpace_spaces hs₄ (rfl : isSpace '}' = false)]
  | @members us v ms name text body s₁ s₂ s₃ s₄ hs₁ hs₂ hs₃ hs₄ hname _ _ ih ihrest =>
    intro fuel rest hfuel
    obtain ⟨fuel, rfl⟩ := Nat.exists_eq_succ_of_ne_zero (Nat.ne_zero_of_lt hfuel)
    simp only [List.length_append, List.length_cons] at hfuel
    simp only [List.append_assoc, List.cons_append]
    have hvalue := ih fuel (s₄ ++ ',' :: (body ++ '}' :: rest)) (by omega)
      (head_spaces hs₄ rfl _)
    rw [parseMembers, skipSpace_spaces hs₁ rfl]
    simp only [parseString_writes hname, skipSpace_spaces hs₂ (rfl : isSpace ':' = false),
      parseValue_spaces hs₃, hvalue, skipSpace_spaces hs₄ (rfl : isSpace ',' = false),
      ihrest fuel rest (by omega), Option.map_some]

/-- A text of the grammar, with spaces around it, has the value that it was written for. -/
theorem parse_of_writes {v : Value} {text s s' : List Char} (hs : Spaces s) (hs' : Spaces s')
    (h : Writes (.value v) text) : parse (s ++ text ++ s') = some v := by
  have hrest : ∀ c ∈ s'.head?, isNumeric c = false :=
    fun c hc => isNumeric_of_isSpace (hs' c (List.mem_of_mem_head? hc))
  have hvalue := reads_writes h ((s ++ text ++ s').length + 1) s' (by simp; omega) hrest
  have hend : skipSpace s' = [] := by
    have happend := skipSpace_append hs' []
    rwa [List.append_nil] at happend
  rw [parse, List.append_assoc, parseValue_spaces hs, ← List.append_assoc, hvalue]
  exact if_pos hend

/-! ## Writing -/

theorem spaces_nil : Spaces [] := by simp [Spaces]

/-- Values with commas between them, and the same spaces after each comma. -/
theorem writes_items {sep : List Char} (hsep : Spaces sep) {v : Value} {vs : List Value}
    {t : List Char} {ts : List (List Char)} (h : Writes (.value v) t)
    (hrest : List.Forall₂ (fun v t => Writes (.value v) t) vs ts) {s : List Char} (hs : Spaces s) :
    Writes (.items (v :: vs)) (s ++ (',' :: sep).intercalate (t :: ts)) := by
  induction hrest generalizing v t s with
  | nil =>
    rw [List.intercalate_singleton, ← List.append_nil (s ++ t)]
    exact .item hs spaces_nil h
  | @cons v' t' vs ts h' _ ih =>
    rw [List.intercalate_cons_of_ne_nil (by simp), ← List.append_assoc, ← List.append_assoc,
      List.append_assoc (s ++ t), ← List.append_nil (s ++ t)]
    exact .items hs spaces_nil h (ih h' hsep)

/-- An array with commas between its items. -/
theorem writes_arr {sep : List Char} (hsep : Spaces sep) {vs : List Value} {ts : List (List Char)}
    (h : List.Forall₂ (fun v t => Writes (.value v) t) vs ts) :
    Writes (.value (.arr vs)) ('[' :: (',' :: sep).intercalate ts ++ [']']) := by
  cases h with
  | nil => exact .emptyArr spaces_nil
  | cons h hrest => exact .arr (writes_items hsep h hrest spaces_nil)

/-- The text of a member, with the given spaces after the colon. -/
def WritesMember (colon : List Char) (m : List Nat × Value) (text : List Char) : Prop :=
  ∃ name value, WritesUnits m.1 name ∧ Writes (.value m.2) value ∧
    text = '"' :: name ++ '"' :: ':' :: colon ++ value

theorem writes_members {sep colon : List Char} (hsep : Spaces sep) (hcolon : Spaces colon)
    {m : List Nat × Value} {ms : List (List Nat × Value)} {t : List Char} {ts : List (List Char)}
    (h : WritesMember colon m t) (hrest : List.Forall₂ (WritesMember colon) ms ts) {s : List Char}
    (hs : Spaces s) : Writes (.members (m :: ms)) (s ++ (',' :: sep).intercalate (t :: ts)) := by
  induction hrest generalizing m t s with
  | nil =>
    obtain ⟨name, value, hname, hvalue, rfl⟩ := h
    have hmember := Writes.member hs spaces_nil hcolon spaces_nil hname hvalue
    simpa using hmember
  | @cons m' t' ms ts h' _ ih =>
    obtain ⟨name, value, hname, hvalue, rfl⟩ := h
    have hmembers := Writes.members hs spaces_nil hcolon spaces_nil hname hvalue (ih h' hsep)
    rw [List.intercalate_cons_of_ne_nil (by simp)]
    simpa using hmembers

/-- An object with commas between its members. -/
theorem writes_obj {sep colon : List Char} (hsep : Spaces sep) (hcolon : Spaces colon)
    {ms : List (List Nat × Value)} {ts : List (List Char)}
    (h : List.Forall₂ (WritesMember colon) ms ts) :
    Writes (.value (.obj ms)) ('{' :: (',' :: sep).intercalate ts ++ ['}']) := by
  cases h with
  | nil => exact .emptyObj spaces_nil
  | cons h hrest => exact .obj (writes_members hsep hcolon h hrest spaces_nil)

theorem isDigits_of_forall {text : List Char} (hne : text ≠ [])
    (h : ∀ c ∈ text, c.isDigit = true) : isDigits text = true := by
  rw [isDigits, Bool.and_eq_true, List.all_eq_true]
  exact ⟨decide_eq_true hne, h⟩

/-- Digits without a leading zero, and a minus before them or none, are a number. -/
theorem isNumber_digits {digits : List Char} (hne : digits ≠ [])
    (h : ∀ c ∈ digits, c.isDigit = true) (hzero : digits = ['0'] ∨ digits.head? ≠ some '0') :
    isNumber digits = true ∧ isNumber ('-' :: digits) = true := by
  have hsign : dropSign ['-'] digits = digits := by
    cases digits with
    | nil => rfl
    | cons c rest =>
      have hc : c ∉ ['-'] := by
        rintro hmem
        have hdigit := h c List.mem_cons_self
        rw [List.mem_singleton.mp hmem] at hdigit
        cases hdigit
      rw [dropSign, if_neg hc]
  have hnumber : (isInteger (digits.takeWhile Char.isDigit) &&
      isFraction (digits.dropWhile Char.isDigit)) = true := by
    rw [List.takeWhile_eq_self_iff.mpr h, List.dropWhile_eq_nil_iff.mpr h, isInteger,
      isDigits_of_forall hne h]
    simpa [isFraction] using hzero
  refine ⟨?_, ?_⟩
  · rw [isNumber, hsign]
    exact hnumber
  · exact hnumber

end JsonText
