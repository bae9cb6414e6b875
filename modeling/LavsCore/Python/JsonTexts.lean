import LavsCore.Lib.JsonValue
import LavsCore.Python.CompactDumps

/-!
# What a JSON parser makes of the texts

`json.dumps` writes texts of the JSON grammar: with its default separators, compactly, and
compactly without ASCII escapes, which is what a response is rendered with. `parse_dumps` and its
siblings: a parser reads the value back that was encoded, its texts as UTF-16. `property_parsed`,
`property_sortKeys` and `values_sortKeys` say what JavaScript finds in an object that was encoded,
as it was or with its keys in order.
-/

namespace Py

open JsonText (units Writes WritesUnits WritesMember Spaces)

/-! ## The value that is read back -/

/-- A text as a list of UTF-16 code units. -/
def textUnits (s : String) : List Nat := s.toList.flatMap units

mutual

def Json.parsed : Json → JsonText.Value
  | .null => .null
  | .bool b => .bool b
  | .int n => .number (encodeInt n)
  | .str s => .string (textUnits s)
  | .arr items => .arr (Json.parsedItems items)
  | .obj fields => .obj (Json.parsedFields fields)

def Json.parsedItems : List Json → List JsonText.Value
  | [] => []
  | item :: rest => item.parsed :: Json.parsedItems rest

def Json.parsedFields : List (String × Json) → List (List Nat × JsonText.Value)
  | [] => []
  | (name, value) :: rest => (textUnits name, value.parsed) :: Json.parsedFields rest

end

/-! ## Compact texts without ASCII escapes -/

/-- The escape of a character with `ensure_ascii=False`. -/
def escapeRaw (c : Char) : List Char :=
  if c = '"' then ['\\', '"']
  else if c = '\\' then ['\\', '\\']
  else if c = '\n' then ['\\', 'n']
  else if c = '\r' then ['\\', 'r']
  else if c = '\t' then ['\\', 't']
  else if c.toNat = 8 then ['\\', 'b']
  else if c.toNat = 12 then ['\\', 'f']
  else if c.toNat < 0x20 then '\\' :: 'u' :: hex4 c.toNat
  else [c]

def renderString (s : String) : List Char := '"' :: s.toList.flatMap escapeRaw ++ ['"']

mutual

/-- `json.dumps(value, ensure_ascii=False, separators=(",", ":"))` -/
def render : Json → List Char
  | .null => "null".toList
  | .bool true => "true".toList
  | .bool false => "false".toList
  | .int n => encodeInt n
  | .str s => renderString s
  | .arr items => '[' :: [','].intercalate (renderItems items) ++ [']']
  | .obj fields => '{' :: [','].intercalate (renderFields fields) ++ ['}']

def renderItems : List Json → List (List Char)
  | [] => []
  | item :: rest => render item :: renderItems rest

def renderFields : List (String × Json) → List (List Char)
  | [] => []
  | (name, value) :: rest => (renderString name ++ ':' :: render value) :: renderFields rest

end

namespace JsonTextsLemmas

/-! ## Characters -/

theorem hexDigit?_digitChar {n : Nat} (h : n < 16) :
    JsonText.hexDigit? (Nat.digitChar n) = some n := by
  have hall : (List.range 16).all
      (fun n => decide (JsonText.hexDigit? (Nat.digitChar n) = some n)) = true := by decide
  exact of_decide_eq_true (List.all_eq_true.mp hall n (List.mem_range.mpr h))

theorem hex4?_hex4 {n : Nat} (h : n < 0x10000) :
    JsonText.hex4? (Nat.digitChar (n / 4096 % 16)) (Nat.digitChar (n / 256 % 16))
      (Nat.digitChar (n / 16 % 16)) (Nat.digitChar (n % 16)) = some n := by
  have hmod : ∀ m : Nat, m % 16 < 16 := fun m => Nat.mod_lt m (by decide)
  rw [JsonText.hex4?, hexDigit?_digitChar (hmod _), hexDigit?_digitChar (hmod _),
    hexDigit?_digitChar (hmod _), hexDigit?_digitChar (hmod _)]
  simp only [Option.some.injEq]
  omega

variable {us : List Nat} {body : List Char}

/-- `\uXXXX` stands for its code unit. -/
theorem writesUnits_hex4 {n : Nat} (hn : n < 0x10000) (h : WritesUnits us body) :
    WritesUnits (n :: us) ('\\' :: 'u' :: hex4 n ++ body) :=
  .unicode (hex4?_hex4 hn) h

theorem toNat_lt (c : Char) : c.toNat < 0x110000 := by
  rcases c.valid with h | h
  · exact Nat.lt_trans h (by decide)
  · exact h.2

theorem units_of_lt {c : Char} (h : c.toNat < 0x10000) : units c = [c.toNat] := if_pos h

/-- The characters that both encoders escape with one letter. -/
theorem writesUnits_letter {c e : Char} (hc : c.toNat < 0x10000)
    (he : JsonText.shortEscape? e = some c.toNat) (h : WritesUnits us body) :
    WritesUnits (units c ++ us) (['\\', e] ++ body) := by
  rw [units_of_lt hc]
  exact .short he h

/-- Both encoders escape these characters alike, and go on with the others in their own way. -/
theorem writesUnits_letters {c : Char} {other : List Char} (h : WritesUnits us body)
    (hother : c ≠ '"' → c ≠ '\\' → WritesUnits (units c ++ us) (other ++ body)) :
    WritesUnits (units c ++ us)
      ((if c = '"' then ['\\', '"']
        else if c = '\\' then ['\\', '\\']
        else if c = '\n' then ['\\', 'n']
        else if c = '\r' then ['\\', 'r']
        else if c = '\t' then ['\\', 't']
        else if c.toNat = 8 then ['\\', 'b']
        else if c.toNat = 12 then ['\\', 'f']
        else other) ++ body) := by
  split
  · next hc =>
    subst hc
    exact writesUnits_letter (by decide) rfl h
  next hquote =>
  split
  · next hc =>
    subst hc
    exact writesUnits_letter (by decide) rfl h
  next hback =>
  split
  · next hc =>
    subst hc
    exact writesUnits_letter (by decide) rfl h
  split
  · next hc =>
    subst hc
    exact writesUnits_letter (by decide) rfl h
  split
  · next hc =>
    subst hc
    exact writesUnits_letter (by decide) rfl h
  split
  · next hc => exact writesUnits_letter (hc ▸ by decide) (hc ▸ rfl) h
  split
  · next hc => exact writesUnits_letter (hc ▸ by decide) (hc ▸ rfl) h
  · exact hother hquote hback

theorem writesUnits_escapeChar (c : Char) (h : WritesUnits us body) :
    WritesUnits (units c ++ us) (escapeChar c ++ body) := by
  unfold escapeChar
  refine writesUnits_letters h fun hquote hback => ?_
  split
  · next hc => exact .plain hc.1 hquote hback h
  split
  · next hc =>
    rw [units_of_lt hc]
    exact writesUnits_hex4 hc h
  · next hc =>
    -- Two escapes, one for each half of the pair.
    have hhigh := toNat_lt c
    rw [units, if_neg hc, List.append_assoc]
    exact writesUnits_hex4 (by omega) (writesUnits_hex4 (by omega) h)

theorem writesUnits_escapeRaw (c : Char) (h : WritesUnits us body) :
    WritesUnits (units c ++ us) (escapeRaw c ++ body) := by
  unfold escapeRaw
  refine writesUnits_letters h fun hquote hback => ?_
  split
  · next hc =>
    have hlow : c.toNat < 0x10000 := Nat.lt_trans hc (by decide)
    rw [units_of_lt hlow]
    exact writesUnits_hex4 hlow h
  · next hc => exact .plain (Nat.le_of_not_lt hc) hquote hback h

/-- A text is the texts of its characters. -/
theorem writesUnits_flatMap {α : Type} {code : α → List Nat} {escape : α → List Char}
    (hescape : ∀ a us body, WritesUnits us body → WritesUnits (code a ++ us) (escape a ++ body))
    (as : List α) : WritesUnits (as.flatMap code) (as.flatMap escape) := by
  induction as with
  | nil => exact .nil
  | cons a as ih => exact hescape a _ _ ih

theorem writesUnits_text (s : String) :
    WritesUnits (textUnits s) (s.toList.flatMap escapeChar) :=
  writesUnits_flatMap (fun c _ _ => writesUnits_escapeChar c) s.toList

/-! ## Numbers -/

theorem head?_toDigits {n : Nat} (h : n ≠ 0) : (Nat.toDigits 10 n).head? ≠ some '0' := by
  induction n using Nat.strongRecOn with
  | ind n ih =>
    rcases Nat.lt_or_ge n 10 with hlt | hge
    · rw [Nat.toDigits_of_lt_base hlt]
      have hall : (List.range 10).all (fun n => n = 0 || Nat.digitChar n ≠ '0') = true := by decide
      have hn := List.all_eq_true.mp hall n (List.mem_range.mpr hlt)
      simp only [Bool.or_eq_true, decide_eq_true_eq] at hn
      simpa using hn.resolve_left h
    · rw [Nat.toDigits_of_base_le (by decide) hge,
        List.head?_append_of_ne_nil _ Nat.toDigits_ne_nil]
      exact ih (n / 10) (by omega) (by omega)

theorem isNumber_encodeInt (n : Int) : JsonText.isNumber (encodeInt n) = true := by
  have hdigits : ∀ c ∈ Nat.toDigits 10 n.natAbs, c.isDigit = true :=
    fun c hc => Nat.isDigit_of_mem_toDigits (by decide) (by decide) hc
  have hzero : Nat.toDigits 10 n.natAbs = ['0'] ∨ (Nat.toDigits 10 n.natAbs).head? ≠ some '0' := by
    rcases eq_or_ne n.natAbs 0 with h | h
    · rw [h]
      exact Or.inl rfl
    · exact Or.inr (head?_toDigits h)
  obtain ⟨hplain, hminus⟩ := JsonText.isNumber_digits Nat.toDigits_ne_nil hdigits hzero
  unfold encodeInt
  split
  · exact hminus
  · exact hplain

/-! ## Values -/

/-- The function encodes values: with these texts between quotes, and with these spaces after a
comma and after a colon. -/
structure Encodes (text : String → List Char) (sep colon : List Char) (f : Json → List Char)
    (items : List Json → List (List Char)) (fields : List (String × Json) → List (List Char)) :
    Prop where
  null : f .null = "null".toList
  bool : ∀ b, f (.bool b) = if b then "true".toList else "false".toList
  int : ∀ n, f (.int n) = encodeInt n
  str : ∀ s, f (.str s) = '"' :: text s ++ ['"']
  arr : ∀ xs, f (.arr xs) = '[' :: (',' :: sep).intercalate (items xs) ++ [']']
  obj : ∀ xs, f (.obj xs) = '{' :: (',' :: sep).intercalate (fields xs) ++ ['}']
  noItems : items [] = []
  items_cons : ∀ x xs, items (x :: xs) = f x :: items xs
  noFields : fields [] = []
  fields_cons : ∀ x xs, fields (x :: xs) =
    ('"' :: text x.1 ++ ['"'] ++ ':' :: (colon ++ f x.2)) :: fields xs

section

variable {text : String → List Char} {sep colon : List Char} {f : Json → List Char}
  {items : List Json → List (List Char)} {fields : List (String × Json) → List (List Char)}

/-- An encoder writes texts of the grammar. -/
theorem Encodes.writes (h : Encodes text sep colon f items fields)
    (htext : ∀ s, WritesUnits (textUnits s) (text s)) (hsep : Spaces sep) (hcolon : Spaces colon)
    (value : Json) : Writes (.value value.parsed) (f value) := by
  refine @Json.rec (fun value => Writes (.value value.parsed) (f value))
    (fun xs => List.Forall₂ (fun v t => Writes (.value v) t) (Json.parsedItems xs) (items xs))
    (fun xs => List.Forall₂ (WritesMember colon) (Json.parsedFields xs) (fields xs))
    (fun x => Writes (.value x.2.parsed) (f x.2))
    ?null ?bool ?int ?str ?arr ?obj ?noItems ?item ?noFields ?field ?pair value
  case null => exact h.null ▸ .null
  case bool =>
    intro b
    rw [h.bool]
    cases b with
    | true => exact .true
    | false => exact .false
  case int => exact fun n => h.int n ▸ .number (isNumber_encodeInt n)
  case str => exact fun s => h.str s ▸ .string (htext s)
  case arr => exact fun xs ih => h.arr xs ▸ JsonText.writes_arr hsep ih
  case obj => exact fun xs ih => h.obj xs ▸ JsonText.writes_obj hsep hcolon ih
  case noItems => exact h.noItems ▸ .nil
  case item => exact fun x xs hx hxs => h.items_cons x xs ▸ .cons hx hxs
  case noFields => exact h.noFields ▸ .nil
  case field =>
    intro x xs hx hxs
    rw [h.fields_cons]
    exact .cons ⟨_, _, htext x.1, hx, by simp⟩ hxs
  case pair => exact fun name value hvalue => hvalue

end

theorem spaces_space : Spaces [' '] := by simp [Spaces, JsonText.isSpace]

theorem writes_encode (value : Json) : Writes (.value value.parsed) (encode value) := by
  have hencodes : Encodes (fun s => s.toList.flatMap escapeChar) [' '] [' '] encode encodeItems
      encodeFields :=
    ⟨rfl, fun b => by cases b <;> rfl, fun _ => rfl, fun _ => rfl, fun _ => rfl, fun _ => rfl,
      rfl, fun _ _ => rfl, rfl, fun _ _ => rfl⟩
  exact hencodes.writes writesUnits_text spaces_space spaces_space value

theorem writes_compact (value : Json) :
    Writes (.value value.parsed) (encodeValue value.toValue) := by
  have hencodes : Encodes (fun s => (s.toList.map .char).flatMap escapePoint) [] []
      (fun v => encodeValue v.toValue) (fun xs => encodeValues (Json.toValues xs))
      (fun xs => encodeEntries (Json.toEntries xs)) :=
    ⟨rfl, fun b => by cases b <;> rfl, fun _ => rfl, fun _ => rfl, fun _ => rfl, fun _ => rfl,
      rfl, fun _ _ => rfl, rfl, fun _ _ => rfl⟩
  refine hencodes.writes (fun s => ?_) JsonText.spaces_nil JsonText.spaces_nil value
  rw [List.flatMap_map]
  exact writesUnits_text s

theorem writes_render (value : Json) : Writes (.value value.parsed) (render value) := by
  have hencodes : Encodes (fun s => s.toList.flatMap escapeRaw) [] [] render renderItems
      renderFields :=
    ⟨rfl, fun b => by cases b <;> rfl, fun _ => rfl, fun _ => rfl, fun _ => rfl, fun _ => rfl,
      rfl, fun _ _ => rfl, rfl, fun _ _ => rfl⟩
  refine hencodes.writes (fun s => ?_) JsonText.spaces_nil JsonText.spaces_nil value
  exact writesUnits_flatMap (fun c _ _ => writesUnits_escapeRaw c) s.toList

end JsonTextsLemmas

open JsonTextsLemmas

theorem parse_dumps (value : Json) : JsonText.parse (dumps value).toList = some value.parsed := by
  have hparse := JsonText.parse_of_writes JsonText.spaces_nil JsonText.spaces_nil
    (writes_encode value)
  rw [dumps, String.toList_ofList]
  simpa using hparse

theorem parse_dumpsCompact (value : Json) :
    JsonText.parse (dumpsCompact value.toValue).toList = some value.parsed := by
  have hparse := JsonText.parse_of_writes JsonText.spaces_nil JsonText.spaces_nil
    (writes_compact value)
  rw [dumpsCompact, String.toList_ofList]
  simpa using hparse

theorem parse_render (value : Json) : JsonText.parse (render value) = some value.parsed := by
  have hparse := JsonText.parse_of_writes JsonText.spaces_nil JsonText.spaces_nil
    (writes_render value)
  simpa using hparse

/-! ## What is found in an object -/

theorem textUnits_injective : Function.Injective textUnits :=
  JsonText.flatMap_units_injective.comp fun _ _ => String.toList_inj.mp

theorem parsedFields_eq_map (fields : List (String × Json)) :
    Json.parsedFields fields = fields.map fun e => (textUnits e.1, e.2.parsed) := by
  induction fields with
  | nil => rfl
  | cons e fields ih => rw [Json.parsedFields, ih, List.map_cons]

/-- A member of an object is found under its name. -/
theorem property_parsed {fields : List (String × Json)} (hnodup : (fields.map Prod.fst).Nodup)
    {name : String} {value : Json} (h : (name, value) ∈ fields) :
    (Json.obj fields).parsed.property (textUnits name) = some value.parsed := by
  have hnames := hnodup.map textUnits_injective
  rw [List.map_map] at hnames
  rw [Json.parsed, parsedFields_eq_map]
  refine JsonText.Value.property_of_mem ?_ (List.mem_map_of_mem h)
  rwa [List.map_map]

theorem sortFields_eq_map (fields : List (String × Json)) :
    sortFields fields = fields.map fun e => (e.1, sortKeys e.2) := by
  induction fields with
  | nil => rfl
  | cons e fields ih => rw [sortFields, ih, List.map_cons]

section

variable {fields : List (String × Json)}

theorem parsed_sortKeys (fields : List (String × Json)) :
    ∃ members, (sortKeys (.obj fields)).parsed = .obj members ∧
      members.Perm (fields.map fun e => (textUnits e.1, (sortKeys e.2).parsed)) := by
  refine ⟨(orderBy Prod.fst (sortFields fields)).map fun e => (textUnits e.1, e.2.parsed), ?_, ?_⟩
  · rw [sortKeys, Json.parsed, parsedFields_eq_map]
  · rw [sortFields_eq_map]
    have hperm := (orderBy_perm Prod.fst (fields.map fun e => (e.1, sortKeys e.2))).map
      fun e => (textUnits e.1, e.2.parsed)
    rwa [List.map_map] at hperm

/-- The names of the members, in any order. -/
theorem names_perm {members : List (List Nat × JsonText.Value)}
    (hperm : members.Perm (fields.map fun e => (textUnits e.1, (sortKeys e.2).parsed))) :
    (members.map Prod.fst).Perm ((fields.map Prod.fst).map textUnits) := by
  have hnames := hperm.map Prod.fst
  rwa [List.map_map] at hnames ⊢

theorem property_sortKeys (hnodup : (fields.map Prod.fst).Nodup) {name : String} {value : Json}
    (h : (name, value) ∈ fields) :
    (sortKeys (.obj fields)).parsed.property (textUnits name) = some (sortKeys value).parsed := by
  obtain ⟨members, heq, hperm⟩ := parsed_sortKeys fields
  rw [heq]
  refine JsonText.Value.property_of_mem ?_ (hperm.mem_iff.mpr (List.mem_map_of_mem h))
  exact (names_perm hperm).nodup_iff.mpr (hnodup.map textUnits_injective)

theorem property_sortKeys_eq_none {name : String} (h : name ∉ fields.map Prod.fst) :
    (sortKeys (.obj fields)).parsed.property (textUnits name) = none := by
  obtain ⟨members, heq, hperm⟩ := parsed_sortKeys fields
  rw [heq]
  refine JsonText.Value.property_eq_none fun hmem => h ?_
  obtain ⟨name', hname', hunits⟩ := List.mem_map.mp ((names_perm hperm).mem_iff.mp hmem)
  exact textUnits_injective hunits ▸ hname'

theorem values_sortKeys (hnodup : (fields.map Prod.fst).Nodup) :
    (sortKeys (.obj fields)).parsed.values.Perm (fields.map fun e => (sortKeys e.2).parsed) := by
  obtain ⟨members, heq, hperm⟩ := parsed_sortKeys fields
  rw [heq, JsonText.Value.values_of_nodup
    ((names_perm hperm).nodup_iff.mpr (hnodup.map textUnits_injective))]
  have hvalues := hperm.map Prod.snd
  rwa [List.map_map] at hvalues

end

end Py
