import LavsCore.Lib.Table
import Mathlib.Data.String.Basic

/-!
# Text forms of values

`json.dumps` with its default separators and ASCII escaping, and
`datetime.isoformat`. Both are what the service stores or sends: the bump
rationale of a release is a JSON text, and every `created_at` leaves the service
as an ISO-8601 text.
-/

namespace Py

/-! ## JSON -/

/-- The values that `json.dumps` encodes. An object lists its fields in order. -/
inductive Json where
  | null
  | bool (b : Bool)
  | int (n : Int)
  | str (s : String)
  | arr (items : List Json)
  | obj (fields : List (String × Json))

/-- A lower-case hexadecimal number of four digits. -/
def hex4 (n : Nat) : List Char :=
  [Nat.digitChar (n / 4096 % 16), Nat.digitChar (n / 256 % 16), Nat.digitChar (n / 16 % 16),
   Nat.digitChar (n % 16)]

/-- The escape of one character. Outside printable ASCII it is `\uXXXX`, as a
surrogate pair beyond the basic plane. -/
def escapeChar (c : Char) : List Char :=
  if c = '"' then ['\\', '"']
  else if c = '\\' then ['\\', '\\']
  else if c = '\n' then ['\\', 'n']
  else if c = '\r' then ['\\', 'r']
  else if c = '\t' then ['\\', 't']
  else if c.toNat = 8 then ['\\', 'b']
  else if c.toNat = 12 then ['\\', 'f']
  else if 0x20 ≤ c.toNat ∧ c.toNat < 0x7f then [c]
  else if c.toNat < 0x10000 then '\\' :: 'u' :: hex4 c.toNat
  else
    let offset := c.toNat - 0x10000
    '\\' :: 'u' :: hex4 (0xd800 + offset / 0x400) ++
      '\\' :: 'u' :: hex4 (0xdc00 + offset % 0x400)

def encodeString (s : String) : List Char :=
  '"' :: s.toList.flatMap escapeChar ++ ['"']

def encodeInt (n : Int) : List Char :=
  if n < 0 then '-' :: Nat.toDigits 10 n.natAbs else Nat.toDigits 10 n.natAbs

mutual

def encode : Json → List Char
  | .null => "null".toList
  | .bool true => "true".toList
  | .bool false => "false".toList
  | .int n => encodeInt n
  | .str s => encodeString s
  | .arr items => '[' :: [',', ' '].intercalate (encodeItems items) ++ [']']
  | .obj fields => '{' :: [',', ' '].intercalate (encodeFields fields) ++ ['}']

def encodeItems : List Json → List (List Char)
  | [] => []
  | item :: rest => encode item :: encodeItems rest

def encodeFields : List (String × Json) → List (List Char)
  | [] => []
  | (name, value) :: rest =>
    (encodeString name ++ ':' :: ' ' :: encode value) :: encodeFields rest

end

mutual

/-- The fields of every object in the order of their names. -/
def sortKeys : Json → Json
  | .arr items => .arr (sortItems items)
  | .obj fields => .obj (orderBy Prod.fst (sortFields fields))
  | value => value

def sortItems : List Json → List Json
  | [] => []
  | item :: rest => sortKeys item :: sortItems rest

def sortFields : List (String × Json) → List (String × Json)
  | [] => []
  | (name, value) :: rest => (name, sortKeys value) :: sortFields rest

end

/-- `json.dumps(value)`. -/
def dumps (value : Json) : String := String.ofList (encode value)

/-- `json.dumps(value, sort_keys=True)`. -/
def dumpsSorted (value : Json) : String := dumps (sortKeys value)

/-! ## Time -/

/-- An instant, in microseconds since 1970-01-01T00:00:00. The columns are naive
`TIMESTAMP`s, so there is no zone. -/
abbrev Timestamp := Nat

/-- A number in a field of fixed width, with leading zeros. -/
def padded (width n : Nat) : List Char :=
  let digits := Nat.toDigits 10 n
  List.replicate (width - digits.length) '0' ++ digits

/-- The year, month and day of a day counted from 1970-01-01. The computation
counts years from March, so that the leap day is the last day of its year, in
eras of 400 years. -/
def civilDate (day : Nat) : Nat × Nat × Nat :=
  let z := day + 719468
  let era := z / 146097
  let doe := z % 146097
  let yoe := (doe - doe / 1460 + doe / 36524 - doe / 146096) / 365
  let doy := doe - (365 * yoe + yoe / 4 - yoe / 100)
  let mp := (5 * doy + 2) / 153
  let month := if mp < 10 then mp + 3 else mp - 9
  let year := yoe + era * 400 + if month ≤ 2 then 1 else 0
  (year, month, doy - (153 * mp + 2) / 5 + 1)

/-- `created_at.isoformat()`: the microseconds are left out when they are zero. -/
def isoformat (t : Timestamp) : String :=
  let second := t / 1000000
  let micro := t % 1000000
  let (year, month, day) := civilDate (second / 86400)
  let inDay := second % 86400
  let date := padded 4 year ++ '-' :: padded 2 month ++ '-' :: padded 2 day
  let time := padded 2 (inDay / 3600) ++ ':' :: padded 2 (inDay / 60 % 60) ++
    ':' :: padded 2 (inDay % 60)
  String.ofList (date ++ 'T' :: time ++ if micro = 0 then [] else '.' :: padded 6 micro)

example : isoformat 1782734400000000 = "2026-06-29T12:00:00" := by decide +kernel

example : dumpsSorted (.obj [("b", .bool true), ("a", .str "x\n\"")]) =
    "\x7b\"a\": \"x\\n\\\"\", \"b\": true\x7d" := by decide +kernel

end Py
