import LavsCore.Lib.Dict
import LavsCore.Lib.JsonText

/-!
# Reading a parsed JSON value

What a program in JavaScript does with the value of a JSON text: it looks a property up by its
name and lists the values of an object. A member replaces an earlier one of the same name, in its
place. `units_append_inj`: the code units of a text determine its characters.
-/

namespace JsonText

/-! ## Code units -/

/-- No character is a surrogate. -/
theorem toNat_scalar (c : Char) : c.toNat < 0xd800 ∨ 0xdfff < c.toNat ∧ c.toNat < 0x110000 :=
  c.valid

/-- A character is told from what follows it. -/
theorem units_append_inj {c d : Char} {us vs : List Nat} (h : units c ++ us = units d ++ vs) :
    c = d ∧ us = vs := by
  have hchar : c.toNat = d.toNat → c = d := fun heq => Char.ext (UInt32.toNat_inj.mp heq)
  have hc := toNat_scalar c
  have hd := toNat_scalar d
  unfold units at h
  split at h <;> split at h
  · obtain ⟨heq, rfl⟩ := List.cons.inj h
    exact ⟨hchar heq, rfl⟩
  · obtain ⟨heq, -⟩ := List.cons.inj h
    omega
  · obtain ⟨heq, -⟩ := List.cons.inj h
    omega
  · obtain ⟨hhigh, htail⟩ := List.cons.inj h
    obtain ⟨hlow, rfl⟩ := List.cons.inj htail
    exact ⟨hchar (by omega), rfl⟩

theorem flatMap_units_injective :
    Function.Injective fun text : List Char => text.flatMap units := by
  have hne : ∀ (c : Char) (us : List Nat), units c ++ us ≠ [] := by
    intro c us
    unfold units
    split <;> simp
  intro text
  induction text with
  | nil =>
    intro text' h
    cases text' with
    | nil => rfl
    | cons d text' => exact absurd h.symm (hne d _)
  | cons c text ih =>
    intro text' h
    cases text' with
    | nil => exact absurd h (hne c _)
    | cons d text' =>
      obtain ⟨rfl, htail⟩ := units_append_inj h
      rw [ih htail]

/-! ## Objects -/

namespace Value

/-- `typeof value === 'object' && value !== null`; an array is an object. -/
def isObject : Value → Bool
  | .arr _ => true
  | .obj _ => true
  | _ => false

/-- `value[name]`, for a name that arrays do not have. -/
def property (name : List Nat) : Value → Option Value
  | .obj members => Dict.get? (Dict.ofList members) name
  | _ => none

/-- `Object.values(value)`, up to its order. -/
def values : Value → List Value
  | .arr items => items
  | .obj members => (Dict.ofList members).rows.map Prod.snd
  | _ => []

def string? : Value → Option (List Nat)
  | .string us => some us
  | _ => none

def bool? : Value → Option Bool
  | .bool b => some b
  | _ => none

variable {members : List (List Nat × Value)}

/-- Where no name is written twice, every member is read. -/
theorem property_of_mem (hnodup : (members.map Prod.fst).Nodup) {name : List Nat} {value : Value}
    (h : (name, value) ∈ members) : property name (.obj members) = some value := by
  rw [property, Dict.get?_eq_some, Dict.ofList_rows hnodup]
  exact h

theorem property_eq_none {name : List Nat} (h : name ∉ members.map Prod.fst) :
    property name (.obj members) = none := by
  rw [property, Dict.get?_eq_none, Dict.mem_keys_ofList]
  exact h

theorem values_of_nodup (hnodup : (members.map Prod.fst).Nodup) :
    values (.obj members) = members.map Prod.snd := by
  rw [values, Dict.ofList_rows hnodup]

end Value

end JsonText
