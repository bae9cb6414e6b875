import LavsCore.Lib.Table

/-!
# Dictionaries

A dictionary is a table of pairs with the first component as the key. It keeps
the order in which the keys came in; assigning to a known key changes its value in
place.
-/

/-- A dictionary in insertion order. -/
abbrev Dict (κ α : Type) := Table (α := κ × α) Prod.fst

namespace Dict

variable {κ α β : Type} [DecidableEq κ]

/-- `d.get(k)`. -/
def get? (d : Dict κ α) (k : κ) : Option α := ((d.lookup k).head?).map Prod.snd

/-- `d[k] = v`. -/
def set (d : Dict κ α) (k : κ) (v : α) : Dict κ α :=
  if h : k ∈ d.keys then
    d.update (fun e => if e.1 = k then (e.1, v) else e) (fun e => by split <;> rfl)
  else d.insert (k, v) h

/-- `d.setdefault(k, v)`, without its result. -/
def setDefault (d : Dict κ α) (k : κ) (v : α) : Dict κ α :=
  if h : k ∈ d.keys then d else d.insert (k, v) h

/-- Change the value of a key, if the key is there. -/
def modify (d : Dict κ α) (k : κ) (f : α → α) : Dict κ α :=
  d.update (fun e => if e.1 = k then (e.1, f e.2) else e) (fun e => by split <;> rfl)

/-- The dictionary built by assigning pair after pair. -/
def ofList (entries : List (κ × α)) : Dict κ α :=
  entries.foldl (fun d e => set d e.1 e.2) Table.empty

/-- A dictionary with the same keys and other values. -/
def mapValues (f : κ → α → β) (d : Dict κ α) : Dict κ β where
  rows := d.rows.map fun e => (e.1, f e.1 e.2)
  nodup_keys := by
    rw [List.map_map]
    exact d.nodup_keys

omit [DecidableEq κ] in
@[simp] theorem mapValues_keys (f : κ → α → β) (d : Dict κ α) :
    Table.keys (mapValues f d) = d.keys := by
  simp [mapValues, Table.keys]

theorem get?_eq_some {d : Dict κ α} {k : κ} {v : α} : get? d k = some v ↔ (k, v) ∈ d.rows := by
  constructor
  · intro h
    obtain ⟨e, he, rfl⟩ := Option.map_eq_some_iff.mp h
    obtain ⟨hrow, hk⟩ := Table.mem_lookup.mp (List.mem_of_mem_head? he)
    exact hk ▸ hrow
  · intro h
    have hl : d.lookup k = [(k, v)] := Table.lookup_eq_singleton h
    simp [get?, hl]

theorem get?_eq_none {d : Dict κ α} {k : κ} : get? d k = none ↔ k ∉ d.keys := by
  simp [get?, Table.lookup_eq_nil]

theorem mem_keys_iff {d : Dict κ α} {k : κ} : k ∈ d.keys ↔ ∃ v, get? d k = some v := by
  rw [← not_iff_not, ← get?_eq_none, Option.eq_none_iff_forall_ne_some, not_exists]

theorem get?_mapValues (f : κ → α → β) (d : Dict κ α) (k : κ) :
    get? (mapValues f d) k = (get? d k).map (f k) := by
  apply Option.ext
  intro v
  simp only [get?_eq_some, Option.map_eq_some_iff, mapValues, List.mem_map, Prod.mk.injEq,
    Prod.exists]
  constructor
  · rintro ⟨_, v', h, rfl, rfl⟩
    exact ⟨v', h, rfl⟩
  · rintro ⟨v', h, rfl⟩
    exact ⟨k, v', h, rfl, rfl⟩

@[simp] theorem mem_keys_set {d : Dict κ α} {k k' : κ} {v : α} :
    k' ∈ (set d k v).keys ↔ k' ∈ d.keys ∨ k' = k := by
  unfold set
  split
  · next h =>
    rw [Table.update_keys]
    constructor
    · exact Or.inl
    · rintro (h' | rfl)
      · exact h'
      · exact h
  · rw [Table.insert_keys, List.mem_append, List.mem_singleton]

/-- An assignment is seen at its key and nowhere else. -/
theorem get?_set (d : Dict κ α) (k : κ) (v : α) (k' : κ) :
    get? (set d k v) k' = if k' = k then some v else get? d k' := by
  apply Option.ext
  intro v'
  rw [get?_eq_some]
  unfold set
  split
  · next h =>
    rw [Table.update_rows, List.mem_map]
    constructor
    · rintro ⟨e, he, hv⟩
      split at hv
      · next hk =>
        cases hv
        simp [hk]
      · next hk =>
        subst hv
        rw [if_neg hk]
        exact get?_eq_some.mpr he
    · split
      · next hk =>
        intro hv
        cases hv
        obtain ⟨v₀, h₀⟩ := mem_keys_iff.mp h
        exact ⟨(k, v₀), get?_eq_some.mp h₀, by simp [hk]⟩
      · next hk =>
        intro hv
        exact ⟨(k', v'), get?_eq_some.mp hv, by simp [hk]⟩
  · next h =>
    rw [Table.insert_rows, List.mem_append, List.mem_singleton, Prod.mk.injEq]
    split
    · next hk =>
      subst hk
      have hnot : (k', v') ∉ d.rows := fun hm => h (Table.key_mem_keys hm)
      simp [hnot, eq_comm]
    · next hk => simp [hk, get?_eq_some]

theorem length_set (d : Dict κ α) (k : κ) (v : α) :
    (set d k v).rows.length = if k ∈ d.keys then d.rows.length else d.rows.length + 1 := by
  unfold set
  split
  · rw [Table.update_rows, List.length_map]
  · rw [Table.insert_rows, List.length_append, List.length_singleton]

/-- What holds of every entry still does after an assignment for which it holds. -/
theorem forall_get?_set {d : Dict κ α} {k : κ} {v : α} {P : κ → α → Prop}
    (hd : ∀ k' v', get? d k' = some v' → P k' v') (hv : P k v) :
    ∀ k' v', get? (set d k v) k' = some v' → P k' v' := by
  intro k' v' h
  rw [get?_set] at h
  split at h
  · next heq =>
    cases h
    exact heq ▸ hv
  · exact hd k' v' h

theorem mem_keys_ofList {entries : List (κ × α)} {k : κ} :
    k ∈ (ofList entries).keys ↔ k ∈ entries.map Prod.fst := by
  have hfold : ∀ (entries : List (κ × α)) (d : Dict κ α),
      k ∈ (entries.foldl (fun d e => set d e.1 e.2) d).keys ↔
        k ∈ d.keys ∨ k ∈ entries.map Prod.fst := by
    intro entries
    induction entries with
    | nil => simp
    | cons e entries ih =>
      intro d
      rw [List.foldl_cons, ih, mem_keys_set, List.map_cons, List.mem_cons, or_assoc]
  rw [ofList, hfold]
  simp [Table.keys]

/-- Pairs with different keys are kept as they are. -/
theorem ofList_rows {entries : List (κ × α)} (h : (entries.map Prod.fst).Nodup) :
    (ofList entries).rows = entries := by
  have hfold : ∀ (entries : List (κ × α)) (d : Dict κ α),
      ((d.rows ++ entries).map Prod.fst).Nodup →
        (entries.foldl (fun d e => set d e.1 e.2) d).rows = d.rows ++ entries := by
    intro entries
    induction entries with
    | nil => simp
    | cons e entries ih =>
      intro d hd
      have hnew : e.1 ∉ d.keys := by
        rw [List.map_append, List.nodup_append] at hd
        exact fun hmem => hd.2.2 _ hmem _ List.mem_cons_self rfl
      have hset : (set d e.1 e.2).rows = d.rows ++ [e] := by
        rw [set, dif_neg hnew, Table.insert_rows]
      rw [List.foldl_cons, ih _ (by rwa [hset, List.append_assoc]), hset, List.append_assoc,
        List.singleton_append]
  exact (hfold entries Table.empty h).trans (List.nil_append _)

/-- If all pairs with a key have one value, it is the value of the key. -/
theorem get?_ofList {entries : List (κ × α)} {k : κ} {v : α} (hmem : (k, v) ∈ entries)
    (hall : ∀ v', (k, v') ∈ entries → v' = v) : get? (ofList entries) k = some v := by
  have hfold : ∀ (entries : List (κ × α)) (d : Dict κ α), (∀ v', (k, v') ∈ entries → v' = v) →
      (k, v) ∈ entries ∨ get? d k = some v →
        get? (entries.foldl (fun d e => set d e.1 e.2) d) k = some v := by
    intro entries
    induction entries with
    | nil => exact fun d _ h => h.resolve_left List.not_mem_nil
    | cons e entries ih =>
      intro d hall h
      refine ih _ (fun v' hv' => hall v' (List.mem_cons_of_mem _ hv')) ?_
      rw [get?_set]
      by_cases hk : k = e.1
      · rw [if_pos hk]
        exact Or.inr (congrArg some (hall e.2 (by simp [hk])))
      · rw [if_neg hk]
        refine h.imp_left fun hmem => ?_
        rcases List.mem_cons.mp hmem with heq | hmem
        · exact absurd (congrArg Prod.fst heq) hk
        · exact hmem
  exact hfold entries Table.empty hall (Or.inl hmem)

@[simp] theorem mem_keys_setDefault {d : Dict κ α} {k k' : κ} {v : α} :
    k' ∈ (setDefault d k v).keys ↔ k' ∈ d.keys ∨ k' = k := by
  unfold setDefault
  split
  · next h =>
    constructor
    · exact Or.inl
    · rintro (h' | rfl)
      · exact h'
      · exact h
  · rw [Table.insert_keys, List.mem_append, List.mem_singleton]

theorem get?_setDefault (d : Dict κ α) (k : κ) (v : α) (k' : κ) :
    get? (setDefault d k v) k' = if k' = k ∧ k ∉ d.keys then some v else get? d k' := by
  by_cases h : k ∈ d.keys
  · simp [setDefault, h]
  · have hset : setDefault d k v = set d k v := by simp [setDefault, set, h]
    simp [hset, get?_set, h]

@[simp] theorem modify_keys (d : Dict κ α) (k : κ) (f : α → α) :
    Table.keys (modify d k f) = d.keys := by
  rw [modify, Table.update_keys]

theorem get?_modify (d : Dict κ α) (k : κ) (f : α → α) (k' : κ) :
    get? (modify d k f) k' = if k' = k then (get? d k').map f else get? d k' := by
  apply Option.ext
  intro v
  simp only [modify, get?_eq_some, Table.update_rows, List.mem_map, Prod.exists]
  split
  · next hk =>
    simp only [Option.map_eq_some_iff, get?_eq_some]
    constructor
    · rintro ⟨k₀, v₀, h, he⟩
      split at he <;> cases he
      · exact ⟨v₀, h, rfl⟩
      · next hne => exact absurd hk hne
    · rintro ⟨v₀, h, rfl⟩
      exact ⟨k', v₀, h, by simp [hk]⟩
  · next hk =>
    rw [get?_eq_some]
    constructor
    · rintro ⟨k₀, v₀, h, he⟩
      split at he <;> cases he
      · next hk₀ => exact absurd hk₀ hk
      · exact h
    · intro h
      exact ⟨k', v, h, by simp [hk]⟩

theorem get?_erase (d : Dict κ α) (k k' : κ) :
    get? (d.keep fun e => e.1 ≠ k) k' = if k' = k then none else get? d k' := by
  apply Option.ext
  intro v
  rw [get?_eq_some]
  show (k', v) ∈ d.rows.filter (fun e => e.1 ≠ k) ↔ _
  rw [List.mem_filter, decide_eq_true_eq]
  split
  · next hk => simp [hk]
  · next hk => simp [hk, get?_eq_some]

/-- Changing the value of a key, new or not, is seen at that key and nowhere else. -/
theorem getD_modify_setDefault (d : Dict κ α) (k : κ) (v : α) (f : α → α) (k' : κ) :
    (get? (modify (setDefault d k v) k f) k').getD v =
      if k = k' then f ((get? d k').getD v) else (get? d k').getD v := by
  rw [get?_modify, get?_setDefault]
  rcases eq_or_ne k' k with rfl | hne
  · by_cases hk : k' ∈ d.keys
    · obtain ⟨x, hx⟩ := mem_keys_iff.mp hk
      simp [hx, hk]
    · simp [get?_eq_none.mpr hk, hk]
  · simp [hne, Ne.symm hne]

end Dict
