import Mathlib.Data.List.Nodup
import Mathlib.Data.List.Pairwise
import Mathlib.Data.List.Sort
import Mathlib.Data.Prod.Lex
import Mathlib.Order.Defs.LinearOrder

/-!
# Tables with a primary key

A `Table α key` is a list of rows, oldest first, no two of which have the same
key. The key constraint is part of the type: a row is only inserted with a proof
that its key is new, an update keeps the keys, and a deletion drops rows.

`orderBy` sorts rows. Where the sort key tells the rows apart, a sorted list depends on
the set of rows alone (`eq_of_perm_of_sorted`), and a second key in front of it changes
nothing exactly if it is monotone along the first (`orderBy_lex_eq_iff`).
-/

/-- A list of rows with pairwise different keys. -/
structure Table (α : Type) {κ : Type} (key : α → κ) where
  rows : List α
  nodup_keys : (rows.map key).Nodup

namespace Table

variable {α κ : Type} {key : α → κ}

@[ext] theorem ext {t u : Table α key} (h : t.rows = u.rows) : t = u := by
  cases t; cases u; cases h; rfl

/-- The table without rows. -/
def empty : Table α key := ⟨[], List.nodup_nil⟩

/-- The keys in use. -/
def keys (t : Table α key) : List κ := t.rows.map key

@[simp] theorem empty_rows : (empty : Table α key).rows = [] := rfl

theorem mem_keys {t : Table α key} {k : κ} : k ∈ t.keys ↔ ∃ r ∈ t.rows, key r = k :=
  List.mem_map

theorem key_mem_keys {t : Table α key} {r : α} (h : r ∈ t.rows) : key r ∈ t.keys :=
  List.mem_map_of_mem h

/-- Two rows with one key are one row. -/
theorem eq_of_key_eq {t : Table α key} {r r' : α} (h : r ∈ t.rows) (h' : r' ∈ t.rows)
    (hk : key r = key r') : r = r' :=
  List.inj_on_of_nodup_map t.nodup_keys h h' hk

/-- Append a row whose key is new. -/
def insert (t : Table α key) (r : α) (h : key r ∉ t.keys) : Table α key where
  rows := t.rows ++ [r]
  nodup_keys := by
    rw [List.map_append, List.nodup_append]
    refine ⟨t.nodup_keys, by simp, ?_⟩
    rintro a ha _ hb rfl
    rw [List.map_singleton, List.mem_singleton] at hb
    exact h (hb ▸ ha)

/-- Change every row by a function that keeps the key. -/
def update (t : Table α key) (f : α → α) (hf : ∀ r, key (f r) = key r) : Table α key where
  rows := t.rows.map f
  nodup_keys := by
    rw [List.map_map, show key ∘ f = key from funext hf]
    exact t.nodup_keys

/-- Keep the rows that satisfy a test. -/
def keep (t : Table α key) (p : α → Bool) : Table α key where
  rows := t.rows.filter p
  nodup_keys := t.nodup_keys.sublist (List.filter_sublist.map key)

@[simp] theorem insert_rows (t : Table α key) (r : α) (h : key r ∉ t.keys) :
    (t.insert r h).rows = t.rows ++ [r] := rfl

@[simp] theorem update_rows (t : Table α key) (f : α → α) (hf : ∀ r, key (f r) = key r) :
    (t.update f hf).rows = t.rows.map f := rfl

@[simp] theorem insert_keys (t : Table α key) (r : α) (h : key r ∉ t.keys) :
    (t.insert r h).keys = t.keys ++ [key r] := by
  simp [keys]

@[simp] theorem update_keys (t : Table α key) (f : α → α) (hf : ∀ r, key (f r) = key r) :
    (t.update f hf).keys = t.keys := by
  simp only [keys, update_rows, List.map_map]
  rw [show key ∘ f = key from funext hf]

variable [DecidableEq κ]

/-- The rows with the key `k`: at most one. -/
def lookup (t : Table α key) (k : κ) : List α := t.rows.filter fun r => key r = k

@[simp] theorem mem_lookup {t : Table α key} {k : κ} {r : α} :
    r ∈ t.lookup k ↔ r ∈ t.rows ∧ key r = k := by
  simp [lookup]

/-- The row of a key is found, and nothing else. -/
theorem lookup_eq_singleton {t : Table α key} {r : α} (h : r ∈ t.rows) :
    t.lookup (key r) = [r] := by
  have hnodup : (t.lookup (key r)).Nodup := t.nodup_keys.of_map.filter _
  have hmem : ∀ r', r' ∈ t.lookup (key r) ↔ r' = r := by
    intro r'
    rw [mem_lookup]
    constructor
    · intro h'
      exact eq_of_key_eq h'.1 h h'.2
    · rintro rfl
      exact ⟨h, rfl⟩
  exact List.perm_singleton.mp ((List.perm_ext_iff_of_nodup hnodup (List.nodup_singleton r)).mpr
    fun r' => (hmem r').trans List.mem_singleton.symm)

theorem lookup_eq_nil {t : Table α key} {k : κ} : t.lookup k = [] ↔ k ∉ t.keys := by
  rw [List.eq_nil_iff_forall_not_mem, mem_keys]
  simp only [mem_lookup, not_exists, not_and]

/-- A new row is found under its own key only. -/
theorem lookup_of_rows_append {t t' : Table α key} {r : α} {k : κ} (h : t'.rows = t.rows ++ [r])
    (hk : key r ≠ k) : t'.lookup k = t.lookup k := by
  rw [lookup, lookup, h, List.filter_append, List.filter_singleton, decide_eq_false hk]
  exact List.append_nil _

/-- A lookup that finds something finds one row. -/
theorem lookup_eq_singleton_of_mem_keys {t : Table α key} {k : κ} (h : k ∈ t.keys) :
    ∃ r ∈ t.rows, key r = k ∧ t.lookup k = [r] := by
  obtain ⟨r, hr, rfl⟩ := mem_keys.mp h
  exact ⟨r, hr, rfl, lookup_eq_singleton hr⟩

end Table

/-! ## Foreign keys -/

/-- Every row of the child table points to a key of the parent table. -/
def References {α κ : Type} (child : List α) (fk : α → κ) (parentKeys : List κ) : Prop :=
  ∀ r ∈ child, fk r ∈ parentKeys

namespace References

variable {α κ : Type} {child : List α} {fk : α → κ} {parentKeys : List κ}

instance [DecidableEq κ] : Decidable (References child fk parentKeys) :=
  inferInstanceAs (Decidable (∀ r ∈ child, fk r ∈ parentKeys))

theorem nil : References ([] : List α) fk parentKeys := fun _ h => absurd h List.not_mem_nil

theorem append (h : References child fk parentKeys) {r : α} (hr : fk r ∈ parentKeys) :
    References (child ++ [r]) fk parentKeys := by
  intro x hx
  rcases List.mem_append.mp hx with hx | hx
  · exact h x hx
  · exact List.mem_singleton.mp hx ▸ hr

/-- More parents break no reference. -/
theorem grow (h : References child fk parentKeys) (k : κ) :
    References child fk (parentKeys ++ [k]) :=
  fun x hx => List.mem_append_left _ (h x hx)

theorem map (h : References child fk parentKeys) {f : α → α} (hf : ∀ r, fk (f r) = fk r) :
    References (child.map f) fk parentKeys := by
  intro x hx
  obtain ⟨r, hr, rfl⟩ := List.mem_map.mp hx
  rw [hf]
  exact h r hr

theorem filter (h : References child fk parentKeys) (p : α → Bool) :
    References (child.filter p) fk parentKeys :=
  fun x hx => h x (List.mem_of_mem_filter hx)

end References

/-! ## Sorting -/

/-- The rows in the order of a sort key. Rows that tie keep their order. -/
def orderBy {α κ : Type} [LinearOrder κ] (sortKey : α → κ) (rows : List α) : List α :=
  rows.insertionSort fun a b => sortKey a ≤ sortKey b

section OrderBy

variable {α κ : Type} [LinearOrder κ] {sortKey : α → κ}

theorem orderBy_perm (sortKey : α → κ) (rows : List α) : (orderBy sortKey rows).Perm rows :=
  List.perm_insertionSort _ _

@[simp] theorem mem_orderBy {rows : List α} {r : α} : r ∈ orderBy sortKey rows ↔ r ∈ rows :=
  (orderBy_perm sortKey rows).mem_iff

theorem orderBy_sorted (sortKey : α → κ) (rows : List α) :
    (orderBy sortKey rows).Pairwise fun a b => sortKey a ≤ sortKey b := by
  have : Std.Total fun a b : α => sortKey a ≤ sortKey b := ⟨fun _ _ => le_total _ _⟩
  have : IsTrans α fun a b : α => sortKey a ≤ sortKey b := ⟨fun _ _ _ => le_trans⟩
  exact List.pairwise_insertionSort _ rows

/-- A sorted list is fixed by its rows as soon as the sort key tells them apart. -/
theorem eq_of_perm_of_sorted {xs ys : List α} (hp : xs.Perm ys)
    (hinj : ∀ a ∈ xs, ∀ b ∈ xs, sortKey a = sortKey b → a = b)
    (hx : xs.Pairwise fun a b => sortKey a ≤ sortKey b)
    (hy : ys.Pairwise fun a b => sortKey a ≤ sortKey b) : xs = ys :=
  List.Perm.eq_of_pairwise
    (fun a b ha hb hab hba => hinj a ha b (hp.mem_iff.mpr hb) (le_antisymm hab hba)) hx hy hp

/-- Sorting commutes with a selection of rows that the sort key tells apart. -/
theorem filter_orderBy {rows : List α} (p : α → Bool)
    (hinj : ∀ a ∈ rows.filter p, ∀ b ∈ rows.filter p, sortKey a = sortKey b → a = b) :
    (orderBy sortKey rows).filter p = orderBy sortKey (rows.filter p) := by
  have hperm := (orderBy_perm sortKey rows).filter p
  refine eq_of_perm_of_sorted ?_ ?_ ((orderBy_sorted _ _).filter _) (orderBy_sorted _ _)
  · exact hperm.trans (orderBy_perm _ _).symm
  · intro a ha b hb
    exact hinj a (hperm.subset ha) b (hperm.subset hb)

/-- Sorting by `(g, f)` is sorting by `f` exactly if `g` does not decrease along `f`. -/
theorem orderBy_lex_eq_iff {ι : Type} [LinearOrder ι] {f : α → κ} {g : α → ι} {rows : List α}
    (hinj : ∀ a ∈ rows, ∀ b ∈ rows, f a = f b → a = b) :
    orderBy (fun a => toLex (g a, f a)) rows = orderBy f rows ↔
      ∀ a ∈ rows, ∀ b ∈ rows, f a < f b → g a ≤ g b := by
  constructor
  · intro h a ha b hb hab
    have hlex := orderBy_sorted (fun a => toLex (g a, f a)) rows
    rw [h] at hlex
    -- Of two rows the one with the smaller `f` stands first, and there `g` is not larger.
    have hpair : (orderBy f rows).Pairwise fun a b =>
        (f a < f b → g a ≤ g b) ∧ (f b < f a → g b ≤ g a) := by
      refine ((orderBy_sorted f rows).and hlex).imp ?_
      rintro a b ⟨hf, hl⟩
      refine ⟨fun _ => ?_, fun hlt => absurd hlt (not_lt_of_ge hf)⟩
      rcases (Prod.Lex.le_iff.mp hl) with hlt | ⟨heq, _⟩
      · exact le_of_lt hlt
      · exact le_of_eq heq
    have hsymm : Std.Symm fun a b => (f a < f b → g a ≤ g b) ∧ (f b < f a → g b ≤ g a) :=
      ⟨fun _ _ hab => hab.symm⟩
    refine (List.Pairwise.forall_of_forall (fun _ _ => ?_) hpair (mem_orderBy.mpr ha)
      (mem_orderBy.mpr hb)).1 hab
    exact ⟨fun _ => le_rfl, fun _ => le_rfl⟩
  · intro h
    refine eq_of_perm_of_sorted
      ((orderBy_perm _ _).trans (orderBy_perm _ _).symm) ?_ ?_ (orderBy_sorted f rows)
    · exact fun a ha b hb => hinj a (mem_orderBy.mp ha) b (mem_orderBy.mp hb)
    · have hmem : (orderBy (fun a => toLex (g a, f a)) rows).Pairwise fun a b =>
          a ∈ rows ∧ b ∈ rows := by
        refine List.Pairwise.imp_of_mem (fun ha hb _ => ?_) (orderBy_sorted _ rows)
        exact ⟨mem_orderBy.mp ha, mem_orderBy.mp hb⟩
      refine ((orderBy_sorted (fun a => toLex (g a, f a)) rows).and hmem).imp ?_
      rintro a b ⟨hl, ha, hb⟩
      by_contra hlt
      have hba := h b hb a ha (lt_of_not_ge hlt)
      rcases (Prod.Lex.le_iff.mp hl) with hg | ⟨_, hf⟩
      · exact absurd hba (not_le_of_gt hg)
      · exact hlt hf

end OrderBy
