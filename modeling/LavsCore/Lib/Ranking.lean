import LavsCore.Lib.Table
import Mathlib.Data.List.Induction

/-!
# Ranking

`lastMax f xs` is the element of a list with the greatest `f`, and of several the last one:
what a scan finds that keeps the best so far and lets a tie replace it. `lastMax_eq_some`:
where it stands in the list. `lastMax_orderBy`: in a sorted list the scan decides ties by the
sort key.

`idxOf_le_idxOf_iff`: the positions of a sorted list order its elements.
-/

section Ranking

variable {α κ ι : Type} [LinearOrder κ] {f : α → κ}

/-- One step of the scan. -/
def keepMax (f : α → κ) (best : Option α) (x : α) : Option α :=
  match best with
  | none => some x
  | some b => if f b ≤ f x then some x else some b

/-- The last of the elements with the greatest `f`. -/
def lastMax (f : α → κ) (xs : List α) : Option α := xs.foldl (keepMax f) none

@[simp] theorem lastMax_nil : lastMax f [] = none := rfl

theorem lastMax_append_singleton (xs : List α) (x : α) :
    lastMax f (xs ++ [x]) = keepMax f (lastMax f xs) x := by
  rw [lastMax, List.foldl_append]
  rfl

@[simp] theorem lastMax_eq_none {xs : List α} : lastMax f xs = none ↔ xs = [] := by
  induction xs using List.reverseRecOn with
  | nil => simp
  | append_singleton xs x _ =>
    rw [lastMax_append_singleton]
    cases lastMax f xs with
    | none => simp [keepMax]
    | some b =>
      by_cases h : f b ≤ f x
      · simp [keepMax, h]
      · simp [keepMax, h]

/-- No element before the last of the greatest is greater, and every later one is less. -/
theorem lastMax_eq_some {xs : List α} {v : α} :
    lastMax f xs = some v ↔ ∃ before after, xs = before ++ v :: after ∧
      (∀ u ∈ before, f u ≤ f v) ∧ ∀ u ∈ after, f u < f v := by
  induction xs using List.reverseRecOn generalizing v with
  | nil => simp
  | append_singleton xs x ih =>
    rw [lastMax_append_singleton]
    constructor
    · intro h
      cases hbest : lastMax f xs with
      | none =>
        rw [hbest] at h
        cases h
        rw [lastMax_eq_none.mp hbest]
        exact ⟨[], [], rfl, by simp, by simp⟩
      | some b =>
        obtain ⟨before, after, rfl, hbefore, hafter⟩ := ih.mp hbest
        rw [hbest, keepMax] at h
        split at h
        · next hle =>
          cases h
          refine ⟨before ++ b :: after, [], rfl, ?_, by simp⟩
          intro u hu
          rcases List.mem_append.mp hu with hu | hu
          · exact (hbefore u hu).trans hle
          · rcases List.mem_cons.mp hu with rfl | hu
            · exact hle
            · exact (hafter u hu).le.trans hle
        · next hlt =>
          cases h
          refine ⟨before, after ++ [x], by simp, hbefore, ?_⟩
          intro u hu
          rcases List.mem_append.mp hu with hu | hu
          · exact hafter u hu
          · exact List.mem_singleton.mp hu ▸ lt_of_not_ge hlt
    · rintro ⟨before, after, hxs, hbefore, hafter⟩
      rcases List.eq_nil_or_concat after with rfl | ⟨after, y, rfl⟩
      · -- The last element is one of the greatest.
        obtain ⟨rfl, hx⟩ := List.append_inj' hxs rfl
        cases hx
        cases hbest : lastMax f xs with
        | none => rfl
        | some b =>
          obtain ⟨_, _, rfl, _, _⟩ := ih.mp hbest
          exact if_pos (hbefore b (by simp))
      · -- The last element is smaller.
        rw [List.concat_eq_append, ← List.cons_append, ← List.append_assoc] at hxs
        obtain ⟨rfl, hx⟩ := List.append_inj' hxs rfl
        cases hx
        have hbest : lastMax f (before ++ v :: after) = some v :=
          ih.mpr ⟨before, after, rfl, hbefore, fun u hu => hafter u (by simp [hu])⟩
        rw [hbest]
        exact if_neg (not_le_of_gt (hafter x (by simp)))

theorem mem_of_lastMax {xs : List α} {v : α} (h : lastMax f xs = some v) : v ∈ xs := by
  obtain ⟨_, _, rfl, _, _⟩ := lastMax_eq_some.mp h
  simp

/-- Where one element is greater than all the others, the scan finds it. -/
theorem lastMax_of_forall_lt {xs : List α} {v : α} (hv : v ∈ xs)
    (h : ∀ u ∈ xs, u ≠ v → f u < f v) : lastMax f xs = some v := by
  cases hmax : lastMax f xs with
  | none =>
    rw [lastMax_eq_none] at hmax
    exact absurd (hmax ▸ hv) List.not_mem_nil
  | some w =>
    by_cases hw : w = v
    · rw [hw]
    · have hlt := h w (mem_of_lastMax hmax) hw
      obtain ⟨before, after, rfl, hbefore, hafter⟩ := lastMax_eq_some.mp hmax
      rcases List.mem_append.mp hv with hv | hv
      · exact absurd hlt (not_lt_of_ge (hbefore v hv))
      · rcases List.mem_cons.mp hv with rfl | hv
        · exact absurd rfl hw
        · exact absurd hlt (not_lt_of_ge (hafter v hv).le)

/-- Two keys that order the elements alike have the same last greatest element. -/
theorem lastMax_congr [LinearOrder ι] {g : α → ι} {xs : List α}
    (h : ∀ a ∈ xs, ∀ b ∈ xs, f a ≤ f b ↔ g a ≤ g b) : lastMax f xs = lastMax g xs := by
  induction xs using List.reverseRecOn with
  | nil => rfl
  | append_singleton xs x ih =>
    have hxs : lastMax f xs = lastMax g xs :=
      ih fun a ha b hb => h a (List.mem_append_left _ ha) b (List.mem_append_left _ hb)
    rw [lastMax_append_singleton, lastMax_append_singleton, ← hxs]
    cases hbest : lastMax f xs with
    | none => rfl
    | some b =>
      have hb := h b (List.mem_append_left _ (mem_of_lastMax hbest)) x (by simp)
      simp only [keepMax, hb]

theorem lastMax_map {β : Type} (h : β → α) (xs : List β) :
    lastMax f (xs.map h) = (lastMax (fun x => f (h x)) xs).map h := by
  induction xs using List.reverseRecOn with
  | nil => rfl
  | append_singleton xs x ih =>
    rw [List.map_append, List.map_singleton, lastMax_append_singleton, lastMax_append_singleton, ih]
    cases lastMax (fun x => f (h x)) xs with
    | none => rfl
    | some b =>
      simp only [keepMax, Option.map_some]
      split <;> rfl

/-- In a list sorted by `g` the scan decides ties of `f` by `g`. -/
theorem lastMax_orderBy [LinearOrder ι] {g : α → ι} {rows : List α} {v : α} (hnodup : rows.Nodup)
    (hinj : ∀ a ∈ rows, ∀ b ∈ rows, g a = g b → a = b) :
    lastMax f (orderBy g rows) = some v ↔
      v ∈ rows ∧ ∀ u ∈ rows, u ≠ v → f u < f v ∨ f u = f v ∧ g u < g v := by
  have hsorted := orderBy_sorted g rows
  rw [lastMax_eq_some]
  constructor
  · rintro ⟨before, after, hrows, hbefore, hafter⟩
    have hmem : v ∈ before ++ v :: after := by simp
    have hv : v ∈ rows := mem_orderBy.mp (hrows ▸ hmem)
    refine ⟨hv, fun u hu hne => ?_⟩
    have hmem : u ∈ before ++ v :: after := hrows ▸ mem_orderBy.mpr hu
    rw [hrows, List.pairwise_append] at hsorted
    rcases List.mem_append.mp hmem with hmem | hmem
    · rcases (hbefore u hmem).lt_or_eq with hlt | heq
      · exact Or.inl hlt
      · have hle : g u ≤ g v := hsorted.2.2 u hmem v List.mem_cons_self
        exact Or.inr ⟨heq, hle.lt_of_ne fun hg => hne (hinj u hu v hv hg)⟩
    · rcases List.mem_cons.mp hmem with rfl | hmem
      · exact absurd rfl hne
      · exact Or.inl (hafter u hmem)
  · rintro ⟨hv, hmax⟩
    have hmem : v ∈ orderBy g rows := mem_orderBy.mpr hv
    obtain ⟨before, after, hrows⟩ := List.append_of_mem hmem
    rw [hrows, List.pairwise_append] at hsorted
    have hof : ∀ {u}, u ∈ before ++ v :: after → u ∈ rows :=
      fun hu => mem_orderBy.mp (hrows ▸ hu)
    have hnodup' := (orderBy_perm g rows).nodup_iff.mpr hnodup
    rw [hrows, List.nodup_append] at hnodup'
    refine ⟨before, after, hrows, fun u hu => ?_, fun u hu => ?_⟩
    · have hne : u ≠ v := hnodup'.2.2 u hu v List.mem_cons_self
      rcases hmax u (hof (List.mem_append_left _ hu)) hne with hlt | ⟨heq, _⟩
      · exact hlt.le
      · exact heq.le
    · have hne : u ≠ v := fun h => (List.nodup_cons.mp hnodup'.2.1).1 (h ▸ hu)
      have hle : g v ≤ g u := (List.pairwise_cons.mp hsorted.2.1).1 u hu
      have hmem : u ∈ before ++ v :: after :=
        List.mem_append_right _ (List.mem_cons_of_mem _ hu)
      rcases hmax u (hof hmem) hne with hlt | ⟨_, hlt⟩
      · exact hlt
      · exact absurd hlt (not_lt_of_ge hle)

/-- Rows that the sort key tells apart are sorted strictly. -/
theorem orderBy_strict {rows : List α} (hnodup : rows.Nodup)
    (hinj : ∀ a ∈ rows, ∀ b ∈ rows, f a = f b → a = b) :
    (orderBy f rows).Pairwise fun a b => f a < f b := by
  have hpairs := (orderBy_sorted f rows).and ((orderBy_perm f rows).nodup_iff.mpr hnodup)
  refine List.Pairwise.imp_of_mem (fun ha hb h => ?_) hpairs
  exact h.1.lt_of_ne fun heq => h.2 (hinj _ (mem_orderBy.mp ha) _ (mem_orderBy.mp hb) heq)

/-- Two strictly sorted lists with the same elements are equal. -/
theorem eq_of_strict {xs ys : List α} (hx : xs.Pairwise fun a b => f a < f b)
    (hy : ys.Pairwise fun a b => f a < f b) (h : ∀ a, a ∈ xs ↔ a ∈ ys) : xs = ys := by
  have : Std.Irrefl fun a b : α => f a < f b := ⟨fun a => lt_irrefl (f a)⟩
  have : Std.Antisymm fun a b : α => f a < f b := ⟨fun _ _ hab hba => absurd hba hab.asymm⟩
  exact hx.eq_of_mem_iff hy h

theorem idxOf_le_idxOf_iff [LinearOrder ι] {xs : List ι} (hsorted : xs.Pairwise (· < ·)) {a b : ι}
    (ha : a ∈ xs) (hb : b ∈ xs) : xs.idxOf a ≤ xs.idxOf b ↔ a ≤ b := by
  have hlt : ∀ {c d : ι} (hc : c ∈ xs) (hd : d ∈ xs), xs.idxOf c < xs.idxOf d → c < d := by
    intro c d hc hd h
    have hget := List.pairwise_iff_getElem.mp hsorted _ _ (List.idxOf_lt_length_iff.mpr hc)
      (List.idxOf_lt_length_iff.mpr hd) h
    rwa [List.getElem_idxOf, List.getElem_idxOf] at hget
  constructor
  · intro h
    rcases h.lt_or_eq with h | h
    · exact (hlt ha hb h).le
    · exact ((List.idxOf_inj ha).mp h).le
  · intro h
    by_contra hnot
    exact absurd (hlt hb ha (lt_of_not_ge hnot)) (not_lt_of_ge h)

end Ranking
