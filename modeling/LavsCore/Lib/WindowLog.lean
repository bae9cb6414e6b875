import Mathlib.Data.List.Dedup
import Mathlib.Data.List.Induction
import Mathlib.Order.Lattice
import LavsCore.Lib.History

/-!
# Logs over a sliding window

A log of admissions, each of a key at an instant. An ideal limiter keeps all of it and
admits a call while fewer than `limit` admissions of its key are in the window that ends at
the call. Where the window begins is any function of the instant.

`length_le_limit`: in any stretch of time that is shorter than the window, each key is
admitted at most `limit` times. `outcomes_filter`: what becomes of one key's calls does not
depend on the others.
-/

namespace WindowLog

section

variable {κ T : Type} [DecidableEq κ]

/-- The admissions of one key. -/
def times (key : κ) (log : List (κ × T)) : List T :=
  (log.filter fun e => e.1 = key).map Prod.snd

@[simp] theorem times_append (key : κ) (log more : List (κ × T)) :
    times key (log ++ more) = times key log ++ times key more := by
  simp [times]

theorem times_singleton (key : κ) (e : κ × T) :
    times key [e] = if e.1 = key then [e.2] else [] := by
  unfold times
  rw [List.filter_singleton]
  split <;> simp_all

theorem mem_times {key : κ} {log : List (κ × T)} {t : T} : t ∈ times key log ↔ (key, t) ∈ log := by
  simp [times]

end

section

variable {κ T : Type} [DecidableEq κ] [LinearOrder T]

/-- The instants after `low`, up to `high`. -/
def inWindow (low high : T) (instants : List T) : List T :=
  instants.filter fun t => low < t ∧ t ≤ high

variable (limit : Nat) (start : T → T)

/-- Fewer than `limit` admissions of the key are in the window. -/
def admits (log : List (κ × T)) (call : κ × T) : Bool :=
  (inWindow (start call.2) call.2 (times call.1 log)).length < limit

/-- The log after a call. -/
def record (log : List (κ × T)) (call : κ × T) : List (κ × T) :=
  if admits limit start log call then log ++ [call] else log

/-- Every call, with whether it is admitted. -/
def outcomes : List (κ × T) → List (κ × T) → List ((κ × T) × Bool)
  | _, [] => []
  | log, call :: rest =>
      (call, admits limit start log call) :: outcomes (record limit start log call) rest

/-- The calls that were admitted. -/
def admitted (results : List ((κ × T) × Bool)) : List (κ × T) :=
  (results.filter Prod.snd).map Prod.fst

/-- The keys with an admission in the window that ends at the call, and the caller. -/
def liveKeys (log : List (κ × T)) (call : κ × T) : List κ :=
  (call.1 :: (log.filter fun e => start call.2 < e.2 ∧ e.2 ≤ call.2).map Prod.fst).dedup

variable {limit start}

theorem admits_iff {log : List (κ × T)} {call : κ × T} :
    admits limit start log call = true ↔
      (inWindow (start call.2) call.2 (times call.1 log)).length < limit := by
  simp [admits]

theorem times_record (key : κ) (log : List (κ × T)) (call : κ × T) :
    times key (record limit start log call) =
      if call.1 = key ∧ admits limit start log call = true then times key log ++ [call.2]
      else times key log := by
  unfold record
  split
  · next admitted =>
    rw [times_append, times_singleton]
    split
    · next hkey => rw [if_pos ⟨hkey, admitted⟩]
    · next hkey => rw [if_neg (fun h => hkey h.1), List.append_nil]
  · next refused => rw [if_neg (fun h => refused h.2)]

theorem mem_record {log : List (κ × T)} {call e : κ × T} (h : e ∈ record limit start log call) :
    e ∈ log ∨ e = call := by
  unfold record at h
  split at h
  · simpa using h
  · exact Or.inl h

theorem mem_liveKeys {log : List (κ × T)} {call : κ × T} {key : κ} :
    key ∈ liveKeys start log call ↔
      key = call.1 ∨ ∃ t, (key, t) ∈ log ∧ start call.2 < t ∧ t ≤ call.2 := by
  simp [liveKeys]

/-- The log is made of the calls that were admitted. -/
theorem run_eq_admitted (log calls : List (κ × T)) :
    History.run (record limit start) log calls =
      log ++ admitted (outcomes limit start log calls) := by
  induction calls generalizing log with
  | nil => simp [outcomes, admitted]
  | cons call rest ih =>
    rw [History.run_cons, ih, outcomes]
    unfold record
    cases admits limit start log call <;> simp [admitted]

theorem run_subset {calls : List (κ × T)} {e : κ × T}
    (h : e ∈ History.run (record limit start) [] calls) : e ∈ calls := by
  induction calls using List.reverseRecOn with
  | nil => exact h
  | append_singleton calls call ih =>
    rw [History.run_append, History.run_cons, History.run_nil] at h
    rw [List.mem_append, List.mem_singleton]
    exact (mem_record h).imp ih id

/-! ## What the ideal limiter keeps -/

/-- In any stretch of time shorter than the window a key is admitted at most `limit` times. -/
theorem length_le_limit {calls : List (κ × T)} (sorted : calls.Pairwise fun c d => c.2 ≤ d.2)
    (key : κ) {within : T → Bool} (short : ∀ s t, within s = true → within t = true → start t < s) :
    ((times key (admitted (outcomes limit start [] calls))).filter within).length ≤ limit := by
  have hrun : History.run (record limit start) [] calls
      = admitted (outcomes limit start [] calls) := run_eq_admitted [] calls
  rw [← hrun]
  clear hrun
  induction calls using List.reverseRecOn with
  | nil => exact Nat.zero_le limit
  | append_singleton calls call ih =>
    obtain ⟨hcalls, -, hlast⟩ := List.pairwise_append.mp sorted
    have ih := ih hcalls
    rw [History.run_append, History.run_cons, History.run_nil, times_record]
    split
    · next hadmitted =>
      obtain ⟨rfl, hadmits⟩ := hadmitted
      rw [List.filter_append, List.filter_singleton]
      cases hwithin : within call.2 with
      | true =>
        -- whatever is within, with the call, is in the window that ends at the call
        have hcount : ((times call.1 (History.run (record limit start) [] calls)).filter
            within).length < limit := by
          refine Nat.lt_of_le_of_lt ?_ (admits_iff.mp hadmits)
          rw [inWindow, ← List.countP_eq_length_filter, ← List.countP_eq_length_filter]
          refine List.countP_mono_left fun t ht hw => ?_
          have hmem : (call.1, t) ∈ calls := run_subset (mem_times.mp ht)
          exact decide_eq_true ⟨short t call.2 hw hwithin, hlast _ hmem _ List.mem_cons_self⟩
        rw [List.length_append]
        exact hcount
      | false =>
        rw [cond_false, List.append_nil]
        exact ih
    · exact ih

/-- What becomes of the calls of one key does not depend on the others. -/
theorem outcomes_filter (key : κ) {log log' : List (κ × T)} (same : times key log = times key log')
    (calls : List (κ × T)) :
    (outcomes limit start log calls).filter (fun o => o.1.1 = key) =
      outcomes limit start log' (calls.filter fun call => call.1 = key) := by
  induction calls generalizing log log' with
  | nil => rfl
  | cons call rest ih =>
    rcases Classical.em (call.1 = key) with rfl | hkey
    · have hadmits : admits limit start log call = admits limit start log' call := by
        unfold admits
        rw [same]
      have hrecord : times call.1 (record limit start log call)
          = times call.1 (record limit start log' call) := by
        rw [times_record, times_record, same, hadmits]
      rw [List.filter_cons_of_pos (by simp)]
      simp only [outcomes]
      rw [List.filter_cons_of_pos (by simp), ih hrecord, hadmits]
    · have hrecord : times key (record limit start log call) = times key log' := by
        rw [times_record, if_neg (fun h => hkey h.1), same]
      rw [List.filter_cons_of_neg (by simpa using hkey)]
      simp only [outcomes]
      rw [List.filter_cons_of_neg (by simpa using hkey), ih hrecord]

/-! ## Dropping what has left the window -/

theorem pairwise_times (key : κ) {log : List (κ × T)}
    (sorted : log.Pairwise fun c d => c.2 ≤ d.2) : (times key log).Pairwise (· ≤ ·) :=
  List.pairwise_map.mpr (sorted.filter _)

/-- In a sorted log the instants outside the window are at its front. -/
theorem dropWhile_eq_filter {low : T} {instants : List T} (sorted : instants.Pairwise (· ≤ ·)) :
    instants.dropWhile (fun t => decide (t ≤ low)) = instants.filter fun t => low < t := by
  induction instants with
  | nil => rfl
  | cons t rest ih =>
    obtain ⟨hfirst, hrest⟩ := List.pairwise_cons.mp sorted
    rcases le_or_gt t low with hle | hlt
    · rw [List.dropWhile_cons_of_pos (by simpa using hle),
        List.filter_cons_of_neg (by simpa using hle)]
      exact ih hrest
    · rw [List.dropWhile_cons_of_neg (by simpa using hlt), List.filter_eq_self.mpr]
      intro t' ht'
      rcases List.mem_cons.mp ht' with rfl | ht'
      · simpa using hlt
      · simpa using lt_of_lt_of_le hlt (hfirst t' ht')

/-- What is before the window may be forgotten. -/
theorem inWindow_eq_dropWhile {low high : T} {forgotten kept : List T}
    (sorted : kept.Pairwise (· ≤ ·)) (past : ∀ t ∈ kept, t ≤ high)
    (old : ∀ t ∈ forgotten, t ≤ low) :
    inWindow low high (forgotten ++ kept) = kept.dropWhile fun t => decide (t ≤ low) := by
  have hforgotten : forgotten.filter (fun t => decide (low < t ∧ t ≤ high)) = [] :=
    List.filter_eq_nil_iff.mpr fun t ht => by simp [not_lt.mpr (old t ht)]
  have hkept : kept.filter (fun t => decide (low < t ∧ t ≤ high))
      = kept.filter fun t => low < t :=
    List.filter_congr fun t ht => by simp [past t ht]
  rw [inWindow, List.filter_append, hforgotten, List.nil_append, hkept, dropWhile_eq_filter sorted]

end

end WindowLog
