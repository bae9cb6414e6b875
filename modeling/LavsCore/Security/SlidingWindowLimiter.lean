import LavsCore.Errors
import LavsCore.Lib.Dict
import LavsCore.Lib.WindowLog
import Mathlib.Algebra.Order.Group.Int
import Mathlib.Data.List.MinMax
import Mathlib.Data.List.Perm.Subperm
import Mathlib.Data.List.TakeWhile

/-!
# The sliding-window limiter

`SlidingWindowLimiter` keeps a deque of admissions for each key, and at most `maxKeys` of
them. Old admissions are dropped when the key is seen again, whole buckets only when a new
key finds no room; if every bucket is live, the one that was used least recently goes.

A reading of the clock comes with the call. The code subtracts binary64 numbers, so a reading is
an element of a linear order whose subtraction of the window need only be monotone: rounding is.
An instant `s` is in the window that ends at `t` if `t - windowSeconds < s`, as the code computes
the difference.

Results:
1. `limiter_refines_ideal`: while no more than `maxKeys` keys are live, the limiter answers
   as the ideal one that forgets nothing.
2. `Tracked.allow`, `Bounded.outcomes`: whatever is called, there are at most `maxKeys`
   buckets, of at most `limit` admissions each, and no bucket is ever found empty.
-/

namespace LavsCore

/-! ## The limiter -/

section

variable {T : Type} [LinearOrder T]

/-- `self._admissions` -/
abbrev Admissions (T : Type) := Dict String (List T)

/-- `bucket[-1]` -/
def newestAdmission (bucket : List T) : Except ApiError T :=
  match bucket.getLast? with
  | some t => .ok t
  | none => .error (.indexError "deque index out of range")

/-- The newest admission of every key. -/
def newestAdmissions (admissions : Admissions T) : Except ApiError (List (String × T)) :=
  admissions.rows.mapM fun e => (newestAdmission e.2).map fun t => (e.1, t)

/-- `_prune_stale` -/
def pruneStale (admissions : Admissions T) (cutoff : T) : Except ApiError (Admissions T) := do
  let newest ← newestAdmissions admissions
  let stale := (newest.filter fun e => e.2 ≤ cutoff).map Prod.fst
  return admissions.keep fun e => e.1 ∉ stale

/-- `_evict_least_recent`; of several keys with the same newest admission the first goes. -/
def evictLeastRecent (admissions : Admissions T) : Except ApiError (Admissions T) := do
  let newest ← newestAdmissions admissions
  match newest.argmin Prod.snd with
  | none => return admissions
  | some oldest => return admissions.keep fun e => e.1 ≠ oldest.1

/-- What is done before a new key gets a bucket. -/
def makeRoom (maxKeys : Int) (admissions : Admissions T) (cutoff : T) :
    Except ApiError (Admissions T) := do
  let admissions ←
    if (admissions.rows.length : Int) ≥ maxKeys then pruneStale admissions cutoff
    else .ok admissions
  if (admissions.rows.length : Int) ≥ maxKeys then evictLeastRecent admissions
  else .ok admissions

/-- `self._admissions.get(key)`, or a new bucket. -/
def bucketOf (maxKeys : Int) (admissions : Admissions T) (key : String) (cutoff : T) :
    Except ApiError (List T × Admissions T) :=
  match admissions.get? key with
  | some bucket => .ok (bucket, admissions)
  | none => do
    let admissions ← makeRoom maxKeys admissions cutoff
    return ([], admissions.set key [])

structure SlidingWindowLimiter (T : Type) where
  maxKeys : Int := 1024
  admissions : Admissions T := Table.empty

variable [Sub T]

/-- `allow`, at the reading `now` of the clock. -/
def SlidingWindowLimiter.allow (limiter : SlidingWindowLimiter T) (key : String) (limit : Int)
    (windowSeconds now : T) : Except ApiError (Bool × SlidingWindowLimiter T) :=
  if limit ≤ 0 then .ok (true, limiter)
  else do
    let cutoff := now - windowSeconds
    let (bucket, admissions) ← bucketOf limiter.maxKeys limiter.admissions key cutoff
    let bucket := bucket.dropWhile fun t => t ≤ cutoff
    if (bucket.length : Int) ≥ limit then
      return (false, { limiter with admissions := admissions.set key bucket })
    else
      return (true, { limiter with admissions := admissions.set key (bucket ++ [now]) })

/-- A run of calls with one limit and one window: every call, with its answer. -/
def SlidingWindowLimiter.outcomes (limiter : SlidingWindowLimiter T) (limit : Int)
    (windowSeconds : T) : List (String × T) → Except ApiError (List ((String × T) × Bool))
  | [] => .ok []
  | (key, now) :: rest => do
    let (admitted, limiter) ← limiter.allow key limit windowSeconds now
    let results ← limiter.outcomes limit windowSeconds rest
    return (((key, now), admitted) :: results)

end

/-! ## Making room -/

section

variable {T : Type} [LinearOrder T]

/-- No bucket is empty. -/
def Filled (admissions : Admissions T) : Prop := ∀ e ∈ admissions.rows, e.2 ≠ []

/-- The newest admission of a bucket is after the cutoff. -/
def isLive (cutoff : T) (bucket : List T) : Bool := bucket.getLast?.any fun t => cutoff < t

/-- What `newestAdmissions` computes where no bucket is empty. -/
def newestOf (admissions : Admissions T) : List (String × T) :=
  admissions.rows.filterMap fun e => e.2.getLast?.map fun t => (e.1, t)

omit [LinearOrder T] in
theorem newestAdmissions_eq {admissions : Admissions T} (filled : Filled admissions) :
    newestAdmissions admissions = .ok (newestOf admissions) := by
  unfold newestAdmissions newestOf
  unfold Filled at filled
  generalize admissions.rows = rows at filled ⊢
  induction rows with
  | nil => rfl
  | cons e rest ih =>
    obtain ⟨hfirst, hrest⟩ := List.forall_mem_cons.mp filled
    have hlast : e.2.getLast? = some (e.2.getLast hfirst) := List.getLast?_eq_some_getLast hfirst
    rw [List.mapM_cons, ih hrest, newestAdmission, hlast, List.filterMap_cons, hlast]
    rfl

omit [LinearOrder T] in
theorem mem_newestOf {admissions : Admissions T} {key : String} {t : T} :
    (key, t) ∈ newestOf admissions ↔
      ∃ bucket, admissions.get? key = some bucket ∧ bucket.getLast? = some t := by
  simp only [newestOf, List.mem_filterMap, Option.map_eq_some_iff, Prod.mk.injEq, Dict.get?_eq_some]
  constructor
  · rintro ⟨⟨key', bucket⟩, hrow, t', hlast, rfl, rfl⟩
    exact ⟨bucket, hrow, hlast⟩
  · rintro ⟨bucket, hrow, hlast⟩
    exact ⟨(key, bucket), hrow, t, hlast, rfl, rfl⟩

/-- Exactly the buckets without an admission in the window are dropped. -/
theorem pruneStale_eq {admissions : Admissions T} (filled : Filled admissions) (cutoff : T) :
    pruneStale admissions cutoff = .ok (admissions.keep fun e => isLive cutoff e.2) := by
  unfold pruneStale
  rw [newestAdmissions_eq filled]
  refine congrArg Except.ok (Table.ext (List.filter_congr fun e he => ?_))
  have hget : admissions.get? e.1 = some e.2 := Dict.get?_eq_some.mpr he
  have hlast : e.2.getLast? = some (e.2.getLast (filled e he)) :=
    List.getLast?_eq_some_getLast (filled e he)
  have hstale : e.1 ∈ ((newestOf admissions).filter fun e => e.2 ≤ cutoff).map Prod.fst ↔
      e.2.getLast (filled e he) ≤ cutoff := by
    simp only [List.mem_map, List.mem_filter, decide_eq_true_eq]
    constructor
    · rintro ⟨⟨key, t⟩, ⟨hmem, hle⟩, rfl⟩
      obtain ⟨bucket, hbucket, ht⟩ := mem_newestOf.mp hmem
      obtain rfl := Option.some.inj (hget.symm.trans hbucket)
      obtain rfl := Option.some.inj (hlast.symm.trans ht)
      exact hle
    · exact fun hle => ⟨(e.1, _), ⟨mem_newestOf.mpr ⟨e.2, hget, hlast⟩, hle⟩, rfl⟩
  rw [isLive, hlast, Option.any_some]
  exact decide_eq_decide.mpr ((not_congr hstale).trans not_le)

theorem evictLeastRecent_spec {admissions : Admissions T} (filled : Filled admissions)
    (nonempty : admissions.rows ≠ []) :
    ∃ kept, evictLeastRecent admissions = .ok kept ∧ kept.rows.Sublist admissions.rows ∧
      kept.rows.length < admissions.rows.length := by
  unfold evictLeastRecent
  rw [newestAdmissions_eq filled]
  cases holdest : (newestOf admissions).argmin Prod.snd with
  | none =>
    exfalso
    obtain ⟨e, he⟩ := List.exists_mem_of_ne_nil _ nonempty
    have hmem : (e.1, e.2.getLast (filled e he)) ∈ newestOf admissions :=
      mem_newestOf.mpr ⟨e.2, Dict.get?_eq_some.mpr he, List.getLast?_eq_some_getLast _⟩
    rw [List.argmin_eq_none.mp holdest] at hmem
    cases hmem
  | some oldest =>
    refine ⟨admissions.keep fun e => e.1 ≠ oldest.1, ?_, List.filter_sublist, ?_⟩
    · simp only [bind, Except.bind, holdest]
      rfl
    obtain ⟨bucket, hbucket, -⟩ := mem_newestOf.mp (List.argmin_mem holdest)
    refine List.length_filter_lt_length_iff_exists.mpr ⟨(oldest.1, bucket), ?_, by simp⟩
    exact Dict.get?_eq_some.mp hbucket

/-- Room is made for one more key, and no live bucket goes unless too many are live. -/
theorem makeRoom_spec {admissions : Admissions T} (filled : Filled admissions) {maxKeys : Nat}
    (positive : 1 ≤ maxKeys) (cutoff : T) :
    ∃ kept, makeRoom maxKeys admissions cutoff = .ok kept ∧
      kept.rows.Sublist admissions.rows ∧
      (admissions.rows.length ≤ maxKeys → kept.rows.length < maxKeys) ∧
      ((admissions.rows.filter fun e => isLive cutoff e.2).length < maxKeys →
        ∀ e ∈ admissions.rows, isLive cutoff e.2 = true → e ∈ kept.rows) := by
  unfold makeRoom
  rcases Nat.lt_or_ge admissions.rows.length maxKeys with hroom | hfull
  · rw [if_neg (by omega)]
    refine ⟨admissions, if_neg (by omega), List.Sublist.refl _, fun _ => hroom, ?_⟩
    exact fun _ e he _ => he
  · rw [if_pos (by omega), pruneStale_eq filled]
    generalize hkeep : (admissions.keep fun e => isLive cutoff e.2) = pruned
    have hrows : pruned.rows = admissions.rows.filter fun e => isLive cutoff e.2 := by
      rw [← hkeep]
      rfl
    have hpruned : pruned.rows.Sublist admissions.rows := hrows ▸ List.filter_sublist
    have hlive : ∀ e ∈ admissions.rows, isLive cutoff e.2 = true → e ∈ pruned.rows :=
      fun e he h => hrows ▸ List.mem_filter.mpr ⟨he, h⟩
    rcases Nat.lt_or_ge pruned.rows.length maxKeys with hroom | hcrowded
    · refine ⟨pruned, if_neg (by omega), hpruned, fun _ => hroom, fun _ => hlive⟩
    · have hnonempty : pruned.rows ≠ [] := by
        intro hnil
        rw [hnil] at hcrowded
        exact absurd (le_trans positive hcrowded) (by simp)
      have hfilled : Filled pruned := fun e he => filled e (hpruned.subset he)
      obtain ⟨kept, hkept, hsub, hlt⟩ := evictLeastRecent_spec hfilled hnonempty
      have hevict : (if (pruned.rows.length : Int) ≥ maxKeys then evictLeastRecent pruned
          else .ok pruned) = .ok kept := by
        rw [if_pos (by omega), hkept]
      refine ⟨kept, hevict, hsub.trans hpruned, fun hbound => ?_, fun hfew => ?_⟩
      · have hle := hpruned.length_le
        omega
      · rw [← hrows] at hfew
        omega

/-- What a call finds: the bucket of the key, and the buckets of the others. -/
theorem bucketOf_spec {admissions : Admissions T} (filled : Filled admissions) {maxKeys : Nat}
    (positive : 1 ≤ maxKeys) (key : String) (cutoff : T) :
    ∃ kept, bucketOf maxKeys admissions key cutoff
        = .ok ((admissions.get? key).getD [], kept) ∧
      (∀ k bucket, k ≠ key → kept.get? k = some bucket → admissions.get? k = some bucket) ∧
      (key ∈ kept.keys ∧ (admissions.rows.length ≤ maxKeys → kept.rows.length ≤ maxKeys)) ∧
      ((admissions.get? key = none →
          (admissions.rows.filter fun e => isLive cutoff e.2).length < maxKeys) →
        ∀ k bucket, k ≠ key → admissions.get? k = some bucket → isLive cutoff bucket = true →
          kept.get? k = some bucket) := by
  unfold bucketOf
  cases hget : admissions.get? key with
  | some bucket =>
    refine ⟨admissions, rfl, fun _ _ _ h => h, ⟨?_, id⟩, fun _ _ _ _ h _ => h⟩
    exact Dict.mem_keys_iff.mpr ⟨bucket, hget⟩
  | none =>
    obtain ⟨kept, hkept, hsub, hlength, hlive⟩ := makeRoom_spec filled positive cutoff
    refine ⟨kept.set key [], by rw [hkept]; rfl, ?_, ⟨Dict.mem_keys_set.mpr (Or.inr rfl), ?_⟩, ?_⟩
    · intro k bucket hk h
      rw [Dict.get?_set, if_neg hk, Dict.get?_eq_some] at h
      exact Dict.get?_eq_some.mpr (hsub.subset h)
    · intro hbound
      have hroom := hlength hbound
      rw [Dict.length_set]
      split <;> omega
    · intro hfew k bucket hk h hbucket
      rw [Dict.get?_set, if_neg hk, Dict.get?_eq_some]
      exact hlive (hfew rfl) (k, bucket) (Dict.get?_eq_some.mp h) hbucket

/-! ## One call -/

omit [LinearOrder T] in
/-- The caller's bucket after a call is not empty: either the call was admitted, or the
limit was full of others. -/
theorem newBucket_ne_nil {limit : Nat} (positive : 1 ≤ limit) (live : List T) (now : T) :
    (if live.length < limit then live ++ [now] else live) ≠ [] := by
  split
  · exact List.append_ne_nil_of_right_ne_nil live (List.cons_ne_nil now [])
  · next hfull =>
    rintro rfl
    exact hfull positive

omit [LinearOrder T] in
/-- The buckets after a call are the caller's new one and buckets that were there. -/
theorem forall_set_kept {admissions kept : Admissions T} {key : String} {new : List T}
    {P : List T → Prop}
    (hback : ∀ k bucket, k ≠ key → kept.get? k = some bucket → admissions.get? k = some bucket)
    (hold : ∀ e ∈ admissions.rows, P e.2) (hnew : P new) :
    ∀ e ∈ (kept.set key new).rows, P e.2 := by
  intro e he
  have hget := Dict.get?_eq_some.mpr he
  rw [Dict.get?_set] at hget
  split at hget
  · rw [← Option.some.inj hget]
    exact hnew
  · next hkey => exact hold e (Dict.get?_eq_some.mp (hback _ _ hkey hget))

variable [Sub T]

/-- What `allow` does once the bucket has been found. -/
theorem allow_eq {limiter : SlidingWindowLimiter T} {limit : Nat} (positive : 1 ≤ limit)
    {key : String} {windowSeconds now : T} {bucket live : List T} {kept : Admissions T}
    (found : bucketOf limiter.maxKeys limiter.admissions key (now - windowSeconds)
      = .ok (bucket, kept))
    (hlive : bucket.dropWhile (fun t => decide (t ≤ now - windowSeconds)) = live) :
    limiter.allow key limit windowSeconds now =
      .ok (decide (live.length < limit), { limiter with
        admissions := kept.set key (if live.length < limit then live ++ [now] else live) }) := by
  unfold SlidingWindowLimiter.allow
  rw [if_neg (by omega)]
  simp only [found, bind, Except.bind, hlive]
  rcases Nat.lt_or_ge live.length limit with hroom | hfull
  · rw [if_neg (by omega), if_pos hroom, decide_eq_true hroom]
    rfl
  · rw [if_pos (by omega), if_neg (by omega), decide_eq_false (by omega)]
    rfl

end

/-! ## Memory -/

section

variable {T : Type} [LinearOrder T] [Sub T]

/-- There are at most `maxKeys` buckets, and none of them is empty. -/
structure Tracked (maxKeys : Nat) (admissions : Admissions T) : Prop where
  filled : Filled admissions
  keys : admissions.rows.length ≤ maxKeys

/-- A call that counts keeps the buckets tracked: the caller's is what is left of it, with
the new admission if there is room. -/
theorem Tracked.allow {limit maxKeys : Nat} {admissions : Admissions T}
    (h : Tracked maxKeys admissions) (hlimit : 1 ≤ limit) (hkeys : 1 ≤ maxKeys)
    (key : String) (windowSeconds now : T) :
    ∃ (live : List T) (kept : Admissions T), live.Sublist ((admissions.get? key).getD []) ∧
      (∀ k bucket, k ≠ key → kept.get? k = some bucket → admissions.get? k = some bucket) ∧
      SlidingWindowLimiter.allow ⟨maxKeys, admissions⟩ key limit windowSeconds now
        = .ok (decide (live.length < limit),
            ⟨maxKeys, kept.set key (if live.length < limit then live ++ [now] else live)⟩) ∧
      Tracked maxKeys (kept.set key (if live.length < limit then live ++ [now] else live)) := by
  obtain ⟨kept, hfound, hback, ⟨hmem, hlength⟩, -⟩ :=
    bucketOf_spec h.filled hkeys key (now - windowSeconds)
  refine ⟨_, kept, List.dropWhile_sublist _, hback, allow_eq hlimit hfound rfl, ?_, ?_⟩
  · exact forall_set_kept (P := (· ≠ [])) hback h.filled (newBucket_ne_nil hlimit _ now)
  · rw [Dict.length_set, if_pos hmem]
    exact hlength h.keys

/-- What the limiter holds never grows beyond this. -/
structure Bounded (limit maxKeys : Nat) (admissions : Admissions T) : Prop where
  filled : Filled admissions
  keys : admissions.rows.length ≤ maxKeys
  bucket : ∀ e ∈ admissions.rows, e.2.length ≤ limit

theorem Bounded.allow {limit maxKeys : Nat} {admissions : Admissions T}
    (h : Bounded limit maxKeys admissions) (hlimit : 1 ≤ limit) (hkeys : 1 ≤ maxKeys)
    (key : String) (windowSeconds now : T) :
    ∃ admitted after, SlidingWindowLimiter.allow ⟨maxKeys, admissions⟩ key limit windowSeconds now
        = .ok (admitted, ⟨maxKeys, after⟩) ∧ Bounded limit maxKeys after := by
  obtain ⟨live, kept, hlive, hback, hallow, htracked⟩ :=
    Tracked.allow ⟨h.filled, h.keys⟩ hlimit hkeys key windowSeconds now
  have hbucket : ((admissions.get? key).getD []).length ≤ limit := by
    cases hget : admissions.get? key with
    | none => exact Nat.zero_le limit
    | some bucket => exact h.bucket (key, bucket) (Dict.get?_eq_some.mp hget)
  have hnew : (if live.length < limit then live ++ [now] else live).length ≤ limit := by
    split
    · next hroom =>
      rw [List.length_append]
      exact hroom
    · exact hlive.length_le.trans hbucket
  refine ⟨_, _, hallow, htracked.filled, htracked.keys, ?_⟩
  exact forall_set_kept (P := (·.length ≤ limit)) hback h.bucket hnew

theorem Bounded.outcomes {limit maxKeys : Nat} {admissions : Admissions T}
    (h : Bounded limit maxKeys admissions) (hlimit : 1 ≤ limit) (hkeys : 1 ≤ maxKeys)
    (windowSeconds : T) (calls : List (String × T)) :
    ∃ results, SlidingWindowLimiter.outcomes ⟨maxKeys, admissions⟩ limit windowSeconds calls
        = .ok results ∧ results.map Prod.fst = calls := by
  induction calls generalizing admissions with
  | nil => exact ⟨[], rfl, rfl⟩
  | cons call rest ih =>
    obtain ⟨admitted, after, hallow, hafter⟩ := h.allow hlimit hkeys call.1 windowSeconds call.2
    obtain ⟨results, hresults, hcalls⟩ := ih hafter
    refine ⟨(call, admitted) :: results, ?_, by rw [List.map_cons, hcalls]⟩
    simp only [SlidingWindowLimiter.outcomes, hallow, bind, Except.bind, hresults]
    rfl

end

/-! ## The limiter and the log -/

section

open WindowLog

variable {T : Type} [LinearOrder T] [Sub T]

/-- Every bucket holds the admissions of its key, up to those that have left the window. -/
structure Mirrors (windowSeconds now : T) (admissions : Admissions T)
    (log : List (String × T)) : Prop where
  filled : Filled admissions
  recent (key : String) : ∃ forgotten,
    times key log = forgotten ++ (admissions.get? key).getD [] ∧
      ∀ t ∈ forgotten, t ≤ now - windowSeconds
  sorted : log.Pairwise fun c d => c.2 ≤ d.2
  past : ∀ e ∈ log, e.2 ≤ now

namespace Mirrors

variable {windowSeconds now : T} {admissions : Admissions T} {log : List (String × T)}

theorem empty (windowSeconds now : T) : Mirrors windowSeconds now Table.empty [] where
  filled := fun _ h => nomatch h
  recent _ := ⟨[], rfl, fun _ h => nomatch h⟩
  sorted := List.Pairwise.nil
  past := fun _ h => nomatch h

/-- The window only moves on. -/
theorem later (h : Mirrors windowSeconds now admissions log) {now' : T} (hle : now ≤ now')
    (hcutoff : now - windowSeconds ≤ now' - windowSeconds) :
    Mirrors windowSeconds now' admissions log where
  filled := h.filled
  recent key := by
    obtain ⟨forgotten, hsplit, hold⟩ := h.recent key
    exact ⟨forgotten, hsplit, fun t ht => (hold t ht).trans hcutoff⟩
  sorted := h.sorted
  past e he := (h.past e he).trans hle

theorem bucket_sorted (h : Mirrors windowSeconds now admissions log) (key : String) :
    ((admissions.get? key).getD []).Pairwise (· ≤ ·) ∧
      ∀ t ∈ (admissions.get? key).getD [], (key, t) ∈ log := by
  obtain ⟨forgotten, hsplit, -⟩ := h.recent key
  have hsorted := pairwise_times key h.sorted
  rw [hsplit] at hsorted
  refine ⟨(List.pairwise_append.mp hsorted).2.1, fun t ht => ?_⟩
  rw [← mem_times, hsplit]
  exact List.mem_append_right _ ht

/-- The window of the key is what is left of its bucket. -/
theorem inWindow_eq (h : Mirrors windowSeconds now admissions log) (key : String) :
    inWindow (now - windowSeconds) now (times key log) =
      ((admissions.get? key).getD []).dropWhile fun t => decide (t ≤ now - windowSeconds) := by
  obtain ⟨forgotten, hsplit, hold⟩ := h.recent key
  obtain ⟨hsorted, hmem⟩ := h.bucket_sorted key
  rw [hsplit]
  exact inWindow_eq_dropWhile hsorted (fun t ht => h.past _ (hmem t ht)) hold

/-- A bucket whose newest admission has left the window can go. -/
theorem stale (h : Mirrors windowSeconds now admissions log) {key : String} {bucket : List T}
    (hget : admissions.get? key = some bucket)
    (hdead : isLive (now - windowSeconds) bucket = false) :
    ∀ t ∈ bucket, t ≤ now - windowSeconds := by
  obtain ⟨hsorted, -⟩ := h.bucket_sorted key
  rw [hget, Option.getD_some] at hsorted
  intro t ht
  have hnonempty : bucket ≠ [] := List.ne_nil_of_mem ht
  rw [isLive, List.getLast?_eq_some_getLast hnonempty, Option.any_some, decide_eq_false_iff_not,
    not_lt] at hdead
  exact (hsorted.rel_getLast ht).trans hdead

/-- A key without a bucket leaves room for its own among the live ones. -/
theorem live_lt (h : Mirrors windowSeconds now admissions log) {key : String} {maxKeys : Nat}
    (few : (liveKeys (· - windowSeconds) log (key, now)).length ≤ maxKeys)
    (hget : admissions.get? key = none) :
    (admissions.rows.filter fun e => isLive (now - windowSeconds) e.2).length < maxKeys := by
  let live := (admissions.rows.filter fun e => isLive (now - windowSeconds) e.2).map Prod.fst
  have hnodup : (key :: live).Nodup := by
    refine List.nodup_cons.mpr ⟨fun hmem => ?_,
      admissions.nodup_keys.sublist (List.filter_sublist.map _)⟩
    obtain ⟨e, he, rfl⟩ := List.mem_map.mp hmem
    exact Dict.get?_eq_none.mp hget (Table.key_mem_keys (List.mem_filter.mp he).1)
  have hsubset : key :: live ⊆ liveKeys (· - windowSeconds) log (key, now) := by
    refine List.cons_subset.mpr ⟨mem_liveKeys.mpr (Or.inl rfl), fun k hk => ?_⟩
    obtain ⟨e, he, rfl⟩ := List.mem_map.mp hk
    obtain ⟨hrow, hlive⟩ := List.mem_filter.mp he
    have hbucket : admissions.get? e.1 = some e.2 := Dict.get?_eq_some.mpr hrow
    have hlast := List.getLast?_eq_some_getLast (h.filled e hrow)
    rw [isLive, hlast, Option.any_some, decide_eq_true_eq] at hlive
    obtain ⟨-, hmem⟩ := h.bucket_sorted e.1
    rw [hbucket] at hmem
    have hlog := hmem _ (List.getLast_mem (h.filled e hrow))
    exact mem_liveKeys.mpr (Or.inr ⟨_, hlog, hlive, h.past _ hlog⟩)
  have hle := (List.subperm_of_subset hnodup hsubset).length_le
  rw [List.length_cons, List.length_map] at hle
  omega

/-- What another key's calls leave of a bucket. -/
theorem recent_other (h : Mirrors windowSeconds now admissions log) {kept : Admissions T}
    {key : String}
    (hback : ∀ bucket, kept.get? key = some bucket → admissions.get? key = some bucket)
    (hlive : ∀ bucket, admissions.get? key = some bucket →
      isLive (now - windowSeconds) bucket = true → kept.get? key = some bucket) :
    ∃ forgotten, times key log = forgotten ++ (kept.get? key).getD [] ∧
      ∀ t ∈ forgotten, t ≤ now - windowSeconds := by
  obtain ⟨forgotten, hsplit, hold⟩ := h.recent key
  cases hkept : kept.get? key with
  | some bucket =>
    rw [hback bucket hkept] at hsplit
    exact ⟨forgotten, hsplit, hold⟩
  | none =>
    cases hget : admissions.get? key with
    | none =>
      rw [hget] at hsplit
      exact ⟨forgotten, hsplit, hold⟩
    | some bucket =>
      rw [hget] at hsplit
      have hdead : isLive (now - windowSeconds) bucket = false := by
        cases hbucket : isLive (now - windowSeconds) bucket with
        | false => rfl
        | true =>
          rw [hlive bucket hget hbucket] at hkept
          cases hkept
      refine ⟨forgotten ++ bucket, by simpa using hsplit, fun t ht => ?_⟩
      rcases List.mem_append.mp ht with ht | ht
      · exact hold t ht
      · exact h.stale hget hdead t ht

/-- What the caller's bucket is cut down to. -/
theorem recent_self (h : Mirrors windowSeconds now admissions log) (key : String) :
    ∃ forgotten, times key log
        = forgotten ++ inWindow (now - windowSeconds) now (times key log) ∧
      ∀ t ∈ forgotten, t ≤ now - windowSeconds := by
  obtain ⟨forgotten, hsplit, hold⟩ := h.recent key
  refine ⟨forgotten ++ ((admissions.get? key).getD []).takeWhile
    fun t => decide (t ≤ now - windowSeconds), ?_, fun t ht => ?_⟩
  · rw [h.inWindow_eq, List.append_assoc, List.takeWhile_append_dropWhile, hsplit]
  · rcases List.mem_append.mp ht with ht | ht
    · exact hold t ht
    · have hdropped := List.mem_takeWhile_imp ht
      exact of_decide_eq_true hdropped

/-- The limiter answers as the ideal one, and mirrors its log afterwards. -/
theorem allow (h : Mirrors windowSeconds now admissions log) {limit maxKeys : Nat}
    (hlimit : 1 ≤ limit) (hkeys : 1 ≤ maxKeys) {key : String}
    (few : (liveKeys (· - windowSeconds) log (key, now)).length ≤ maxKeys) :
    ∃ after, SlidingWindowLimiter.allow ⟨maxKeys, admissions⟩ key limit windowSeconds now
        = .ok (admits limit (· - windowSeconds) log (key, now), ⟨maxKeys, after⟩) ∧
      Mirrors windowSeconds now after (record limit (· - windowSeconds) log (key, now)) := by
  obtain ⟨kept, hfound, hback, -, hlive⟩ :=
    bucketOf_spec h.filled hkeys key (now - windowSeconds)
  have hlive := hlive fun hget => h.live_lt few hget
  have hwindow := h.inWindow_eq key
  have hadmits : admits limit (· - windowSeconds) log (key, now)
      = decide ((inWindow (now - windowSeconds) now (times key log)).length < limit) := rfl
  have hallow : SlidingWindowLimiter.allow ⟨maxKeys, admissions⟩ key limit windowSeconds now = _ :=
    allow_eq hlimit hfound hwindow.symm
  refine ⟨_, by rw [hallow, hadmits], ?_, fun k => ?_, ?_, fun e he => ?_⟩
  · exact forall_set_kept (P := (· ≠ [])) hback h.filled (newBucket_ne_nil hlimit _ now)
  · rw [Dict.get?_set]
    rcases Classical.em (k = key) with rfl | hkey
    · obtain ⟨forgotten, hsplit, hold⟩ := h.recent_self k
      refine ⟨forgotten, ?_, hold⟩
      rw [if_pos rfl, Option.getD_some, times_record]
      cases hadmitted : admits limit (· - windowSeconds) log (k, now) with
      | true =>
        rw [if_pos ⟨rfl, rfl⟩, if_pos (admits_iff.mp hadmitted), ← List.append_assoc, ← hsplit]
      | false =>
        have hfull : ¬ (inWindow (now - windowSeconds) now (times k log)).length < limit := by
          intro hroom
          rw [admits_iff.mpr hroom] at hadmitted
          cases hadmitted
        rw [if_neg (by simp), if_neg hfull, ← hsplit]
    · rw [if_neg hkey, times_record, if_neg (fun hadmitted => hkey hadmitted.1.symm)]
      exact h.recent_other (fun bucket => hback k bucket hkey) (fun bucket => hlive k bucket hkey)
  · unfold record
    split
    · refine List.pairwise_append.mpr ⟨h.sorted, List.pairwise_singleton _ _, ?_⟩
      intro e he call hcall
      rw [List.mem_singleton.mp hcall]
      exact h.past e he
    · exact h.sorted
  · rcases mem_record he with he | rfl
    · exact h.past e he
    · exact le_refl now

theorem outcomes (h : Mirrors windowSeconds now admissions log)
    (mono : ∀ {s t : T}, s ≤ t → s - windowSeconds ≤ t - windowSeconds)
    {limit maxKeys : Nat} (hlimit : 1 ≤ limit) (hkeys : 1 ≤ maxKeys)
    {calls : List (String × T)} (clock : calls.Pairwise fun c d => c.2 ≤ d.2)
    (hnow : ∀ c ∈ calls, now ≤ c.2)
    (few : History.Along (record limit (· - windowSeconds))
      (fun log call => (liveKeys (· - windowSeconds) log call).length ≤ maxKeys) log calls) :
    SlidingWindowLimiter.outcomes ⟨maxKeys, admissions⟩ limit windowSeconds calls
      = .ok (WindowLog.outcomes limit (· - windowSeconds) log calls) := by
  induction calls generalizing now admissions log with
  | nil => rfl
  | cons call rest ih =>
    obtain ⟨hfirst, hrest⟩ := List.pairwise_cons.mp clock
    obtain ⟨hfew, hfewRest⟩ := few
    have hle : now ≤ call.2 := hnow call List.mem_cons_self
    obtain ⟨after, hallow, hafter⟩ := (h.later hle (mono hle)).allow hlimit hkeys hfew
    have hresults := ih hafter hrest hfirst hfewRest
    simp only [SlidingWindowLimiter.outcomes, hallow, bind, Except.bind, hresults]
    rfl

end Mirrors

end

/-! ## The refinement -/

section

open WindowLog

/-- At every call no more than `maxKeys` keys have an admission in the window, the caller
counted in. -/
def FewKeys {T : Type} [LinearOrder T] [Sub T] (limit maxKeys : Nat) (windowSeconds : T)
    (calls : List (String × T)) : Prop :=
  History.Along (record limit (· - windowSeconds))
    (fun log call => (liveKeys (· - windowSeconds) log call).length ≤ maxKeys) [] calls

instance {T : Type} [LinearOrder T] [Sub T] (limit maxKeys : Nat) (windowSeconds : T)
    (calls : List (String × T)) : Decidable (FewKeys limit maxKeys windowSeconds calls) :=
  inferInstanceAs (Decidable (History.Along _ _ _ _))

/-- One key alone always has room. -/
theorem fewKeys_of_one {T : Type} [LinearOrder T] [Sub T] {limit maxKeys : Nat}
    {windowSeconds : T} (hkeys : 1 ≤ maxKeys) {key : String} {calls : List (String × T)}
    (one : ∀ c ∈ calls, c.1 = key) :
    FewKeys limit maxKeys windowSeconds calls := by
  have hone : ∀ log : List (String × T), (∀ e ∈ log, e.1 = key) →
      History.Along (record limit (· - windowSeconds))
        (fun log call => (liveKeys (· - windowSeconds) log call).length ≤ maxKeys) log calls := by
    induction calls with
    | nil => exact fun _ _ => trivial
    | cons call rest ih =>
      intro log hlog
      obtain ⟨hcall, hrest⟩ := List.forall_mem_cons.mp one
      refine ⟨?_, ih hrest _ fun e he => ?_⟩
      · have hsubset : liveKeys (· - windowSeconds) log call ⊆ [key] := by
          intro k hk
          rcases mem_liveKeys.mp hk with rfl | ⟨t, hmem, -⟩
          · exact List.mem_singleton.mpr hcall
          · exact List.mem_singleton.mpr (hlog _ hmem)
        exact ((List.subperm_of_subset (List.nodup_dedup _) hsubset).length_le).trans hkeys
      · rcases mem_record he with he | rfl
        · exact hlog e he
        · exact hcall
  exact hone [] fun _ h => nomatch h

variable {T : Type} [LinearOrder T] [Sub T]

theorem outcomes_of_fewKeys {limit maxKeys : Nat} {windowSeconds : T}
    (mono : Monotone fun t : T => t - windowSeconds) (hlimit : 1 ≤ limit)
    (hkeys : 1 ≤ maxKeys) {calls : List (String × T)} (clock : calls.Pairwise fun c d => c.2 ≤ d.2)
    (few : FewKeys limit maxKeys windowSeconds calls) :
    SlidingWindowLimiter.outcomes ⟨maxKeys, Table.empty⟩ limit windowSeconds calls
      = .ok (outcomes limit (· - windowSeconds) [] calls) := by
  cases calls with
  | nil => rfl
  | cons call rest =>
    refine (Mirrors.empty windowSeconds call.2).outcomes (fun h => mono h) hlimit
      hkeys clock (fun c hc => ?_) few
    rcases List.mem_cons.mp hc with rfl | hc
    · exact le_refl _
    · exact (List.pairwise_cons.mp clock).1 c hc

/-- While the clock does not go back and no more than `maxKeys` keys are live at any call, the
limiter answers like the ideal one that forgets nothing. So no key is admitted more than `limit`
times within the window that ends at an instant `t`, nor in one of that length that begins at `t`,
on whichever side it is open; and a key is answered as if it were the only one. -/
theorem limiter_refines_ideal {limit maxKeys : Nat} {windowSeconds : T}
    (mono : Monotone fun t : T => t - windowSeconds) (hlimit : 1 ≤ limit)
    (hkeys : 1 ≤ maxKeys) {calls : List (String × T)} (clock : calls.Pairwise fun c d => c.2 ≤ d.2)
    (few : FewKeys limit maxKeys windowSeconds calls) :
    ∃ results, SlidingWindowLimiter.outcomes ⟨maxKeys, Table.empty⟩ limit windowSeconds calls
        = .ok results ∧
      results = outcomes limit (· - windowSeconds) [] calls ∧
      (∀ key t,
        ((times key (admitted results)).filter fun s => t - windowSeconds < s ∧ s ≤ t).length
            ≤ limit ∧
          ((times key (admitted results)).filter fun s => t < s ∧ s - windowSeconds ≤ t).length
            ≤ limit ∧
          ((times key (admitted results)).filter fun s => t ≤ s ∧ s - windowSeconds < t).length
            ≤ limit) ∧
      ∀ key, SlidingWindowLimiter.outcomes ⟨maxKeys, Table.empty⟩ limit windowSeconds
          (calls.filter fun call => call.1 = key)
        = .ok (results.filter fun result => result.1.1 = key) := by
  refine ⟨_, outcomes_of_fewKeys mono hlimit hkeys clock few, rfl,
    fun key t => ⟨?_, ?_, ?_⟩, fun key => ?_⟩
  · refine length_le_limit clock key fun s s' hs hs' => ?_
    simp only [decide_eq_true_eq] at hs hs'
    exact (mono hs'.2).trans_lt hs.1
  · refine length_le_limit clock key fun s s' hs hs' => ?_
    simp only [decide_eq_true_eq] at hs hs'
    exact hs'.2.trans_lt hs.1
  · refine length_le_limit clock key fun s s' hs hs' => ?_
    simp only [decide_eq_true_eq] at hs hs'
    exact hs'.2.trans_le hs.1
  · have hone : ∀ c ∈ calls.filter (fun call => decide (call.1 = key)), c.1 = key :=
      fun c hc => of_decide_eq_true (List.mem_filter.mp hc).2
    rw [outcomes_of_fewKeys mono hlimit hkeys (clock.filter _) (fewKeys_of_one hkeys hone)]
    exact congrArg Except.ok (outcomes_filter key rfl calls).symm

/-- Of two buckets the stale one makes way for a third key. -/
theorem limiter_refines_ideal_pruned :
    SlidingWindowLimiter.outcomes ⟨2, Table.empty⟩ 2 (60 : Int)
        [("a", 0), ("a", 10), ("a", 20), ("b", 30), ("c", 75), ("a", 90)]
      = .ok [(("a", 0), true), (("a", 10), true), (("a", 20), false), (("b", 30), true),
          (("c", 75), true), (("a", 90), true)] := by
  have few : FewKeys 2 2 (60 : Int)
      [("a", 0), ("a", 10), ("a", 20), ("b", 30), ("c", 75), ("a", 90)] := by decide
  obtain ⟨results, hresults, hideal, -⟩ :=
    limiter_refines_ideal (fun _ _ h => Int.sub_le_sub_right h 60) (by decide) (by decide)
      (by decide) few
  refine hresults.trans (congrArg Except.ok ?_)
  rw [hideal]
  decide

end

end LavsCore
