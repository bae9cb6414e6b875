import LavsCore.Security.SlidingWindowLimiter

/-!
# The memory of the limiter

The middleware reads its settings anew for every request, so limit and window may change
from call to call. `limiter_tracks`: whatever is called, at most `maxKeys` keys have a
bucket, no bucket is empty, and no call raises.
-/

namespace LavsCore

variable {T : Type} [LinearOrder T] [Sub T]

/-- A call of `allow`, with the reading of the clock. -/
structure LimiterCall (T : Type) where
  key : String
  limit : Int
  windowSeconds : T
  now : T

/-- The answers to a run of calls, and the limiter afterwards. -/
def SlidingWindowLimiter.serve (limiter : SlidingWindowLimiter T) :
    List (LimiterCall T) → Except ApiError (List Bool × SlidingWindowLimiter T)
  | [] => .ok ([], limiter)
  | call :: rest => do
    let (admitted, limiter) ← limiter.allow call.key call.limit call.windowSeconds call.now
    let (answers, limiter) ← limiter.serve rest
    return (admitted :: answers, limiter)

namespace LimiterMemoryLemmas

variable {maxKeys : Nat} {admissions : Admissions T}

/-- Whatever the limit, a call answers and keeps the buckets tracked. -/
theorem tracked_allow (h : Tracked maxKeys admissions) (hkeys : 1 ≤ maxKeys)
    (call : LimiterCall T) :
    ∃ admitted after, SlidingWindowLimiter.allow ⟨maxKeys, admissions⟩ call.key call.limit
        call.windowSeconds call.now = .ok (admitted, ⟨maxKeys, after⟩) ∧ Tracked maxKeys after := by
  rcases le_or_gt call.limit 0 with hoff | hon
  · exact ⟨true, admissions, if_pos hoff, h⟩
  · obtain ⟨limit, hlimit⟩ := Int.eq_ofNat_of_zero_le (Int.le_of_lt hon)
    rw [hlimit] at hon ⊢
    obtain ⟨live, kept, -, -, hallow, htracked⟩ :=
      h.allow (Int.ofNat_lt.mp hon) hkeys call.key call.windowSeconds call.now
    exact ⟨_, _, hallow, htracked⟩

theorem tracked_serve (h : Tracked maxKeys admissions) (hkeys : 1 ≤ maxKeys)
    (calls : List (LimiterCall T)) :
    ∃ answers after, SlidingWindowLimiter.serve ⟨maxKeys, admissions⟩ calls
        = .ok (answers, ⟨maxKeys, after⟩) ∧ Tracked maxKeys after := by
  induction calls generalizing admissions with
  | nil => exact ⟨[], admissions, rfl, h⟩
  | cons call rest ih =>
    obtain ⟨admitted, next, hallow, hnext⟩ := tracked_allow h hkeys call
    obtain ⟨answers, after, hserve, hafter⟩ := ih hnext
    refine ⟨admitted :: answers, after, ?_, hafter⟩
    simp only [SlidingWindowLimiter.serve, hallow, bind, Except.bind, hserve]
    rfl

end LimiterMemoryLemmas

open LimiterMemoryLemmas

/-- Whatever calls are made, with limits and windows that change and a clock that goes back, no
call raises, at most `maxKeys` keys are tracked, and none of them without an admission. -/
theorem limiter_tracks {maxKeys : Nat} (hkeys : 1 ≤ maxKeys) (calls : List (LimiterCall T)) :
    ∃ answers limiter,
      SlidingWindowLimiter.serve ⟨maxKeys, Table.empty⟩ calls = .ok (answers, limiter) ∧
        limiter.admissions.rows.length ≤ maxKeys ∧
        ∀ e ∈ limiter.admissions.rows, e.2 ≠ [] ∧ ∃ newest, newestAdmission e.2 = .ok newest := by
  have hempty : Tracked maxKeys (Table.empty : Admissions T) :=
    ⟨fun e he => absurd he List.not_mem_nil, Nat.zero_le maxKeys⟩
  obtain ⟨answers, after, hserve, htracked⟩ := tracked_serve hempty hkeys calls
  refine ⟨answers, _, hserve, htracked.keys, fun e he => ⟨htracked.filled e he, ?_⟩⟩
  refine ⟨e.2.getLast (htracked.filled e he), ?_⟩
  rw [newestAdmission, List.getLast?_eq_some_getLast (htracked.filled e he)]

/-- Two keys come and go under limits and windows that change, and a clock that goes back. -/
theorem limiter_tracks_changing :
    ∃ answers limiter,
      SlidingWindowLimiter.serve ⟨1, Table.empty⟩ [⟨"a", 2, (60 : Int), 10⟩, ⟨"a", 1, 60, 20⟩,
        ⟨"a", 0, 60, 20⟩, ⟨"b", 1, 5, 40⟩, ⟨"b", 3, -5, 0⟩, ⟨"a", 1, 60, 30⟩] =
          .ok (answers, limiter) ∧ limiter.admissions.rows.length ≤ 1 := by
  obtain ⟨answers, limiter, hserve, hkeys, -⟩ := limiter_tracks (Nat.le_refl 1)
    [⟨"a", 2, (60 : Int), 10⟩, ⟨"a", 1, 60, 20⟩, ⟨"a", 0, 60, 20⟩, ⟨"b", 1, 5, 40⟩,
      ⟨"b", 3, -5, 0⟩, ⟨"a", 1, 60, 30⟩]
  exact ⟨answers, limiter, hserve, hkeys⟩

end LavsCore
