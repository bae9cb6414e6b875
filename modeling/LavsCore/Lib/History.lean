import Mathlib.Data.List.Induction

/-!
# Runs and their histories

A deterministic system takes events one after another: `History.run` folds its step
function over them. An invariant may speak of the events as well as of the state; it is
proved from the end of the history (`run_induction`).

`Along` asks a condition of every event; what the events that meet it keep holds at the end
(`run_invariant_of_along`). `Since` is the past operator of temporal logic: an opening event
happened, and no closing event since. One more event changes it as `since_append` says.
-/

namespace History

variable {S E : Type} (step : S → E → S)

/-- The state after a list of events. -/
def run (s : S) (events : List E) : S := events.foldl step s

@[simp] theorem run_nil (s : S) : run step s [] = s := rfl

@[simp] theorem run_cons (s : S) (e : E) (rest : List E) :
    run step s (e :: rest) = run step (step s e) rest := rfl

@[simp] theorem run_append (s : S) (before after : List E) :
    run step s (before ++ after) = run step (run step s before) after :=
  List.foldl_append

/-- What holds of the start and the empty history, and is handed on by each event, holds
of every history and the state it leads to. -/
theorem run_induction {R : List E → S → Prop} {s : S} (hnil : R [] s)
    (hstep : ∀ events e, R events (run step s events) →
      R (events ++ [e]) (step (run step s events) e))
    (events : List E) : R events (run step s events) := by
  induction events using List.reverseRecOn with
  | nil => exact hnil
  | append_singleton events e ih =>
    rw [run_append]
    exact hstep events e ih

/-- An invariant of the state alone, kept by the events of a run. -/
theorem run_invariant {J : S → Prop} {s : S} (hinv : J s) {events : List E}
    (hstep : ∀ s, ∀ e ∈ events, J s → J (step s e)) : J (run step s events) := by
  induction events generalizing s with
  | nil => exact hinv
  | cons e rest ih =>
    refine ih (hstep s e List.mem_cons_self hinv) ?_
    exact fun s e' he' => hstep s e' (List.mem_cons_of_mem e he')

/-- The condition `ok` holds of every event, in the state it is taken in. -/
def Along (ok : S → E → Prop) : S → List E → Prop
  | _, [] => True
  | s, e :: rest => ok s e ∧ Along ok (step s e) rest

instance decidableAlong {ok : S → E → Prop} [∀ s e, Decidable (ok s e)] :
    (s : S) → (events : List E) → Decidable (Along step ok s events)
  | _, [] => isTrue trivial
  | s, e :: rest =>
    have : Decidable (Along step ok (step s e) rest) := decidableAlong (step s e) rest
    inferInstanceAs (Decidable (_ ∧ _))

/-- An event that opens happened, in the state it was taken in, and none that closes has
happened since. -/
def Since (opens : S → E → Prop) (closes : E → Prop) (s : S) (events : List E) : Prop :=
  ∃ before e after, events = before ++ e :: after ∧ opens (run step s before) e ∧
    ∀ e' ∈ after, ¬ closes e'

variable {step} {opens : S → E → Prop} {closes : E → Prop} {s : S}

theorem along_append {ok : S → E → Prop} {before after : List E} :
    Along step ok s (before ++ after) ↔
      Along step ok s before ∧ Along step ok (run step s before) after := by
  induction before generalizing s with
  | nil => simp [Along]
  | cons e rest ih => simp [Along, ih, and_assoc]

/-- An invariant that the events that meet the condition keep. -/
theorem run_invariant_of_along {J : S → Prop} {ok : S → E → Prop} {events : List E} (hinv : J s)
    (hstep : ∀ s e, ok s e → J s → J (step s e)) (h : Along step ok s events) :
    J (run step s events) := by
  induction events generalizing s with
  | nil => exact hinv
  | cons e rest ih => exact ih (hstep s e h.1 hinv) h.2

/-- A property that an event keeps exactly if the condition holds of it. The invariant `J` says
what more is kept on the way. -/
theorem along_iff_prefixes {J P : S → Prop} {ok : S → E → Prop} {events : List E} (hinv : J s)
    (hholds : ∀ s, J s → P s) (hkeeps : ∀ s e, ok s e → J s → J (step s e))
    (hneeds : ∀ s e, J s → P (step s e) → ok s e) :
    (∀ before, before <+: events → P (run step s before)) ↔ Along step ok s events := by
  constructor
  · intro h
    induction events generalizing s with
    | nil => trivial
    | cons e rest ih =>
      have hok : ok s e := hneeds s e hinv (h [e] ⟨rest, rfl⟩)
      refine ⟨hok, ih (hkeeps s e hok hinv) fun before hbefore => ?_⟩
      exact h (e :: before) (List.cons_prefix_cons.mpr ⟨rfl, hbefore⟩)
  · rintro h before ⟨after, rfl⟩
    exact hholds _ (run_invariant_of_along hinv hkeeps (along_append.mp h).1)

/-- A list is split at its last element or before it. -/
theorem append_singleton_eq_append_cons {α : Type} {xs before after : List α} {x y : α} :
    xs ++ [x] = before ++ y :: after ↔
      xs = before ∧ x = y ∧ after = [] ∨ ∃ rest, xs = before ++ y :: rest ∧ after = rest ++ [x] := by
  constructor
  · intro h
    rcases List.eq_nil_or_concat after with rfl | ⟨rest, z, rfl⟩
    · obtain ⟨rfl, hlast⟩ := List.append_inj' h rfl
      exact Or.inl ⟨rfl, List.singleton_inj.mp hlast, rfl⟩
    · rw [List.concat_eq_append, ← List.cons_append, ← List.append_assoc] at h
      obtain ⟨rfl, hlast⟩ := List.append_inj' h rfl
      rw [List.singleton_inj.mp hlast]
      exact Or.inr ⟨rest, rfl, List.concat_eq_append⟩
  · rintro (⟨rfl, rfl, rfl⟩ | ⟨rest, rfl, rfl⟩)
    · rfl
    · rw [List.append_assoc, List.cons_append]

theorem not_since_nil : ¬ Since step opens closes s [] := by
  rintro ⟨before, e, after, h, _⟩
  simp at h

/-- One more event: it opens, or it does not close what was open. -/
theorem since_append {events : List E} {e : E} :
    Since step opens closes s (events ++ [e]) ↔
      (Since step opens closes s events ∧ ¬ closes e) ∨ opens (run step s events) e := by
  constructor
  · rintro ⟨before, e₀, after, heq, hopens, hafter⟩
    rcases append_singleton_eq_append_cons.mp heq with ⟨rfl, rfl, rfl⟩ | ⟨rest, rfl, rfl⟩
    · exact Or.inr hopens
    · refine Or.inl ⟨⟨before, e₀, rest, rfl, hopens, ?_⟩, ?_⟩
      · exact fun e' he' => hafter e' (List.mem_append_left _ he')
      · exact hafter e (List.mem_append_right _ List.mem_cons_self)
  · rintro (⟨⟨before, e₀, after, rfl, hopens, hafter⟩, hnot⟩ | hopens)
    · refine ⟨before, e₀, after ++ [e], by simp, hopens, ?_⟩
      intro e' he'
      rcases List.mem_append.mp he' with he' | he'
      · exact hafter e' he'
      · exact List.mem_singleton.mp he' ▸ hnot
    · exact ⟨events, e, [], rfl, hopens, by simp⟩

/-- Where every key is minted once, an event is fixed by a key that it mints. -/
theorem split_unique {κ : Type} {minted : E → List κ} {k : κ} {before before' after after' : List E}
    {e e' : E} (heq : before ++ e :: after = before' ++ e' :: after')
    (hnodup : ((before ++ e :: after).flatMap minted).Nodup) (hk : k ∈ minted e)
    (hk' : k ∈ minted e') : before = before' ∧ e = e' := by
  induction before generalizing before' with
  | nil =>
    cases before' with
    | nil =>
      cases heq
      exact ⟨rfl, rfl⟩
    | cons x before' =>
      cases heq
      -- The key is minted by the first event and again later.
      rw [List.nil_append, List.flatMap_cons, List.nodup_append] at hnodup
      exact absurd rfl (hnodup.2.2 k hk k (List.mem_flatMap.mpr ⟨e', by simp, hk'⟩))
  | cons x before ih =>
    cases before' with
    | nil =>
      cases heq
      rw [List.cons_append, List.flatMap_cons, List.nodup_append] at hnodup
      exact absurd rfl (hnodup.2.2 k hk' k (List.mem_flatMap.mpr ⟨e, by simp, hk⟩))
    | cons x' before' =>
      obtain ⟨rfl, hrest⟩ := List.cons.inj heq
      rw [List.cons_append, List.flatMap_cons, List.nodup_append] at hnodup
      obtain ⟨rfl, rfl⟩ := ih hrest hnodup.2.1
      exact ⟨rfl, rfl⟩

end History
