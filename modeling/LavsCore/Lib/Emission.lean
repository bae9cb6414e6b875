import LavsCore.Lib.RelyGuarantee

/-!
# What programs emit

A part of the shared state is a log that every step only appends to. `Prog.Emits` says, in the way
of rely and guarantee, what a program has appended itself by the time it ends; it is checked along
the program, and the steps that append nothing are skipped at once (`emits_steps_bind`).

In every interleaving the log is then a shuffle of what the programs have emitted
(`Config.exec_emits`): each entry is that of one program, in the order of its own entries.
-/

namespace Prog

variable {L σ ε α β ι : Type}

/-- From the state `s` on, in surroundings that stay within `R`, the steps of the program stay
within `R` and append to the log, and when it ends `post` holds of all that it has appended. The
list `emitted` is what it has appended so far. -/
def Emits (R : σ → σ → Prop) (log : σ → List ι) (post : Except ε α → List ι → σ → Prop) :
    Prog L σ ε α → List ι → σ → Prop
  | .done r, emitted, s => ∀ s', R s s' → post r emitted s'
  | .step _ next cont, emitted, s => ∀ s', R s s' → R s' (next s') ∧
    ∃ new, log (next s') = log s' ++ new ∧ (cont s').Emits R log post (emitted ++ new) (next s')

variable {R : σ → σ → Prop} {log : σ → List ι} {post : Except ε α → List ι → σ → Prop}
  {emitted : List ι} {s : σ}

theorem Emits.later [IsTrans σ R] {p : Prog L σ ε α} {s' : σ} (h : p.Emits R log post emitted s)
    (hs : R s s') : p.Emits R log post emitted s' := by
  cases p with
  | done r => exact fun s'' hs' => h s'' (trans_of R hs hs')
  | step l next cont => exact fun s'' hs' => h s'' (trans_of R hs hs')

/-- Alone, the program comes to an end with at least what it has emitted so far. -/
theorem Emits.exists_end [Std.Refl R] {p : Prog L σ ε α} (h : p.Emits R log post emitted s) :
    ∃ r emitted' s', emitted <+: emitted' ∧ post r emitted' s' := by
  induction p generalizing emitted s with
  | done r => exact ⟨r, emitted, s, List.prefix_refl _, h s (refl_of R s)⟩
  | step l next cont ih =>
    obtain ⟨-, new, -, hrest⟩ := h s (refl_of R s)
    obtain ⟨r, emitted', s', hprefix, hpost⟩ := ih s hrest
    exact ⟨r, emitted', s', (List.prefix_append _ _).trans hprefix, hpost⟩

theorem Emits.mono {post' : Except ε α → List ι → σ → Prop} {p : Prog L σ ε α}
    (h : p.Emits R log post emitted s)
    (hpost : ∀ r emitted' s', post r emitted' s' → post' r emitted' s') :
    p.Emits R log post' emitted s := by
  induction p generalizing emitted s with
  | done r => exact fun s' hs => hpost r emitted s' (h s' hs)
  | step l next cont ih =>
    intro s' hs
    obtain ⟨hstep, new, hlog, hrest⟩ := h s' hs
    exact ⟨hstep, new, hlog, ih s' hrest⟩

/-! ## Along the program -/

section

variable {mid : Except ε α → List ι → σ → Prop} {after : Except ε β → List ι → σ → Prop}
  {f : α → Prog L σ ε β}

/-- Sequential composition: what the first part has emitted the second part goes on with. -/
theorem emits_bind [Std.Refl R] {p : Prog L σ ε α} (hp : p.Emits R log mid emitted s)
    (hok : ∀ a emitted' s', mid (.ok a) emitted' s' → (f a).Emits R log after emitted' s')
    (herror : ∀ e emitted' s', mid (.error e) emitted' s' → after (.error e) emitted' s') :
    (p >>= f).Emits R log after emitted s := by
  show (p.bind f).Emits R log after emitted s
  induction p generalizing emitted s with
  | done r =>
    cases r with
    | ok a => exact hok a emitted s (hp s (refl_of R s))
    | error e => exact fun s' hs => herror e emitted s' (hp s' hs)
  | step l next cont ih =>
    intro s' hs
    obtain ⟨hstep, new, hlog, hrest⟩ := hp s' hs
    exact ⟨hstep, new, hlog, ih s' hrest⟩

theorem emits_map {g : α → β} {p : Prog L σ ε α}
    (h : p.Emits R log (fun r emitted' s' => after (r.map g) emitted' s') emitted s) :
    (g <$> p).Emits R log after emitted s := by
  show (p.bind fun a => pure (g a)).Emits R log after emitted s
  induction p generalizing emitted s with
  | done r => cases r <;> exact h
  | step l next cont ih =>
    intro s' hs
    obtain ⟨hstep, new, hlog, hrest⟩ := h s' hs
    exact ⟨hstep, new, hlog, ih s' hrest⟩

/-- Steps that stay within `R` and leave the log emit nothing. -/
theorem emits_steps [Std.Refl R] [IsTrans σ R] {E : L → σ → σ → Prop} {p : Prog L σ ε α}
    (hp : p.Steps E) (hE : ∀ l s s', E l s s' → R s s' ∧ log s' = log s) :
    p.Emits R log (fun _ emitted' s' => emitted' = emitted ∧ R s s') emitted s := by
  have hmain : ∀ s₀, R s s₀ →
      p.Emits R log (fun _ emitted' s' => emitted' = emitted ∧ R s s') emitted s₀ := by
    induction p with
    | done r => exact fun s₀ h₀ s' hs => ⟨rfl, trans_of R h₀ hs⟩
    | step l next cont ih =>
      intro s₀ h₀ s' hs
      obtain ⟨heffect, hrest⟩ := hp s'
      obtain ⟨hstep, hlog⟩ := hE l _ _ heffect
      refine ⟨hstep, [], by rw [hlog, List.append_nil], ?_⟩
      rw [List.append_nil]
      exact ih s' hrest _ (trans_of R (trans_of R h₀ hs) hstep)
  exact hmain s (refl_of R s)

theorem emits_steps_bind [Std.Refl R] [IsTrans σ R] {E : L → σ → σ → Prop} {p : Prog L σ ε α}
    (hp : p.Steps E) (hE : ∀ l s s', E l s s' → R s s' ∧ log s' = log s)
    (hok : ∀ a s', R s s' → (f a).Emits R log after emitted s')
    (herror : ∀ e s', R s s' → after (.error e) emitted s') :
    (p >>= f).Emits R log after emitted s := by
  refine emits_bind (emits_steps hp hE) ?_ ?_
  · rintro a _ s' ⟨rfl, hs⟩
    exact hok a s' hs
  · rintro e _ s' ⟨rfl, hs⟩
    exact herror e s' hs

/-- A step that reads: what follows depends on the state it has seen. -/
theorem emits_query_bind [Std.Refl R] {l : L} {g : σ → α}
    (h : ∀ s', R s s' → (f (g s')).Emits R log after emitted s') :
    (query l g >>= f).Emits R log after emitted s := by
  intro s' hs
  refine ⟨refl_of R s', [], (List.append_nil _).symm, ?_⟩
  rw [List.append_nil]
  exact h s' hs

theorem emits_lift_bind {r : Except ε α} (hok : ∀ a, r = .ok a → (f a).Emits R log after emitted s)
    (herror : ∀ e s', R s s' → after (.error e) emitted s') :
    (lift r >>= f).Emits R log after emitted s := by
  cases r with
  | ok a => exact hok a rfl
  | error e => exact herror e

/-- A step that appends one entry. -/
theorem emits_append_bind {l : L} {next : σ → σ} {entry : ι} {a : α}
    (hstep : ∀ s', R s' (next s')) (hlog : ∀ s', log (next s') = log s' ++ [entry])
    (h : ∀ s', R s s' → (f a).Emits R log after (emitted ++ [entry]) (next s')) :
    (atomically l (fun s' => .ok (a, next s')) >>= f).Emits R log after emitted s :=
  fun s' hs => ⟨hstep s', [entry], hlog s', h s' hs⟩

end

end Prog

/-! ## In every interleaving -/

/-- The entries of program `i`. -/
def emittedBy {ι : Type} (i : Nat) (entries : List (Nat × ι)) : List ι :=
  (entries.filter fun entry => entry.1 = i).map Prod.snd

namespace Config

variable {L σ ε α ι : Type} {R : σ → σ → Prop} {log : σ → List ι}
  {post : Nat → Except ε α → List ι → σ → Prop}

/-- The log has grown by the entries, each that of a program, and every program is on the way to
its end with the entries of its own. -/
structure Emits (R : σ → σ → Prop) (log : σ → List ι)
    (post : Nat → Except ε α → List ι → σ → Prop) (before : List ι) (entries : List (Nat × ι))
    (c : Config L σ ε α) : Prop where
  shuffle : log c.state = before ++ entries.map Prod.snd
  owned : ∀ entry ∈ entries, entry.1 < c.procs.length
  procs : ∀ (i : Nat) (p : Prog L σ ε α), c.procs[i]? = some p →
    p.Emits R log (post i) (emittedBy i entries) c.state

theorem emittedBy_append (i j : Nat) (entries : List (Nat × ι)) (new : List ι) :
    emittedBy j (entries ++ new.map (i, ·)) =
      emittedBy j entries ++ if j = i then new else [] := by
  have hnew : emittedBy j (new.map (i, ·)) = if j = i then new else [] := by
    unfold emittedBy
    split
    · next heq =>
      rw [List.filter_eq_self.mpr (by simp [heq]), List.map_map]
      exact List.map_id _
    · next hne =>
      rw [List.filter_eq_nil_iff.mpr (by simp [Ne.symm hne]), List.map_nil]
  rw [← hnew, emittedBy, List.filter_append, List.map_append]
  rfl

theorem length_step (c : Config L σ ε α) (i : Nat) : (c.step i).procs.length = c.procs.length := by
  unfold step
  split
  · exact List.length_set
  · rfl

theorem length_exec (c : Config L σ ε α) (schedule : List Nat) :
    (c.exec schedule).procs.length = c.procs.length := by
  induction schedule generalizing c with
  | nil => rfl
  | cons i rest ih => exact (ih (c.step i)).trans (length_step c i)

variable [Std.Refl R] [IsTrans σ R]

theorem Emits.step {before : List ι} {entries : List (Nat × ι)} {c : Config L σ ε α} {i : Nat}
    {l : L} {next : σ → σ} {cont : σ → Prog L σ ε α} (h : c.Emits R log post before entries)
    (hi : c.procs[i]? = some (.step l next cont)) :
    ∃ entries', (c.step i).Emits R log post before entries' := by
  obtain ⟨hstep, new, hlog, hrest⟩ := h.procs i _ hi c.state (refl_of R _)
  have hstate : (c.step i).state = next c.state := by rw [step_of_getElem? hi]
  refine ⟨entries ++ new.map (i, ·), ?_, ?_, ?_⟩
  · rw [hstate, hlog, h.shuffle, List.map_append, List.map_map, List.append_assoc]
    exact congrArg _ (congrArg _ (List.map_id new).symm)
  · intro entry hentry
    rw [length_step]
    rcases List.mem_append.mp hentry with hentry | hentry
    · exact h.owned entry hentry
    · obtain ⟨_, -, rfl⟩ := List.mem_map.mp hentry
      exact (List.getElem?_eq_some_iff.mp hi).1
  · intro j p hj
    rw [hstate, emittedBy_append]
    rcases getElem?_step hi hj with ⟨rfl, rfl⟩ | ⟨hne, hj⟩
    · rw [if_pos rfl]
      exact hrest
    · rw [if_neg hne, List.append_nil]
      exact (h.procs j p hj).later hstep

/-- Whatever is interleaved, the log is a shuffle of what the programs have emitted. -/
theorem exec_emits (schedule : List Nat) {c : Config L σ ε α}
    (h : ∀ (i : Nat) (p : Prog L σ ε α), c.procs[i]? = some p →
      p.Emits R log (post i) [] c.state) :
    ∃ entries, (c.exec schedule).Emits R log post (log c.state) entries := by
  have hstart : c.Emits R log post (log c.state) [] :=
    ⟨(List.append_nil _).symm, fun _ hentry => absurd hentry List.not_mem_nil, h⟩
  refine exec_induction
    (R := fun c' => ∃ entries, c'.Emits R log post (log c.state) entries) ?_ schedule
    ⟨[], hstart⟩ (along_of_forall (fun _ _ => True.intro) schedule c)
  rintro c' i l next cont hi - ⟨entries, hentries⟩
  exact hentries.step hi

omit [IsTrans σ R] in
/-- What a program that has ended has emitted. -/
theorem Emits.outcome {before : List ι} {entries : List (Nat × ι)} {c : Config L σ ε α}
    (h : c.Emits R log post before entries) {i : Nat} {r : Except ε α}
    (hr : c.outcome i = some r) : post i r (emittedBy i entries) c.state := by
  unfold Config.outcome at hr
  split at hr
  · next r' hp =>
    cases hr
    exact h.procs i _ hp c.state (refl_of R _)
  · cases hr

end Config
