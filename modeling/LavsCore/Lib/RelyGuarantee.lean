import LavsCore.Lib.Interleaving
import Mathlib.Order.Defs.Unbundled

/-!
# Rely and guarantee

What a program does among others is stated against a preorder `R` on the states: between two of
its steps the state may move within `R`, and each of its own steps has to stay within `R`.
`Prog.Meets` adds what holds when the program ends. `Prog.Commits` tells two endings apart: one
before the program has changed anything, and one after. Both are checked along the program,
statement by statement.

Programs that all meet their specification do so in every interleaving (`Config.exec_meets`). A
program that ends before it has changed anything might as well not have run
(`Config.exec_without`).
-/

namespace Prog

variable {L σ ε α β : Type}

/-- From the state `s` on, in surroundings that stay within `R`, the steps of the program stay
within `R`, and it ends as `post` says. -/
def Meets (R : σ → σ → Prop) (post : Except ε α → σ → Prop) : Prog L σ ε α → σ → Prop
  | .done r, s => ∀ s', R s s' → post r s'
  | .step _ next cont, s => ∀ s', R s s' → R s' (next s') ∧ (cont s').Meets R post (next s')

/-- As `Meets`, but as long as the program has changed nothing it ends as `pre` says. -/
def Commits (R : σ → σ → Prop) (pre post : Except ε α → σ → Prop) : Prog L σ ε α → σ → Prop
  | .done r, s => ∀ s', R s s' → pre r s'
  | .step _ next cont, s => ∀ s', R s s' →
    next s' = s' ∧ (cont s').Commits R pre post s' ∨
      R s' (next s') ∧ (cont s').Meets R post (next s')

variable {R : σ → σ → Prop} {pre post : Except ε α → σ → Prop}

/-! ## Moving on -/

theorem Meets.later [IsTrans σ R] {p : Prog L σ ε α} {s s' : σ} (h : p.Meets R post s)
    (hs : R s s') : p.Meets R post s' := by
  cases p with
  | done r => exact fun s'' hs' => h s'' (trans_of R hs hs')
  | step l next cont => exact fun s'' hs' => h s'' (trans_of R hs hs')

theorem Commits.later [IsTrans σ R] {p : Prog L σ ε α} {s s' : σ} (h : p.Commits R pre post s)
    (hs : R s s') : p.Commits R pre post s' := by
  cases p with
  | done r => exact fun s'' hs' => h s'' (trans_of R hs hs')
  | step l next cont => exact fun s'' hs' => h s'' (trans_of R hs hs')

theorem Meets.mono {post' : Except ε α → σ → Prop} {p : Prog L σ ε α} {s : σ}
    (h : p.Meets R post s) (hpost : ∀ r s', post r s' → post' r s') : p.Meets R post' s := by
  induction p generalizing s with
  | done r => exact fun s' hs => hpost r s' (h s' hs)
  | step l next cont ih => exact fun s' hs => ⟨(h s' hs).1, ih s' (h s' hs).2⟩

theorem Commits.mono {pre' post' : Except ε α → σ → Prop} {p : Prog L σ ε α} {s : σ}
    (h : p.Commits R pre post s) (hpre : ∀ r s', pre r s' → pre' r s')
    (hpost : ∀ r s', post r s' → post' r s') : p.Commits R pre' post' s := by
  induction p generalizing s with
  | done r => exact fun s' hs => hpre r s' (h s' hs)
  | step l next cont ih =>
    intro s' hs
    exact (h s' hs).imp (fun hrest => ⟨hrest.1, ih s' hrest.2⟩)
      fun hrest => ⟨hrest.1, hrest.2.mono hpost⟩

/-- The program ends in a state within `R` of the one it has started in. -/
theorem Meets.within [IsTrans σ R] {p : Prog L σ ε α} {s : σ} (h : p.Meets R post s) :
    p.Meets R (fun r s' => post r s' ∧ R s s') s := by
  induction p generalizing s with
  | done r => exact fun s' hs => ⟨h s' hs, hs⟩
  | step l next cont ih =>
    intro s' hs
    obtain ⟨hstep, hrest⟩ := h s' hs
    refine ⟨hstep, (ih s' hrest).mono fun r s'' hend => ⟨hend.1, ?_⟩⟩
    exact trans_of R (trans_of R hs hstep) hend.2

theorem Commits.within [IsTrans σ R] {p : Prog L σ ε α} {s : σ} (h : p.Commits R pre post s) :
    p.Commits R (fun r s' => pre r s' ∧ R s s') (fun r s' => post r s' ∧ R s s') s := by
  induction p generalizing s with
  | done r => exact fun s' hs => ⟨h s' hs, hs⟩
  | step l next cont ih =>
    intro s' hs
    rcases h s' hs with ⟨hsame, hrest⟩ | ⟨hstep, hrest⟩
    · refine Or.inl ⟨hsame, (ih s' hrest).mono ?_ ?_⟩
      · exact fun r s'' hend => ⟨hend.1, trans_of R hs hend.2⟩
      · exact fun r s'' hend => ⟨hend.1, trans_of R hs hend.2⟩
    · refine Or.inr ⟨hstep, hrest.within.mono fun r s'' hend => ⟨hend.1, ?_⟩⟩
      exact trans_of R (trans_of R hs hstep) hend.2

/-- Whether or not the program has changed something. -/
theorem Commits.meets [Std.Refl R] {p : Prog L σ ε α} {s : σ} (h : p.Commits R pre post s) :
    p.Meets R (fun r s' => pre r s' ∨ post r s') s := by
  induction p generalizing s with
  | done r => exact fun s' hs => Or.inl (h s' hs)
  | step l next cont ih =>
    intro s' hs
    rcases h s' hs with ⟨hsame, hrest⟩ | ⟨hstep, hrest⟩
    · rw [hsame]
      exact ⟨refl_of R s', ih s' hrest⟩
    · exact ⟨hstep, hrest.mono fun _ _ => Or.inr⟩

/-! ## Along the program -/

section Statements

variable {mid mid' : Except ε α → σ → Prop} {pre post : Except ε β → σ → Prop}
  {f : α → Prog L σ ε β} {s : σ}

/-- Sequential composition: what holds where the first part ends is where the second starts. -/
theorem meets_bind [Std.Refl R] {p : Prog L σ ε α} (hp : p.Meets R mid s)
    (hok : ∀ a s', mid (.ok a) s' → (f a).Meets R post s')
    (herror : ∀ e s', mid (.error e) s' → post (.error e) s') : (p >>= f).Meets R post s := by
  show (p.bind f).Meets R post s
  induction p generalizing s with
  | done r =>
    cases r with
    | ok a => exact hok a s (hp s (refl_of R s))
    | error e => exact fun s' hs => herror e s' (hp s' hs)
  | step l next cont ih => exact fun s' hs => ⟨(hp s' hs).1, ih s' (hp s' hs).2⟩

theorem commits_bind [Std.Refl R] {p : Prog L σ ε α} (hp : p.Commits R mid mid' s)
    (hok : ∀ a s', mid (.ok a) s' → (f a).Commits R pre post s')
    (herror : ∀ e s', mid (.error e) s' → pre (.error e) s')
    (hok' : ∀ a s', mid' (.ok a) s' → (f a).Meets R post s')
    (herror' : ∀ e s', mid' (.error e) s' → post (.error e) s') :
    (p >>= f).Commits R pre post s := by
  show (p.bind f).Commits R pre post s
  induction p generalizing s with
  | done r =>
    cases r with
    | ok a => exact hok a s (hp s (refl_of R s))
    | error e => exact fun s' hs => herror e s' (hp s' hs)
  | step l next cont ih =>
    intro s' hs
    rcases hp s' hs with ⟨hsame, hrest⟩ | ⟨hstep, hrest⟩
    · exact Or.inl ⟨hsame, ih s' hrest⟩
    · exact Or.inr ⟨hstep, meets_bind hrest hok' herror'⟩

theorem meets_lift_bind {r : Except ε α} (hok : ∀ a, r = .ok a → (f a).Meets R post s)
    (herror : ∀ e, r = .error e → ∀ s', R s s' → post (.error e) s') :
    (lift r >>= f).Meets R post s := by
  cases r with
  | ok a => exact hok a rfl
  | error e => exact herror e rfl

theorem commits_lift_bind {r : Except ε α} (hok : ∀ a, r = .ok a → (f a).Commits R pre post s)
    (herror : ∀ e, r = .error e → ∀ s', R s s' → pre (.error e) s') :
    (lift r >>= f).Commits R pre post s := by
  cases r with
  | ok a => exact hok a rfl
  | error e => exact herror e rfl

theorem meets_query_bind [Std.Refl R] {l : L} {g : σ → α}
    (h : ∀ s', R s s' → (f (g s')).Meets R post s') : (query l g >>= f).Meets R post s :=
  fun s' hs => ⟨refl_of R s', h s' hs⟩

theorem commits_query_bind {l : L} {g : σ → α}
    (h : ∀ s', R s s' → (f (g s')).Commits R pre post s') :
    (query l g >>= f).Commits R pre post s :=
  fun s' hs => Or.inl ⟨rfl, h s' hs⟩

theorem meets_atomically_bind [Std.Refl R] {l : L} {g : σ → Except ε (α × σ)}
    (hok : ∀ s' r, R s s' → g s' = .ok r → R s' r.2 ∧ (f r.1).Meets R post r.2)
    (herror : ∀ s' e, R s s' → g s' = .error e → ∀ s'', R s' s'' → post (.error e) s'') :
    (atomically l g >>= f).Meets R post s := by
  intro s' hs
  cases hg : g s' with
  | ok r =>
    simp only [hg]
    exact hok s' r hs hg
  | error e =>
    simp only [hg]
    exact ⟨refl_of R s', herror s' e hs hg⟩

/-- Where the step fails nothing has changed yet. -/
theorem commits_atomically_bind {l : L} {g : σ → Except ε (α × σ)}
    (hok : ∀ s' r, R s s' → g s' = .ok r → R s' r.2 ∧ (f r.1).Meets R post r.2)
    (herror : ∀ s' e, R s s' → g s' = .error e → ∀ s'', R s' s'' → pre (.error e) s'') :
    (atomically l g >>= f).Commits R pre post s := by
  intro s' hs
  cases hg : g s' with
  | ok r =>
    simp only [hg]
    exact Or.inr (hok s' r hs hg)
  | error e =>
    simp only [hg]
    exact Or.inl ⟨trivial, herror s' e hs hg⟩

end Statements

end Prog

/-! ## In every interleaving -/

namespace Config

variable {L σ ε α : Type} {R : σ → σ → Prop} {pre post : Nat → Except ε α → σ → Prop}

/-- Program for program, the configuration meets its specification. -/
def Meets (R : σ → σ → Prop) (post : Nat → Except ε α → σ → Prop) (c : Config L σ ε α) : Prop :=
  ∀ (i : Nat) (p : Prog L σ ε α), c.procs[i]? = some p → p.Meets R (post i) c.state

/-- Program for program, the configuration commits as specified, or it has changed something and
meets what is left. -/
def Commits (R : σ → σ → Prop) (pre post : Nat → Except ε α → σ → Prop) (c : Config L σ ε α) :
    Prop :=
  ∀ (i : Nat) (p : Prog L σ ε α), c.procs[i]? = some p →
    p.Commits R (pre i) (post i) c.state ∨ p.Meets R (post i) c.state

theorem along_of_forall {ok : Config L σ ε α → Nat → Prop} (h : ∀ c i, ok c i)
    (schedule : List Nat) (c : Config L σ ε α) : c.Along ok schedule := by
  induction schedule generalizing c with
  | nil => trivial
  | cons i rest ih => exact ⟨h c i, ih (c.step i)⟩

/-- After a step there is the program that took it, and the others. -/
theorem getElem?_step {c : Config L σ ε α} {i : Nat} {l : L} {next : σ → σ}
    {cont : σ → Prog L σ ε α} (hi : c.procs[i]? = some (.step l next cont)) {j : Nat}
    {p : Prog L σ ε α} (hj : (c.step i).procs[j]? = some p) :
    j = i ∧ p = cont c.state ∨ j ≠ i ∧ c.procs[j]? = some p := by
  rw [step_of_getElem? hi] at hj
  rcases eq_or_ne j i with rfl | hne
  · rw [List.getElem?_set_self (List.getElem?_eq_some_iff.mp hi).1] at hj
    exact Or.inl ⟨rfl, (Option.some.inj hj).symm⟩
  · rw [List.getElem?_set_ne (Ne.symm hne)] at hj
    exact Or.inr ⟨hne, hj⟩

section

variable [Std.Refl R] [IsTrans σ R]

theorem step_meets {c : Config L σ ε α} {i : Nat} {l : L} {next : σ → σ}
    {cont : σ → Prog L σ ε α} (hi : c.procs[i]? = some (.step l next cont))
    (h : c.Meets R post) : (c.step i).Meets R post := by
  obtain ⟨hstep, hrest⟩ := h i _ hi c.state (refl_of R _)
  intro j p hj
  have hstate : (c.step i).state = next c.state := by rw [step_of_getElem? hi]
  rw [hstate]
  rcases getElem?_step hi hj with ⟨rfl, rfl⟩ | ⟨-, hj⟩
  · exact hrest
  · exact (h j p hj).later hstep

/-- The rule of parallel composition. -/
theorem exec_meets (schedule : List Nat) {c : Config L σ ε α} (h : c.Meets R post) :
    (c.exec schedule).Meets R post :=
  exec_induction (fun _ _ _ _ _ hi _ h => step_meets hi h) schedule h
    (along_of_forall (fun _ _ => True.intro) schedule c)

omit [IsTrans σ R] in
/-- What a program that has ended ended with. -/
theorem Meets.outcome {c : Config L σ ε α} (h : c.Meets R post) {i : Nat} {r : Except ε α}
    (hr : c.outcome i = some r) : post i r c.state := by
  unfold Config.outcome at hr
  split at hr
  · next r' hp =>
    cases hr
    exact h i _ hp c.state (refl_of R _)
  · cases hr

/-- The state moves within `R`. -/
theorem exec_within (schedule : List Nat) {c : Config L σ ε α} (h : c.Meets R post) :
    R c.state (c.exec schedule).state := by
  induction schedule generalizing c with
  | nil => exact refl_of R _
  | cons i rest ih =>
    cases hi : c.procs[i]? with
    | none =>
      rw [exec_cons, step, hi]
      exact ih h
    | some p =>
      cases p with
      | done r =>
        rw [exec_cons, step, hi]
        exact ih h
      | step l next cont =>
        have hstep : R c.state (c.step i).state := by
          rw [step_of_getElem? hi]
          exact (h i _ hi c.state (refl_of R _)).1
        exact trans_of R hstep (ih (step_meets hi h))

/-! ## Without a program that has changed nothing -/

omit [IsTrans σ R] in
theorem Commits.meets {c : Config L σ ε α} (h : c.Commits R pre post) :
    c.Meets R fun i r s => pre i r s ∨ post i r s := by
  intro i p hp
  rcases h i p hp with h | h
  · exact h.meets
  · exact h.mono fun _ _ => Or.inr

theorem step_commits {c : Config L σ ε α} (h : c.Commits R pre post) (i : Nat) :
    (c.step i).Commits R pre post := by
  cases hi : c.procs[i]? with
  | none => rwa [step, hi]
  | some p =>
    cases p with
    | done r => rwa [step, hi]
    | step l next cont =>
      have hnext : R c.state (next c.state) := (h.meets i _ hi c.state (refl_of R _)).1
      intro j p hj
      have hstate : (c.step i).state = next c.state := by rw [step_of_getElem? hi]
      rw [hstate]
      rcases getElem?_step hi hj with ⟨rfl, rfl⟩ | ⟨-, hj⟩
      · rcases h j _ hi with h | h
        · rcases h c.state (refl_of R _) with ⟨hsame, hrest⟩ | ⟨-, hrest⟩
          · rw [hsame]
            exact Or.inl hrest
          · exact Or.inr hrest
        · exact Or.inr (h c.state (refl_of R _)).2
      · exact (h j p hj).imp (·.later hnext) (·.later hnext)

/-- A program that is going to end as only one does that has changed nothing changes nothing. -/
theorem step_state_of_refused {c : Config L σ ε α} (hall : c.Commits R pre post) {i : Nat}
    {rest : List Nat} {r : Except ε α} (hr : ∀ s, ¬ post i r s)
    (houtcome : ((c.step i).exec rest).outcome i = some r) : (c.step i).state = c.state := by
  cases hi : c.procs[i]? with
  | none => rw [step, hi]
  | some p =>
    cases p with
    | done r => rw [step, hi]
    | step l next cont =>
      rw [step_of_getElem? hi]
      by_contra hchanged
      have hrest : (cont c.state).Meets R (post i) (next c.state) := by
        rcases hall i _ hi with h | h
        · rcases h c.state (refl_of R _) with ⟨hsame, -⟩ | ⟨-, hrest⟩
          · exact absurd hsame hchanged
          · exact hrest
        · exact (h c.state (refl_of R _)).2
      have hmeets : (c.step i).Meets R fun j r s => j = i → post i r s := by
        intro j p hj
        rcases getElem?_step hi hj with ⟨rfl, rfl⟩ | ⟨hne, -⟩
        · rw [step_of_getElem? hi]
          exact hrest.mono fun _ _ h _ => h
        · exact ((step_commits hall i).meets j p hj).mono fun _ _ _ heq => absurd heq hne
      exact hr _ ((exec_meets rest hmeets).outcome houtcome rfl)

/-- The same state and, but for program `i`, the same programs. -/
structure SameBut (i : Nat) (c c' : Config L σ ε α) : Prop where
  state : c'.state = c.state
  procs : ∀ j ≠ i, c'.procs[j]? = c.procs[j]?

theorem SameBut.step {i k : Nat} {c c' : Config L σ ε α} (h : SameBut i c c') (hk : k ≠ i) :
    SameBut i (c.step k) (c'.step k) := by
  have hproc := h.procs k hk
  unfold Config.step
  rw [hproc]
  split
  · next l next cont hp =>
    refine ⟨by rw [h.state], fun j hj => ?_⟩
    have hlt : k < c.procs.length := (List.getElem?_eq_some_iff.mp hp).1
    have hlt' : k < c'.procs.length := (List.getElem?_eq_some_iff.mp (hproc.trans hp)).1
    rcases eq_or_ne j k with rfl | hne
    · rw [List.getElem?_set_self hlt, List.getElem?_set_self hlt', h.state]
    · rw [List.getElem?_set_ne (Ne.symm hne), List.getElem?_set_ne (Ne.symm hne), h.procs j hj]
  · exact h

/-- A step of program `i` that leaves the state alone makes no difference to the others. -/
theorem SameBut.idle {i : Nat} {c c' : Config L σ ε α} (h : SameBut i c c')
    (hstate : (c.step i).state = c.state) : SameBut i (c.step i) c' := by
  refine ⟨h.state.trans hstate.symm, fun j hj => (h.procs j hj).trans ?_⟩
  unfold Config.step
  split
  · exact (List.getElem?_set_ne (Ne.symm hj)).symm
  · rfl

theorem SameBut.exec_without {i : Nat} {r : Except ε α} (hr : ∀ s, ¬ post i r s)
    {schedule : List Nat} {c c' : Config L σ ε α} (hall : c.Commits R pre post)
    (hsame : SameBut i c c') (houtcome : (c.exec schedule).outcome i = some r) :
    SameBut i (c.exec schedule) (c'.exec (schedule.filter (· ≠ i))) := by
  induction schedule generalizing c c' with
  | nil => exact hsame
  | cons k rest ih =>
    have hnext : (c.step k).Commits R pre post := step_commits hall k
    rw [exec_cons] at houtcome ⊢
    rcases eq_or_ne k i with rfl | hne
    · rw [List.filter_cons_of_neg (by simp)]
      exact ih hnext (hsame.idle (step_state_of_refused hall hr houtcome)) houtcome
    · rw [List.filter_cons_of_pos (by simpa using hne), exec_cons]
      exact ih hnext (hsame.step hne) houtcome

/-- A program that ends as only one does that has changed nothing might as well not have run:
the schedule without its steps leaves the same state and the same other programs. -/
theorem exec_without {c : Config L σ ε α} (hall : c.Commits R pre post) {schedule : List Nat}
    {i : Nat} {r : Except ε α} (hr : ∀ s, ¬ post i r s)
    (houtcome : (c.exec schedule).outcome i = some r) :
    SameBut i (c.exec schedule) (c.exec (schedule.filter (· ≠ i))) :=
  SameBut.exec_without hr hall ⟨rfl, fun _ _ => rfl⟩ houtcome

end

end Config
