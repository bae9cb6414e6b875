import LavsCore.Lib.Interleaving

/-!
# Interleavings of programs whose errors matter

`Prog.Follows` lets a program fail anywhere. `Prog.Keeps` also says which errors a program
may end with in which phase, so that every program stays in a phase to its end, and an
invariant can speak of those that have failed. The rules are those of
`Lib/Interleaving.lean`.
-/

namespace Prog

variable {L σ ε α β Q : Type}

/-- The program keeps to the protocol `P` from phase `q` on, and ends, with a value or an
error, only as `F` allows. -/
def Keeps (P : Q → L → σ → Q → σ → Prop) (I : σ → Prop) (F : Q → Except ε α → Prop) :
    Prog L σ ε α → Q → Prop
  | .done r, q => F q r
  | .step l next cont, q =>
    ∀ s, I s → ∃ q', P q l s q' (next s) ∧ Keeps P I F (cont s) q'

variable {P : Q → L → σ → Q → σ → Prop} {I : σ → Prop} {q : Q}

theorem keeps_bind {M : Q → Except ε α → Prop} {F : Q → Except ε β → Prop} {p : Prog L σ ε α}
    {f : α → Prog L σ ε β} (hp : p.Keeps P I M q)
    (hok : ∀ q' a, M q' (.ok a) → (f a).Keeps P I F q')
    (herr : ∀ q' e, M q' (.error e) → F q' (.error e)) : (p >>= f).Keeps P I F q := by
  show (p.bind f).Keeps P I F q
  induction p generalizing q with
  | done r =>
    cases r with
    | ok a => exact hok q a hp
    | error e => exact herr q e hp
  | step l next cont ih =>
    intro s hs
    obtain ⟨q', hstep, hrest⟩ := hp s hs
    exact ⟨q', hstep, ih s hrest⟩

/-- A computation that does not touch the state is no step. -/
theorem keeps_lift {F : Q → Except ε β → Prop} {r : Except ε α} {a : α} (hr : r = .ok a)
    {f : α → Prog L σ ε β} (h : (f a).Keeps P I F q) : (lift r >>= f).Keeps P I F q := by
  subst hr
  exact h

theorem keeps_mapError {F : Q → Except ε α → Prop} {p : Prog L σ ε α} {g : ε → ε}
    (h : p.Keeps P I (fun q' r => F q' (r.mapError g)) q) : (p.mapError g).Keeps P I F q := by
  induction p generalizing q with
  | done r => cases r <;> exact h
  | step l next cont ih =>
    intro s hs
    obtain ⟨q', hstep, hrest⟩ := h s hs
    exact ⟨q', hstep, ih s hrest⟩

theorem keeps_atomically {F : Q → Except ε α → Prop} {l : L} {f : σ → Except ε (α × σ)}
    (hok : ∀ s r, I s → f s = .ok r → ∃ q', P q l s q' r.2 ∧ F q' (.ok r.1))
    (herr : ∀ s e, I s → f s = .error e → ∃ q', P q l s q' s ∧ F q' (.error e)) :
    (atomically l f).Keeps P I F q := by
  intro s hs
  cases h : f s with
  | ok r =>
    simp only [h]
    exact hok s r hs h
  | error e =>
    simp only [h]
    exact herr s e hs h

theorem keeps_query {F : Q → Except ε α → Prop} {l : L} {f : σ → α}
    (h : ∀ s, I s → ∃ q', P q l s q' s ∧ F q' (.ok (f s))) :
    (query l f : Prog L σ ε α).Keeps P I F q := by
  refine keeps_atomically ?_ ?_
  · rintro s r hs hr
    cases hr
    exact h s hs
  · intro s e _ he
    cases he

end Prog

namespace Config

variable {L σ ε α Q : Type} {P : Q → L → σ → Q → σ → Prop} {I : σ → Prop}
  {F : Q → Except ε α → Prop}

/-- Program for program, the configuration is in the given phases. -/
def KeepsPhases (P : Q → L → σ → Q → σ → Prop) (I : σ → Prop) (F : Q → Except ε α → Prop)
    (c : Config L σ ε α) (phases : List Q) : Prop :=
  List.Forall₂ (Prog.Keeps P I F) c.procs phases

/-- Program `i` takes, under the condition `ok`, the protocol step `l` from phase `q` to
phase `q'`, which leaves the state `s'`. -/
structure Moves (P : Q → L → σ → Q → σ → Prop) (ok : Config L σ ε α → Nat → Prop)
    (c : Config L σ ε α) (phases : List Q) (i : Nat) (l : L) (q q' : Q) (s' : σ) : Prop where
  label : c.label i = some l
  phase : phases[i]? = some q
  allowed : ok c i
  step : P q l c.state q' s'

/-- The invariant rule, for an invariant `J` of the shared state and the phases. -/
theorem exec_keeps {J : σ → List Q → Prop} {ok : Config L σ ε α → Nat → Prop}
    (hI : ∀ s phases, J s phases → I s)
    (hstep : ∀ c phases i l q q' s', Moves P ok c phases i l q q' s' → J c.state phases →
      J s' (phases.set i q'))
    (schedule : List Nat) {c : Config L σ ε α} {phases : List Q}
    (hc : c.KeepsPhases P I F phases) (hinv : J c.state phases) (hok : c.Along ok schedule) :
    ∃ phases', (c.exec schedule).KeepsPhases P I F phases' ∧
      J (c.exec schedule).state phases' := by
  refine exec_induction (R := fun c => ∃ phases, c.KeepsPhases P I F phases ∧ J c.state phases)
    ?_ schedule ⟨phases, hc, hinv⟩ hok
  rintro c i l next cont hp hi ⟨phases, hc, hinv⟩
  obtain ⟨q, hq, hkeeps⟩ := forall₂_getElem? hc hp
  obtain ⟨q', hP, hkeeps'⟩ := hkeeps c.state (hI _ _ hinv)
  have hinv' : J (next c.state) (phases.set i q') :=
    hstep c phases i l q q' _ ⟨label_of_getElem? hp, hq, hi, hP⟩ hinv
  rw [step_of_getElem? hp]
  exact ⟨phases.set i q', forall₂_set hc i hkeeps', hinv'⟩

/-- The phase of a program that has ended allows its outcome. -/
theorem KeepsPhases.outcome {c : Config L σ ε α} {phases : List Q}
    (h : c.KeepsPhases P I F phases) (hfinished : c.Finished) {i : Nat} {q : Q}
    (hi : phases[i]? = some q) : ∃ r, c.outcome i = some r ∧ F q r := by
  obtain ⟨p, hp, hkeeps⟩ := forall₂_getElem? (List.Forall₂.flip h) hi
  obtain ⟨r, rfl⟩ := hfinished p (List.mem_of_getElem? hp)
  exact ⟨r, by simp [Config.outcome, hp], hkeeps⟩

end Config
