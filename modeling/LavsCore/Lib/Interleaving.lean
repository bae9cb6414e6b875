import LavsCore.Lib.Program
import Mathlib.Data.List.Forall2

/-!
# Interleavings of programs

A `Config` is a shared state with the programs that work on it. A schedule says
whose step comes next; every interleaving of the programs is `Config.exec` of some
schedule. `Config.Along` asks a condition of every step of a schedule.

A protocol abstracts a program to a phase of `Q` and to the steps it may take in
each phase. `Prog.Follows` says that a program keeps to a protocol. It is checked
along the program, statement by statement (`follows_bind`, `follows_atomically`).
`Config.exec_invariant` then proves an invariant of the shared state and the phases
alone, and `Config.exec_stable` one that asserts something for each phase. A program
that has failed is in no phase.
-/

/-- A shared state and the programs that are running on it. -/
structure Config (L σ ε α : Type) where
  state : σ
  procs : List (Prog L σ ε α)

namespace Config

variable {L σ ε α : Type}

/-- The label of the step program `i` takes next, if it has not ended. -/
def label (c : Config L σ ε α) (i : Nat) : Option L :=
  match c.procs[i]? with
  | some (.step l _ _) => some l
  | _ => none

/-- Program `i` takes its next step. A program that has ended does nothing. -/
def step (c : Config L σ ε α) (i : Nat) : Config L σ ε α :=
  match c.procs[i]? with
  | some (.step _ next cont) => ⟨next c.state, c.procs.set i (cont c.state)⟩
  | _ => c

/-- The programs take their steps in the order of a schedule. -/
def exec (c : Config L σ ε α) (schedule : List Nat) : Config L σ ε α :=
  schedule.foldl step c

/-- The outcome of program `i`, once it has ended. -/
def outcome (c : Config L σ ε α) (i : Nat) : Option (Except ε α) :=
  match c.procs[i]? with
  | some (.done r) => some r
  | _ => none

/-- Every program has ended. -/
def Finished (c : Config L σ ε α) : Prop := ∀ p ∈ c.procs, ∃ r, p = .done r

instance decidableEnded : (p : Prog L σ ε α) → Decidable (∃ r, p = .done r)
  | .done r => isTrue ⟨r, rfl⟩
  | .step _ _ _ => isFalse fun ⟨_, h⟩ => nomatch h

instance (c : Config L σ ε α) : Decidable c.Finished :=
  inferInstanceAs (Decidable (∀ p ∈ c.procs, ∃ r, p = .done r))

/-- The condition `ok` holds of every step that the schedule takes, in the
configuration the step is taken in. -/
def Along (ok : Config L σ ε α → Nat → Prop) : Config L σ ε α → List Nat → Prop
  | _, [] => True
  | c, i :: rest => ok c i ∧ Along ok (c.step i) rest

instance decidableAlong {ok : Config L σ ε α → Nat → Prop} [∀ c i, Decidable (ok c i)] :
    (c : Config L σ ε α) → (schedule : List Nat) → Decidable (Along ok c schedule)
  | _, [] => isTrue trivial
  | c, i :: rest =>
    have : Decidable (Along ok (c.step i) rest) := decidableAlong (c.step i) rest
    inferInstanceAs (Decidable (_ ∧ _))

theorem Along.and {ok ok' : Config L σ ε α → Nat → Prop} {c : Config L σ ε α}
    {schedule : List Nat} (h : Along ok c schedule) (h' : Along ok' c schedule) :
    Along (fun c i => ok c i ∧ ok' c i) c schedule := by
  induction schedule generalizing c with
  | nil => trivial
  | cons i rest ih => exact ⟨⟨h.1, h'.1⟩, ih h.2 h'.2⟩

theorem Along.mono {ok ok' : Config L σ ε α → Nat → Prop} {c : Config L σ ε α}
    {schedule : List Nat} (h : Along ok c schedule) (himp : ∀ c i, ok c i → ok' c i) :
    Along ok' c schedule := by
  induction schedule generalizing c with
  | nil => trivial
  | cons i rest ih => exact ⟨himp c i h.1, ih h.2⟩

@[simp] theorem exec_nil (c : Config L σ ε α) : c.exec [] = c := rfl

@[simp] theorem exec_cons (c : Config L σ ε α) (i : Nat) (rest : List Nat) :
    c.exec (i :: rest) = (c.step i).exec rest := rfl

theorem label_of_getElem? {c : Config L σ ε α} {i : Nat} {l : L} {next : σ → σ}
    {cont : σ → Prog L σ ε α} (h : c.procs[i]? = some (.step l next cont)) :
    c.label i = some l := by
  simp [label, h]

theorem step_of_getElem? {c : Config L σ ε α} {i : Nat} {l : L} {next : σ → σ}
    {cont : σ → Prog L σ ε α} (h : c.procs[i]? = some (.step l next cont)) :
    c.step i = ⟨next c.state, c.procs.set i (cont c.state)⟩ := by
  simp [step, h]

end Config

/-! ## Protocols -/

namespace Prog

variable {L σ ε α β Q : Type}

/-- The program keeps to the protocol `P` from phase `q` on: in every state with
`I`, its next step is a step of `P` into some phase that the rest keeps to, and it
ends with a value only in a phase that `F` allows. It may fail anywhere. -/
def Follows (P : Q → L → σ → Q → σ → Prop) (I : σ → Prop) (F : Q → α → Prop) :
    Prog L σ ε α → Q → Prop
  | .done (.ok a), q => F q a
  | .done (.error _), _ => True
  | .step l next cont, q =>
    ∀ s, I s → ∃ q', P q l s q' (next s) ∧ Follows P I F (cont s) q'

/-- The program keeps to the protocol without leaving the phase. -/
abbrev Stays (P : Q → L → σ → Q → σ → Prop) (I : σ → Prop) (p : Prog L σ ε α) (q : Q) : Prop :=
  p.Follows P I (fun q' _ => q' = q) q

variable {P : Q → L → σ → Q → σ → Prop} {I : σ → Prop} {q : Q}

/-- Sequential composition: the phase in which the first part ends is the phase
the second part starts in. -/
theorem follows_bind {M : Q → α → Prop} {F : Q → β → Prop} {p : Prog L σ ε α}
    {f : α → Prog L σ ε β} (hp : p.Follows P I M q)
    (hf : ∀ q' a, M q' a → (f a).Follows P I F q') : (p >>= f).Follows P I F q := by
  show (p.bind f).Follows P I F q
  induction p generalizing q with
  | done r =>
    cases r with
    | ok a => exact hf q a hp
    | error e => exact trivial
  | step l next cont ih =>
    intro s hs
    obtain ⟨q', hstep, hrest⟩ := hp s hs
    exact ⟨q', hstep, ih s hrest⟩

/-- A part that stays in its phase hands it on. -/
theorem Stays.bind {F : Q → β → Prop} {p : Prog L σ ε α} {f : α → Prog L σ ε β}
    (hp : p.Stays P I q) (hf : ∀ a, (f a).Follows P I F q) : (p >>= f).Follows P I F q := by
  refine follows_bind hp ?_
  rintro q' a rfl
  exact hf a

/-- A computation that does not touch the state is no step. -/
theorem follows_lift {F : Q → β → Prop} {r : Except ε α} {f : α → Prog L σ ε β}
    (h : ∀ a, r = .ok a → (f a).Follows P I F q) : (lift r >>= f).Follows P I F q := by
  cases r with
  | error e => exact trivial
  | ok a => exact h a rfl

theorem stays_pure (a : α) : (pure a : Prog L σ ε α).Stays P I q := rfl

theorem follows_raise (F : Q → α → Prop) (e : ε) : (raise e : Prog L σ ε α).Follows P I F q :=
  trivial

theorem follows_atomically {F : Q → α → Prop} {l : L} {f : σ → Except ε (α × σ)}
    (hok : ∀ s r, I s → f s = .ok r → ∃ q', P q l s q' r.2 ∧ F q' r.1)
    (herr : ∀ s e, I s → f s = .error e → ∃ q', P q l s q' s) :
    (atomically l f).Follows P I F q := by
  intro s hs
  cases h : f s with
  | ok r =>
    simp only [h]
    exact hok s r hs h
  | error e =>
    simp only [h]
    obtain ⟨q', hstep⟩ := herr s e hs h
    exact ⟨q', hstep, trivial⟩

theorem follows_query {F : Q → α → Prop} {l : L} {f : σ → α}
    (h : ∀ s, I s → ∃ q', P q l s q' s ∧ F q' (f s)) :
    (query l f : Prog L σ ε α).Follows P I F q := by
  refine follows_atomically ?_ ?_
  · rintro s r hs hr
    cases hr
    exact h s hs
  · intro s e _ he
    cases he

/-! ## Effects -/

/-- Every step that the program can take has an effect in `E`, whatever states it sees. -/
def Steps (E : L → σ → σ → Prop) : Prog L σ ε α → Prop
  | .done _ => True
  | .step l next cont => ∀ s, E l s (next s) ∧ (cont s).Steps E

theorem steps_bind {E : L → σ → σ → Prop} {p : Prog L σ ε α} {f : α → Prog L σ ε β}
    (hp : p.Steps E) (hf : ∀ a, (f a).Steps E) : (p >>= f).Steps E := by
  show (p.bind f).Steps E
  induction p with
  | done r =>
    cases r with
    | ok a => exact hf a
    | error e => trivial
  | step l next cont ih => exact fun s => ⟨(hp s).1, ih s (hp s).2⟩

theorem steps_pure {E : L → σ → σ → Prop} (a : α) : (pure a : Prog L σ ε α).Steps E := trivial

theorem steps_raise {E : L → σ → σ → Prop} (e : ε) : (raise e : Prog L σ ε α).Steps E := trivial

theorem steps_lift {E : L → σ → σ → Prop} (r : Except ε α) : (lift r : Prog L σ ε α).Steps E :=
  trivial

theorem steps_atomically {E : L → σ → σ → Prop} {l : L} {f : σ → Except ε (α × σ)}
    (hok : ∀ s r, f s = .ok r → E l s r.2) (herror : ∀ s e, f s = .error e → E l s s) :
    (atomically l f).Steps E := by
  intro s
  cases h : f s with
  | ok r =>
    simp only [h]
    exact ⟨hok s r h, trivial⟩
  | error e =>
    simp only [h]
    exact ⟨herror s e h, trivial⟩

theorem steps_query {E : L → σ → σ → Prop} {l : L} (h : ∀ s, E l s s) (f : σ → α) :
    (query l f : Prog L σ ε α).Steps E := fun s => ⟨h s, trivial⟩

/-- A program whose effects leave the phase keeps to the protocol. -/
theorem Steps.follows {E : L → σ → σ → Prop} {F : Q → α → Prop} {p : Prog L σ ε α}
    (hp : p.Steps E) (hP : ∀ l s s', E l s s' → P q l s q s') (hF : ∀ a, F q a) :
    p.Follows P I F q := by
  induction p with
  | done r =>
    cases r with
    | ok a => exact hF a
    | error e => trivial
  | step l next cont ih => exact fun s _ => ⟨q, hP l s _ (hp s).1, ih s (hp s).2⟩

/-! ## Errors -/

/-- Every error that the program can end with satisfies `E`, whatever states it sees. -/
def RaisesOnly (E : ε → Prop) : Prog L σ ε α → Prop
  | .done (.ok _) => True
  | .done (.error e) => E e
  | .step _ _ cont => ∀ s, (cont s).RaisesOnly E

theorem raisesOnly_bind {E : ε → Prop} {p : Prog L σ ε α} {f : α → Prog L σ ε β}
    (hp : p.RaisesOnly E) (hf : ∀ a, (f a).RaisesOnly E) : (p >>= f).RaisesOnly E := by
  show (p.bind f).RaisesOnly E
  induction p with
  | done r =>
    cases r with
    | ok a => exact hf a
    | error e => exact hp
  | step l next cont ih => exact fun s => ih s (hp s)

theorem raisesOnly_atomically {E : ε → Prop} {l : L} {f : σ → Except ε (α × σ)}
    (h : ∀ s e, f s = .error e → E e) : (atomically l f).RaisesOnly E := by
  intro s
  cases hf : f s with
  | ok r =>
    simp only [hf]
    exact trivial
  | error e =>
    simp only [hf]
    exact h s e hf

theorem raisesOnly_query {E : ε → Prop} (l : L) (f : σ → α) :
    (query l f : Prog L σ ε α).RaisesOnly E :=
  raisesOnly_atomically fun _ _ h => nomatch h

end Prog

namespace Config

/-- However the programs interleave, none ends with another error. -/
theorem exec_raisesOnly {L σ ε α : Type} {E : ε → Prop} (schedule : List Nat)
    {c : Config L σ ε α} (h : ∀ p ∈ c.procs, p.RaisesOnly E) :
    ∀ p ∈ (c.exec schedule).procs, p.RaisesOnly E := by
  induction schedule generalizing c with
  | nil => exact h
  | cons i rest ih =>
    refine ih ?_
    unfold step
    split
    · next l next cont hp =>
      intro p hmem
      rcases List.mem_or_eq_of_mem_set hmem with hmem | rfl
      · exact h p hmem
      · exact h _ (List.mem_of_getElem? hp) c.state
    · exact h

variable {L σ ε α Q : Type} {P : Q → L → σ → Q → σ → Prop} {I : σ → Prop} {F : Q → α → Prop}

/-- The program is in the phase, or it has failed and is in none. -/
def AtPhase (P : Q → L → σ → Q → σ → Prop) (I : σ → Prop) (F : Q → α → Prop)
    (p : Prog L σ ε α) (phase : Option Q) : Prop :=
  match p, phase with
  | .done (.error _), phase => phase = none
  | p, some q => p.Follows P I F q
  | _, none => False

/-- Program for program, the configuration is in the given phases. -/
def InPhases (P : Q → L → σ → Q → σ → Prop) (I : σ → Prop) (F : Q → α → Prop)
    (c : Config L σ ε α) (phases : List (Option Q)) : Prop :=
  List.Forall₂ (AtPhase P I F) c.procs phases

theorem AtPhase.done_ok {a : α} {phase : Option Q}
    (h : AtPhase P I F (.done (.ok a) : Prog L σ ε α) phase) : ∃ q, phase = some q ∧ F q a := by
  cases phase with
  | none => exact False.elim h
  | some q => exact ⟨q, rfl, h⟩

theorem AtPhase.step {l : L} {next : σ → σ} {cont : σ → Prog L σ ε α} {phase : Option Q}
    (h : AtPhase P I F (.step l next cont) phase) :
    ∃ q, phase = some q ∧ (Prog.step l next cont).Follows P I F q := by
  cases phase with
  | none => exact False.elim h
  | some q => exact ⟨q, rfl, h⟩

/-- A program that keeps to the protocol from a phase on is in that phase, unless it has
failed. -/
theorem exists_atPhase {p : Prog L σ ε α} {q : Q} (h : p.Follows P I F q) :
    ∃ phase, (phase = some q ∨ phase = none) ∧ AtPhase P I F p phase := by
  match p, h with
  | .done (.error _), _ => exact ⟨none, Or.inr rfl, rfl⟩
  | .done (.ok _), h => exact ⟨some q, Or.inl rfl, h⟩
  | .step _ _ _, h => exact ⟨some q, Or.inl rfl, h⟩

theorem forall₂_getElem? {A B : Type} {R : A → B → Prop} {as : List A} {bs : List B}
    (h : List.Forall₂ R as bs) {i : Nat} {a : A} (ha : as[i]? = some a) :
    ∃ b, bs[i]? = some b ∧ R a b := by
  induction h generalizing i with
  | nil => simp at ha
  | cons hab _ ih =>
    cases i with
    | zero =>
      simp only [List.getElem?_cons_zero, Option.some.injEq] at ha ⊢
      exact ⟨_, rfl, ha ▸ hab⟩
    | succ i =>
      simp only [List.getElem?_cons_succ] at ha ⊢
      exact ih ha

theorem forall₂_set {A B : Type} {R : A → B → Prop} {as : List A} {bs : List B}
    (h : List.Forall₂ R as bs) (i : Nat) {a : A} {b : B} (hab : R a b) :
    List.Forall₂ R (as.set i a) (bs.set i b) := by
  induction h generalizing i with
  | nil => exact .nil
  | cons hcons htail ih =>
    cases i with
    | zero => exact .cons hab htail
    | succ i => exact .cons hcons (ih i)

/-- The program of a phase. -/
theorem InPhases.getElem?_phase {c : Config L σ ε α} {phases : List (Option Q)}
    (h : c.InPhases P I F phases) {i : Nat} {phase : Option Q} (hi : phases[i]? = some phase) :
    ∃ p, c.procs[i]? = some p ∧ AtPhase P I F p phase := by
  obtain ⟨p, hp, hat⟩ := forall₂_getElem? (List.Forall₂.flip h) hi
  exact ⟨p, hp, hat⟩

/-- A program in a phase in which it cannot end takes a step of the protocol next. -/
theorem InPhases.label_of_phase {c : Config L σ ε α} {phases : List (Option Q)}
    (h : c.InPhases P I F phases) (hI : I c.state) {i : Nat} {q : Q}
    (hi : phases[i]? = some (some q)) (hend : ∀ a, ¬ F q a) :
    i < c.procs.length ∧ ∃ l q' s', c.label i = some l ∧ P q l c.state q' s' := by
  obtain ⟨p, hp, hat⟩ := h.getElem?_phase hi
  refine ⟨(List.getElem?_eq_some_iff.mp hp).1, ?_⟩
  match p, hat with
  | .done (.ok a), hat => exact absurd hat (hend a)
  | .step l next cont, hat =>
    obtain ⟨q', hstep, _⟩ := hat c.state hI
    exact ⟨l, q', next c.state, label_of_getElem? hp, hstep⟩

/-- What an ended program's phase says of its outcome. -/
theorem InPhases.outcome {c : Config L σ ε α} {phases : List (Option Q)}
    (h : c.InPhases P I F phases) {i : Nat} {a : α} (ha : c.outcome i = some (.ok a)) :
    ∃ q, phases[i]? = some (some q) ∧ F q a := by
  unfold Config.outcome at ha
  split at ha
  · next r hp =>
    cases ha
    obtain ⟨phase, hphase, hat⟩ := forall₂_getElem? h hp
    obtain ⟨q, rfl, hF⟩ := hat.done_ok
    exact ⟨q, hphase, hF⟩
  · cases ha

/-- Programs that keep to the protocol from one phase on start in it, or fail at once. -/
theorem exists_inPhases {c : Config L σ ε α} {q : Q} (h : ∀ p ∈ c.procs, p.Follows P I F q) :
    ∃ phases, c.InPhases P I F phases ∧ ∀ q', some q' ∈ phases → q' = q := by
  obtain ⟨s, ps⟩ := c
  unfold InPhases
  induction ps with
  | nil => exact ⟨[], .nil, fun _ hq' => absurd hq' List.not_mem_nil⟩
  | cons p ps ih =>
    obtain ⟨phases, hphases, hall⟩ := ih fun p' hp' => h p' (List.mem_cons_of_mem p hp')
    obtain ⟨phase, hphase, hat⟩ := exists_atPhase (h p List.mem_cons_self)
    refine ⟨phase :: phases, .cons hat hphases, ?_⟩
    intro q' hq'
    rcases List.mem_cons.mp hq' with rfl | hq'
    · rcases hphase with hphase | hphase
      · exact Option.some.inj hphase
      · cases hphase
    · exact hall q' hq'

/-- Programs that start in phases of their own are in them, or fail at once. -/
theorem exists_inPhases_map {A : Type} (s : σ) {as : List A} {f : A → Prog L σ ε α} {q : A → Q}
    (h : ∀ a ∈ as, (f a).Follows P I F (q a)) :
    ∃ phases, (⟨s, as.map f⟩ : Config L σ ε α).InPhases P I F phases ∧
      ∀ (i : Nat) r, phases[i]? = some (some r) → ∃ a, as[i]? = some a ∧ r = q a := by
  unfold InPhases
  induction as with
  | nil => exact ⟨[], .nil, by simp⟩
  | cons a as ih =>
    obtain ⟨phases, hphases, hall⟩ := ih fun a' ha' => h a' (List.mem_cons_of_mem a ha')
    obtain ⟨phase, hphase, hat⟩ := exists_atPhase (h a List.mem_cons_self)
    refine ⟨phase :: phases, .cons hat hphases, ?_⟩
    intro i r hr
    cases i with
    | zero =>
      rcases hphase with rfl | rfl
      · exact ⟨a, rfl, by simpa using hr.symm⟩
      · simp at hr
    | succ i => exact hall i r (by simpa using hr)

/-! ## Invariants -/

/-- What every step that a program takes hands on holds at the end: to schedule a program that has
ended changes nothing. -/
theorem exec_induction {R : Config L σ ε α → Prop} {ok : Config L σ ε α → Nat → Prop}
    (htake : ∀ c i l next cont, c.procs[i]? = some (.step l next cont) → ok c i → R c →
      R (c.step i))
    (schedule : List Nat) {c : Config L σ ε α} (hc : R c) (hok : c.Along ok schedule) :
    R (c.exec schedule) := by
  induction schedule generalizing c with
  | nil => exact hc
  | cons i rest ih =>
    obtain ⟨hi, hrest⟩ := hok
    rw [exec_cons]
    cases hp : c.procs[i]? with
    | none =>
      have hidle : c.step i = c := by simp [step, hp]
      rw [hidle] at hrest ⊢
      exact ih hc hrest
    | some p =>
      cases p with
      | done r =>
        have hidle : c.step i = c := by simp [step, hp]
        rw [hidle] at hrest ⊢
        exact ih hc hrest
      | step l next cont => exact ih (htake c i l next cont hp hi hc) hrest

/-- The shared state was `s` at some instant of the schedule. -/
def Visits (c : Config L σ ε α) (schedule : List Nat) (s : σ) : Prop :=
  ∃ past, past <+: schedule ∧ (c.exec past).state = s

/-- Every step is taken in a state that the schedule visits. -/
theorem along_visits (c : Config L σ ε α) (schedule : List Nat) :
    c.Along (fun c' _ => c.Visits schedule c'.state) schedule := by
  induction schedule generalizing c with
  | nil => trivial
  | cons i rest ih =>
    refine ⟨⟨[], List.nil_prefix, rfl⟩, (ih (c.step i)).mono ?_⟩
    rintro c' - ⟨past, hpast, hstate⟩
    exact ⟨i :: past, List.cons_prefix_cons.mpr ⟨rfl, hpast⟩, hstate⟩

theorem exec_append (c : Config L σ ε α) (schedule after : List Nat) :
    c.exec (schedule ++ after) = (c.exec schedule).exec after :=
  List.foldl_append

/-- Program `i` takes, under the condition `ok`, the protocol step `l` from phase `q` to
phase `q'`, which leaves the state `s'`. -/
structure Takes (P : Q → L → σ → Q → σ → Prop) (I : σ → Prop) (F : Q → α → Prop)
    (ok : Config L σ ε α → Nat → Prop) (c : Config L σ ε α) (phases : List (Option Q)) (i : Nat)
    (l : L) (q q' : Q) (s' : σ) : Prop where
  inPhases : c.InPhases P I F phases
  label : c.label i = some l
  phase : phases[i]? = some (some q)
  allowed : ok c i
  step : P q l c.state q' s'

/-- After the step, a program is in its new phase or where it was. -/
theorem Takes.phase_of_set {ok : Config L σ ε α → Nat → Prop} {c : Config L σ ε α}
    {phases : List (Option Q)} {i j : Nat} {l : L} {q q' r : Q} {s' : σ} {phase : Option Q}
    (h : Takes P I F ok c phases i l q q' s') (hphase : phase = some q' ∨ phase = none)
    (hj : (phases.set i phase)[j]? = some (some r)) :
    j = i ∧ r = q' ∨ j ≠ i ∧ phases[j]? = some (some r) := by
  rcases eq_or_ne j i with rfl | hne
  · rw [List.getElem?_set_self (List.getElem?_eq_some_iff.mp h.phase).1] at hj
    rcases hphase with rfl | rfl
    · exact Or.inl ⟨rfl, (Option.some.inj (Option.some.inj hj)).symm⟩
    · cases hj
  · rw [List.getElem?_set_ne (Ne.symm hne)] at hj
    exact Or.inr ⟨hne, hj⟩

/-- The invariant rule. `J` speaks of the shared state and the phases; it must be kept by
every protocol step that a program takes under the condition `ok`, also when the program
fails there. -/
theorem exec_invariant {J : σ → List (Option Q) → Prop} {ok : Config L σ ε α → Nat → Prop}
    (hI : ∀ s phases, J s phases → I s)
    (hstep : ∀ c phases i l q q' s', Takes P I F ok c phases i l q q' s' → J c.state phases →
      ∀ phase, (phase = some q' ∨ phase = none) → J s' (phases.set i phase))
    (schedule : List Nat) {c : Config L σ ε α} {phases : List (Option Q)}
    (hc : c.InPhases P I F phases) (hinv : J c.state phases) (hok : c.Along ok schedule) :
    ∃ phases', (c.exec schedule).InPhases P I F phases' ∧ J (c.exec schedule).state phases' := by
  refine exec_induction (R := fun c => ∃ phases, c.InPhases P I F phases ∧ J c.state phases)
    ?_ schedule ⟨phases, hc, hinv⟩ hok
  rintro c i l next cont hp hi ⟨phases, hc, hinv⟩
  obtain ⟨phase, hphase, hat⟩ := forall₂_getElem? hc hp
  obtain ⟨q, rfl, hf⟩ := hat.step
  obtain ⟨q', hP, hf'⟩ := hf c.state (hI _ _ hinv)
  obtain ⟨phase', hphase', hat'⟩ := exists_atPhase hf'
  have hinv' : J (next c.state) (phases.set i phase') :=
    hstep c phases i l q q' _ ⟨hc, label_of_getElem? hp, hphase, hi, hP⟩ hinv phase' hphase'
  rw [step_of_getElem? hp]
  exact ⟨phases.set i phase', forall₂_set hc i hat', hinv'⟩

/-- `G` is asserted of the shared state, and `A q` of it as long as a program is in phase
`q`. -/
def Asserts (G : σ → Prop) (A : Q → σ → Prop) (s : σ) (phases : List (Option Q)) : Prop :=
  G s ∧ ∀ q, some q ∈ phases → A q s

/-- A step that keeps `G`, establishes the assertion of the phase it enters and breaks no
assertion of another program keeps all assertions. -/
theorem Takes.asserts {G : σ → Prop} {A : Q → σ → Prop} {ok : Config L σ ε α → Nat → Prop}
    {c : Config L σ ε α} {phases : List (Option Q)} {i : Nat} {l : L} {q q' : Q} {s' : σ}
    (h : Takes P I F ok c phases i l q q' s') (hall : Asserts G A c.state phases) (hG : G s')
    (hA : A q' s')
    (hstable : ∀ j ≠ i, ∀ r, phases[j]? = some (some r) → A r c.state → A r s')
    {phase : Option Q} (hphase : phase = some q' ∨ phase = none) :
    Asserts G A s' (phases.set i phase) := by
  refine ⟨hG, ?_⟩
  intro r hr
  obtain ⟨j, hj⟩ := List.mem_iff_getElem?.mp hr
  rcases eq_or_ne j i with rfl | hne
  · rw [List.getElem?_set_self (List.getElem?_eq_some_iff.mp h.phase).1] at hj
    rcases hphase with rfl | rfl
    · cases hj
      exact hA
    · cases hj
  · rw [List.getElem?_set_ne (Ne.symm hne)] at hj
    exact hstable j hne r hj (hall.2 r (List.mem_of_getElem? hj))

/-- The rule of stable assertions. -/
theorem exec_stable {G : σ → Prop} {A : Q → σ → Prop} {ok : Config L σ ε α → Nat → Prop}
    (hI : ∀ s, G s → I s)
    (hstep : ∀ c phases i l q q' s', Takes P I F ok c phases i l q q' s' → G c.state →
      A q c.state → G s' ∧ A q' s')
    (hstable : ∀ c phases i l q q' s', Takes P I F ok c phases i l q q' s' → G c.state →
      A q c.state → ∀ j ≠ i, ∀ r, phases[j]? = some (some r) → A r c.state → A r s')
    (schedule : List Nat) {c : Config L σ ε α} {phases : List (Option Q)}
    (hc : c.InPhases P I F phases) (hall : Asserts G A c.state phases)
    (hok : c.Along ok schedule) :
    ∃ phases', (c.exec schedule).InPhases P I F phases' ∧
      Asserts G A (c.exec schedule).state phases' := by
  refine exec_invariant (fun s _ h => hI s h.1) ?_ schedule hc hall hok
  intro c phases i l q q' s' htakes hall phase hphase
  have hq : A q c.state := hall.2 q (List.mem_of_getElem? htakes.phase)
  obtain ⟨hG, hA⟩ := hstep c phases i l q q' s' htakes hall.1 hq
  exact htakes.asserts hall hG hA (hstable c phases i l q q' s' htakes hall.1 hq) hphase

end Config
