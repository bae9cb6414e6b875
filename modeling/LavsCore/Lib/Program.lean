/-!
# Programs of atomic steps

A `Prog L σ ε α` is a program over a shared state `σ`. It has ended, with a
value of `α` or an error of `ε`, or it takes one atomic step and goes on with a
program that depends on the state it saw. Every step carries a label of `L`, so
that a schedule of several programs can be described by what is executed next.

A step that has been taken stays taken: an error later in the program does not
undo it. `run` executes a program alone, to its end.
-/

/-- A program over the state `σ` with step labels `L`, errors `ε` and result `α`.
`step l next cont` turns the state `s` into `next s` and goes on with `cont s`. -/
inductive Prog (L σ ε α : Type) where
  | done : Except ε α → Prog L σ ε α
  | step : L → (σ → σ) → (σ → Prog L σ ε α) → Prog L σ ε α

namespace Prog

variable {L σ ε α β : Type}

/-- Sequential composition: an error ends the program, a value is handed on. -/
def bind : Prog L σ ε α → (α → Prog L σ ε β) → Prog L σ ε β
  | .done (.ok a), f => f a
  | .done (.error e), _ => .done (.error e)
  | .step l next cont, f => .step l next fun s => (cont s).bind f

instance : Monad (Prog L σ ε) where
  pure a := .done (.ok a)
  bind := Prog.bind

/-- End with an error. -/
def raise (e : ε) : Prog L σ ε α := .done (.error e)

/-- Hand on a computation that does not touch the state. -/
def lift (r : Except ε α) : Prog L σ ε α := .done r

/-- One atomic step. A step that fails leaves the state as it was. -/
def atomically (l : L) (f : σ → Except ε (α × σ)) : Prog L σ ε α :=
  .step l (fun s => match f s with | .ok r => r.2 | .error _ => s)
    (fun s => match f s with | .ok r => .done (.ok r.1) | .error e => .done (.error e))

/-- An atomic step that only reads. -/
def query (l : L) (f : σ → α) : Prog L σ ε α := atomically l fun s => .ok (f s, s)

/-- Raise another error in the place of the one the program ends with. -/
def mapError (g : ε → ε) : Prog L σ ε α → Prog L σ ε α
  | .done (.ok a) => .done (.ok a)
  | .done (.error e) => .done (.error (g e))
  | .step l next cont => .step l next fun s => (cont s).mapError g

/-- Execute a program alone: its outcome and the state it leaves. -/
def run : Prog L σ ε α → σ → Except ε α × σ
  | .done r, s => (r, s)
  | .step _ next cont, s => (cont s).run (next s)

@[simp] theorem run_done (r : Except ε α) (s : σ) :
    (Prog.done r : Prog L σ ε α).run s = (r, s) := rfl

@[simp] theorem run_step (l : L) (next : σ → σ) (cont : σ → Prog L σ ε α) (s : σ) :
    (Prog.step l next cont).run s = (cont s).run (next s) := rfl

@[simp] theorem run_pure (a : α) (s : σ) : (pure a : Prog L σ ε α).run s = (.ok a, s) := rfl

@[simp] theorem run_raise (e : ε) (s : σ) :
    (raise e : Prog L σ ε α).run s = (.error e, s) := rfl

@[simp] theorem run_lift (r : Except ε α) (s : σ) : (lift r : Prog L σ ε α).run s = (r, s) := rfl

@[simp] theorem run_atomically (l : L) (f : σ → Except ε (α × σ)) (s : σ) :
    (atomically l f).run s =
      match f s with
      | .ok r => (.ok r.1, r.2)
      | .error e => (.error e, s) := by
  simp only [atomically, run_step]
  cases f s <;> rfl

@[simp] theorem run_query (l : L) (f : σ → α) (s : σ) :
    (query l f : Prog L σ ε α).run s = (.ok (f s), s) := by
  simp [query]

/-- The state of the first part is the state the second part starts from, whether
or not the second part succeeds. -/
@[simp] theorem run_bind (p : Prog L σ ε α) (f : α → Prog L σ ε β) (s : σ) :
    (p >>= f).run s =
      match p.run s with
      | (.ok a, s') => (f a).run s'
      | (.error e, s') => (.error e, s') := by
  show (p.bind f).run s = _
  induction p generalizing s with
  | done r => cases r <;> rfl
  | step l next cont ih => exact ih s (next s)

@[simp] theorem run_map (g : α → β) (p : Prog L σ ε α) (s : σ) :
    (g <$> p).run s =
      match p.run s with
      | (.ok a, s') => (.ok (g a), s')
      | (.error e, s') => (.error e, s') := by
  show (p >>= fun a => pure (g a)).run s = _
  rw [run_bind]
  rfl

@[simp] theorem run_mapError (g : ε → ε) (p : Prog L σ ε α) (s : σ) :
    (p.mapError g).run s =
      match p.run s with
      | (.ok a, s') => (.ok a, s')
      | (.error e, s') => (.error (g e), s') := by
  induction p generalizing s with
  | done r => cases r <;> rfl
  | step l next cont ih => exact ih s (next s)

/-- A fact about the run of a program is a fact about its answer and the state it leaves. -/
theorem exists_outcome {R : Except ε α → σ → Prop} {p : Prog L σ ε α} {s : σ}
    {answer : Except ε α} (hrun : R (p.run s).1 (p.run s).2) (h : (p.run s).1 = answer) :
    ∃ s', (p.run s).2 = s' ∧ R answer s' :=
  ⟨_, rfl, h ▸ hrun⟩

/-- A loop whose first turn fails stops there. -/
theorem run_forM_cons (f : β → Prog L σ ε PUnit) (x : β) (xs : List β) (s : σ) :
    (forM (x :: xs) f : Prog L σ ε PUnit).run s =
      match (f x).run s with
      | (.ok _, s') => (forM xs f : Prog L σ ε PUnit).run s'
      | (.error e, s') => (.error e, s') := by
  show (f x >>= fun _ => forM xs f).run s = _
  rw [run_bind]
  rcases (f x).run s with ⟨_ | _, _⟩ <;> rfl

/-! ## Programs that only read -/

/-- The program leaves every state as it is. -/
def ReadOnly (p : Prog L σ ε α) : Prop := ∀ s, (p.run s).2 = s

theorem readOnly_pure (a : α) : ReadOnly (pure a : Prog L σ ε α) := fun _ => rfl

theorem readOnly_raise (e : ε) : ReadOnly (raise e : Prog L σ ε α) := fun _ => rfl

theorem readOnly_lift (r : Except ε α) : ReadOnly (lift r : Prog L σ ε α) := fun _ => rfl

theorem readOnly_query (l : L) (f : σ → α) : ReadOnly (query l f : Prog L σ ε α) := fun _ => rfl

theorem ReadOnly.bind {p : Prog L σ ε α} {f : α → Prog L σ ε β} (hp : ReadOnly p)
    (hf : ∀ a, ReadOnly (f a)) : ReadOnly (p >>= f) := by
  intro s
  have hstate := hp s
  rw [run_bind]
  cases hrun : p.run s with
  | mk answer s' =>
    rw [hrun] at hstate
    cases answer with
    | error e => exact hstate
    | ok a => exact (hf a s').trans hstate

end Prog
