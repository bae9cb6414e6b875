import LavsCore.Lib.Program

/-!
# Programs that are cut short

`trace` is the list of the states that a program leaves after each of its steps. Cut
after `k` steps, the program leaves `after k`: the `k`-th state of the trace, and the
last one if the program has ended by then.

`Within R`: every step of the program is one of `R`. If `R` is a preorder, then the
state before the program is related to every state that a cut can leave.

`failing fault` is the program when some of its steps raise instead of being taken, and
`failingIn fault` the same where the states may decide which ones do.
-/

namespace Prog

variable {L σ ε α β : Type}

/-- The states after each step of a program that is executed alone. -/
def trace : Prog L σ ε α → σ → List σ
  | .done _, _ => []
  | .step _ next cont, s => next s :: (cont s).trace (next s)

/-- The state that the first `k` steps leave. -/
def after (k : Nat) (p : Prog L σ ε α) (s : σ) : σ := ((p.trace s).take k).getLastD s

@[simp] theorem trace_pure (a : α) (s : σ) : (pure a : Prog L σ ε α).trace s = [] := rfl

@[simp] theorem trace_raise (e : ε) (s : σ) : (raise e : Prog L σ ε α).trace s = [] := rfl

@[simp] theorem trace_lift (r : Except ε α) (s : σ) : (lift r : Prog L σ ε α).trace s = [] := rfl

@[simp] theorem trace_atomically (l : L) (f : σ → Except ε (α × σ)) (s : σ) :
    (atomically l f).trace s = [match f s with | .ok r => r.2 | .error _ => s] := by
  simp only [atomically, trace]
  cases f s <;> rfl

@[simp] theorem trace_query (l : L) (f : σ → α) (s : σ) :
    (query l f : Prog L σ ε α).trace s = [s] := by
  simp [query]

/-- The second part goes on from where the first part has ended. -/
theorem trace_bind (p : Prog L σ ε α) (f : α → Prog L σ ε β) (s : σ) :
    (p >>= f).trace s =
      p.trace s ++
        match p.run s with
        | (.ok a, s') => (f a).trace s'
        | (.error _, _) => [] := by
  show (p.bind f).trace s = _
  induction p generalizing s with
  | done r => cases r <;> rfl
  | step l next cont ih => exact congrArg (next s :: ·) (ih s (next s))

/-- The second part alone, if the first part succeeds. -/
theorem trace_bind_ok {p : Prog L σ ε α} {f : α → Prog L σ ε β} {s s' : σ} {a : α}
    (h : p.run s = (.ok a, s')) : (p >>= f).trace s = p.trace s ++ (f a).trace s' := by
  rw [trace_bind, h]

theorem trace_bind_error {p : Prog L σ ε α} {f : α → Prog L σ ε β} {s s' : σ} {e : ε}
    (h : p.run s = (.error e, s')) : (p >>= f).trace s = p.trace s := by
  rw [trace_bind, h, List.append_nil]

@[simp] theorem trace_bind_pure (g : α → β) (p : Prog L σ ε α) (s : σ) :
    (p >>= fun a => pure (g a)).trace s = p.trace s := by
  rw [trace_bind]
  rcases p.run s with ⟨_ | _, _⟩ <;> simp

/-- A program that is not cut leaves the last state of its trace. -/
theorem getLastD_trace (p : Prog L σ ε α) (s : σ) : (p.trace s).getLastD s = (p.run s).2 := by
  induction p generalizing s with
  | done _ => rfl
  | step l next cont ih =>
    rw [trace, List.getLastD_cons]
    exact ih s (next s)

theorem after_of_le {p : Prog L σ ε α} {s : σ} {k : Nat} (h : (p.trace s).length ≤ k) :
    p.after k s = (p.run s).2 := by
  rw [after, List.take_of_length_le h, getLastD_trace]

/-- Reading does not change the state, so a cut among the first reads leaves it. -/
theorem after_of_replicate {p : Prog L σ ε α} {s : σ} {n k : Nat} {rest : List σ}
    (h : p.trace s = List.replicate n s ++ rest) (hk : k ≤ n) : p.after k s = s := by
  rw [after, h, List.take_append_of_le_length (by rwa [List.length_replicate]),
    List.take_replicate, Nat.min_eq_left hk]
  cases k with
  | zero => rfl
  | succ k => rw [List.replicate_succ', List.getLastD_concat]

/-- The state that a cut leaves is the one after the last step before it. -/
theorem trace_getElem? {p : Prog L σ ε α} {s : σ} {k : Nat} (hk : k < (p.trace s).length) :
    (p.trace s)[k]? = some (p.after (k + 1) s) := by
  rw [List.getElem?_eq_getElem hk, after, List.take_succ_eq_append_getElem hk,
    List.getLastD_concat]

/-- A program that leaves its state at every step leaves it at every cut. -/
theorem after_of_forall_eq {p : Prog L σ ε α} {s : σ} (h : ∀ c ∈ p.trace s, c = s) (k : Nat) :
    p.after k s = s := by
  have htrace : p.trace s = List.replicate (p.trace s).length s ++ [] := by
    rw [List.append_nil]
    exact List.eq_replicate_of_mem h
  rcases Nat.le_total k (p.trace s).length with hle | hge
  · exact after_of_replicate htrace hle
  · rw [after_of_le hge, ← after_of_le (Nat.le_refl _)]
    exact after_of_replicate htrace (Nat.le_refl _)

/-- A cut after the last step is no cut. -/
theorem exists_getElem?_after {p : Prog L σ ε α} {s : σ} {n k : Nat} (hn : n < k)
    (hlength : n < (p.trace s).length) :
    ∃ i, n ≤ i ∧ i < k ∧ (p.trace s)[i]? = some (p.after k s) := by
  rcases Nat.lt_or_ge k (p.trace s).length with hlt | hge
  · obtain ⟨k, rfl⟩ : ∃ j, k = j + 1 := ⟨k - 1, by omega⟩
    exact ⟨k, by omega, by omega, trace_getElem? (by omega)⟩
  · obtain ⟨last, hlast⟩ : ∃ j, (p.trace s).length = j + 1 :=
      ⟨(p.trace s).length - 1, by omega⟩
    refine ⟨last, by omega, by omega, ?_⟩
    rw [trace_getElem? (by omega), ← hlast, after_of_le (Nat.le_refl _), after_of_le hge]

/-! ## What every step does -/

/-- Every step of the program is a step of `R`. -/
def Within (R : σ → σ → Prop) : Prog L σ ε α → Prop
  | .done _ => True
  | .step _ next cont => ∀ s, R s (next s) ∧ (cont s).Within R

section Within

variable {R : σ → σ → Prop}

theorem within_bind {p : Prog L σ ε α} {f : α → Prog L σ ε β} (hp : p.Within R)
    (hf : ∀ a, (f a).Within R) : (p >>= f).Within R := by
  show (p.bind f).Within R
  induction p with
  | done r =>
    cases r with
    | ok a => exact hf a
    | error _ => exact trivial
  | step l next cont ih => exact fun s => ⟨(hp s).1, ih s (hp s).2⟩

theorem within_atomically {l : L} {f : σ → Except ε (α × σ)} (hrefl : ∀ s, R s s)
    (hf : ∀ s a s', f s = .ok (a, s') → R s s') : (atomically l f).Within R := by
  intro s
  dsimp only
  cases h : f s with
  | ok r => exact ⟨hf s r.1 r.2 h, trivial⟩
  | error _ => exact ⟨hrefl s, trivial⟩

theorem within_query {l : L} {f : σ → α} (hrefl : ∀ s, R s s) :
    (query l f : Prog L σ ε α).Within R :=
  within_atomically hrefl fun s _ _ h => by cases h; exact hrefl s

theorem within_forM {f : β → Prog L σ ε PUnit} (hf : ∀ x, (f x).Within R) (xs : List β) :
    (forM xs f : Prog L σ ε PUnit).Within R := by
  induction xs with
  | nil => exact trivial
  | cons x xs ih => exact within_bind (hf x) fun _ => ih

theorem Within.trace {p : Prog L σ ε α} (h : p.Within R)
    (htrans : ∀ s s' s'', R s s' → R s' s'' → R s s'') (s : σ) : ∀ c ∈ p.trace s, R s c := by
  induction p generalizing s with
  | done _ => exact fun c hc => absurd hc List.not_mem_nil
  | step l next cont ih =>
    intro c hc
    rcases List.mem_cons.mp hc with rfl | hc
    · exact (h s).1
    · exact htrans _ _ _ (h s).1 (ih s (h s).2 (next s) c hc)

theorem Within.run {p : Prog L σ ε α} (h : p.Within R) (hrefl : ∀ s, R s s)
    (htrans : ∀ s s' s'', R s s' → R s' s'' → R s s'') (s : σ) : R s (p.run s).2 := by
  induction p generalizing s with
  | done _ => exact hrefl s
  | step l next cont ih => exact htrans _ _ _ (h s).1 (ih s (h s).2 (next s))

end Within

/-! ## Steps that raise -/

/-- The program when the steps that have a `fault` in the state they meet raise. The state stays,
and the fault is what leaves the program, whatever it makes of the errors of the step. -/
def failingIn (fault : L → σ → Option ε) : Prog L σ ε α → Prog L σ ε α
  | .done r => .done r
  | .step l next cont =>
    .step l (fun s => if (fault l s).isSome then s else next s)
      (fun s => match fault l s with
        | some e => .done (.error e)
        | none => (cont s).failingIn fault)

/-- The program when the steps that have a `fault` raise, in whatever state. -/
def failing (fault : L → Option ε) (p : Prog L σ ε α) : Prog L σ ε α :=
  p.failingIn fun l _ => fault l

section FailingIn

variable (fault : L → σ → Option ε)

@[simp] theorem failingIn_raise (e : ε) :
    (raise e : Prog L σ ε α).failingIn fault = raise e := rfl

@[simp] theorem failingIn_pure (a : α) :
    (pure a : Prog L σ ε α).failingIn fault = pure a := rfl

@[simp] theorem failingIn_lift (r : Except ε α) :
    (lift r : Prog L σ ε α).failingIn fault = lift r := rfl

@[simp] theorem failingIn_bind (p : Prog L σ ε α) (f : α → Prog L σ ε β) :
    (p >>= f).failingIn fault = p.failingIn fault >>= fun a => (f a).failingIn fault := by
  show (p.bind f).failingIn fault = (p.failingIn fault).bind _
  induction p with
  | done r => cases r <;> rfl
  | step l next cont ih =>
    simp only [Prog.bind, failingIn]
    congr 1
    funext s
    cases fault l s with
    | some e => rfl
    | none => exact ih s

/-- A single step. -/
theorem run_failingIn_atomically (l : L) (f : σ → Except ε (α × σ)) (s : σ) :
    ((atomically l f).failingIn fault).run s =
      match fault l s with
      | some e => (.error e, s)
      | none => (atomically l f).run s := by
  simp only [atomically, failingIn, run_step]
  cases fault l s with
  | some e => rfl
  | none => cases f s <;> rfl

/-- A single step whose errors are replaced by others. -/
theorem run_failingIn_mapError (g : ε → ε) (l : L) (f : σ → Except ε (α × σ)) (s : σ) :
    (((atomically l f).mapError g).failingIn fault).run s =
      match fault l s with
      | some e => (.error e, s)
      | none => ((atomically l f).mapError g).run s := by
  simp only [atomically, mapError, failingIn, run_step]
  cases fault l s with
  | some e => rfl
  | none => cases f s <;> rfl

/-- A loop whose first turn fails stops there. -/
theorem run_failingIn_forM_cons (f : β → Prog L σ ε PUnit) (x : β) (xs : List β) (s : σ) :
    ((forM (x :: xs) f : Prog L σ ε PUnit).failingIn fault).run s =
      match ((f x).failingIn fault).run s with
      | (.ok _, s') => ((forM xs f : Prog L σ ε PUnit).failingIn fault).run s'
      | (.error e, s') => (.error e, s') := by
  show ((f x >>= fun _ => forM xs f).failingIn fault).run s = _
  rw [failingIn_bind, run_bind]
  rcases ((f x).failingIn fault).run s with ⟨_ | _, _⟩ <;> rfl

/-- A step that raises leaves the state, so it is within every reflexive relation. -/
theorem Within.failingIn {R : σ → σ → Prop} {p : Prog L σ ε α} (h : p.Within R)
    (hrefl : ∀ s, R s s) : (p.failingIn fault).Within R := by
  induction p with
  | done r => exact trivial
  | step l next cont ih =>
    intro s
    dsimp only
    cases fault l s with
    | some e => exact ⟨hrefl s, trivial⟩
    | none => exact ⟨(h s).1, ih s (h s).2⟩

end FailingIn

section Failing

variable (fault : L → Option ε)

@[simp] theorem failing_raise (e : ε) :
    (raise e : Prog L σ ε α).failing fault = raise e := rfl

@[simp] theorem failing_pure (a : α) :
    (pure a : Prog L σ ε α).failing fault = pure a := rfl

@[simp] theorem failing_lift (r : Except ε α) :
    (lift r : Prog L σ ε α).failing fault = lift r := rfl

@[simp] theorem failing_bind (p : Prog L σ ε α) (f : α → Prog L σ ε β) :
    (p >>= f).failing fault = p.failing fault >>= fun a => (f a).failing fault :=
  failingIn_bind _ p f

theorem run_failing_atomically (l : L) (f : σ → Except ε (α × σ)) (s : σ) :
    ((atomically l f).failing fault).run s =
      match fault l with
      | some e => (.error e, s)
      | none => (atomically l f).run s :=
  run_failingIn_atomically _ l f s

theorem run_failing_mapError (g : ε → ε) (l : L) (f : σ → Except ε (α × σ)) (s : σ) :
    (((atomically l f).mapError g).failing fault).run s =
      match fault l with
      | some e => (.error e, s)
      | none => ((atomically l f).mapError g).run s :=
  run_failingIn_mapError _ g l f s

end Failing

end Prog
