import Mathlib.Data.List.DropRight

/-!
# A bounded queue that drops its oldest element

A writer puts elements into a queue, a reader takes them from its front, and a queue that is
full makes room by dropping the element at the front (`dropOldest`). What the reader has
received is then given by positions among the elements that were put.

`BoundedQueue.exists_follows`: the positions increase, the queue holds the newest of the
elements after the last of them, and an element that the reader never gets was dropped at a
moment when `capacity` newer ones were waiting.
-/

section DropOldest

variable {β : Type} {capacity : Nat}

/-- Enqueue; a full queue makes room first. -/
def dropOldest (capacity : Nat) (queue : List β) (x : β) : List β :=
  if queue.length < capacity then queue ++ [x] else queue.tail ++ [x]

/-- What makes room in a full queue. -/
def evicted (capacity : Nat) (queue : List β) : List β :=
  if queue.length < capacity then [] else queue.take 1

/-- Nothing but the evicted element goes, and the rest keeps its order. -/
theorem evicted_append_dropOldest (queue : List β) (x : β) :
    evicted capacity queue ++ dropOldest capacity queue x = queue ++ [x] := by
  unfold evicted dropOldest
  split
  · rfl
  · rw [← List.append_assoc, ← List.drop_one, List.take_append_drop]

theorem mem_dropOldest_self (queue : List β) (x : β) : x ∈ dropOldest capacity queue x := by
  unfold dropOldest
  split <;> exact List.mem_append_right _ List.mem_cons_self

/-- Enqueue one after the other. -/
def dropOldestAll (capacity : Nat) (queue xs : List β) : List β :=
  xs.foldl (dropOldest capacity) queue

/-- What made room on the way. -/
def evictedAll (capacity : Nat) : (queue xs : List β) → List β
  | _, [] => []
  | queue, x :: rest =>
    evicted capacity queue ++ evictedAll capacity (dropOldest capacity queue x) rest

theorem evictedAll_append_dropOldestAll (queue xs : List β) :
    evictedAll capacity queue xs ++ dropOldestAll capacity queue xs = queue ++ xs := by
  induction xs generalizing queue with
  | nil => exact (List.append_nil queue).symm
  | cons x rest ih =>
    calc
      evictedAll capacity queue (x :: rest) ++ dropOldestAll capacity queue (x :: rest)
        = evicted capacity queue ++ (evictedAll capacity (dropOldest capacity queue x) rest ++
            dropOldestAll capacity (dropOldest capacity queue x) rest) := List.append_assoc _ _ _
      _ = evicted capacity queue ++ dropOldest capacity queue x ++ rest := by
        rw [ih, List.append_assoc]
      _ = queue ++ x :: rest := by
        rw [evicted_append_dropOldest, List.append_assoc, List.singleton_append]

/-- What goes first is the front of the queue. -/
theorem take_evictedAll_subset (queue xs : List β) :
    queue.take (evictedAll capacity queue xs).length ⊆ evictedAll capacity queue xs := by
  have h := congrArg (List.take (evictedAll capacity queue xs).length)
    (@evictedAll_append_dropOldestAll β capacity queue xs)
  rw [List.take_left, List.take_append] at h
  intro y hy
  rw [h]
  exact List.mem_append_left _ hy

/-- What was in the queue and has not made room is still there. -/
theorem drop_evictedAll_subset (queue xs : List β) :
    queue.drop (evictedAll capacity queue xs).length ⊆ dropOldestAll capacity queue xs := by
  have h := congrArg (List.drop (evictedAll capacity queue xs).length)
    (@evictedAll_append_dropOldestAll β capacity queue xs)
  rw [List.drop_left, List.drop_append] at h
  rw [h]
  exact List.subset_append_left _ _

theorem dropOldestAll_subset (queue xs : List β) :
    dropOldestAll capacity queue xs ⊆
      queue.drop (evictedAll capacity queue xs).length ++ xs := by
  have h := congrArg (List.drop (evictedAll capacity queue xs).length)
    (@evictedAll_append_dropOldestAll β capacity queue xs)
  rw [List.drop_left, List.drop_append] at h
  intro y hy
  rw [h] at hy
  rcases List.mem_append.mp hy with hqueue | hxs
  · exact List.mem_append_left _ hqueue
  · exact List.mem_append_right _ (List.mem_of_mem_drop hxs)

theorem dropOldest_length (hpos : 0 < capacity) {queue : List β} (x : β)
    (h : queue.length ≤ capacity) : (dropOldest capacity queue x).length ≤ capacity := by
  unfold dropOldest
  split
  · rw [List.length_append, List.length_singleton]
    omega
  · rw [List.length_append, List.length_tail, List.length_singleton]
    omega

theorem dropOldestAll_length (hpos : 0 < capacity) {queue : List β} (xs : List β)
    (h : queue.length ≤ capacity) : (dropOldestAll capacity queue xs).length ≤ capacity := by
  induction xs generalizing queue with
  | nil => exact h
  | cons x rest ih => exact ih (dropOldest_length hpos x h)

/-- While the bound is kept, what stays are the newest elements. -/
theorem dropOldest_eq_rtake (hpos : 0 < capacity) {queue : List β} (x : β)
    (h : queue.length ≤ capacity) :
    dropOldest capacity queue x = (queue ++ [x]).rtake capacity := by
  rw [List.rtake, List.length_append, List.length_singleton]
  unfold dropOldest
  split
  · rw [Nat.sub_eq_zero_of_le (by omega), List.drop_zero]
  · next hfull =>
    have hone : queue.length + 1 - capacity = 1 := by omega
    rw [hone, List.drop_append_of_le_length (by omega), List.drop_one]

theorem rtake_rtake_append (xs ys : List β) :
    (xs.rtake capacity ++ ys).rtake capacity = (xs ++ ys).rtake capacity := by
  simp only [List.rtake, List.length_append, List.length_drop]
  rw [← List.drop_append_of_le_length (Nat.sub_le _ _), List.drop_drop]
  congr 1
  omega

/-- What stays of many are the newest ones. -/
theorem dropOldestAll_eq_rtake (hpos : 0 < capacity) {queue : List β} (xs : List β)
    (h : queue.length ≤ capacity) :
    dropOldestAll capacity queue xs = (queue ++ xs).rtake capacity := by
  induction xs generalizing queue with
  | nil =>
    rw [List.append_nil, List.rtake, Nat.sub_eq_zero_of_le h]
    rfl
  | cons x rest ih =>
    rw [dropOldestAll, List.foldl_cons]
    refine (ih (dropOldest_length hpos x h)).trans ?_
    rw [dropOldest_eq_rtake hpos x h, rtake_rtake_append, List.append_assoc, List.singleton_append]

end DropOldest

/-! ## Readers -/

namespace BoundedQueue

variable {α : Type}

inductive Op (α : Type) where
  | put (x : α)
  | get

/-- The elements that wait, and those that the reader has received. -/
structure State (α : Type) where
  pending : List α
  received : List α

def step (capacity : Nat) (s : State α) : Op α → State α
  | .put x => { s with pending := dropOldest capacity s.pending x }
  | .get =>
    match s.pending with
    | [] => s
    | x :: rest => ⟨rest, s.received ++ [x]⟩

def runFrom (capacity : Nat) (s : State α) (ops : List (Op α)) : State α :=
  ops.foldl (step capacity) s

def run (capacity : Nat) (ops : List (Op α)) : State α := runFrom capacity ⟨[], []⟩ ops

/-- All elements that were put, in order. -/
def puts (ops : List (Op α)) : List α :=
  ops.filterMap fun
    | .put x => some x
    | .get => none

/-- The position after the last one. -/
def next (positions : List Nat) : Nat := positions.getLast?.elim 0 (· + 1)

/-- What the reader has received are the elements at these positions. -/
structure Follows (capacity : Nat) (ops : List (Op α)) (positions : List Nat) : Prop where
  increasing : positions.Pairwise (· < ·)
  received : (run capacity ops).received.map some = positions.map fun i => (puts ops)[i]?
  pending : (run capacity ops).pending = ((puts ops).drop (next positions)).rtake capacity
  /-- Every element was received, waits, or was dropped when newer ones filled the queue. -/
  lost : ∀ i < (puts ops).length, i ∈ positions ∨
    (puts ops).length ≤ i + (run capacity ops).pending.length ∨
      ∃ before after, ops = before ++ after ∧
        (run capacity before).pending = ((puts ops).drop (i + 1)).take capacity ∧
        (run capacity before).pending.length = capacity

section

variable {capacity : Nat} {ops : List (Op α)} {positions : List Nat} {x : α}

theorem puts_append (ops ops' : List (Op α)) : puts (ops ++ ops') = puts ops ++ puts ops' :=
  List.filterMap_append

@[simp] theorem puts_put : puts (ops ++ [.put x]) = puts ops ++ [x] := by
  rw [puts_append]
  rfl

@[simp] theorem puts_get : puts (ops ++ [.get]) = puts ops := by
  rw [puts_append]
  exact List.append_nil _

theorem run_append_singleton (op : Op α) :
    run capacity (ops ++ [op]) = step capacity (run capacity ops) op := by
  rw [run, runFrom, List.foldl_append]
  rfl

theorem pending_length_le (hpos : 0 < capacity) (ops : List (Op α)) :
    (run capacity ops).pending.length ≤ capacity := by
  induction ops using List.reverseRecOn with
  | nil => exact Nat.zero_le capacity
  | append_singleton ops op ih =>
    rw [run_append_singleton]
    cases op with
    | put x => exact dropOldest_length hpos x ih
    | get =>
      unfold step
      cases hpending : (run capacity ops).pending with
      | nil => simp [hpending]
      | cons y rest =>
        rw [hpending, List.length_cons] at ih
        exact Nat.le_of_succ_le ih

/-! ## The place of the queue -/

/-- Where the waiting elements begin. -/
def start (capacity : Nat) (ops : List (Op α)) (positions : List Nat) : Nat :=
  max (next positions) ((puts ops).length - capacity)

theorem Follows.mem_lt (h : Follows capacity ops positions) {i : Nat} (hi : i ∈ positions) :
    i < (puts ops).length := by
  have hmem : (puts ops)[i]? ∈ (run capacity ops).received.map some := by
    rw [h.received]
    exact List.mem_map_of_mem hi
  obtain ⟨y, -, hy⟩ := List.mem_map.mp hmem
  obtain ⟨hlt, -⟩ := List.getElem?_eq_some_iff.mp hy.symm
  exact hlt

theorem Follows.next_le (h : Follows capacity ops positions) :
    next positions ≤ (puts ops).length := by
  unfold next
  cases hlast : positions.getLast? with
  | none => exact Nat.zero_le _
  | some i => exact h.mem_lt (List.mem_of_getLast? hlast)

theorem Follows.pending_eq (h : Follows capacity ops positions) :
    (run capacity ops).pending = (puts ops).drop (start capacity ops positions) := by
  have hle := h.next_le
  rw [h.pending, List.rtake, List.drop_drop, List.length_drop]
  congr 1
  unfold start
  omega

theorem Follows.start_le (h : Follows capacity ops positions) :
    start capacity ops positions ≤ (puts ops).length :=
  max_le h.next_le (Nat.sub_le _ _)

theorem Follows.pending_length (h : Follows capacity ops positions) :
    (run capacity ops).pending.length = (puts ops).length - start capacity ops positions := by
  rw [h.pending_eq, List.length_drop]

theorem lt_next {i : Nat} (hincreasing : positions.Pairwise (· < ·)) (hi : i ∈ positions) :
    i < next positions := by
  unfold next
  cases hlast : positions.getLast? with
  | none => exact absurd (List.getLast?_eq_none_iff.mp hlast ▸ hi) List.not_mem_nil
  | some j =>
    obtain ⟨before, rfl⟩ := List.getLast?_eq_some_iff.mp hlast
    rcases List.mem_append.mp hi with hi | hi
    · have hlt := (List.pairwise_append.mp hincreasing).2.2 i hi j (List.mem_singleton_self j)
      exact Nat.lt_succ_of_lt hlt
    · exact Nat.lt_succ_of_le (List.mem_singleton.mp hi).le

/-! ## One step -/

/-- The moment at which an element was dropped is not changed by what comes later. -/
theorem Follows.dropped_put {i : Nat} (hi : i < (puts ops).length)
    (h : ∃ before after, ops = before ++ after ∧
      (run capacity before).pending = ((puts ops).drop (i + 1)).take capacity ∧
      (run capacity before).pending.length = capacity) (x : α) :
    ∃ before after, ops ++ [.put x] = before ++ after ∧
      (run capacity before).pending = ((puts ops ++ [x]).drop (i + 1)).take capacity ∧
      (run capacity before).pending.length = capacity := by
  obtain ⟨before, after, rfl, hpending, hlength⟩ := h
  refine ⟨before, after ++ [.put x], by rw [List.append_assoc], ?_, hlength⟩
  have hroom : capacity ≤ ((puts (before ++ after)).drop (i + 1)).length := by
    rw [hpending, List.length_take] at hlength
    omega
  rw [List.drop_append_of_le_length hi, List.take_append_of_le_length hroom, hpending]

theorem Follows.put (hpos : 0 < capacity) (h : Follows capacity ops positions) (x : α) :
    Follows capacity (ops ++ [.put x]) positions := by
  have hnext := h.next_le
  have hstart := h.start_le
  have hlength := h.pending_length
  have hpending : (run capacity (ops ++ [.put x])).pending =
      ((puts ops ++ [x]).drop (next positions)).rtake capacity := by
    rw [run_append_singleton]
    show dropOldest capacity (run capacity ops).pending x = _
    rw [dropOldest_eq_rtake hpos x (pending_length_le hpos ops), h.pending_eq,
      ← List.drop_append_of_le_length hstart, List.rtake, List.rtake,
      List.drop_drop, List.drop_drop, List.length_drop, List.length_drop, List.length_append,
      List.length_singleton]
    congr 1
    unfold start at hstart ⊢
    omega
  have hlength' : (run capacity (ops ++ [.put x])).pending.length =
      (puts ops).length + 1 - max (next positions) ((puts ops).length + 1 - capacity) := by
    rw [hpending, List.rtake, List.length_drop, List.length_drop, List.length_append,
      List.length_singleton]
    omega
  refine ⟨h.increasing, ?_, by rw [hpending, puts_put], fun i hi => ?_⟩
  · rw [run_append_singleton, puts_put]
    show (run capacity ops).received.map some = _
    rw [h.received]
    refine List.map_congr_left fun i hi => ?_
    rw [List.getElem?_append_left (h.mem_lt hi)]
  · rw [puts_put, List.length_append, List.length_singleton] at hi ⊢
    -- An element that waits no longer has made room for the new one.
    by_cases hwaits : (puts ops).length + 1 ≤ i + (run capacity (ops ++ [.put x])).pending.length
    · exact Or.inr (Or.inl hwaits)
    by_cases hdropped : (puts ops).length ≤ i + (run capacity ops).pending.length
    · refine Or.inr (Or.inr ⟨ops ++ [.put x], [], (List.append_nil _).symm, ?_, ?_⟩)
      · unfold start at hstart hlength
        rw [hpending, List.rtake, List.drop_drop, List.length_drop, List.length_append,
          List.length_singleton, List.take_of_length_le]
        · congr 1
          omega
        · rw [List.length_drop, List.length_append, List.length_singleton]
          omega
      · unfold start at hstart hlength
        omega
    · have hold : i < (puts ops).length := by omega
      rcases h.lost i hold with hmem | hle | hmoment
      · exact Or.inl hmem
      · exact absurd hle hdropped
      · exact Or.inr (Or.inr (dropped_put hold hmoment x))

theorem Follows.get (h : Follows capacity ops positions) :
    ∃ positions', Follows capacity (ops ++ [.get]) positions' := by
  have hstart := h.start_le
  have hpending := h.pending_eq
  have hlength := h.pending_length
  rcases hstart.eq_or_lt with heq | hlt
  · -- Nothing waits.
    have hstep : run capacity (ops ++ [.get]) = run capacity ops := by
      rw [run_append_singleton, step, hpending, heq, List.drop_length]
    refine ⟨positions, h.increasing, ?_, ?_, fun i hi => ?_⟩
    · rw [hstep, puts_get, h.received]
    · rw [hstep, puts_get, h.pending]
    · rw [puts_get] at hi ⊢
      rw [hstep]
      rcases h.lost i hi with hmem | hle | ⟨before, after, rfl, hmoment⟩
      · exact Or.inl hmem
      · exact Or.inr (Or.inl hle)
      · exact Or.inr (Or.inr ⟨before, after ++ [.get], by rw [List.append_assoc], hmoment⟩)
  · -- The element at `start` is received.
    have hcons := hpending.trans (List.drop_eq_getElem_cons hlt)
    have hstep : run capacity (ops ++ [.get]) =
        ⟨(puts ops).drop (start capacity ops positions + 1),
          (run capacity ops).received ++ [(puts ops)[start capacity ops positions]]⟩ := by
      rw [run_append_singleton, step, hcons]
    have hnext : next (positions ++ [start capacity ops positions]) =
        start capacity ops positions + 1 := by
      rw [next, List.getLast?_append, List.getLast?_singleton]
      rfl
    refine ⟨positions ++ [start capacity ops positions], ?_, ?_, ?_, fun i hi => ?_⟩
    · refine List.pairwise_append.mpr ⟨h.increasing, List.pairwise_singleton _ _, ?_⟩
      intro i hi j hj
      rw [List.mem_singleton.mp hj]
      exact (lt_next h.increasing hi).trans_le (le_max_left _ _)
    · rw [hstep, puts_get, List.map_append, List.map_append, h.received, List.map_singleton,
        List.map_singleton, List.getElem?_eq_getElem hlt]
    · rw [hstep, puts_get, hnext, List.rtake, List.drop_drop, List.length_drop]
      have hroom : (puts ops).length - (start capacity ops positions + 1) - capacity = 0 := by
        unfold start
        omega
      rw [hroom, Nat.add_zero]
    · rw [puts_get] at hi ⊢
      rw [hstep, List.length_drop]
      rcases h.lost i hi with hmem | hle | ⟨before, after, rfl, hmoment⟩
      · exact Or.inl (List.mem_append_left _ hmem)
      · rcases Nat.eq_or_lt_of_le (show start capacity ops positions ≤ i by omega) with rfl | hgt
        · exact Or.inl (List.mem_append_right _ (List.mem_singleton_self _))
        · exact Or.inr (Or.inl (by omega))
      · exact Or.inr (Or.inr ⟨before, after ++ [.get], by rw [List.append_assoc], hmoment⟩)

end

/-- An element that the reader has not received is newer than all that it has, or had to make room
for as many as the queue holds. -/
theorem Follows.skipped (h : Follows capacity ops positions) {i : Nat}
    (hi : i < (puts ops).length) (hnot : i ∉ positions) :
    (∀ j ∈ positions, j < i) ∨ i + capacity < (puts ops).length := by
  rcases h.lost i hi with hmem | hwaits | ⟨before, after, -, hpending, hfull⟩
  · exact absurd hmem hnot
  · left
    have hstart := h.start_le
    rw [h.pending_length] at hwaits
    have hnext : next positions ≤ start capacity ops positions := le_max_left _ _
    intro j hj
    have hlt := lt_next h.increasing hj
    omega
  · right
    rw [hpending, List.length_take, List.length_drop] at hfull
    omega

theorem exists_follows {capacity : Nat} (hpos : 0 < capacity) (ops : List (Op α)) :
    ∃ positions, Follows capacity ops positions := by
  induction ops using List.reverseRecOn with
  | nil =>
    refine ⟨[], List.Pairwise.nil, rfl, ?_, fun i hi => absurd hi (Nat.not_lt_zero i)⟩
    rw [puts, List.filterMap_nil, List.drop_nil, List.rtake_nil]
    rfl
  | append_singleton ops op ih =>
    obtain ⟨positions, h⟩ := ih
    cases op with
    | put x => exact ⟨positions, h.put hpos x⟩
    | get => exact h.get

end BoundedQueue
