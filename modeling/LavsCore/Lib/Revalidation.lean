import Mathlib.Data.List.Basic

/-!
# Cached answers that are fetched again

A client caches the answer of a server under an entry. It asks again when it is told that
the answer may have changed: `invalidate` cancels what is under way and asks anew, the server
answers with what it holds at that moment (`serve`), and the client stores the answer
(`receive`). Some clients let a first fetch run on, whatever they are told
(`Entry.RunsOn`).

`Entry.UpToDate`: the entry holds the current answer, or an answer under way is the current
one, or the server has still to be asked. Every operation keeps it as long as the answer of
the server does not change.
-/

/-! ## Entries -/

/-- A request that is not there, not yet served, or served and on its way back. -/
inductive Fetch (ε α : Type) where
  | idle
  | requested
  | served (answer : Except ε α)

/-- A cached answer, and the request that replaces it. -/
structure Entry (ε α : Type) where
  data : Option α
  fetch : Fetch ε α

namespace Entry

variable {ε α : Type} {entry : Entry ε α} {current : α}

/-- Nothing is cached, and the server is asked. -/
def mount : Entry ε α := ⟨none, .requested⟩

/-- Change what is cached, if anything is. -/
def setData (f : α → α) (entry : Entry ε α) : Entry ε α :=
  { entry with data := entry.data.map f }

/-- Ask the server. A client that keeps its first fetch does not cancel an answer under way as
long as nothing is cached. -/
def invalidate (keepsFirst : Bool) (entry : Entry ε α) : Entry ε α :=
  match keepsFirst, entry.data, entry.fetch with
  | true, none, .served _ => entry
  | _, _, _ => { entry with fetch := .requested }

/-- An answer is under way that `invalidate` does not cancel. -/
def RunsOn (keepsFirst : Bool) (entry : Entry ε α) : Prop :=
  keepsFirst = true ∧ entry.data = none ∧ ∃ answer, entry.fetch = .served answer

/-- The server answers a request. -/
def serve (answer : Except ε α) (entry : Entry ε α) : Entry ε α :=
  match entry.fetch with
  | .requested => { entry with fetch := .served answer }
  | _ => entry

/-- The answer arrives. An error leaves the cached answer as it is. -/
def receive (entry : Entry ε α) : Entry ε α :=
  match entry.fetch with
  | .served (.ok a) => ⟨some a, .idle⟩
  | .served (.error _) => { entry with fetch := .idle }
  | _ => entry

/-- The entry holds the current answer when what is under way has arrived, or the server has
still to be asked. -/
def UpToDate (current : α) (entry : Entry ε α) : Prop :=
  match entry.fetch with
  | .requested => True
  | _ => entry.receive.data = some current

theorem upToDate_of_requested (h : entry.fetch = .requested) : entry.UpToDate current := by
  rw [UpToDate, h]
  trivial

/-- A client that is told asks again, unless a first fetch runs on. -/
theorem fetch_invalidate {keepsFirst : Bool} (h : ¬ entry.RunsOn keepsFirst) :
    (entry.invalidate keepsFirst).fetch = .requested := by
  unfold invalidate
  split
  · next answer hdata hfetch => exact absurd ⟨rfl, hdata, answer, hfetch⟩ h
  · rfl

@[simp] theorem data_invalidate (keepsFirst : Bool) (entry : Entry ε α) :
    (entry.invalidate keepsFirst).data = entry.data := by
  unfold invalidate
  split <;> rfl

theorem runsOn_setData {keepsFirst : Bool} {f : α → α} :
    (entry.setData f).RunsOn keepsFirst ↔ entry.RunsOn keepsFirst := by
  rw [RunsOn, RunsOn, setData, Option.map_eq_none_iff]

theorem setData_of_runsOn {keepsFirst : Bool} {f : α → α} (h : entry.RunsOn keepsFirst) :
    entry.setData f = entry := by
  obtain ⟨data, fetch⟩ := entry
  obtain ⟨_, rfl, _⟩ := h
  rfl

theorem invalidate_of_runsOn {keepsFirst : Bool} (h : entry.RunsOn keepsFirst) :
    entry.invalidate keepsFirst = entry := by
  obtain ⟨data, fetch⟩ := entry
  obtain ⟨rfl, rfl, answer, rfl⟩ := h
  rfl

theorem upToDate_invalidate {keepsFirst : Bool} (h : entry.UpToDate current) :
    (entry.invalidate keepsFirst).UpToDate current := by
  unfold invalidate
  split
  · exact h
  · exact trivial

theorem upToDate_serve (h : entry.UpToDate current) :
    (entry.serve (.ok current)).UpToDate current := by
  obtain ⟨data, fetch⟩ := entry
  cases fetch with
  | idle => exact h
  | requested => exact rfl
  | served answer => exact h

theorem receive_receive (entry : Entry ε α) : entry.receive.receive = entry.receive := by
  obtain ⟨data, fetch⟩ := entry
  cases fetch with
  | idle => rfl
  | requested => rfl
  | served answer => cases answer <;> rfl

/-- After an answer has arrived, none is under way unless the server has still to be asked. -/
theorem fetch_receive (h : entry.fetch ≠ .requested) : entry.receive.fetch = .idle := by
  obtain ⟨data, fetch⟩ := entry
  cases fetch with
  | idle => rfl
  | requested => exact absurd rfl h
  | served answer => cases answer <;> rfl

theorem upToDate_iff (h : entry.fetch ≠ .requested) :
    entry.UpToDate current ↔ entry.receive.data = some current := by
  rw [UpToDate]
  split
  · next hfetch => exact absurd hfetch h
  · exact Iff.rfl

theorem upToDate_receive (h : entry.UpToDate current) : entry.receive.UpToDate current := by
  by_cases hfetch : entry.fetch = .requested
  · rwa [receive, hfetch]
  · have hidle : entry.receive.fetch ≠ .requested := by
      rw [fetch_receive hfetch]
      nofun
    rw [upToDate_iff hidle, receive_receive]
    exact (upToDate_iff hfetch).mp h

theorem data_of_idle (h : entry.UpToDate current) (hidle : entry.fetch = .idle) :
    entry.data = some current := by
  rwa [UpToDate, hidle, receive, hidle] at h

theorem fetch_serve_receive (entry : Entry ε α) (answer : Except ε α) :
    (entry.serve answer).receive.fetch = .idle := by
  refine fetch_receive ?_
  obtain ⟨data, fetch⟩ := entry
  cases fetch <;> nofun

/-- An answer that is out of date stays so when everything has arrived. -/
theorem data_serve_receive {answer : Except ε α} (h : ¬ entry.UpToDate current) :
    (entry.serve answer).receive.data ≠ some current := by
  have hfetch : entry.fetch ≠ .requested := fun hfetch => h (upToDate_of_requested hfetch)
  have hserve : entry.serve answer = entry := by
    obtain ⟨data, fetch⟩ := entry
    cases fetch with
    | requested => exact absurd rfl hfetch
    | _ => rfl
  rw [hserve]
  exact fun hdata => h ((upToDate_iff hfetch).mpr hdata)

end Entry
