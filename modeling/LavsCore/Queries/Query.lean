import LavsCore.Lib.Program
import LavsCore.Models.Requests
import LavsCore.Models.Responses
import LavsCore.Store.Statements

/-!
# Queries

A query is a program of SQL statements over the store (`app/queries/query.py`).
Every backend runs in autocommit: a statement is one atomic step, and what it wrote
stays written when a later statement of the query fails.

A call reads four things from outside: the clock, the id that `new_ulid` mints
(each query mints at most one), the choice that the database makes where a
`LIMIT 1` leaves one, and the engine that it runs on. A `SELECT` without `ORDER BY`
answers in the order of insertion.
-/

namespace LavsCore

/-- The statements of the queries, under the names of the source, and the
publication of an event. -/
inductive Sql where
  | selectProduct
  | selectProductByName
  | insertProduct
  | selectCreatedProduct
  | insertComponent
  | selectComponent
  | selectComponentProduct
  | supersedeActive
  | insertVersion
  | selectVersion
  | selectPrevious
  | markStatus (status : VersionStatus)
  | selectEdges
  | selectEdge
  | insertEdge
  | selectCreatedEdge
  | deleteEdge
  | selectReleaseByIdempotency
  | selectActiveComponents
  | selectLatestRelease
  | selectPriorManifest
  | insertRelease
  | insertReleaseComponent
  | selectReleaseManifest
  | selectRelease
  | selectReleases
  | selectManifest
  | selectComponents
  | selectVersions
  | publish
  deriving DecidableEq, Repr

/-- What a call takes from its surroundings. -/
structure Env where
  now : Py.Timestamp
  ulid : String
  choice : Nat
  backend : BackendKind

/-- The store and the events that have been published. -/
structure World where
  db : Store
  published : List DomainEvent

@[ext] theorem World.ext {w w' : World} (hdb : w.db = w'.db)
    (hpublished : w.published = w'.published) : w = w' := by
  cases w; cases w'; cases hdb; cases hpublished; rfl

/-- A fresh store, and nothing published. -/
def World.init : World := ⟨Store.empty, []⟩

/-- A query with its result. -/
abbrev Query (α : Type) := Prog Sql World ApiError α

namespace Query

variable {α : Type}

/-- A `SELECT`. -/
def select (statement : Sql) (f : Store → α) : Query α :=
  Prog.query statement fun w => f w.db

/-- An `INSERT`, which the database may refuse. -/
def insert (statement : Sql) (f : Store → Except Refusal Store) : Query PUnit :=
  Prog.atomically statement fun w =>
    match f w.db with
    | .ok db => .ok (⟨⟩, { w with db := db })
    | .error refusal => .error (.refused refusal)

/-- An `UPDATE` or a `DELETE`. -/
def execute (statement : Sql) (f : Store → Store) : Query PUnit :=
  Prog.atomically statement fun w => .ok (⟨⟩, { w with db := f w.db })

/-- `event_bus.publish`, if there is a bus. -/
def publish (eventBus : Bool) (event : DomainEvent) : Query PUnit :=
  if eventBus then
    Prog.atomically .publish fun w => .ok (⟨⟩, { w with published := w.published ++ [event] })
  else pure ⟨⟩

/-- The first row of an answer that must have one, as `rows[0]`. -/
def firstRow : List α → Query α
  | row :: _ => pure row
  | [] => Prog.raise (.indexError "list index out of range")

/-- Go on if an answer has no row, else end with an error. -/
def refuseIf (refused : Bool) (error : ApiError) : Query PUnit :=
  if refused then Prog.raise error else pure ⟨⟩

@[simp] theorem run_select (statement : Sql) (f : Store → α) (w : World) :
    (select statement f).run w = (.ok (f w.db), w) :=
  Prog.run_query statement _ w

@[simp] theorem run_insert (statement : Sql) (f : Store → Except Refusal Store) (w : World) :
    (insert statement f).run w =
      match f w.db with
      | .ok db => (.ok ⟨⟩, { w with db := db })
      | .error refusal => (.error (.refused refusal), w) := by
  rw [insert, Prog.run_atomically]
  cases f w.db <;> rfl

@[simp] theorem run_execute (statement : Sql) (f : Store → Store) (w : World) :
    (execute statement f).run w = (.ok ⟨⟩, { w with db := f w.db }) := by
  simp [execute]

/-- A publication changes no table and does not fail. -/
@[simp] theorem run_publish (eventBus : Bool) (event : DomainEvent) (w : World) :
    (publish eventBus event).run w =
      (.ok ⟨⟩, { w with published := w.published ++ if eventBus then [event] else [] }) := by
  cases eventBus <;> simp [publish]

@[simp] theorem run_firstRow_cons (row : α) (rows : List α) (w : World) :
    (firstRow (row :: rows)).run w = (.ok row, w) := rfl

@[simp] theorem run_refuseIf_false (error : ApiError) (w : World) :
    (refuseIf false error).run w = (.ok ⟨⟩, w) := rfl

@[simp] theorem run_refuseIf_true (error : ApiError) (w : World) :
    (refuseIf true error).run w = (.error error, w) := rfl

end Query

end LavsCore
