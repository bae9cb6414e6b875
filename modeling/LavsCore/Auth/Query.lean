import LavsCore.Auth.Settings
import LavsCore.Auth.Statements
import LavsCore.Lib.Program

/-!
# Auth requests as programs

The statements of the auth lane, as `Queries/Query.lean` has them for the others: one
atomic step each, in autocommit. A refused statement raises what the driver of the
engine raises. Sending a mail is a step of its own.
-/

namespace LavsCore

/-- The statements of the auth lane, and the sending of a mail. -/
inductive AuthSql where
  | selectUserByEmail
  | selectUserById
  | insertUser
  | activateUser
  | insertToken
  | findActive
  | consume
  | insertSession
  | lookupSession
  | deleteSession
  | send
  deriving DecidableEq, Repr

/-- The auth tables and the mails that were sent. -/
structure AuthWorld where
  db : AuthStore
  outbox : List CapturedEmail

/-- An auth request with its result. -/
abbrev AuthQuery (α : Type) := Prog AuthSql AuthWorld AuthError α

namespace AuthQuery

variable {α : Type}

/-- A `SELECT`. -/
def select (statement : AuthSql) (f : AuthStore → α) : AuthQuery α :=
  Prog.query statement fun w => f w.db

/-- An `INSERT`, which the database may refuse. -/
def insert (backend : BackendKind) (statement : AuthSql)
    (f : AuthStore → Except Refusal AuthStore) : AuthQuery PUnit :=
  Prog.atomically statement fun w =>
    match f w.db with
    | .ok db => .ok (⟨⟩, { w with db := db })
    | .error refusal => .error (.driver (backend.raises refusal))

/-- An `UPDATE` or a `DELETE`. -/
def execute (statement : AuthSql) (f : AuthStore → AuthStore) : AuthQuery PUnit :=
  Prog.atomically statement fun w => .ok (⟨⟩, { w with db := f w.db })

/-- `mailer.send`. -/
def send (mailer : CapturedEmail → Option AuthError) (mail : CapturedEmail) : AuthQuery PUnit :=
  Prog.atomically .send fun w =>
    match mailer mail with
    | some error => .error error
    | none => .ok (⟨⟩, { w with outbox := w.outbox ++ [mail] })

variable (w : AuthWorld)

@[simp] theorem run_select (statement : AuthSql) (f : AuthStore → α) :
    (select statement f).run w = (.ok (f w.db), w) :=
  Prog.run_query statement _ w

@[simp] theorem run_insert (backend : BackendKind) (statement : AuthSql)
    (f : AuthStore → Except Refusal AuthStore) :
    (insert backend statement f).run w =
      match f w.db with
      | .ok db => (.ok ⟨⟩, { w with db := db })
      | .error refusal => (.error (.driver (backend.raises refusal)), w) := by
  rw [insert, Prog.run_atomically]
  cases f w.db <;> rfl

@[simp] theorem run_execute (statement : AuthSql) (f : AuthStore → AuthStore) :
    (execute statement f).run w = (.ok ⟨⟩, { w with db := f w.db }) := by
  simp [execute]

@[simp] theorem run_send (mailer : CapturedEmail → Option AuthError) (mail : CapturedEmail) :
    (send mailer mail).run w =
      match mailer mail with
      | some error => (.error error, w)
      | none => (.ok ⟨⟩, { w with outbox := w.outbox ++ [mail] }) := by
  rw [send, Prog.run_atomically]
  cases mailer mail <;> rfl

end AuthQuery

end LavsCore
