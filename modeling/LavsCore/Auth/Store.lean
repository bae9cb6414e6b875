import LavsCore.Store.Schema

/-!
# The auth tables

`users`, `sessions` and `email_verification_tokens` of `app/database/*/ddl.sql`, with
their constraints: primary keys, the unique email, the foreign keys to `users`, and the
width of the email column where the engine has one. Times are naive UTC instants in
microseconds, as Python binds them; an expiry is stored as its column holds it
(`BackendKind.datetime`). `created_at` is left out, no query reads it.

The engines refuse the same rows, but each driver raises an exception of its own
(`BackendKind.raises`).
-/

namespace LavsCore

/-- `UserStatus`. -/
inductive UserStatus where
  | pending | active | disabled
  deriving DecidableEq, Repr

def UserStatus.value : UserStatus → String
  | .pending => "pending"
  | .active => "active"
  | .disabled => "disabled"

structure UserRow where
  id : String
  email : String
  passwordHash : String
  status : UserStatus
  edition : Option String
  deriving DecidableEq, Repr

structure SessionRow where
  id : String
  userId : String
  tokenHash : String
  expiresAt : Int
  deriving DecidableEq, Repr

structure VerificationTokenRow where
  tokenHash : String
  userId : String
  expiresAt : Int
  consumedAt : Option Py.Timestamp
  deriving DecidableEq, Repr

/-- `token_hash = ? AND expires_at > ?`. -/
def SessionRow.isLive (tokenHash : String) (now : Py.Timestamp) (s : SessionRow) : Bool :=
  s.tokenHash = tokenHash && decide (now < s.expiresAt)

/-- `token_hash = ? AND consumed_at IS NULL AND expires_at > ?`. -/
def VerificationTokenRow.isActive (tokenHash : String) (now : Py.Timestamp)
    (t : VerificationTokenRow) : Bool :=
  t.tokenHash = tokenHash && t.consumedAt.isNone && decide (now < t.expiresAt)

/-! ## Engines -/

/-- What a driver raises for a refused statement. -/
inductive DriverError where
  | duckdbConstraintException | duckdbConversionException
  | psycopgUniqueViolation | psycopgForeignKeyViolation | psycopgStringTruncation
  | pymysqlIntegrityError | pymysqlDataError
  | pymssqlIntegrityError | pymssqlOperationalError
  deriving DecidableEq, Repr

/-- The exception in which the driver of an engine reports a refusal. -/
def BackendKind.raises : BackendKind → Refusal → DriverError
  | .duckdb, .outOfRange _ => .duckdbConversionException
  | .duckdb, _ => .duckdbConstraintException
  | .postgres, .outOfRange _ => .psycopgStringTruncation
  | .postgres, .foreignKey _ _ => .psycopgForeignKeyViolation
  | .postgres, _ => .psycopgUniqueViolation
  | .mysql, .outOfRange _ => .pymysqlDataError
  | .mysql, _ => .pymysqlIntegrityError
  | .mssql, .outOfRange _ => .pymssqlOperationalError
  | .mssql, _ => .pymssqlIntegrityError

/-- The width of the email column. DuckDB and PostgreSQL have a `VARCHAR` without one. -/
def BackendKind.emailWidth : BackendKind → Option Nat
  | .duckdb | .postgres => none
  | .mysql | .mssql => some 255

/-- The email fits its column. -/
def BackendKind.Fits (backend : BackendKind) (email : String) : Prop :=
  ∀ width ∈ backend.emailWidth, email.length ≤ width

instance (backend : BackendKind) (email : String) : Decidable (backend.Fits email) :=
  inferInstanceAs (Decidable (∀ width ∈ backend.emailWidth, email.length ≤ width))

/-- What the columns `expires_at` hold of an instant. MySQL's `DATETIME` has no fraction: the
instant is rounded to the second. The other engines keep the microseconds. -/
def BackendKind.datetime : BackendKind → Int → Int
  | .mysql, t => (t + 500000) / 1000000 * 1000000
  | _, t => t

/-- The row as its table holds it. -/
def SessionRow.stored (backend : BackendKind) (row : SessionRow) : SessionRow :=
  { row with expiresAt := backend.datetime row.expiresAt }

def VerificationTokenRow.stored (backend : BackendKind) (row : VerificationTokenRow) :
    VerificationTokenRow :=
  { row with expiresAt := backend.datetime row.expiresAt }

/-! ## The tables -/

structure AuthStore where
  users : Table UserRow UserRow.id
  sessions : Table SessionRow SessionRow.id
  tokens : Table VerificationTokenRow VerificationTokenRow.tokenHash
  email_unique : (users.rows.map UserRow.email).Nodup
  session_user : References sessions.rows SessionRow.userId users.keys
  token_user : References tokens.rows VerificationTokenRow.userId users.keys

namespace AuthStore

/-- A store that has just been created. -/
def empty : AuthStore where
  users := Table.empty
  sessions := Table.empty
  tokens := Table.empty
  email_unique := List.nodup_nil
  session_user := References.nil
  token_user := References.nil

/-- The emails that are registered. -/
def emails (db : AuthStore) : List String := db.users.rows.map UserRow.email

/-- `INSERT INTO users`. -/
def insertUser (db : AuthStore) (backend : BackendKind) (row : UserRow) :
    Except Refusal AuthStore :=
  if backend.Fits row.email then
    if hid : row.id ∈ db.users.keys then .error (.primaryKey "users")
    else if hemail : row.email ∈ db.emails then .error (.unique "users")
    else
      .ok { db with
        users := db.users.insert row hid
        email_unique := by
          rw [Table.insert_rows, List.map_append, List.nodup_append]
          refine ⟨db.email_unique, List.nodup_singleton _, ?_⟩
          rintro e he _ he' rfl
          exact hemail (List.mem_singleton.mp he' ▸ he)
        session_user := by
          rw [Table.insert_keys]
          exact db.session_user.grow row.id
        token_user := by
          rw [Table.insert_keys]
          exact db.token_user.grow row.id }
  else .error (.outOfRange "users")

/-- `UPDATE users SET status = ? WHERE id = ?`. -/
def setUserStatus (db : AuthStore) (status : UserStatus) (id : String) : AuthStore :=
  { db with
    users := db.users.update (fun u => if u.id = id then { u with status := status } else u)
      (fun u => by split <;> rfl)
    email_unique := by
      rw [Table.update_rows, List.map_map]
      have hsame : UserRow.email ∘ (fun u => if u.id = id then { u with status := status } else u) =
          UserRow.email := by
        funext u
        simp only [Function.comp_apply]
        split <;> rfl
      rw [hsame]
      exact db.email_unique
    session_user := by
      rw [Table.update_keys]
      exact db.session_user
    token_user := by
      rw [Table.update_keys]
      exact db.token_user }

/-- `INSERT INTO sessions`. -/
def insertSession (db : AuthStore) (backend : BackendKind) (row : SessionRow) :
    Except Refusal AuthStore :=
  if hid : row.id ∈ db.sessions.keys then .error (.primaryKey "sessions")
  else if huser : row.userId ∈ db.users.keys then
    .ok { db with
      sessions := db.sessions.insert (row.stored backend) hid
      session_user := db.session_user.append huser }
  else .error (.foreignKey "sessions" "user_id")

/-- `DELETE FROM sessions WHERE token_hash = ?`. -/
def deleteSession (db : AuthStore) (tokenHash : String) : AuthStore :=
  { db with
    sessions := db.sessions.keep fun s => s.tokenHash ≠ tokenHash
    session_user := db.session_user.filter _ }

/-- `INSERT INTO email_verification_tokens`. -/
def insertToken (db : AuthStore) (backend : BackendKind) (row : VerificationTokenRow) :
    Except Refusal AuthStore :=
  if hkey : row.tokenHash ∈ db.tokens.keys then .error (.primaryKey "email_verification_tokens")
  else if huser : row.userId ∈ db.users.keys then
    .ok { db with
      tokens := db.tokens.insert (row.stored backend) hkey
      token_user := db.token_user.append huser }
  else .error (.foreignKey "email_verification_tokens" "user_id")

/-- `UPDATE email_verification_tokens SET consumed_at = ? WHERE token_hash = ?`. The instant is
only ever compared with `NULL`. -/
def consumeToken (db : AuthStore) (tokenHash : String) (now : Py.Timestamp) : AuthStore :=
  { db with
    tokens := db.tokens.update
      (fun t => if t.tokenHash = tokenHash then { t with consumedAt := some now } else t)
      (fun t => by split <;> rfl)
    token_user := db.token_user.map fun t => by split <;> rfl }

/-- The users with an email: at most one. -/
def usersByEmail (db : AuthStore) (email : String) : List UserRow :=
  db.users.rows.filter fun u => u.email = email

end AuthStore

end LavsCore
