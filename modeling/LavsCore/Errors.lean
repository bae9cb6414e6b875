/-!
# Errors

What a request can end in besides a response: a typed domain error
(`app/errors/`), an error that Python raises, a model that refuses a field, a
statement that the database refuses, or a failed assertion. `NotFoundError` and
`ConflictError` are the two that a request is answered with on purpose; the others
surface as internal errors.
-/

namespace LavsCore

/-- Why the database refuses a statement. -/
inductive Refusal where
  | primaryKey (table : String)
  | foreignKey (table column : String)
  | unique (table : String)
  | outOfRange (table : String)
  deriving DecidableEq, Repr

/-- The outcome of a request that does not succeed. -/
inductive ApiError where
  | notFound (message : String) (details : List (String × String))
  | conflict (message : String) (details : List (String × String))
  | valueError (message : String)
  | validation (model : String) (fields : List String)
  | indexError (message : String)
  | typeError (message : String)
  | assertion (message : String)
  | refused (refusal : Refusal)
  deriving DecidableEq, Repr

/-- `NotFoundError` or `ConflictError`. -/
def ApiError.isDomain : ApiError → Bool
  | .notFound _ _ | .conflict _ _ => true
  | _ => false

end LavsCore
