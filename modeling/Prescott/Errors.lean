namespace Prescott

/-!
# Errors

The error classes thrown by the services and hooks, and the errors of the
runtime and of the database that reach them.
-/

/-- An error with the status code it is answered with. -/
structure HttpError where
  message : String
  statusCode : Nat
  deriving Repr, DecidableEq

namespace HttpError

/-- `HttpNotFound` of the source. -/
def notFound (message : String) : HttpError := ⟨message, 404⟩

/-- `HttpUnauthorized` of the source, which answers with 403. -/
def unauthorized (message : String) : HttpError := ⟨message, 403⟩

end HttpError

/-- A rejection reason of an asynchronous call. -/
inductive AppError where
  | entityConflict (message : String)
  | accessDenied (message : String)
  | entityNotFound (message : String)
  | unauthorizedUser (message : String)
  | badRequest (message : String)
  /-- An HTTP error, thrown as such. -/
  | http (error : HttpError)
  /-- A JavaScript `TypeError` raised by the runtime. -/
  | typeError (message : String)
  /-- A JavaScript `SyntaxError` raised by the runtime. -/
  | syntaxError (message : String)
  /-- An insert that breaks a unique constraint of the migrations. -/
  | uniqueViolation (constraint : String)
  /-- A write that breaks a foreign key of the migrations. -/
  | foreignKeyViolation (constraint : String)
  /-- Any other plain `Error`, of this code base or of a package. -/
  | failure (message : String)
  deriving Repr, DecidableEq

/-- The error of a write that a constraint of the migrations forbids. -/
def AppError.isConstraintViolation : AppError → Bool
  | .uniqueViolation _ => true
  | .foreignKeyViolation _ => true
  | _ => false

end Prescott
