import Mathlib.Data.Fintype.Basic
import Mathlib.Tactic.DeriveFintype

/-!
# `pyon.core.exception`

The exception classes every ION service raises, their status codes, and `ExceptionFactory`, which
turns a status code received over the wire back into an exception. The factory's map is built from
the module's classes sorted by name, a later class overwriting an earlier one with the same code:
`StreamException` inherits `IonException`'s code `-1` and sorts after it, so the code `-1` comes back
as a `StreamException`. Every other class survives the round trip through its status code.

`ApplicationException` comes from `putil`, outside the repository; whether it has a `status_code`
is not known here, and it is left out of the factory's members.
-/

namespace Scioncc.Core

/-- The exception classes of the module. -/
inductive ExceptionClass
  | ionException
  | streamException
  | badRequest
  | unauthorized
  | notFound
  | notAcceptable
  | timeout
  | conflict
  | inconsistent
  | filesystemError
  | streamingError
  | corruptionError
  | serverError
  | serviceUnavailable
  | configNotFound
  | containerError
  | containerConfigError
  | containerStartupError
  | containerAppError
  | resourceError
  deriving DecidableEq, Repr, Fintype

namespace ExceptionClass

def name : ExceptionClass → String
  | ionException => "IonException"
  | streamException => "StreamException"
  | badRequest => "BadRequest"
  | unauthorized => "Unauthorized"
  | notFound => "NotFound"
  | notAcceptable => "NotAcceptable"
  | timeout => "Timeout"
  | conflict => "Conflict"
  | inconsistent => "Inconsistent"
  | filesystemError => "FilesystemError"
  | streamingError => "StreamingError"
  | corruptionError => "CorruptionError"
  | serverError => "ServerError"
  | serviceUnavailable => "ServiceUnavailable"
  | configNotFound => "ConfigNotFound"
  | containerError => "ContainerError"
  | containerConfigError => "ContainerConfigError"
  | containerStartupError => "ContainerStartupError"
  | containerAppError => "ContainerAppError"
  | resourceError => "ResourceError"

/-- `status_code`; `StreamException` sets none and inherits `IonException`'s. -/
def statusCode : ExceptionClass → Int
  | ionException => -1
  | streamException => -1
  | badRequest => 400
  | unauthorized => 401
  | notFound => 404
  | notAcceptable => 406
  | timeout => 408
  | conflict => 409
  | inconsistent => 410
  | filesystemError => 411
  | streamingError => 412
  | corruptionError => 413
  | serverError => 500
  | serviceUnavailable => 503
  | configNotFound => 540
  | containerError => 550
  | containerConfigError => 551
  | containerStartupError => 553
  | containerAppError => 554
  | resourceError => 700

end ExceptionClass

def ionExceptionStr (c : ExceptionClass) (message : String) : String :=
  toString c.statusCode ++ " - " ++ message

def getmembers : List ExceptionClass :=
  [.badRequest, .configNotFound, .conflict, .containerAppError, .containerConfigError,
    .containerError, .containerStartupError, .corruptionError, .filesystemError, .inconsistent,
    .ionException, .notAcceptable, .notFound, .resourceError, .serverError, .serviceUnavailable,
    .streamException, .streamingError, .timeout, .unauthorized]

/-- `ExceptionFactory.__init__`: a later class overwrites an earlier one with its code. -/
def exceptionMap : String → Option ExceptionClass :=
  getmembers.foldl (fun m c => Function.update m (toString c.statusCode) (some c)) fun _ => none

def createException (defaultType : ExceptionClass) (code message : String) :
    ExceptionClass × String :=
  match exceptionMap code with
  | some c => (c, message)
  | none => (defaultType, message)

theorem exceptionMap_statusCode :
    ∀ c, c ≠ .ionException → exceptionMap (toString c.statusCode) = some c := by
  decide

theorem createException_statusCode (defaultType : ExceptionClass) (message : String)
    (c : ExceptionClass) (hc : c ≠ .ionException) :
    createException defaultType (toString c.statusCode) message = (c, message) := by
  simp only [createException, exceptionMap_statusCode c hc]

theorem createException_ionException (defaultType : ExceptionClass) (message : String) :
    createException defaultType (toString ExceptionClass.ionException.statusCode) message =
      (.streamException, message) := by
  have : exceptionMap (toString ExceptionClass.ionException.statusCode) = some .streamException := by
    decide
  simp only [createException, this]

/-- A class sent as its code comes back as itself, but `IonException` as `StreamException`. -/
theorem createException_of_statusCode (defaultType : ExceptionClass) (message : String)
    (c : ExceptionClass) :
    createException defaultType (toString c.statusCode) message =
      (if c = .ionException then .streamException else c, message) := by
  by_cases hc : c = .ionException
  · subst hc
    exact createException_ionException defaultType message
  · rw [if_neg hc]
    exact createException_statusCode defaultType message c hc

end Scioncc.Core
