/-
# InferenceForge.Pipeline.Exceptions — what a coroutine may raise, and the host

Exceptions are kept with what the handlers of the program look at: the class an
`except` clause selects on, the response an `httpx.HTTPStatusError` carries, and
`str(exc)`.

`Host` is the part of the interpreter and its standard library that is used as a
black box. Nothing is assumed of it, so every result holds of the real one.
-/
import InferenceForge.Python.Json

namespace InferenceForge.Pipeline

open InferenceForge.Python

set_option autoImplicit false

inductive ExnClass
  | circuitBreakerOpen
  /-- `httpx.HTTPStatusError`: the status and the `Retry-After` header of its response. -/
  | httpStatus (statusCode : ℕ) (retryAfter : Option String)
  | jsonDecode
  /-- Any other subclass of `Exception`. -/
  | other (name : String)
  /-- A `BaseException` that `except Exception` does not catch. -/
  | base (name : String)
  deriving DecidableEq

structure Exn where
  kind : ExnClass
  message : String
  deriving DecidableEq

namespace Exn

/-- `type(exc).__name__`. -/
def typeName (e : Exn) : String :=
  match e.kind with
  | .circuitBreakerOpen => "CircuitBreakerOpenError"
  | .httpStatus _ _ => "HTTPStatusError"
  | .jsonDecode => "JSONDecodeError"
  | .other name => name
  | .base name => name

/-- `isinstance(exc, Exception)`. -/
def isException (e : Exn) : Bool :=
  match e.kind with
  | .base _ => false
  | _ => true

def typeError (message : String) : Exn := { kind := .other "TypeError", message }

def valueError (message : String) : Exn := { kind := .other "ValueError", message }

end Exn

structure Host where
  /-- `text.lower()`. -/
  lower : String → String
  /-- `repr(text)`. -/
  repr : String → String
  /-- `hashlib.sha256(text.encode()).hexdigest()`. -/
  sha256 : String → String
  /-- `json.loads(text)`. -/
  loads : String → Except Exn Json

end InferenceForge.Pipeline
