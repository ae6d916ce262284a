import HiddenClass.Value

/-!
The ways in which an operation does not succeed. A rejection is an ordinary answer; whether it is
reported as `false` or raised as an error is for the caller to choose. An error is always raised.
A fault stops the operation where it stands.
-/

namespace HiddenClass

/-- Why an object refuses to change. -/
inductive Rejection where
  | configurableChange
  | enumerableChange
  | typeChange
  | writableChange
  | valueChange
  | accessorChange
  | notExtensible
  | notDeletable
  | beyondFixedLength
  | lengthReadOnly
  | shrinkStopped
  | notAssignable
deriving DecidableEq, Repr

namespace Rejection

def message : Rejection → String
  | .configurableChange => "changing [[Configurable]] of unconfigurable property not allowed"
  | .enumerableChange => "changing [[Enumerable]] of unconfigurable property not allowed"
  | .typeChange => "changing descriptor type of unconfigurable property not allowed"
  | .writableChange => "changing [[Writable]] of unconfigurable property not allowed"
  | .valueChange => "changing [[Value]] of readonly property not allowed"
  | .accessorChange => "changing [[Set]] or [[Get]] of unconfigurable property not allowed"
  | .notExtensible => "object not extensible"
  | .notDeletable => "delete failed"
  | .beyondFixedLength => "adding an element to an array whose \"length\" is not writable"
  | .lengthReadOnly => "\"length\" not writable"
  | .shrinkStopped => "shrink array failed"
  | .notAssignable => "put failed"

end Rejection

/-- The answer to a request for a change. -/
inductive Verdict where
  | accepted
  | rejected (reason : Rejection)
deriving DecidableEq, Repr

inductive ErrorKind where
  | type
  | range
deriving DecidableEq, Repr

inductive Error where
  | rejected (reason : Rejection)
  | notCallable (value : Value)
  | invalidLength
  /-- An error that the embedding program raises on its own account. -/
  | raised (kind : ErrorKind) (text : String)
deriving DecidableEq, Repr

namespace Error

def kind : Error → ErrorKind
  | .rejected _ | .notCallable _ => .type
  | .invalidLength => .range
  | .raised kind _ => kind

def message : Error → String
  | .rejected reason => reason.message
  | .notCallable value => s!"{value.display} is not a native function"
  | .invalidLength => "invalid array length"
  | .raised _ text => text

def display (error : Error) : String :=
  match error.kind with
  | .type => "TypeError: " ++ error.message
  | .range => "RangeError: " ++ error.message

end Error

inductive Fault where
  /-- A handle was used after its cell had been freed. -/
  | stale (handle : Handle)
  | error (error : Error)
  /-- A sum is no machine word. -/
  | overflow
  /-- A prototype chain leads back to where it was, and what is searched for is not on it. -/
  | endless
  /-- Calls of native functions were nested beyond the limit. -/
  | tooDeep
deriving DecidableEq, Repr

def Fault.message : Fault → String
  | .stale handle => s!"use of freed heap cell {handle.label}"
  | .error raised => raised.display
  | .overflow => "attempt to add with overflow"
  | .endless => "prototype chain without an end"
  | .tooDeep => "native functions nested too deep"

namespace Verdict

/-- A rejection is raised when the caller asks for errors and is a plain `false` otherwise. -/
def report (raises : Bool) : Verdict → Except Error Bool
  | .accepted => .ok true
  | .rejected reason => if raises then .error (.rejected reason) else .ok false

end Verdict

end HiddenClass
