import DapBridge.Json.Write

/-!
# Errors

The adapter's own errors have a kind and a message; a protocol error may also name the
command it concerns. Timeouts and configuration errors are operation errors of a more
specific kind (`ErrorKind.isOperation`). A `Fault` is whatever a failed operation carries:
one of the adapter's errors, an error of some other class, or a plain value.

`Fault.code` is what a failed response reports: the kind's name for the adapter's own
errors, `RequestError` for anything else.
-/

namespace DapBridge

inductive ErrorKind where
  | protocol
  | transport
  | operation
  | configuration
  | timeout
  | state
  deriving DecidableEq, Repr, Inhabited

namespace ErrorKind

def name : ErrorKind → String
  | .protocol => "ProtocolError"
  | .transport => "TransportError"
  | .operation => "OperationError"
  | .configuration => "ConfigurationError"
  | .timeout => "TimeoutError"
  | .state => "StateError"

def ofName? (s : String) : Option ErrorKind :=
  [ErrorKind.protocol, .transport, .operation, .configuration, .timeout, .state].find? (·.name == s)

/-- Kinds that are operation errors: operations, timeouts and configuration. -/
def isOperation : ErrorKind → Bool
  | .operation | .configuration | .timeout => true
  | _ => false

end ErrorKind

/-- An error of the adapter. -/
structure AdapterError where
  kind : ErrorKind
  message : String
  command : Option String := none
  deriving DecidableEq, Repr, Inhabited

namespace AdapterError

def protocol (message : String) (command : Option String) : AdapterError := ⟨.protocol, message, command⟩
def transport (message : String) : AdapterError := ⟨.transport, message, none⟩
def operation (message : String) : AdapterError := ⟨.operation, message, none⟩
def configuration (message : String) : AdapterError := ⟨.configuration, message, none⟩
def timeout (message : String) : AdapterError := ⟨.timeout, message, none⟩
def state (message : String) : AdapterError := ⟨.state, message, none⟩

end AdapterError

/-- What a failed operation carries. -/
inductive Fault where
  | adapter (e : AdapterError)
  | other (name : String) (message : String)
  | value (v : Json)
  deriving Inhabited

namespace Fault

/-- The code a failed response reports. -/
def code : Fault → String
  | .adapter e => e.kind.name
  | _ => "RequestError"

def message : Fault → String
  | .adapter e => e.message
  | .other _ m => m
  | .value v => v.displayText

/-- The class name of the error. -/
def name : Fault → String
  | .adapter e => e.kind.name
  | .other n _ => n
  | .value _ => "thrown"

def isAdapter : Fault → Bool
  | .adapter _ => true
  | _ => false

def kind? : Fault → Option ErrorKind
  | .adapter e => some e.kind
  | _ => none

/-- The type error of reading a field of a missing value (`undefined` or `null`). -/
def readOfMissing (missing field : String) : Fault :=
  .other "TypeError" s!"Cannot read properties of {missing} (reading '{field}')"

/-- Whether this is an operation error (including timeouts and configuration errors). -/
def isOperation (f : Fault) : Bool := (f.kind?.map ErrorKind.isOperation).getD false

instance : Coe AdapterError Fault := ⟨.adapter⟩

/-- An error as a record: its class and message, the code of an adapter error and the command
it names; a thrown value that is no error shows as `thrown` with its text. -/
def toJson (f : Fault) : Json :=
  match f with
  | .adapter e =>
    Json.objectOpt [("error", some (.string e.kind.name)), ("message", some (.string e.message)),
      ("code", some (.string e.kind.name)), ("command", e.command.map .string)]
  | _ => Json.object [("error", .string f.name), ("message", .string f.message)]

end Fault

end DapBridge
