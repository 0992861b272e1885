import DapBridge.Schema.Check
import DapBridge.Error

/-!
# Arguments of client requests

The schemas the arguments of each request are checked against before the request runs.
Objects drop keys they do not name, except the thread arguments of `continue`, `pause`,
the stepping requests and `exceptionInfo`, which keep them. Missing arguments (absent or
`null`) are read as an empty object.

A refusal is a protocol error of the request: `Invalid arguments for '<command>': ` and the
issues found.
-/

namespace DapBridge

namespace Arguments

def int : Schema := .number [.int]

def optInt : Schema := .optional int

def count : Schema := .optional (.number [.int, .atLeast 0])

def optString : Schema := .optional (.string 0)

def str : Schema := .string 0

def threadArgs : List (String × Schema) := [("threadId", int)]

def setBreakpoints : Schema :=
  .object [
    ("source", .object [("name", optString), ("path", optString), ("sourceReference", .optional (.number []))] .drop),
    ("breakpoints", .withDefault (.array (.object [("line", .number []), ("column", .optional (.number [])),
      ("condition", optString), ("hitCondition", optString), ("logMessage", optString)] .drop) 0) (.arr []))] .drop

def setFunctionBreakpoints : Schema :=
  .object [("breakpoints", .array (.object [("name", str), ("condition", optString), ("hitCondition", optString)] .drop) 0)] .drop

def setExceptionBreakpoints : Schema := .object [("filters", .array str 0)] .drop

def dataBreakpointInfo : Schema :=
  .object [("name", str), ("frameId", optInt), ("variablesReference", optInt)] .drop

def setDataBreakpoints : Schema :=
  .object [("breakpoints", .array (.object [("dataId", .optional (.nullable str)),
    ("accessType", .optional (.oneOf ["read", "write", "readWrite"])), ("condition", optString),
    ("hitCondition", optString)] .drop) 0)] .drop

def thread : Schema := .object threadArgs .keep

def step : Schema :=
  .object (threadArgs ++ [("targetId", optInt), ("granularity", .optional (.oneOf ["statement", "line", "instruction"]))]) .keep

def stackTrace : Schema := .object [("threadId", int), ("startFrame", count), ("levels", count)] .drop

def frame : Schema := .object [("frameId", int)] .drop

def variableQuery : Schema :=
  .object [("variablesReference", int), ("filter", .optional (.oneOf ["indexed", "named"])), ("start", count),
    ("count", count)] .drop

def setVariable : Schema := .object [("variablesReference", int), ("name", str), ("value", str)] .drop

def evaluate : Schema := .object [("expression", str), ("frameId", optInt), ("context", optString)] .drop

def setExpression : Schema := .object [("expression", str), ("value", str), ("frameId", optInt)] .drop

def source : Schema :=
  .object [("source", .optional (.object [("name", optString), ("path", optString), ("sourceReference", optInt)] .drop)),
    ("sourceReference", optInt)] .drop

def modules : Schema := .object [("startModule", count), ("moduleCount", count)] .drop

def completions : Schema :=
  .object [("text", str), ("column", int), ("frameId", optInt), ("line", optInt)] .drop

def disconnect : Schema :=
  .withDefault (.object [("restart", .optional .boolean), ("terminateDebuggee", .optional .boolean)] .drop) (.obj [])

/-- Check a request's arguments; absent or `null` arguments are an empty object. -/
def check (V : Validator) (schema : Schema) (args : Option Json) (command : String) : Except AdapterError Json :=
  let given := match args with
    | none | some .null => Json.obj []
    | some a => a
  match V.read schema (some given) with
  | .ok v => .ok (v.getD .null)
  | .error issues => .error (.protocol s!"Invalid arguments for '{command}': {Issue.describeAll issues}" (some command))

end Arguments

end DapBridge
