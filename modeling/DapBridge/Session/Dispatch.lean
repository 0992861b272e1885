import DapBridge.Session.Engine
import DapBridge.Protocol.Arguments

/-!
# Requests and their handlers

Each request command has a handler. A handler checks its arguments first (a refusal is a
protocol error of the request), then runs the engine operation, waits for it when it waits,
and says what the response carries: a body, events to send after it, and whether the
session ends or starts again. An unknown command is a protocol error.

Handlers are asynchronous: `handle` gives the number of the handler's promise, and
`dispatch` resolves its own promise with it (two jobs after it settles).
-/

namespace DapBridge

/-- Turn what a handler waited for into its result. -/
def Wrap.apply : Wrap → Val → Dispatched
  | .nothing, _ => .empty
  | .body, v => ⟨v.toJson?, [], false, false⟩
  | .under k, v => .withBody (Json.object [(k, (v.toJson?).getD .null)])
  | .restarts, _ => ⟨none, [], false, true⟩
  | .ends, _ => ⟨none, [], true, false⟩

namespace Session

open Act

/-- What a handler does right away: answer, or wait on a promise and wrap its value. -/
inductive Handling where
  | now (d : Dispatched)
  | later (p : Nat) (wrap : Wrap)

/-- Check a request's arguments with the host's validator. -/
def checked (schema : Schema) (args : Option Json) (command : String) : Act Json := do
  match Arguments.check (← get).host.validator schema args command with
  | .ok v => pure v
  | .error e => failWith e

def num? (j : Json) (k : String) : Option Double := j.numField? k

def numD (j : Json) (k : String) : Double := (j.numField? k).getD 0

def strD (j : Json) (k : String) : String := (j.strField? k).getD ""

/-- The parts of a stepping request the probe is told beyond the thread. -/
def stepExtras (j : Json) : List (String × Json) :=
  (match j.field? "targetId" with
    | some v => [("targetId", v)]
    | none => []) ++
  (match j.field? "granularity" with
    | some v => [("granularity", v)]
    | none => [])

/-- Whether a command has a handler. -/
def handles (command : String) : Bool :=
  ["initialize", "launch", "attach", "configurationDone", "setBreakpoints", "setFunctionBreakpoints",
    "setExceptionBreakpoints", "dataBreakpointInfo", "setDataBreakpoints", "continue", "next", "stepIn",
    "stepOut", "pause", "stepInTargets", "threads", "stackTrace", "scopes", "variables", "setVariable",
    "evaluate", "setExpression", "completions", "loadedSources", "source", "modules", "exceptionInfo",
    "terminate", "restart", "disconnect"].contains command

/-- Arguments, or an empty object when there are none. -/
def orEmpty (args : Option Json) : Json :=
  match args with
  | none | some .null => .obj []
  | some a => a

/-- What the handler of a known command does. -/
def handling (e : Nat) (command : String) (args : Option Json) : Act Handling := do
  let later (p : Nat) (w : Wrap) : Act Handling := pure (.later p w)
  match command with
  | "initialize" => return .now ⟨some capabilities, ["initialized"], false, false⟩
  | "launch" => later (← launch e (some (orEmpty args))) .nothing
  | "attach" => later (← attach e (some (orEmpty args))) .nothing
  | "configurationDone" => later (← configurationDone e) .nothing
  | "setBreakpoints" =>
    let a ← checked Arguments.setBreakpoints args command
    let specs := (a.field? "breakpoints").bind Json.getArr? |>.getD []
    later (← setBreakpoints e ((a.field? "source").bind (·.strField? "path")) specs) (.under "breakpoints")
  | "setFunctionBreakpoints" =>
    let a ← checked Arguments.setFunctionBreakpoints args command
    let specs := (a.field? "breakpoints").bind Json.getArr? |>.getD []
    later (← setFunctionBreakpoints e specs) (.under "breakpoints")
  | "setExceptionBreakpoints" =>
    let a ← checked Arguments.setExceptionBreakpoints args command
    later (← setExceptionBreakpoints e (((a.field? "filters").bind Json.getArr?).getD [])) (.under "breakpoints")
  | "dataBreakpointInfo" =>
    let a ← checked Arguments.dataBreakpointInfo args command
    let name := strD a "name"
    match num? a "frameId" with
    | none =>
      return .now (.withBody (Json.object [("dataId", .null),
        ("description", .string s!"Variable '{name}' has no frame to watch it in"),
        ("accessTypes", Json.strings ["write"]), ("canPersist", .bool false)]))
    | some frameId => later (← dataBreakpointInfo e name frameId) .body
  | "setDataBreakpoints" =>
    let a ← checked Arguments.setDataBreakpoints args command
    let specs := (a.field? "breakpoints").bind Json.getArr? |>.getD []
    return .now (.withBody (Json.object [("breakpoints", ← setDataBreakpoints e specs)]))
  | "continue" =>
    let a ← checked Arguments.thread args command
    later (← execContinue (← execOf e) (some (.num (numD a "threadId")))) .body
  | "next" | "stepIn" | "stepOut" =>
    let a ← checked Arguments.step args command
    later (← execStep (← execOf e) command (some (.num (numD a "threadId"))) (stepExtras a)) .nothing
  | "pause" =>
    let a ← checked Arguments.thread args command
    later (← execPause (← execOf e) (some (.num (numD a "threadId")))) .nothing
  | "stepInTargets" =>
    let a ← checked Arguments.frame args command
    later (← stepInTargets e (numD a "frameId")) .body
  | "threads" => later (← threads e) (.under "threads")
  | "stackTrace" =>
    let a ← checked Arguments.stackTrace args command
    later (← stackTrace e (numD a "threadId") (num? a "startFrame") (num? a "levels")) .body
  | "scopes" =>
    let a ← checked Arguments.frame args command
    return .now (.withBody (Json.object [("scopes", ← scopes e (numD a "frameId"))]))
  | "variables" =>
    let a ← checked Arguments.variableQuery args command
    later (← listVariables e (numD a "variablesReference") (a.strField? "filter") (num? a "start") (num? a "count"))
      (.under "variables")
  | "setVariable" =>
    let a ← checked Arguments.setVariable args command
    later (← setVariable e (numD a "variablesReference") (strD a "name") (strD a "value")) .body
  | "evaluate" =>
    let a ← checked Arguments.evaluate args command
    later (← evaluate e (strD a "expression") (num? a "frameId") (a.strField? "context")) .body
  | "setExpression" =>
    let a ← checked Arguments.setExpression args command
    later (← setExpression e (strD a "expression") (strD a "value") (num? a "frameId")) .body
  | "completions" =>
    let a ← checked Arguments.completions args command
    later (← completions e (strD a "text") (numD a "column") (num? a "frameId") (num? a "line")) .body
  | "loadedSources" => later (← loadedSources e) .body
  | "source" =>
    let a ← checked Arguments.source args command
    let nested := a.field? "source"
    let reference := match nested.bind (num? · "sourceReference") with
      | some r => some r
      | none => num? a "sourceReference"
    later (← source e reference (nested.bind (·.strField? "path"))) .body
  | "modules" =>
    let a ← checked Arguments.modules args command
    later (← modules e (num? a "startModule") (num? a "moduleCount")) .body
  | "exceptionInfo" =>
    let a ← checked Arguments.thread args command
    later (← exceptionInfo e (numD a "threadId")) .body
  | "terminate" => later (← terminate e) .nothing
  | "restart" => later (← restart e) .restarts
  | "disconnect" =>
    let a ← checked Arguments.disconnect args command
    later (← disconnect e (a.boolField? "terminateDebuggee")) .ends
  | _ => failWith (.protocol s!"Unsupported command: {command}" (some command))

/-- Run a request's handler; the number of its promise. -/
def handle (e : Nat) (command : String) (args : Option Json) : Act Nat := do
  let p ← fresh
  match ← attempt (handling e command args) with
  | .ok (.now d) => fulfil p (.dispatched d)
  | .ok (.later q wrap) => await q (.handled p wrap)
  | .error f => reject p f
  return p

/-- A handler's wait ended. -/
def handled (p : Nat) (wrap : Wrap) (o : Outcome) : Act Unit :=
  match o with
  | .ok v => fulfil p (.dispatched (wrap.apply v))
  | .error f => reject p f

/-- Serve a request: the number of the promise of its result. -/
def dispatch (e : Nat) (command : String) (args : Option Json) : Act Nat := do
  let p ← fresh
  if !handles command then
    reject p (.adapter (.protocol s!"Unsupported command: {command}" (some command)))
  else
    let q ← handle e command args
    follow p q
  return p

end Session

end DapBridge
