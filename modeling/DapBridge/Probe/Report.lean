import DapBridge.Protocol.Objects
import DapBridge.Error

/-!
# Reading the probe's reports

The probe's messages are loosely typed JSON objects. The readers here take what has the
expected kind and fall back to defaults otherwise: a number must be finite, a string a
string, a record an object that is no array. Lists keep the entries that can be read and
drop the rest.

`forwardedBody?` gives the body of an event the adapter passes on to its client, with its
defaults, or nothing for events that are not passed on.
-/

namespace DapBridge

namespace Report

/-- A finite number field. -/
def numberAt? (data : Json) (k : String) : Option Double :=
  match data.field? k with
  | some (.num x) => if x.isFinite then some x else none
  | _ => none

def textAt? (data : Json) (k : String) : Option Text :=
  match data.field? k with
  | some (.str t) => some t
  | _ => none

def stringAt? (data : Json) (k : String) : Option String := (textAt? data k).map Text.toString

def boolAt? (data : Json) (k : String) : Option Bool :=
  match data.field? k with
  | some (.bool b) => some b
  | _ => none

/-- An object field, or an empty object. -/
def recordAt (data : Json) (k : String) : Json :=
  match data.field? k with
  | some (.obj fs) => .obj fs
  | _ => .obj []

/-- The items of an array field, or none. -/
def itemsAt (data : Json) (k : String) : List Json :=
  match data.field? k with
  | some (.arr xs) => xs
  | _ => []

/-- Why and where the program stopped; by default at a breakpoint of thread 1, with every
thread stopped. -/
def stopInfo (data : Json) : StopInfo :=
  ⟨(stringAt? data "reason").getD "breakpoint", (numberAt? data "threadId").getD 1,
    (boolAt? data "allThreadsStopped").getD true, stringAt? data "description", stringAt? data "text",
    match data.field? "hitBreakpointIds" with
    | some (.arr xs) => some (xs.filterMap Json.getNum?)
    | _ => none⟩

/-- The body of an event passed on to the client, or none for events that are not. -/
def forwardedBody? (event : String) (data : Json) : Option Json :=
  let text (k d : String) : Json := .str ((textAt? data k).getD (Text.ofString d))
  let number (k : String) (d : Double) : Json := .num ((numberAt? data k).getD d)
  let flag (k : String) (d : Bool) : Json := .bool ((boolAt? data k).getD d)
  match event with
  | "output" => some (Json.objectOpt [("category", some (text "category" "console")),
      ("output", some (text "output" "")), ("source", data.field? "source"), ("line", data.field? "line"),
      ("column", data.field? "column")])
  | "continued" => some (Json.object [("threadId", number "threadId" 1),
      ("allThreadsContinued", flag "allThreadsContinued" true)])
  | "exception" => some (Json.object [("exceptionId", text "exceptionId" "Exception"),
      ("description", text "description" ""), ("breakMode", text "breakMode" "always"),
      ("threadId", number "threadId" 1)])
  | "breakpoint" => some (Json.object [("reason", text "reason" "changed"), ("breakpoint", recordAt data "breakpoint")])
  | "module" => some (Json.object [("reason", text "reason" "new"), ("module", recordAt data "module")])
  | "process" => some (Json.objectOpt [("name", some (text "name" "")),
      ("systemProcessId", data.field? "systemProcessId"), ("isLocalProcess", some (flag "isLocalProcess" true)),
      ("startMethod", some (text "startMethod" "launch"))])
  | "loadedSource" => some (Json.object [("reason", text "reason" "new"), ("source", recordAt data "source")])
  | "childProcessCandidate" => some (Json.objectOpt [("source", some (text "source" "")),
      ("name", some (text "name" "")),
      ("target", some (match data.field? "target" with
        | some .null | none => .null
        | some t => t)),
      ("parentPid", data.field? "parentPid"), ("sessionId", data.field? "sessionId"),
      ("parentSessionId", data.field? "parentSessionId"), ("autoAttachImplemented", some (.bool false))])
  | _ => none

/-- The name and path of a source record. -/
def sourceNamePath (v : Json) : Option Source :=
  match v with
  | .obj _ => some ⟨stringAt? v "name", stringAt? v "path", none⟩
  | _ => none

/-- A stack frame needs an id. -/
def frame? (v : Json) : Option StackFrame :=
  match v with
  | .obj _ =>
    (numberAt? v "id").map fun id =>
      ⟨id, (stringAt? v "name").getD "<unknown>", (numberAt? v "line").getD 0, (numberAt? v "column").getD 0,
        (v.field? "source").bind sourceNamePath⟩
  | _ => none

def stackFrames (data : Json) : List StackFrame := (itemsAt data "stackFrames").filterMap frame?

/-- A variable needs a name; a value that is no string is shown as text. -/
def variableOf? (v : Json) : Option Variable :=
  match v with
  | .obj _ =>
    (stringAt? v "name").map fun name =>
      let value := match textAt? v "value" with
        | some t => t
        | none =>
          match v.field? "value" with
          | none | some .null => Text.ofString ""
          | some x => Text.ofString x.displayText
      ⟨name, value, stringAt? v "type", (numberAt? v "variablesReference").getD 0, stringAt? v "evaluateName"⟩
  | _ => none

def variableList (data : Json) : List Variable := (itemsAt data "variables").filterMap variableOf?

def taskFrame? (v : Json) : Option TaskFrame :=
  match v with
  | .obj _ =>
    some ⟨(stringAt? v "name").getD "<unknown>", (numberAt? v "line").getD 0, numberAt? v "column",
      (v.field? "source").bind sourceNamePath⟩
  | _ => none

def task? (v : Json) : Option Task :=
  match v with
  | .obj _ => some ⟨(stringAt? v "name").getD "Task", (itemsAt v "frames").filterMap taskFrame?⟩
  | _ => none

def tasks (data : Json) : List Task := (itemsAt data "tasks").filterMap task?

/-- A source needs a name, a path or a reference. -/
def source? (v : Json) : Option Source :=
  match v with
  | .obj _ =>
    let s : Source := ⟨stringAt? v "name", stringAt? v "path", numberAt? v "sourceReference"⟩
    if s.name.isNone && s.path.isNone && s.reference.isNone then none else some s
  | _ => none

def sources (data : Json) : List Source := (itemsAt data "sources").filterMap source?

/-- A module needs an id (a string or a finite number) and a name. -/
def module? (v : Json) : Option Module :=
  match v with
  | .obj _ =>
    let id : Option ModuleId := match stringAt? v "id" with
      | some s => some (.text s)
      | none => (numberAt? v "id").map .number
    match id, stringAt? v "name" with
    | some id, some name => some ⟨id, name, stringAt? v "path", stringAt? v "version", boolAt? v "isUserCode"⟩
    | _, _ => none
  | _ => none

def modules (data : Json) : List Module := (itemsAt data "modules").filterMap module?

/-- A completion needs a label. -/
def completion? (v : Json) : Option CompletionItem :=
  match v with
  | .obj _ =>
    (stringAt? v "label").map fun label =>
      ⟨label, stringAt? v "text", stringAt? v "type", numberAt? v "start", numberAt? v "length"⟩
  | _ => none

def completions (data : Json) : List CompletionItem := (itemsAt data "targets").filterMap completion?

/-- A step-in target needs an id; its label defaults to the call's id. -/
def stepInTarget? (v : Json) : Option StepInTarget :=
  match v with
  | .obj _ =>
    (numberAt? v "id").map fun id =>
      ⟨id, (stringAt? v "label").getD s!"<call {id.render}>", numberAt? v "line", numberAt? v "column"⟩
  | _ => none

def stepInTargets (data : Json) : List StepInTarget := (itemsAt data "targets").filterMap stepInTarget?

end Report

end DapBridge
