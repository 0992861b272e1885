import DapBridge.Json.Value
import DapBridge.Number.Shortest

/-!
# Objects of the debug protocol

The objects the adapter hands to its client: sources, stack frames, variables, threads,
modules, completion items, step-in targets and the body of a stop. Optional fields that
are absent are left out of their JSON form.
-/

namespace DapBridge

/-- A source file: a name, a path, or a reference the client can ask for. -/
structure Source where
  name : Option String
  path : Option String
  reference : Option Double
  deriving Inhabited

def Source.toJson (s : Source) : Json :=
  Json.objectOpt [("name", s.name.map .string), ("path", s.path.map .string),
    ("sourceReference", s.reference.map .num)]

structure StackFrame where
  id : Double
  name : String
  line : Double
  column : Double
  source : Option Source
  deriving Inhabited

def StackFrame.toJson (f : StackFrame) : Json :=
  Json.objectOpt [("id", some (.num f.id)), ("name", some (.string f.name)),
    ("line", some (.num f.line)), ("column", some (.num f.column)),
    ("source", f.source.map Source.toJson)]

/-- A variable; its value is text as the probe rendered it. -/
structure Variable where
  name : String
  value : Text
  type : Option String
  reference : Double
  evaluateName : Option String
  deriving Inhabited

def Variable.toJson (v : Variable) : Json :=
  Json.objectOpt [("name", some (.string v.name)), ("value", some (.str v.value)),
    ("type", v.type.map .string), ("variablesReference", some (.num v.reference)),
    ("evaluateName", v.evaluateName.map .string)]

structure Thread where
  id : Double
  name : String
  deriving Inhabited

def Thread.toJson (t : Thread) : Json := Json.object [("id", .num t.id), ("name", .string t.name)]

/-- A module's id is a string or a number. -/
inductive ModuleId where
  | text (s : String)
  | number (x : Double)
  deriving Inhabited

def ModuleId.toJson : ModuleId → Json
  | .text s => .string s
  | .number x => .num x

structure Module where
  id : ModuleId
  name : String
  path : Option String
  version : Option String
  isUserCode : Option Bool
  deriving Inhabited

def Module.toJson (m : Module) : Json :=
  Json.objectOpt [("id", some m.id.toJson), ("name", some (.string m.name)),
    ("path", m.path.map .string), ("version", m.version.map .string),
    ("isUserCode", m.isUserCode.map .bool)]

structure CompletionItem where
  label : String
  text : Option String
  type : Option String
  start : Option Double
  length : Option Double
  deriving Inhabited

def CompletionItem.toJson (c : CompletionItem) : Json :=
  Json.objectOpt [("label", some (.string c.label)), ("text", c.text.map .string),
    ("type", c.type.map .string), ("start", c.start.map .num), ("length", c.length.map .num)]

structure StepInTarget where
  id : Double
  label : String
  line : Option Double
  column : Option Double
  deriving Inhabited

def StepInTarget.toJson (t : StepInTarget) : Json :=
  Json.objectOpt [("id", some (.num t.id)), ("label", some (.string t.label)),
    ("line", t.line.map .num), ("column", t.column.map .num)]

/-- Why and where the program stopped. -/
structure StopInfo where
  reason : String
  threadId : Double
  allThreadsStopped : Bool
  description : Option String
  text : Option String
  hitBreakpointIds : Option (List Double)
  deriving Inhabited

def StopInfo.toJson (s : StopInfo) : Json :=
  Json.objectOpt [("reason", some (.string s.reason)), ("threadId", some (.num s.threadId)),
    ("allThreadsStopped", some (.bool s.allThreadsStopped)), ("description", s.description.map .string),
    ("text", s.text.map .string), ("hitBreakpointIds", s.hitBreakpointIds.map fun ids => .arr (ids.map .num))]

/-- A frame of a task, as the probe reports it. -/
structure TaskFrame where
  name : String
  line : Double
  column : Option Double
  source : Option Source
  deriving Inhabited

def TaskFrame.toJson (f : TaskFrame) : Json :=
  Json.objectOpt [("name", some (.string f.name)), ("line", some (.num f.line)),
    ("column", f.column.map .num), ("source", f.source.map Source.toJson)]

/-- A task of the program (a unit of concurrency that is not a thread), with its frames. -/
structure Task where
  name : String
  frames : List TaskFrame
  deriving Inhabited

def Task.toJson (t : Task) : Json :=
  Json.object [("name", .string t.name), ("frames", .arr (t.frames.map TaskFrame.toJson))]

end DapBridge
