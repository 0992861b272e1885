import DapBridge.Schema.Check
import DapBridge.Ipc.Endpoint
import DapBridge.Error

/-!
# Launch and attach configurations

A `launch` request starts a program under a probe, an `attach` request connects to a probe
that already runs. Their arguments are checked against a schema; every mistake is reported
at once, in the order of the schema's fields. Arguments the request leaves out come from the
engine's defaults (usually the command line), then from built-in ones.

A launch needs a program unless the probe runs inside the adapter. An attach never runs in
process, and needs the address its transport uses: a port for TCP, a path for a unix socket,
a name for a pipe.
-/

namespace DapBridge

/-- The module a probe launcher runs. -/
def launcherModule : String := "session_probe.launcher"

/-- The command that starts a probe, when nothing else is given. -/
def defaultLauncher : List String := ["python3", "-m", launcherModule]

/-- The host a TCP endpoint uses, when nothing else is given. -/
def defaultIpcHost : String := "127.0.0.1"

/-- How long a probe command may take, in milliseconds, when nothing else is given. -/
def defaultCommandTimeout : Json := .num 5000

/-- Defaults for every session of an engine. The command line gives well-formed ones; an
application that embeds the engine may give values of any kind, and a configuration passes
the transport, host, binary flag and launcher on as they were given. -/
structure EngineDefaults where
  transport : Option Json
  host : Option Json
  binary : Option Json
  launcher : Option Json
  commandTimeout : Option Json
  deriving Inhabited

def EngineDefaults.none : EngineDefaults := ⟨Option.none, Option.none, Option.none, Option.none, Option.none⟩

/-- A field that is given: present and not `null`. -/
def givenField? (j : Json) (k : String) : Option Json :=
  match j.field? k with
  | some .null => Option.none
  | v => v

/-- Defaults read from an object with the option names of the command line. -/
def EngineDefaults.ofJson (j : Json) : EngineDefaults :=
  ⟨givenField? j "ipcTransport", givenField? j "ipcHost", givenField? j "useBinaryIpc",
    givenField? j "launcher", givenField? j "commandTimeoutMs"⟩

/-- A setting from the arguments, else from the defaults, else the built-in one. -/
def settingOf (args : Json) (k : String) (default : Option Json) (builtin : Json) : Json :=
  ((givenField? args k).orElse fun _ => default).getD builtin

def transportSchema : Schema := .oneOf (Transport.all.map Transport.name)

def portSchema (least : Int) : Schema := .number [.int, .atLeast least, .atMost 65535]

def launchSchema : Schema :=
  .object [("program", .optional (.string 1)),
    ("args", .withDefault (.array (.string 0) 0) (.arr [])),
    ("cwd", .optional (.string 0)),
    ("env", .optional (.record (.string 0))),
    ("stopOnEntry", .withDefault .boolean (.bool false)),
    ("noDebug", .withDefault .boolean (.bool false)),
    ("inProcess", .withDefault .boolean (.bool false)),
    ("ipcTransport", .optional transportSchema),
    ("ipcHost", .optional (.string 0)),
    ("ipcPort", .optional (portSchema 0)),
    ("ipcPipeName", .optional (.string 0)),
    ("useBinaryIpc", .optional .boolean),
    ("subProcess", .withDefault .boolean (.bool false)),
    ("launcher", .optional (.array (.string 0) 1))] .keep

def attachSchema : Schema :=
  .object [("program", .optional (.string 0)),
    ("inProcess", .withDefault .boolean (.bool false)),
    ("ipcTransport", .optional transportSchema),
    ("ipcHost", .optional (.string 0)),
    ("ipcPort", .optional (portSchema 1)),
    ("ipcPath", .optional (.string 0)),
    ("ipcPipeName", .optional (.string 0)),
    ("useBinaryIpc", .optional .boolean)] .keep

/-- Arguments of a request, checked against a schema by the validator `V`; absent and `null`
arguments are an empty object. -/
def checkArguments (V : Validator) (what : String) (schema : Schema) (raw : Option Json) :
    Except AdapterError Json :=
  let given := match raw with
    | Option.none | some .null => Json.obj []
    | some j => j
  match V.read schema (some given) with
  | .ok out => .ok (out.getD given)
  | .error issues => .error (.configuration s!"Invalid {what} arguments: {Issue.describeAll issues}")

/-- The string values of an object. -/
def stringEntries (j : Json) : List (String × String) :=
  match j with
  | .obj fs => fs.filterMap fun (k, v) => v.getString?.map (k, ·)
  | _ => []

/-- What a launch starts, and how. -/
structure LaunchConfig where
  program : Option String
  args : List String
  cwd : Option String
  env : Option (List (String × String))
  stopOnEntry : Bool
  noDebug : Bool
  inProcess : Bool
  subProcess : Bool
  /-- The launcher command, as given. -/
  launcher : Json
  ipc : IpcSettings
  deriving Inhabited

namespace LaunchConfig

/-- The configuration of a launch request. -/
def read (V : Validator) (raw : Option Json) (d : EngineDefaults) (p : Platform) :
    Except AdapterError LaunchConfig := do
  let a ← checkArguments V "launch" launchSchema raw
  let program := a.strField? "program"
  let inProcess := (a.boolField? "inProcess").getD false
  if !inProcess && (program.getD "").isEmpty then
    throw (.configuration "Program path is required for launch mode")
  return {
    program := program
    args := (a.stringsField? "args").getD []
    cwd := a.strField? "cwd"
    env := (a.field? "env").map stringEntries
    stopOnEntry := (a.boolField? "stopOnEntry").getD false
    noDebug := (a.boolField? "noDebug").getD false
    inProcess := inProcess
    subProcess := (a.boolField? "subProcess").getD false
    launcher := settingOf a "launcher" d.launcher (Json.strings defaultLauncher)
    ipc := {
      transport := settingOf a "ipcTransport" d.transport (.string (Transport.default p).name)
      host := settingOf a "ipcHost" d.host (.string defaultIpcHost)
      port := (a.numField? "ipcPort").getD 0
      path := Option.none
      pipeName := a.strField? "ipcPipeName"
      binary := settingOf a "useBinaryIpc" d.binary (.bool true) } }

/-- The items of the launcher command that start a command line: a list's items as they
are, a text's characters; any other value has no items, a type error. -/
def launcherArgv (c : LaunchConfig) : Except Fault (List Json) :=
  match c.launcher with
  | .arr items => .ok items
  | .str t => .ok (t.characters.map .str)
  | _ => .error (.other "TypeError" "config.launcher is not iterable")

def toJson (c : LaunchConfig) : Json :=
  Json.objectOpt [("program", c.program.map .string), ("args", some (Json.strings c.args)),
    ("cwd", c.cwd.map .string),
    ("env", c.env.map fun kvs => Json.object (kvs.map fun (k, v) => (k, .string v))),
    ("stopOnEntry", some (.bool c.stopOnEntry)), ("noDebug", some (.bool c.noDebug)),
    ("inProcess", some (.bool c.inProcess)), ("subProcess", some (.bool c.subProcess)),
    ("launcher", some c.launcher), ("ipc", some c.ipc.toJson)]

end LaunchConfig

/-- Where an attach connects. -/
structure AttachConfig where
  program : Option String
  ipc : IpcSettings
  deriving Inhabited

namespace AttachConfig

/-- The configuration of an attach request. -/
def read (V : Validator) (raw : Option Json) (d : EngineDefaults) (p : Platform) :
    Except AdapterError AttachConfig := do
  let a ← checkArguments V "attach" attachSchema raw
  if (a.boolField? "inProcess").getD false then
    throw (.configuration "In-process mode is not compatible with attach")
  let transport := settingOf a "ipcTransport" d.transport (.string (Transport.default p).name)
  let port := a.numField? "ipcPort"
  let path := a.strField? "ipcPath"
  let pipeName := a.strField? "ipcPipeName"
  match Transport.ofJson? transport with
  | some .tcp => if port.isNone then throw (.configuration "TCP attach requires ipcPort")
  | some .unix => if (path.getD "").isEmpty then throw (.configuration "Unix socket attach requires ipcPath")
  | some .pipe => if (pipeName.getD "").isEmpty then throw (.configuration "Named pipe attach requires ipcPipeName")
  | Option.none => pure ()
  return {
    program := a.strField? "program"
    ipc := {
      transport := transport
      host := settingOf a "ipcHost" d.host (.string defaultIpcHost)
      port := port.getD 0
      path := path
      pipeName := pipeName
      binary := settingOf a "useBinaryIpc" d.binary (.bool true) } }

def toJson (c : AttachConfig) : Json :=
  Json.objectOpt [("program", c.program.map .string), ("ipc", some c.ipc.toJson)]

end AttachConfig

end DapBridge
