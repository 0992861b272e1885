import DapBridge.Child.Invocation
import DapBridge.Diagnostics
import DapBridge.Config.Session
import DapBridge.Json.Coercion

/-!
# Watching child processes

A program under the debugger may start interpreters of its own. While enabled, the watcher
looks at every process the session starts: an interpreter run that it may take over is
started through the probe launcher instead, connecting back on a port of its own, and the
child is registered and announced. At most `maxChildren` children are tracked; one more still
runs, but untracked. Ports are handed out from a range in turn, starting again at its low
end once the port handed out reaches its high end.

Settings reach the watcher unchecked and act as they are (`Json.Coercion`): a flag is any
value that counts as true, the limit and the ends of the port range compare as values do,
and the next port is the last one plus one, so a range of texts hands out `"7000"`, then
`"70001"`. A child's record is kept as it was given, under its process id as a key
(`Json.sameValue`); a record for an id already held takes its place.

What the watcher says goes two ways: notifications to the session (`childProcess`,
`childProcessExited`, `childProcessCandidate`) and records of the diagnostic log.
-/

namespace DapBridge

/-- How the watcher behaves, each setting as it was given. -/
structure WatchConfig where
  enabled : Json
  autoAttach : Json
  maxChildren : Json
  ipcHost : Json
  portRange : Json
  launcherModule : Json
  sessionId : Option Json
  deriving Inhabited

/-- Off until enabled, taking children over, ten at most, ports 5700 to 5799. -/
def WatchConfig.standard : WatchConfig :=
  ⟨.bool false, .bool true, .num 10, .string "localhost", .arr [.num 5700, .num 5799], .string DapBridge.launcherModule,
    none⟩

/-- How a process is started: its directory and whether through a shell, as given. -/
structure SpawnOptions where
  cwd : Option Json
  shell : Option Json
  deriving Inhabited

def SpawnOptions.none : SpawnOptions := ⟨Option.none, Option.none⟩

/-- Settings read from an object: every field it has replaces the standard one. -/
def WatchConfig.ofJson (j : Json) : WatchConfig :=
  let d := WatchConfig.standard
  let pick (k : String) (v : Json) : Json := (j.field? k).getD v
  ⟨pick "enabled" d.enabled, pick "autoAttach" d.autoAttach, pick "maxChildren" d.maxChildren,
    pick "ipcHost" d.ipcHost, pick "portRange" d.portRange, pick "launcherModule" d.launcherModule,
    (j.field? "sessionId").orElse fun _ => d.sessionId⟩

def SpawnOptions.ofJson (j : Json) : SpawnOptions := ⟨j.field? "cwd", j.field? "shell"⟩

/-- What the watcher says: a notification to the session, or a record for the log. -/
inductive WatchNote where
  | notify (event : String) (body : Json)
  | log (d : Diagnostic)
  deriving Inhabited

/-- A taken-over child: the port and session id it was given, its command line and the
launcher's command line that replaces it. -/
structure Takeover where
  invocation : Invocation
  port : Option Json
  childId : String
  requested : List Json
  argv : List Json
  deriving Inhabited

/-- The watcher: its configuration, the children it tracks under their ids in the order they
came, the next port it hands out, and whether it is enabled. -/
structure ChildWatcher where
  config : WatchConfig
  children : List (Option Json × Json)
  nextPort : Option Json
  enabled : Bool
  deriving Inhabited

namespace ChildWatcher

/-- A watcher whose first port is the low end of the range. -/
def create (config : WatchConfig) : ChildWatcher := ⟨config, [], config.portRange.member? "0", false⟩

/-- As `create`, failing as reading the low end of a `null` range does. -/
def start (config : WatchConfig) : Except Fault ChildWatcher := do
  discard <| Json.property (some config.portRange) "0"
  return create config

/-- Enabling works only when the configuration allows it. -/
def enable (w : ChildWatcher) : ChildWatcher × List WatchNote :=
  if w.config.enabled.truthy then ({ w with enabled := true }, [])
  else (w, [.log (.debug "Subprocess debugging is disabled in config" none)])

def disable (w : ChildWatcher) : ChildWatcher := { w with enabled := false }

/-- Disable, and forget every child. -/
def cleanup (w : ChildWatcher) : ChildWatcher := { w with enabled := false, children := [] }

/-- The children's records, in the order they came. -/
def list (w : ChildWatcher) : List Json := w.children.map (·.2)

/-- The type error of calling a text's method `method` on the value `v` named `name`. -/
def notText (name method : String) (v : Json) : Fault :=
  if v.isNull then Fault.readOfMissing "null" method
  else .other "TypeError" s!"{name}.{method} is not a function"

/-- The run described by the arguments after an interpreter command, each checked to be a
text where an option is looked for; the entry and what follows are taken as texts. -/
def runOf? : List Json → Except Fault (Option Invocation)
  | [] => .ok none
  | .str t :: rest =>
    match Invocation.modeOfOption? t.toString with
    | some mode =>
      match rest with
      | [] => .ok none
      | value :: trailing => .ok (some ⟨mode, Json.displayText value, trailing.map Json.displayText⟩)
    | none =>
      if t.toString = "-" then .ok none
      else if t.toString.startsWith "-" then runOf? rest
      else .ok (some ⟨.program, t.toString, rest.map Json.displayText⟩)
  | v :: _ => .error (notText "current" "startsWith" v)

/-- The interpreter run a command line starts, if it starts one. -/
def interpreterRun? (argv : List Json) : Except Fault (Option Invocation) :=
  match argv with
  | [] => .ok none
  | .str cmd :: rest => if isInterpreter [cmd.toString] then runOf? rest else .ok none
  | v :: _ => .error (notText "argv[0]" "replace" v)

/-- The run a command line starts, when the watcher may take it over: taking over is on,
no shell is involved, the command line is not already the launcher's, and it runs the
interpreter on something. -/
def candidate? (w : ChildWatcher) (argv : List Json) (opts : SpawnOptions) : Except Fault (Option Invocation) :=
  if !w.config.autoAttach.truthy || (opts.shell.map Json.truthy).getD false then .ok none
  else if argv.any (Json.sameKey · w.config.launcherModule) || argv.any (Json.sameKey · (.string "--subprocess"))
  then .ok none
  else interpreterRun? argv

/-- The next port; after the one at or past the high end of the range comes the low end,
after any other the one above it. -/
def allocatePort (w : ChildWatcher) : Option Json × ChildWatcher :=
  let port := w.nextPort
  let range := w.config.portRange
  let next := if Json.atLeast port (range.member? "1") then range.member? "0" else some (Json.plus port (some (.num 1)))
  (port, { w with nextPort := next })

/-- The launcher's command line for an interpreter run, or the command line itself when it
is none. Session ids are passed when they count as true. -/
def launcherArgs (w : ChildWatcher) (argv : List String) (port : Option Json) (childId : Option Json) :
    List Json :=
  match (if isInterpreter argv then Invocation.ofArgv? argv else none) with
  | none => argv.map Json.string
  | some inv =>
    let given (flag : String) (v : Option Json) : List Json :=
      match v with
      | some s => if s.truthy then [.string flag, s] else []
      | none => []
    [.string (argv.headD ""), .string "-m", w.config.launcherModule, .string "--ipc", .string "tcp",
      .string "--ipc-host", w.config.ipcHost, .string "--ipc-port", .string (Json.textOf port),
      .string "--ipc-binary", .string "--subprocess", .string ("--" ++ inv.mode.name), .string inv.value]
      ++ given "--session-id" childId ++ given "--parent-session-id" w.config.sessionId
      ++ inv.trailing.flatMap fun a => [.string "--arg", .string a]

/-- Take a command line over, if enabled and it is a candidate: it gets the next port and
the given session id. -/
def takeover? (w : ChildWatcher) (argv : List Json) (opts : SpawnOptions) (childId : String) :
    Except Fault (Option Takeover × ChildWatcher × List WatchNote) := do
  if !w.enabled then return (none, w, [])
  match ← w.candidate? argv opts with
  | none => return (none, w, [])
  | some inv =>
    let (port, w) := w.allocatePort
    let texts := argv.map Json.displayText
    let replacement := w.launcherArgs texts port (some (.string childId))
    let note := WatchNote.log (.debug "Intercepted subprocess"
      (some (Json.object [("from", .arr argv), ("to", .arr replacement)])))
    return (some ⟨inv, port, childId, argv, replacement⟩, w, [note])

/-- Register a child, unless the registry is full: the child then runs untracked. The
record is kept as given, in place of one under the same id. -/
def childDetected (w : ChildWatcher) (info : Option Json) : Except Fault (Bool × ChildWatcher × List WatchNote) := do
  let field (k : String) : Except Fault (Option Json) := Json.property info k
  let size : Json := Json.ofNat w.children.length
  if Json.atLeast (some size) (some w.config.maxChildren) then
    let pid ← field "pid"
    let warning := s!"Maximum child process limit ({Json.displayText w.config.maxChildren}) reached, ignoring child process {Json.textOf pid}"
    return (false, w, [.log (.warning warning),
      .log (.childProcess (← field "pid") (← field "name") (← field "ipcPort") false)])
  else
    let pid ← field "pid"
    let record := info.getD .null
    let children :=
      if w.children.any (Json.sameValue ·.1 pid) then
        w.children.map fun c => if Json.sameValue c.1 pid then (c.1, record) else c
      else w.children ++ [(pid, record)]
    let keys := ["pid", "name", "ipcPort", "command", "cwd", "isPython", "parentPid", "sessionId",
      "parentSessionId"]
    let body ← keys.mapM fun k => return (k, ← field k)
    return (true, { w with children := children },
      [.log (.childProcess (← field "pid") (← field "name") (← field "ipcPort") true),
        .notify "childProcess" (Json.objectOpt body)])

/-- The child that took `t` over started with process id `pid` (if it has one): register it.
Whether it was accepted, i.e. whether its exit is to be reported. -/
def adopt (w : ChildWatcher) (t : Takeover) (opts : SpawnOptions) (pid : Option Double) (hostPid : Double) :
    Bool × ChildWatcher × List WatchNote :=
  match pid with
  | none => (false, w, [])
  | some p =>
    let info := Json.objectOpt [("pid", some (.num p)), ("name", some (.string (Path.baseName t.invocation.value))),
      ("ipcPort", t.port), ("command", some (.arr t.requested)), ("cwd", opts.cwd), ("isPython", some (.bool true)),
      ("parentPid", some (.num hostPid)), ("sessionId", some (.string t.childId)),
      ("parentSessionId", w.config.sessionId)]
    match w.childDetected (some info) with
    | .ok r => r
    | .error _ => (false, w, [])

/-- A tracked child ended: forget it and say so. A record that counts as false is as good as
none. -/
def childExited (w : ChildWatcher) (pid : Option Json) : ChildWatcher × List WatchNote :=
  match w.children.find? (Json.sameValue ·.1 pid) with
  | some (_, c) =>
    if c.truthy then
      ({ w with children := w.children.filter (!Json.sameValue ·.1 pid) },
        [.notify "childProcessExited" (Json.objectOpt [("pid", pid), ("name", c.member? "name")])])
    else (w, [])
  | none => (w, [])

/-- A process start that was seen but not taken over. -/
def reportCandidate (w : ChildWatcher) (source name target : Option Json) (hostPid : Double) : WatchNote :=
  let target := match target with
    | some v => v
    | none => .null
  .notify "childProcessCandidate" (Json.objectOpt [("source", source), ("name", name), ("target", some target),
    ("parentPid", some (.num hostPid)), ("sessionId", w.config.sessionId),
    ("parentSessionId", w.config.sessionId), ("autoAttachImplemented", some (.bool false))])

end ChildWatcher

end DapBridge
