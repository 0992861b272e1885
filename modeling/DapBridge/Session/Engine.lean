import DapBridge.Session.Peer

/-!
# The session engine

One debug session: it starts the debuggee (a launched process that connects back to a
listener, an attached probe, or an in-process probe), routes the probe's replies and events
into the session's registries and to the client, serves breakpoints, stepping and
inspection, and tears everything down on shutdown, failing what is still waiting.

Breakpoints the client sets before the debuggee exists are kept and sent to the probe once
it can take commands; so is a `configurationDone` that came too early.

Operations are `Act` steps on engine number `e`. An operation that waits returns the
number of its promise; where it resumes is a `Cont`.
-/

namespace DapBridge

namespace Session

open Act

def engineOf (e : Nat) : Act Engine := return (← get).engineAt e

def withEngine (e : Nat) (f : Engine → Engine) : Act Unit := change (·.withEngine e f)

def execOf (e : Nat) : Act Nat := return (← engineOf e).exec

def execStateOf (e : Nat) : Act ExecState := do stateOf (← execOf e)

def registryOf (e : Nat) : Act Registry := return ((← get).execAt (← execOf e)).registry

def withRegistry (e : Nat) (f : Registry → Registry) : Act Unit := do
  let x ← execOf e
  change (·.withExec x fun ex => { ex with registry := f ex.registry })

def withBook (e : Nat) (f : BreakpointBook → BreakpointBook) : Act Unit := withEngine e fun g => { g with book := f g.book }

/-- What the adapter can do. -/
def capabilities : Json :=
  Json.object [("supportsConfigurationDoneRequest", .bool true), ("supportsFunctionBreakpoints", .bool true),
    ("supportsConditionalBreakpoints", .bool true), ("supportsHitConditionalBreakpoints", .bool true),
    ("supportsLogPoints", .bool true), ("supportsDataBreakpoints", .bool true), ("supportsSetVariable", .bool true),
    ("supportsEvaluateForHovers", .bool true), ("supportsExceptionInfoRequest", .bool true),
    ("supportsTerminateRequest", .bool true), ("supportsRestartRequest", .bool true),
    ("supportsLoadedSourcesRequest", .bool true), ("supportsModulesRequest", .bool true),
    ("supportsCompletionsRequest", .bool true), ("supportsSetExpression", .bool true),
    ("supportsStepInTargetsRequest", .bool true),
    ("exceptionBreakpointFilters", .arr (standardExceptionFilters.map fun f =>
      Json.object [("filter", .string f.filter), ("label", .string f.label), ("default", .bool f.isDefault)]))]

/-- Whether a value is an object that is no array. -/
def isRecord (j : Json) : Bool := j.isObject

/-- The value of a reply body, when it is a record. -/
def recordOf? : Val → Option Json
  | .json j => if isRecord j then some j else none
  | _ => none

/-! ## Arguments of configuration commands -/

def lineArguments (e : Nat) (file : String) : Act Json := do
  let lines ← match (← engineOf e).book.linesOf (some (.string file)) with
    | .ok bps => pure bps
    | .error f => fail f
  return Json.object [("source", Json.object [("path", .string file)]),
    ("breakpoints", .arr (lines.map fun bp =>
      Json.objectOpt [("line", bp.line), ("condition", bp.condition),
        ("hitCondition", bp.hitCondition), ("logMessage", bp.logMessage),
        ("verified", some (.bool bp.verified))]))]

def functionArguments (e : Nat) : Act Json := do
  let book := (← engineOf e).book
  return Json.object [("breakpoints", .arr (book.functions.map fun bp =>
    Json.objectOpt [("name", some bp.name), ("condition", bp.condition),
      ("hitCondition", bp.hitCondition), ("verified", some (.bool bp.verified))]))]

def dataArguments (e : Nat) : Act Json := do
  let book := (← engineOf e).book
  return Json.object [("breakpoints", .arr (book.dataWatches.values.map fun w =>
    Json.objectOpt [("dataId", some (.string w.dataId)), ("accessType", some w.accessType),
      ("condition", w.condition), ("hitCondition", w.hitCondition)]))]

/-! ## Talking to the probe -/

/-- Pass a configuration command to the probe while there is one; a transport failure is
only a warning. -/
def forward (e : Nat) (command : String) (args : Option Json) : Act Unit := do
  let s ← execStateOf e
  if s.isNotStarted || s.isTerminated then return
  match ← attempt (execSend (← execOf e) command args) with
  | .ok () => pure ()
  | .error (.adapter ⟨.transport, m, _⟩) => log (.warning s!"Could not send '{command}' to the probe: {m}")
  | .error f => fail f

/-- Send a command if possible; a transport failure is only noted. -/
def sendBestEffort (e : Nat) (command : String) : Act Unit := do
  match ← attempt (execSend (← execOf e) command none) with
  | .ok () => pure ()
  | .error (.adapter ⟨.transport, m, _⟩) => debug s!"Could not send '{command}' to the probe" (some (.string m))
  | .error f => fail f

/-- Kill the debuggee process, if there is one. -/
def killChild (e : Nat) : Act Unit := do
  if let some c := (← engineOf e).child then change (·.withChild c fun ch => { ch with kills := ch.kills + 1 })

/-- The in-process probe stops. -/
def stopProbe (e : Nat) : Act Unit := do
  if (← engineOf e).probe then note (.probe (Json.object [("stopped", .bool true)]))

/-! ## Starting the debuggee -/

/-- Take the session for a kind of start. -/
def claim (e : Nat) (mode : Mode) : Act Unit := do
  if (← execStateOf e).isTerminated then failWith (.state "Cannot start a debuggee: the session has terminated")
  if (← engineOf e).mode.isSome then failWith (.operation "A program is already being debugged")
  withEngine e fun g => { g with mode := some mode }

/-- Undo a start that failed before the debuggee ran. -/
def abandonStart (e : Nat) : Act Unit := do
  let g ← engineOf e
  if let some c := g.channel then disableChannel c
  if let some l := g.listener then closeListener l
  stopProbe e
  killChild e
  withEngine e fun g => { g with channel := none, listener := none, probe := false, configurationDonePending := false }
  if (← execStateOf e).isNotStarted then withEngine e fun g => { g with mode := none }

/-- Point commands at the sink, start running, and replay what the client configured before
the debuggee existed, then a held-back `configurationDone`. -/
def begin (e : Nat) (sink : Sink) : Act Unit := do
  let x ← execOf e
  change (·.withExec x fun ex => { ex with sink := some sink })
  execStart x
  let g ← engineOf e
  for file in g.book.sourceFiles do
    forward e "setBreakpoints" (some (← lineArguments e file))
  if !g.book.functions.isEmpty then forward e "setFunctionBreakpoints" (some (← functionArguments e))
  let filters := g.book.exceptionFilters
  if !filters.isEmpty then forward e "setExceptionBreakpoints" (some (Json.object [("filters", .arr filters)]))
  if g.book.dataWatches.size > 0 then forward e "setDataBreakpoints" (some (← dataArguments e))
  if (← engineOf e).configurationDonePending then
    withEngine e fun g => { g with configurationDonePending := false }
    forward e "configurationDone" none

/-- Read the channel: its disconnect is posted on the session; its messages go to the session. -/
def bindChannel (e c : Nat) : Act Unit := do
  withEngine e fun g => { g with channel := some c }
  change (·.withChannel c fun ch => { ch with onDisconnected := ch.onDisconnected ++ [.engine e] })
  let loop ← runAcceptAndRead c (.engine e)
  withEngine e fun g => { g with readLoop := some loop }

/-- Start an in-process probe. -/
def launchInProcess (e : Nat) (config : LaunchConfig) : Act Unit := do
  if !(← engineOf e).canProbe then failWith (.operation "In-process mode is not available")
  withEngine e fun g => { g with probe := true }
  change fun w => { w with rig := { w.rig with current := some e } }
  begin e (.probe e)
  note (.probe (Json.object [("started", .bool true)]))
  let w ← get
  sendEvent "process" (some (Json.object [("name", .string ((config.program.map Path.baseName).getD "in-process")),
    ("systemProcessId", .num w.host.pid), ("isLocalProcess", .bool true), ("startMethod", .string "launch")]))

/-- A new channel. -/
def newChannel (framing : Framing) (inbox : Nat) (transport : String) (listener : Option Nat) (connection : Option Nat) :
    Act Nat :=
  let ch : Channel :=
    ⟨framing, inbox, transport, listener, connection, false, false, none, Decoder.fresh framing, none, [], [], [], false⟩
  modifyGet fun w => (w.channels.size, { w with channels := w.channels.push ch })

/-- Open a listener on an endpoint. -/
def newListener (ep : Endpoint) : Act Nat :=
  modifyGet fun w => (w.listeners.size, { w with listeners := w.listeners.push ⟨ep, false, none⟩ })

/-- Start a process through the session's launcher (and its child watcher). -/
def spawnProcess (e : Nat) (command : Json) (args : List Json) (opts : SpawnOptions) : Act Nat := do
  let w ← get
  let g := w.engineAt e
  let (call, table, watcher, notes) ← match w.processes.spawnWatched g.watcher w.host command args opts with
    | .ok r => pure r
    | .error f => fail f
  set { w with processes := table }
  withEngine e fun g => { g with watcher := watcher }
  note (.spawned call)
  notes.forM fun
    | .notify ev body => sendEvent ev (some body)
    | .log d => log d
  modifyGet fun w => (w.children.size, { w with children := w.children.push ⟨e, 0, [], [], none, none, {}, {}⟩ })

/-- Hear the debuggee's output, exit and failure. -/
def watchProcess (e c : Nat) : Act Unit := do
  let hear (ch : Child) : Child :=
    { ch with stdoutReader := some e, stderrReader := some e, exitHooks := ch.exitHooks ++ [e],
              errorHooks := ch.errorHooks ++ [e] }
  change (·.withChild c hear)
  withEngine e fun g => { g with outputs := g.outputs ++ [(c, true), (c, false)] }

/-- The listener is open: start the debuggee with the launcher, pointing it at the listener. -/
def startProcess (e p : Nat) (config : LaunchConfig) (cwd program : String) (ep : Endpoint) : Act Unit := do
  let g ← engineOf e
  let l ← newListener ep
  withEngine e fun g => { g with listener := some l }
  let c ← newChannel (Framing.ofBinary config.ipc.binaryFraming) g.inbox ep.transport.name (some l) none
  withEngine e fun g => { g with channel := some c }
  change (·.withChannel c fun ch => { ch with onConnected := ch.onConnected ++ [.engine e] })
  let launcher ← match config.launcherArgv with
    | .ok items => pure items
    | .error f => fail f
  let argv := launcher ++ (["--program", program] ++ config.args.flatMap (fun a => ["--arg", a])
    ++ (if config.stopOnEntry then ["--stop-on-entry"] else []) ++ (if config.noDebug then ["--no-debug"] else [])
    ++ ep.launcherArgs config.ipc.binaryFraming).map Json.string
  let child ← spawnProcess e (argv.headD .null) argv.tail ⟨some (.string cwd), none⟩
  withEngine e fun g => { g with child := some child }
  watchProcess e child
  let pid := (((← get).processes.processes.getLast?).bind (·.call.pid))
  log (.processLaunched argv pid)
  begin e (.gate c)
  bindChannel e c
  sendEvent "process" (some (Json.objectOpt [("name", some (.string (Path.baseName program))),
    ("systemProcessId", pid.map .num), ("isLocalProcess", some (.bool true)), ("startMethod", some (.string "launch"))]))
  fulfil p .none

/-! ## Lifecycle -/

/-- Open a listener where a launched probe connects back; its promise settles with the
endpoint. A unix socket without a path gets one in the temporary directory. Settings that
name no transport open nothing, and there is then no endpoint to read. A TCP port that an
open listener holds is in use. -/
def openListener (settings : IpcSettings) : Act Nat := do
  let p ← fresh
  let w ← get
  let ep : Endpoint ← match settings.kind?.map (Transport.effective · .posix) with
    | some .tcp =>
      pure (.tcp settings.hostName (if Double.eq settings.port 0 then Double.ofNat (40000 + w.listeners.size) else settings.port))
    | some .unix => pure (.unix (settings.path.getD s!"/tmp/debug-session-engine-{w.host.pid.render}-{w.listeners.size}.sock"))
    | some .pipe => pure (.pipe ((settings.pipeName.map toPipePath).getD s!"{pipePrefix}debug-session-engine-{w.host.pid.render}"))
    | none => fail (.readOfMissing "undefined" "transport")
  let q ← fresh
  match ep with
  | .tcp host port =>
    if (Act.listenerAtPort? w port).isSome then
      soon (.listenRefused q s!"listen EADDRINUSE: address already in use {Address.display host}:{port.render}")
    else soon (.listenReady q)
  | _ => soon (.listenReady q)
  let opened ← fresh
  await q (.endpointOpen opened ep)
  await opened (.listenerMade p settings.binaryFraming)
  return p

/-- Start the debuggee as a process that connects back. -/
def launchProcess (e : Nat) (config : LaunchConfig) (cwd : String) : Act Nat := do
  let p ← fresh
  match config.program with
  | none => reject p (.adapter (.configuration "Program path is required for launch mode"))
  | some prog =>
    let program := Path.resolve cwd prog
    let q ← openListener config.ipc
    await q (.listening e p config cwd program)
  return p

/-- After the start: wait for the first stop when asked to stop on entry. -/
def afterStart (e p : Nat) (config : LaunchConfig) : Act Unit := do
  if config.stopOnEntry && !config.noDebug then
    let q ← waitForStop (← execOf e) none
    await q (.entryStopped p)
  else fulfil p .none

/-- Launch the debuggee. -/
def launch (e : Nat) (raw : Option Json) : Act Nat := do
  let p ← fresh
  let r ← attempt do
    let g ← engineOf e
    let config ← match LaunchConfig.read (← get).host.validator raw g.defaults .posix with
      | .ok c => pure c
      | .error err => failWith err
    claim e (if config.inProcess then .inProcess else .launch)
    let cwd := match config.cwd with
      | some d => Path.resolve "/" d
      | none => "/"
    withBook e fun b => { b with cwd := some (.string cwd) }
    if config.subProcess then
      let (watcher, notes) := (← engineOf e).watcher.enable
      withEngine e fun g => { g with watcher := watcher }
      notes.forM fun
        | .notify ev body => sendEvent ev (some body)
        | .log d => log d
    withEngine e fun g => { g with started := true }
    log (.sessionStart config.program (some config.args) (some cwd) (some config.inProcess))
    if config.inProcess then
      match ← attempt (launchInProcess e config) with
      | .ok () => afterStart e p config
      | .error f => abandonStart e; fail f
    else
      let q ← launchProcess e config cwd
      await q (.launched e p config)
  if let .error f := r then reject p f
  return p

/-- Attach to a running probe. -/
def attach (e : Nat) (raw : Option Json) : Act Nat := do
  let p ← fresh
  let r ← attempt do
    let g ← engineOf e
    let config ← match AttachConfig.read (← get).host.validator raw g.defaults .posix with
      | .ok c => pure c
      | .error err => failWith err
    claim e .attach
    withEngine e fun g => { g with started := true }
    log (.sessionStartAttach config.program)
    let ep : Endpoint := match config.ipc.kind? with
      | some .tcp => .tcp config.ipc.hostName config.ipc.port
      | some .unix => .unix (config.ipc.path.getD "")
      | _ => .pipe (toPipePath (config.ipc.pipeName.getD ""))
    let q ← fresh
    connectSocket q ep
    await q (.attached e p config)
  if let .error f := r then reject p f
  return p

/-- Attached: the probe's stream is the session's channel. -/
def attached (e p : Nat) (config : AttachConfig) (o : Outcome) : Act Unit := do
  match o with
  | .error f => abandonStart e; reject p f
  | .ok v =>
    let s := match v with
      | .pipe s => s
      | _ => 0
    let r ← attempt do
      let g ← engineOf e
      let c ← newChannel (Framing.ofBinary config.ipc.binaryFraming) g.inbox config.ipc.transport.displayText none (some s)
      begin e (.channel c)
      bindChannel e c
    match r with
    | .error f => abandonStart e; reject p f
    | .ok () =>
      sendEvent "process" (some (Json.object [("name", .string ((config.program.filter (!·.isEmpty)).getD "attached")),
        ("isLocalProcess", .bool true), ("startMethod", .string "attach")]))
      fulfil p .none

def configurationDone (e : Nat) : Act Nat := promiseOf do
  let g ← engineOf e
  let s ← execStateOf e
  if g.mode.isNone || g.mode == some .inProcess || s.isTerminated then return .none
  if s.isNotStarted then
    withEngine e fun g => { g with configurationDonePending := true }
    return .none
  forward e "configurationDone" none
  return .none

def terminate (e : Nat) : Act Nat := promiseOf do
  let s ← execStateOf e
  if s.isTerminated then return .none
  if s.isNotStarted then failWith (.operation "No debuggee process")
  sendBestEffort e "terminate"
  if (← engineOf e).mode == some .inProcess then
    discard <| markTerminated (← execOf e)
    return .none
  killChild e
  return .none

/-- Stop the session: every waiting command fails, the channel and listener close, and the
registries are cleared. Asking again gives the same promise. -/
def shutdown (e : Nat) : Act Nat := do
  if let some p := (← engineOf e).shutdown then return p
  let p ← fresh
  withEngine e fun g => { g with shutdown := some p }
  withEngine e fun g => { g with watcher := g.watcher.cleanup }
  let failed ← execShutdown (← execOf e) shutdownFault
  withEngine e fun g => { g with pendingFailed := g.pendingFailed + failed }
  let g ← engineOf e
  if let some c := g.channel then disableChannel c
  if let some l := g.listener then closeListener l
  stopProbe e
  g.outputs.forM fun (c, out) =>
    change (·.withChild c fun ch => if out then { ch with stdoutReader := none } else { ch with stderrReader := none })
  withEngine e fun g => { g with outputs := [] }
  let q ← match g.readLoop with
    | some q => pure q
    | none => done (.ok .none)
  await q (.readLoopEnded e p)
  return p

/-- Shutdown: the read loop ended; let what was posted run. -/
def readLoopEnded (e p : Nat) : Act Unit := do
  let q ← flush (← engineOf e).inbox
  await q (.flushed e p)

/-- Shutdown: the last work ran; close the context and clear the session. -/
def flushed (e p : Nat) : Act Unit := do
  let g ← engineOf e
  closeInbox g.inbox
  withRegistry e (·.clearAll)
  withBook e (·.clear)
  let x ← execOf e
  change (·.withExec x fun ex => { ex with board := ex.board.reset })
  let ex := (← get).execAt x
  log (.sessionEnd (Json.object [("durationMs", .ofNat 0),
    ("exitCode", g.exitCode.getD .null), ("stops", .num ex.stops),
    ("pendingFailed", .ofNat g.pendingFailed)]))
  fulfil p .none

def restart (e : Nat) : Act Nat := do
  let p ← fresh
  let r ← attempt do
    let x ← execOf e
    if (← stateOf x).isTerminated then sendEvent "terminated" (some (Json.object [("restart", .bool true)]))
    else
      withEngine e fun g => { g with restartRequested := true }
      discard <| markTerminated x
    killChild e
    let q ← shutdown e
    await q (.shutDown p)
  if let .error f := r then reject p f
  return p

/-- End the session; the debuggee is terminated by default when it was launched. -/
def disconnect (e : Nat) (terminateDebuggee : Option Bool) : Act Nat := do
  let p ← fresh
  let r ← attempt do
    let g ← engineOf e
    let terminate := terminateDebuggee.getD (g.mode == some .launch)
    let s ← execStateOf e
    if terminate && !s.isNotStarted && !s.isTerminated then
      sendBestEffort e "terminate"
      killChild e
    let q ← shutdown e
    await q (.shutDown p)
  if let .error f := r then reject p f
  return p

/-! ## Breakpoints -/

def setBreakpoints (e : Nat) (file : Option String) (specs : List Json) : Act Nat := promiseOf do
  let g ← engineOf e
  let (results, book, notes) := g.book.setLines (file.map .string) (some (.arr specs))
  withEngine e fun g => { g with book := book }
  notes.forM log
  let results ← match results with
    | .ok rs => pure rs
    | .error f => fail f
  let resultsJson := Json.arr (results.map BreakpointResult.toJson)
  match file.filter (!·.isEmpty) with
  | none => return .json resultsJson
  | some f =>
    let path ← match book.resolvePath (some (.string f)) with
      | .ok path => pure path
      | .error err => fail err
    forward e "setBreakpoints" (some (← lineArguments e path))
    results.forM fun r => sendEvent "breakpoint" (some (Json.object [("reason", .string "changed"), ("breakpoint", r.toJson)]))
    return .json resultsJson

def setFunctionBreakpoints (e : Nat) (specs : List Json) : Act Nat := promiseOf do
  let (results, book) := (← engineOf e).book.setFunctions (some (.arr specs))
  withEngine e fun g => { g with book := book }
  let results ← match results with
    | .ok rs => pure rs
    | .error f => fail f
  forward e "setFunctionBreakpoints" (some (← functionArguments e))
  return .json (.arr (results.map BreakpointResult.toJson))

def setExceptionBreakpoints (e : Nat) (filters : List Json) : Act Nat := promiseOf do
  let (results, book) := (← engineOf e).book.setExceptions filters
  withEngine e fun g => { g with book := book }
  forward e "setExceptionBreakpoints" (some (Json.object [("filters", .arr book.exceptionFilters)]))
  return .json (.arr (results.map BreakpointResult.toJson))

def setDataBreakpoints (e : Nat) (specs : List Json) : Act Json := do
  let (results, book) := (← engineOf e).book.setData (some (.arr specs))
  withEngine e fun g => { g with book := book }
  let results ← match results with
    | .ok rs => pure rs
    | .error f => fail f
  forward e "setDataBreakpoints" (some (← dataArguments e))
  return .arr (results.map BreakpointResult.toJson)

/-! ## Inspection -/

/-- Ask the probe and resume at `use`; the operation's promise. -/
def ask (e : Nat) (command : String) (args : Option Json) (use : Use) : Act Nat := do
  let p ← fresh
  let q ← execRequest (← execOf e) command args none
  await q (.answered e p use)
  return p

def threads (e : Nat) : Act Nat := promiseOf do
  let x ← execOf e
  let ex := (← get).execAt x
  let real := ex.registry.threadList
  let base : List Json := if real.isEmpty then [Thread.toJson ⟨1, "Main Thread"⟩] else real
  let (tasks, board) := ex.board.snapshot
  change (·.withExec x fun ex => { ex with board := board })
  let tasks ← match tasks with
    | .ok ts => pure ts
    | .error f => fail f
  return .json (.arr (base ++ tasks.map Thread.toJson))

def framesJson (fs : List Json) (total : Nat) : Json :=
  Json.object [("stackFrames", .arr fs), ("totalFrames", .ofNat total)]

def stackTrace (e : Nat) (threadId : Double) (startFrame levels : Option Double) : Act Nat := do
  let start := startFrame.getD 0
  let lv := levels.getD 0
  let x ← execOf e
  let ex := (← get).execAt x
  let task := some (.num threadId)
  if isTaskThreadId task then
    done (.ok (.json (framesJson (ex.board.frames task (some (.num start)) (some (.num lv))) (ex.board.frameCount task))))
  else match ex.registry.stackFrames? (some (.num threadId)) with
    | some cached =>
      let cached := match cached with
        | some (.arr fs) => fs
        | _ => []
      let stop := if Double.lt 0 lv then some (start + lv) else none
      done (.ok (.json (framesJson (sliceBy cached start stop) cached.length)))
    | none =>
      ask e "stackTrace" (some (Json.object [("threadId", .num threadId), ("startFrame", .num start), ("levels", .num lv)]))
        (.stackTrace threadId start lv)

def scopes (e : Nat) (frameId : Double) : Act Json := do
  let r ← registryOf e
  let (locals, r) := r.scopeReference (some (.num frameId)) (some (.string ScopeKind.locals.name))
  let (globals, r) := r.scopeReference (some (.num frameId)) (some (.string ScopeKind.globals.name))
  withRegistry e fun _ => r
  return .arr [Json.object [("name", .string "Local"), ("variablesReference", .num locals), ("expensive", .bool false)],
    Json.object [("name", .string "Global"), ("variablesReference", .num globals), ("expensive", .bool true)]]

/-- The kind of a value, as `typeof` names it. -/
def typeName : Json → String
  | .null => "null"
  | .arr _ => "array"
  | .obj _ => "object"
  | .str _ => "string"
  | .num _ => "number"
  | .bool _ => "boolean"

/-- The own entries of a value, in property order: an object's fields, an array's items under
their indices; any other value has none. -/
def entriesOf : Json → List (String × Json)
  | .obj fs => fs
  | .arr xs => xs.zipIdx.map fun (x, i) => (toString i, x)
  | _ => []

/-- Whether a member is nested: an object or an array, which gets a reference of its own. -/
def isNested : Json → Bool
  | .obj _ | .arr _ => true
  | _ => false

/-- How a member's value is shown: an array by its length, an object as `Object`, a text written
as JSON, any other value as its text. -/
def shownValue : Json → Text
  | .arr xs => Text.ofString s!"Array({xs.length})"
  | .obj _ => Text.ofString "Object"
  | child@(.str _) => Text.ofString (Json.write child)
  | c => Text.ofString c.displayText

/-- One member of an object (or array) as a variable; a nested value gets a reference. -/
def describeEntry (e : Nat) (entry : String × Json) : Act Variable := do
  let ref ← if isNested entry.2 then do
      let (id, r) := (← registryOf e).allocate (some (Backing.object entry.2).toJson)
      withRegistry e fun _ => r
      pure id
    else pure 0
  return ⟨entry.1, shownValue entry.2, some (typeName entry.2), ref, none⟩

/-- The members of an object (or array) as variables; nested values get references. -/
def describeObject (e : Nat) (value : Json) : Act (List Variable) := (entriesOf value).mapM (describeEntry e)

def listVariables (e : Nat) (reference : Double) (filter : Option String) (start count : Option Double) : Act Nat := do
  if Double.eq reference 0 then return ← done (.ok (.vars []))
  let r ← registryOf e
  let local? ← match (r.resolve? (some (.num reference))).join.bind Backing.ofJson? with
    | some (.list vs) => pure (some vs)
    | some (.object v) => some <$> describeObject e v
    | _ => pure none
  if let some vs := local? then return ← done (.ok (.vars vs))
  match r.probeVariables? (some (.num reference)) with
  | some vs => done (.ok (.vars (variablesOf (vs.getD .null))))
  | none =>
    let startGiven := start.filter fun s => !Double.eq s 0
    let countGiven := count.filter fun c => !Double.eq c 0
    let args := Json.objectOpt [("variablesReference", some (.num reference)), ("filter", filter.map .string),
      ("start", startGiven.map .num), ("count", countGiven.map .num)]
    ask e "variables" (some args) (.variableList reference (filter.isNone && startGiven.isNone && countGiven.isNone))

def setVariable (e : Nat) (reference : Double) (name value : String) : Act Nat := do
  match (← registryOf e).resolve? (some (.num reference)) |>.map fun b => b.bind Backing.ofJson? with
  | none => done (.error (.adapter (.operation s!"Invalid variable reference: {reference.render}")))
  | some none => done (.error (.adapter (.operation "Cannot set variable in reference type: object")))
  | some (some (.scope ..)) =>
    ask e "setVariable" (some (Json.object [("variablesReference", .num reference), ("name", .string name),
      ("value", .string value)])) (.setVariable value)
  | some (some b) =>
    let kind := match b with
      | .list _ => "list"
      | _ => "object"
    done (.error (.adapter (.operation s!"Cannot set variable in reference type: {kind}")))

def evaluate (e : Nat) (expression : String) (frameId : Option Double) (context : Option String) : Act Nat :=
  ask e "evaluate" (some (Json.objectOpt [("expression", some (.string expression)),
    ("context", some (.string (context.getD "hover"))), ("frameId", frameId.map .num)])) (.evaluate expression)

def setExpression (e : Nat) (expression value : String) (frameId : Option Double) : Act Nat :=
  ask e "setExpression" (some (Json.objectOpt [("expression", some (.string expression)), ("value", some (.string value)),
    ("frameId", frameId.map .num)])) (.setExpression value)

def completions (e : Nat) (text : String) (column : Double) (frameId line : Option Double) : Act Nat :=
  ask e "completions" (some (Json.objectOpt [("text", some (.string text)), ("column", some (.num column)),
    ("frameId", frameId.map .num), ("line", line.map .num)])) .completions

def loadedSources (e : Nat) : Act Nat := ask e "loadedSources" none .loadedSources

def source (e : Nat) (reference : Option Double) (path : Option String) : Act Nat := do
  match reference.filter (Double.lt 0 ·), path.filter (!·.isEmpty) with
  | some r, _ => ask e "source" (some (Json.object [("sourceReference", .num r)])) .source
  | none, some p => ask e "source" (some (Json.object [("path", .string p)])) .source
  | none, none => done (.error (.adapter (.operation "Source path or reference is required")))

def modules (e : Nat) (start count : Option Double) : Act Nat :=
  ask e "modules" none (.modules (start.getD 0) (count.filter fun c => !Double.eq c 0))

def exceptionInfo (e : Nat) (threadId : Double) : Act Nat :=
  ask e "exceptionInfo" (some (Json.object [("threadId", .num threadId)])) .exceptionInfo

def stepInTargets (e : Nat) (frameId : Double) : Act Nat :=
  ask e "stepInTargets" (some (Json.object [("frameId", .num frameId)])) .stepInTargets

/-- The reference of an evaluation result: the probe's own, or one of ours for structured
results it did not reference. -/
def evaluationReference (e : Nat) (body : Json) : Act Double := do
  let reference := (Report.numberAt? body "variablesReference").getD 0
  if !Double.eq reference 0 then return reference
  match body.field? "variables", body.field? "value" with
  | some (.arr _), _ =>
    let (id, r) := (← registryOf e).allocate (some (Backing.list (Report.variableList body)).toJson)
    withRegistry e fun _ => r
    return id
  | _, some (.obj fs) =>
    let (id, r) := (← registryOf e).allocate (some (Backing.object (.obj fs)).toJson)
    withRegistry e fun _ => r
    return id
  | _, some (.arr xs) =>
    let (id, r) := (← registryOf e).allocate (some (Backing.object (.arr xs)).toJson)
    withRegistry e fun _ => r
    return id
  | _, _ => return 0

/-- The text of a value where text is wanted (`String(v ?? "")`). -/
def textOf (v : Option Json) : String :=
  match v with
  | none | some .null => ""
  | some j => j.displayText

/-- An engine operation's use of the probe's reply body. -/
def useReply (e : Nat) (use : Use) (v : Val) : Act Val := do
  let body? := recordOf? v
  match use with
  | .stepInTargets =>
    return .json (Json.object [("targets", .arr ((body?.map Report.stepInTargets).getD [] |>.map StepInTarget.toJson))])
  | .stackTrace threadId start levels =>
    match body? with
    | none => return .json (framesJson [] 0)
    | some body =>
      let frames := Report.stackFrames body
      if Double.eq start 0 && Double.eq levels 0 then
        withRegistry e fun r => (r.setStackFrames (some (.num threadId)) (some (.arr (frames.map StackFrame.toJson)))).2
      return .json (Json.object [("stackFrames", .arr (frames.map StackFrame.toJson)),
        ("totalFrames", .num ((Report.numberAt? body "totalFrames").getD (Double.ofNat frames.length)))])
  | .variableList reference plain =>
    match body? with
    | some body =>
      match body.field? "variables" with
      | some (.arr _) =>
        let vs := Report.variableList body
        if plain then withRegistry e (·.cacheProbeVariables (some (.num reference)) (some (.arr (vs.map Variable.toJson))))
        return .vars vs
      | _ => return .vars []
    | none => return .vars []
  | .setVariable value =>
    match body? with
    | none => return .json (Json.object [("value", .string value), ("type", .string "string"), ("variablesReference", .num 0)])
    | some body =>
      return .json (Json.objectOpt [("value", some (.str ((Report.textAt? body "value").getD (Text.ofString value)))),
        ("variablesReference", some (.num ((Report.numberAt? body "variablesReference").getD 0))),
        ("type", (Report.stringAt? body "type").map .string)])
  | .evaluate expression =>
    match body? with
    | none => return .json (Json.object [("result", .string s!"<evaluation of '{expression}' not available>"),
        ("type", .string "string"), ("variablesReference", .num 0)])
    | some body =>
      let result : Text := match Report.textAt? body "result" with
        | some t => t
        | none => Text.ofString (textOf (body.field? "result"))
      let reference ← evaluationReference e body
      return .json (Json.objectOpt [("result", some (.str result)), ("variablesReference", some (.num reference)),
        ("type", (Report.stringAt? body "type").map .string)])
  | .setExpression value =>
    match body? with
    | none => return .json (Json.object [("value", .string value)])
    | some body =>
      return .json (Json.objectOpt [("value", some (.str ((Report.textAt? body "value").getD (Text.ofString value)))),
        ("type", (Report.stringAt? body "type").map .string),
        ("variablesReference", (Report.numberAt? body "variablesReference").map .num)])
  | .completions =>
    return .json (Json.object [("targets", .arr ((body?.map Report.completions).getD [] |>.map CompletionItem.toJson))])
  | .loadedSources =>
    return .json (Json.object [("sources", .arr ((body?.map Report.sources).getD [] |>.map Source.toJson))])
  | .source =>
    match body?.bind (Report.textAt? · "content") with
    | none => failWith (.operation "Could not load source content")
    | some content =>
      return .json (Json.objectOpt [("content", some (.str content)),
        ("mimeType", (body?.bind (Report.stringAt? · "mimeType")).map .string)])
  | .modules start count =>
    let all := (body?.map Report.modules).getD []
    let stop := count.map (start + ·)
    return .json (Json.object [("modules", .arr ((sliceBy all start stop).map Module.toJson)),
      ("totalModules", .ofNat all.length)])
  | .exceptionInfo =>
    match body? with
    | none =>
      let unavailable := "Exception information not available"
      return .json (Json.object [("exceptionId", .string "Unknown"), ("description", .string unavailable),
        ("breakMode", .string "unhandled"), ("details", Json.object [("message", .string unavailable),
          ("typeName", .string "Unknown"), ("fullTypeName", .string "Unknown"), ("source", .string "Unknown"),
          ("stackTrace", .string unavailable)])])
    | some body =>
      let breakMode := (Report.stringAt? body "breakMode").filter (["never", "always", "unhandled", "userUnhandled"].contains ·)
      let details := match body.field? "details" with
        | some d@(.obj _) =>
          let trace := match d.field? "stackTrace" with
            | some (.arr xs) => some (.arr (xs.filter fun x => match x with
                | .str _ => true
                | _ => false))
            | _ => (Report.textAt? d "stackTrace").map .str
          some (Json.objectOpt [("message", (Report.textAt? d "message").map .str),
            ("typeName", (Report.textAt? d "typeName").map .str), ("fullTypeName", (Report.textAt? d "fullTypeName").map .str),
            ("source", (Report.textAt? d "source").map .str), ("stackTrace", trace)])
        | _ => none
      return .json (Json.objectOpt [("exceptionId", some (.str ((Report.textAt? body "exceptionId").getD (Text.ofString "Unknown")))),
        ("description", (Report.textAt? body "description").map .str),
        ("breakMode", some (.string (breakMode.getD "unhandled"))), ("details", details)])

/-- An engine operation heard from the probe. -/
def answered (e p : Nat) (use : Use) (o : Outcome) : Act Unit := do
  match o with
  | .error f => reject p f
  | .ok v =>
    match ← attempt (useReply e use v) with
    | .ok r => fulfil p r
    | .error f => reject p f

/-- The locals of a frame: known ones, or read from the probe while stopped. -/
def frameLocals (e : Nat) (frameId : Double) : Act Nat := do
  let r ← registryOf e
  let s ← execStateOf e
  match r.frameLocals? (some (.num frameId)) with
  | some vs => done (.ok (.vars (variablesOf (vs.getD .null))))
  | none =>
    if !s.isStopped then done (.ok .none)
    else
      let p ← fresh
      let (ref, r) := r.scopeReference (some (.num frameId)) (some (.string ScopeKind.locals.name))
      withRegistry e fun _ => r
      let q ← listVariables e ref none none none
      await q (.localsFetched e p frameId)
      return p

def localsFetched (p : Nat) (frameId : Double) (o : Outcome) : Act Unit := do
  match o with
  | .ok v => fulfil p v
  | .error f =>
    if f.isOperation then
      debug s!"Could not read the locals of frame {frameId.render}" (some (.string f.message))
      fulfil p .none
    else reject p f

def dataBreakpointInfo (e : Nat) (name : String) (frameId : Double) : Act Nat := do
  let p ← fresh
  let q ← frameLocals e frameId
  await q (.localsRead e p name frameId)
  return p

def localsRead (p : Nat) (name : String) (frameId : Double) (o : Outcome) : Act Unit := do
  match o with
  | .ok v =>
    let locals := match v with
      | .vars vs => some (vs.map Variable.toJson)
      | _ => none
    match BreakpointBook.dataTarget (some (.string name)) (some (.num frameId)) (locals.map .arr) with
    | .ok t => fulfil p (.json t.toJson)
    | .error f => reject p f
  | .error f => reject p f

/-! ## Probe traffic -/

def sendExited (e : Nat) (code : Json) : Act Unit := do
  if (← engineOf e).exitedSent then return
  withEngine e fun g => { g with exitedSent := true }
  sendEvent "exited" (some (Json.object [("exitCode", code)]))

/-- The watch a data breakpoint stop is for. -/
def dataIdOf (m : Json) : Option String :=
  match Report.stringAt? m "dataId" with
  | some d => some d
  | none =>
    match Report.numberAt? m "frameId", Report.stringAt? m "name" with
    | some f, some n => some s!"frame:{f.render}:var:{n}"
    | _, _ => none

def onStopped (e : Nat) (m : Json) : Act Unit := do
  let body := Report.stopInfo m
  match ← handleStopped (← execOf e) (some (.string body.reason)) (some (.num body.threadId))
      (body.description.map .string) with
  | none => pure ()
  | some _ =>
    let (hit, book) := (← engineOf e).book.recordHits (body.hitBreakpointIds.getD [])
    withEngine e fun g => { g with book := book }
    hit.forM fun bp => log (.breakpointHit (.num bp.id) body.threadId (Double.ofNat bp.hits))
    if body.reason == "data breakpoint" then
      if let some d := dataIdOf m then
        let (w, book) := (← engineOf e).book.recordDataHit d
        withEngine e fun g => { g with book := book }
        if let some w := w then log (.breakpointHit (.string w.dataId) body.threadId (Double.ofNat w.hit))
    sendEvent "stopped" (some body.toJson)

def onThread (e : Nat) (m : Json) : Act Unit := do
  let reason := (Report.stringAt? m "reason").getD "started"
  let threadId := (Report.numberAt? m "threadId").getD 1
  if reason == "started" then
    withRegistry e fun r => (r.addThread (some (.num threadId)) ((Report.stringAt? m "name").map .string)).2
  else withRegistry e fun r => (r.removeThread (some (.num threadId))).2
  sendEvent "thread" (some (Json.object [("reason", .string reason), ("threadId", .num threadId)]))

/-- A message from the probe: a reply, an event the session keeps, or one passed on. -/
def handleProbeMessage (e : Nat) (m : Json) : Act Unit := do
  let x ← execOf e
  if ← resolveReply x m then return
  match Report.stringAt? m "event" with
  | some "stopped" => onStopped e m
  | some "thread" => onThread e m
  | some "exited" =>
    let code := Json.num ((Report.numberAt? m "exitCode").getD 0)
    withEngine e fun g => { g with exitCode := some code }
    sendExited e code
    discard <| markTerminated x
  | some "stackTrace" =>
    withRegistry e fun r =>
      (r.setStackFrames (some (.num ((Report.numberAt? m "threadId").getD 1)))
        (some (.arr ((Report.stackFrames m).map StackFrame.toJson)))).2
  | some "variables" =>
    withRegistry e (·.cacheProbeVariables (some (.num ((Report.numberAt? m "variablesReference").getD 0)))
      (some (.arr ((Report.variableList m).map Variable.toJson))))
  | some "asyncTasks" =>
    change (·.withExec x fun ex => { ex with board := ex.board.report (some (.arr ((Report.tasks m).map Task.toJson))) })
  | some event =>
    match Report.forwardedBody? event m with
    | some body => sendEvent event (some body)
    | none => debug "Ignoring probe message" (some m)
  | none => debug "Ignoring probe message" (some m)

def handleProbeDisconnected (e : Nat) (reason : Option String) : Act Unit := do
  let message := match reason with
    | some r => s!"Probe disconnected: {r}"
    | none => "Probe disconnected"
  let failed ← execShutdown (← execOf e) (.adapter (.transport message))
  withEngine e fun g => { g with pendingFailed := g.pendingFailed + failed }

def handleProcessExit (e : Nat) (code signal : Json) : Act Unit := do
  log (.processExited (some code) (some signal))
  withEngine e fun g => { g with child := none }
  let g ← engineOf e
  let exitCode := match g.exitCode, code with
    | some c, _ => some c
    | none, .null => none
    | none, c => some c
  withEngine e fun g => { g with exitCode := exitCode }
  sendExited e (exitCode.getD (.num 0))
  discard <| markTerminated (← execOf e)

def handleProcessError (e : Nat) (message : String) : Act Unit := do
  log (.error "Debuggee process failed" (some message))
  withEngine e fun g => { g with child := none }
  let failed ← execShutdown (← execOf e) (.adapter (.operation s!"Debuggee process failed: {message}"))
  withEngine e fun g => { g with pendingFailed := g.pendingFailed + failed }

def emitProgramOutput (category : String) (text : Text) : Act Unit := do
  log (.programOutput category text)
  sendEvent "output" (some (Json.object [("category", .string category), ("output", .str text)]))

/-- A new engine, with its own context and run/stop machine. -/
def create (defaults : EngineDefaults) (timeout : Json) (watch : WatchConfig) (canProbe : Bool) : Act Nat := do
  let w ← get
  let e := w.engines.size
  let inbox := w.inboxes.size
  let x := w.execs.size
  set { w with
    inboxes := w.inboxes.push ⟨"session", [], false, false⟩,
    execs := w.execs.push ⟨.notStarted, none, .empty, inbox, Registry.create firstReference, .empty, [], false, 0,
      timeout, .engine e⟩,
    engines := w.engines.push ⟨defaults, inbox, x, { BreakpointBook.create none standardFilterNames with files := w.host.files },
      ChildWatcher.create watch, none, none, none, none, false, none, [], false, none, false, false, false, 0, none,
      canProbe⟩ }
  return e

end Session

end DapBridge
