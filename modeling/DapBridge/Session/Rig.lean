import DapBridge.Session.Resume

/-!
# The adapter in its surroundings

A world to run the adapter in: the front end with its first engine, a simulated launcher
and a scripted probe. The surroundings act on the adapter by writing client bytes, by the
probe emitting a message, by the debuggee's processes writing output, exiting or failing,
and by the client's input ending. After each action the loop is settled.

`World.notesSince` gives what could be seen since a point of the trace, oldest first.
-/

namespace DapBridge

/-- How the adapter's surroundings are set up. -/
structure Setup where
  plan : EnginePlan
  firstPid : Double
  pids : List (Option Double)
  script : List (String × List (List Json))
  refusals : List (String × Refusal)
  host : Host
  style : LogStyle
  /-- Whether TCP connections on the host reach its listeners. -/
  tcpReachable : Bool

namespace World

/-- Nothing at all: no engine yet. -/
def blank (s : Setup) : World :=
  ⟨.empty, #[], #[], #[], #[], #[], #[], #[], ⟨Link.fresh, Codec.fresh, 0, false, s.plan⟩,
    ProcessTable.create s.firstPid s.pids, #[], ⟨s.script, s.refusals, none, none, none, false, s.tcpReachable⟩, s.host, s.style, []⟩

/-- The front end with its first engine. -/
def create (s : Setup) : World := (blank s).exec Frontend.newEngine

/-- What could be seen since the trace had `n` notes, oldest first. -/
def notesSince (w : World) (n : Nat) : List Note := (w.trace.take (w.trace.length - n)).reverse

/-- The current engine. -/
def engine (w : World) : Engine := w.engineAt w.server.engine

/-- The run/stop state of the current engine. -/
def execState (w : World) : ExecState := (w.execAt w.engine.exec).current

/-- How many commands the current engine waits on. -/
def pendingCount (w : World) : Nat := (w.execAt w.engine.exec).book.entries.length

/-- Whether the front end has closed. -/
def isClosed (w : World) : Bool := w.trace.any fun
  | .closed => true
  | _ => false

/-- How often each process was killed, in the order they started; none while none was. -/
def kills (w : World) : Option (List Nat) :=
  let ks := w.children.toList.map (·.kills)
  if ks.any (· > 0) then some ks else none

end World

namespace Rig

open Act

/-- The client writes bytes. -/
def clientWrites (bytes : List UInt8) : Act Unit := Frontend.receive bytes

/-- The client's input ends. -/
def inputEnds : Act Unit := Frontend.inputEnded

/-- The current probe emits a message: the socket probe sends it, the in-process probe hands
it to its session. There may be no probe yet. -/
def probeEmits (m : Json) : Act Unit := do
  let rig := (← get).rig
  match rig.socket, rig.current with
  | some s, _ => probeSend s m
  | none, some e => postForSession e (.probeMessage e m)
  | none, none => fail (.other "Error" "no probe")

/-- The socket probe writes raw bytes. -/
def probeWritesBytes (bytes : List UInt8) : Act Unit := do
  match (← get).rig.socket with
  | some s => probeSendBytes s bytes
  | none => fail (.other "Error" "no probe")

/-- The socket probe ends its connection. -/
def probeHangsUp : Act Unit := do
  match (← get).rig.socket with
  | some s => probeHangUp s
  | none => fail (.other "Error" "no probe")

/-- The value following a flag in a command line. -/
def flagValue? (args : List String) (flag : String) : Option String :=
  match args.dropWhile (· != flag) with
  | _ :: v :: _ => some v
  | _ => none

/-- A socket probe connects to the endpoint the last started process was told to connect
to, framing in binary if it was told so. -/
def connectProbe : Act Unit := do
  let w ← get
  let args := (((w.processes.processes.getLast?).map (·.call.args)).getD []).map Json.displayText
  let binary := args.contains "--ipc-binary"
  let ep ← match flagValue? args "--ipc-path", flagValue? args "--ipc-host", flagValue? args "--ipc-port" with
    | some path, _, _ => pure (Endpoint.unix path)
    | none, some host, some port => pure (Endpoint.tcp host ((port.toNat?.map Double.ofNat).getD 0))
    | _, _, _ => fail (.other "Error" "no endpoint to connect to")
  match ← reach ep with
  | .refused m => fail (.other "Error" m)
  | .listener l =>
    let (a, b) ← socketPair
    placeProbe a binary
    note (.probe (Json.object [("connected", .bool true), ("binary", .bool binary)]))
    defer (.accept l b)

/-- Open a listener whose connections become the socket probe, framing as told. -/
def openProbeListener (ep : Endpoint) (binary : Bool) : Act Unit := do
  let l ← modifyGet fun w => (w.listeners.size, { w with listeners := w.listeners.push ⟨ep, false, none⟩ })
  change fun w => { w with rig := { w.rig with attachListener := some l, attachBinary := binary } }

/-- A process is started through the current engine's launcher. -/
def spawn (command : Json) (args : List Json) (opts : SpawnOptions) : Act Unit := do
  discard <| Session.spawnProcess (← get).server.engine command args opts

/-- A process writes bytes to its standard output or error. A reader decodes them as UTF-8,
holding back a character that the bytes cut; it hears only the text that is complete. -/
def childWrites (index : Nat) (stdout : Bool) (bytes : List UInt8) : Act Unit := do
  let ch := (← get).childAt index
  let reader := if stdout then ch.stdoutReader else ch.stderrReader
  if let some e := reader then
    let (decoder, text) := (if stdout then ch.stdoutText else ch.stderrText).push bytes
    change (·.withChild index fun c =>
      if stdout then { c with stdoutText := decoder } else { c with stderrText := decoder })
    if !text.isEmpty then
      postForSession e (.programOutput e (if stdout then "stdout" else "stderr") (Text.ofString text))

/-- A process exits: the child watcher hears it first, then the engines that wait for it. -/
def childExits (index : Nat) (code signal : Json) : Act Unit := do
  let w ← get
  let ch := w.childAt index
  let g := w.engineAt ch.spawner
  let (table, watcher, notes) := w.processes.exit g.watcher index
  set { w with processes := table }
  change (·.withEngine ch.spawner fun g => { g with watcher := watcher })
  notes.forM fun
    | .notify ev body => sendEvent ev (some body)
    | .log d => log d
  change (·.withChild index fun c => { c with exitHooks := [] })
  ch.exitHooks.forM fun e => postForSession e (.processExit e code signal)

/-- A process fails; with no one listening the failure is thrown. -/
def childFails (index : Nat) (message : String) : Act Unit := do
  let ch := (← get).childAt index
  if ch.errorHooks.isEmpty then fail (.other "Error" message)
  change (·.withChild index fun c => { c with errorHooks := [] })
  ch.errorHooks.forM fun e => postForSession e (.processError e message)

end Rig

end DapBridge
