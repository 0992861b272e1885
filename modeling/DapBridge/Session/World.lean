import DapBridge.Loop.Machine
import DapBridge.Message.Codec
import DapBridge.Wire
import DapBridge.Config.Session
import DapBridge.Child.Launcher
import DapBridge.Session.Registry
import DapBridge.Session.Tasks
import DapBridge.Session.Breakpoints
import DapBridge.Ipc.Framing
import DapBridge.Probe.Report

/-!
# The state of a running adapter

Everything the adapter holds while it serves a client, together with the surroundings it
talks to, as one value: the event loop with its promises, the scheduling contexts, the
result slots of probe commands, the run/stop state machines, the probe channels and the
byte streams under them, the session engines, the client front end, the processes started,
and the simulated probe and launcher.

Objects that refer to each other do so by number: the `n`-th engine, context, channel and
so on. Work that waits is first-order data: a `Cont` says where an `await` resumes, an
`Errand` is a task posted on a scheduling context, and a `Turn` is a task of the event loop
(a turn of its own, a tick or a timer).

What can be seen from outside is appended to the trace as `Note`s, newest first.
-/

namespace DapBridge

/-- What a request handler gives the front end. -/
structure Dispatched where
  body : Option Json
  /-- Events to send once the response is out. -/
  followUp : List String
  endsSession : Bool
  restartsSession : Bool
  deriving Inhabited

def Dispatched.empty : Dispatched := ⟨none, [], false, false⟩

def Dispatched.withBody (j : Json) : Dispatched := ⟨some j, [], false, false⟩

/-- Values promises settle with. -/
inductive Val where
  | none
  | json (j : Json)
  | dispatched (d : Dispatched)
  /-- A listener opened on an endpoint. -/
  | endpoint (e : Endpoint)
  /-- A connected byte stream. -/
  | pipe (id : Nat)
  /-- Variables, as the session keeps them. -/
  | vars (vs : List Variable)
  deriving Inhabited

/-- The JSON of a value; none for `none`. -/
def Val.toJson? : Val → Option Json
  | .json j => some j
  | .vars vs => some (.arr (vs.map Variable.toJson))
  | _ => Option.none

/-- How a promise settles: with a value, or with a fault. -/
abbrev Outcome := Except Fault Val

/-- The run/stop state of a debuggee. -/
inductive ExecState where
  | notStarted
  | running
  | stopped (reason : Json) (threadId : Json) (description : Option Json)
  | terminated
  deriving Inhabited

namespace ExecState

def kind : ExecState → String
  | .notStarted => "notStarted"
  | .running => "running"
  | .stopped .. => "stopped"
  | .terminated => "terminated"

def toJson : ExecState → Json
  | .stopped r t d => Json.objectOpt [("kind", some (.string "stopped")), ("reason", some r),
      ("threadId", some t), ("description", d)]
  | s => Json.object [("kind", .string s.kind)]

def isStopped : ExecState → Bool
  | .stopped .. => true
  | _ => false

def isTerminated : ExecState → Bool
  | .terminated => true
  | _ => false

def isNotStarted : ExecState → Bool
  | .notStarted => true
  | _ => false

end ExecState

/-- Where probe commands are written. -/
inductive Sink where
  /-- The in-process probe of an engine. -/
  | probe (engine : Nat)
  /-- A channel, written at once. -/
  | channel (id : Nat)
  /-- A channel whose probe has not connected yet: commands wait until it has. -/
  | gate (channel : Nat)
  /-- A sink that keeps what it is given, or refuses everything with a plain error. -/
  | recorder (refusal : Option String)
  deriving Inhabited

/-- Someone waiting on a slot or a stop: the promise to settle, and its deadline timer. -/
structure Waiter where
  promise : Nat
  timer : Option Nat
  deriving Inhabited

/-- The outcome of a slot. -/
inductive SlotState where
  | pending
  | resolved (v : Json)
  | rejected (f : Fault)
  deriving Inhabited

/-- A single-assignment result of a probe command, and those waiting on it. -/
structure Slot where
  state : SlotState
  waiters : List Waiter
  deriving Inhabited

/-- A command waiting on the probe: its id, its name, its slot, and the scheduling context
its outcome is delivered on. -/
structure PendingEntry where
  id : Double
  command : String
  slot : Nat
  owner : Nat
  deriving Inhabited

/-- The commands waiting on the probe, one per id, in the order their ids were first filed. Ids
are numbers counted up by one from `1`, so from `2^53` on they stay at `2^53`. -/
structure PendingBook where
  entries : List PendingEntry
  nextId : Double
  deriving Inhabited

def PendingBook.empty : PendingBook := ⟨[], 1⟩

/-- File an entry under its id, as a map does: in place of the entry with that id, or at the end
when none has it. Ids are whole numbers from `1`, which a map tells apart as their words do. -/
def PendingBook.put (entry : PendingEntry) : List PendingEntry → List PendingEntry
  | [] => [entry]
  | c :: cs => if c.id = entry.id then entry :: cs else c :: put entry cs

/-- Who hears a run/stop machine stop and terminate. -/
inductive ExecOwner where
  | engine (e : Nat)
  /-- Nobody but the trace. -/
  | observer
  deriving Inhabited

/-- A run/stop machine: its state, its sink, the commands waiting on the probe, the
session's threads and variables and task threads, the stop waiters, and counters. -/
structure Execution where
  current : ExecState
  sink : Option Sink
  book : PendingBook
  inbox : Nat
  registry : Registry
  board : TaskBoard
  stopWaiters : List Waiter
  terminatedNotified : Bool
  stops : Double
  timeout : Json
  owner : ExecOwner
  deriving Inhabited

/-- A task tree: when it runs it records its label, posts its children, closes its context if
asked, then fails if asked. -/
inductive ScriptTask where
  | mk (label : String) (children : List ScriptTask) (closes : Bool) (failure : Option String)
  deriving Inhabited

/-- A task posted on a scheduling context. -/
inductive Errand where
  | probeMessage (engine : Nat) (m : Json)
  | probeDisconnected (engine : Nat) (reason : Option String)
  | processExit (engine : Nat) (code signal : Json)
  | processError (engine : Nat) (message : String)
  | programOutput (engine : Nat) (category : String) (text : Text)
  /-- Settle a slot. -/
  | settleSlot (slot : Nat) (o : Except Fault Json)
  /-- Resolve a promise (a flush). -/
  | resolve (p : Nat)
  /-- Hand a probe message to a channel's handler. -/
  | channelMessage (channel : Nat) (m : Json)
  | script (t : ScriptTask)
  deriving Inhabited

/-- A scheduling context: a named inbox of errands, drained in order on a later turn. -/
structure Inbox where
  name : String
  queue : List Errand
  scheduled : Bool
  closed : Bool
  deriving Inhabited

/-- How a request handler turns what it awaited into its result. -/
inductive Wrap where
  /-- No body. -/
  | nothing
  /-- The value is the body. -/
  | body
  /-- The value under one key is the body. -/
  | under (key : String)
  | restarts
  | ends
  deriving Inhabited

/-- What an engine operation does with the body of a probe reply. -/
inductive Use where
  | stepInTargets
  | stackTrace (threadId startFrame levels : Double)
  | variableList (reference : Double) (plain : Bool)
  | setVariable (value : String)
  | evaluate (expression : String)
  | setExpression (value : String)
  | completions
  | loadedSources
  | source
  | modules (start : Double) (count : Option Double)
  | exceptionInfo
  deriving Inhabited

/-- Where an `await` resumes. -/
inductive Cont where
  /-- Record the outcome in the trace under the label its watcher chose. -/
  | observe (tag : Json)
  /-- Record that a channel's read loop ended. -/
  | loopEnded
  /-- The front end: a request was dispatched. -/
  | served (req : RequestRef)
  /-- The front end: the engine shut down while closing. -/
  | serverClosed
  /-- A request handler awaited the engine; settle the handler's promise `p`. -/
  | handled (p : Nat) (wrap : Wrap)
  /-- Launch: the debuggee was started (`p` is the launch). -/
  | launched (e p : Nat) (config : LaunchConfig)
  /-- Starting the debuggee: its listener is open (`p` is the start). -/
  | listening (e p : Nat) (config : LaunchConfig) (cwd program : String)
  /-- Launch: the first stop came. -/
  | entryStopped (p : Nat)
  /-- Attach: the probe's endpoint answered. -/
  | attached (e p : Nat) (config : AttachConfig)
  /-- Restart or disconnect: the engine shut down. -/
  | shutDown (p : Nat)
  /-- Shutdown: the read loop ended. -/
  | readLoopEnded (e p : Nat)
  /-- Shutdown: the errands posted before are done. -/
  | flushed (e p : Nat)
  /-- Data breakpoint info: the frame's locals are known. -/
  | localsRead (e p : Nat) (name : String) (frameId : Double)
  /-- Reading a frame's locals: the probe answered. -/
  | localsFetched (e p : Nat) (frameId : Double)
  /-- An engine operation: the probe answered. -/
  | answered (e p : Nat) (use : Use)
  /-- A probe command: its slot settled. -/
  | replied (p : Nat) (command : String)
  /-- Opening a listener: it listens (`p` is the opening). -/
  | endpointOpen (p : Nat) (e : Endpoint)
  /-- A listener is made (`p` is the making). -/
  | listenerMade (p : Nat) (binary : Bool)
  deriving Inhabited

/-- A task of the event loop. -/
inductive Turn where
  /-- Run the errands of a context. -/
  | drain (inbox : Nat)
  /-- The in-process probe of an engine emits a message. -/
  | probeEmit (engine : Nat) (m : Json)
  /-- A slot wait ran out of time. -/
  | slotTimeout (slot promise : Nat) (label : String) (ms : Json)
  /-- A stop wait ran out of time. -/
  | stopTimeout (exec promise : Nat) (ms : Json)
  /-- A stream reached its end. -/
  | pipeEnd (pipe : Nat)
  /-- A stream failed. -/
  | pipeError (pipe : Nat) (message : String)
  /-- A stream closed. -/
  | pipeClose (pipe : Nat)
  /-- A stream delivers bytes to its reader. -/
  | pipeData (pipe : Nat) (bytes : List UInt8)
  /-- A listener is ready (settle `p`). -/
  | listenReady (p : Nat)
  /-- A listener could not be opened (reject `p`). -/
  | listenRefused (p : Nat) (message : String)
  /-- A probe connects to a listener. -/
  | accept (listener : Nat) (pipe : Nat)
  /-- A connection is made (settle `p`). -/
  | connected (p : Nat) (pipe : Nat)
  /-- A connection failed (reject `p`). -/
  | refused (p : Nat) (message : String)
  deriving Inhabited

/-- Who hears a channel's `connected` and `disconnected`. -/
inductive ChannelHook where
  /-- The engine: its held commands go out once connected; a disconnect is posted. -/
  | engine (e : Nat)
  | observer
  deriving Inhabited

/-- A probe channel. -/
structure Channel where
  framing : Framing
  inbox : Nat
  transport : String
  listener : Option Nat
  connection : Option Nat
  disabled : Bool
  finished : Bool
  loop : Option Nat
  decoder : Decoder
  /-- Who handles messages once the read loop runs. -/
  handler : Option ChannelHook
  onConnected : List ChannelHook
  onDisconnected : List ChannelHook
  /-- Commands held until the probe connects, and whether it has. -/
  held : List Json
  released : Bool
  deriving Inhabited

/-- Where the bytes written to a stream go. -/
inductive Far where
  /-- Kept in the trace. -/
  | record
  /-- To the stream at the other end of a socket. -/
  | peer (pipe : Nat)
  deriving Inhabited

/-- A byte stream: who reads it, what waits to be read, its end and its far side. -/
structure Pipe where
  reader : Option Nat
  buffered : List (List UInt8)
  ended : Bool
  destroyed : Bool
  far : Far
  /-- The simulated probe is at this end. -/
  probeSide : Bool
  /-- The probe at this end frames in binary. -/
  probeBinary : Bool
  /-- Bytes the probe at this end has read of an unfinished frame or line. -/
  probeHeld : List UInt8
  deriving Inhabited

/-- A listening endpoint. -/
structure Listener where
  endpoint : Endpoint
  closed : Bool
  /-- The channel waiting for its one connection. -/
  acceptor : Option Nat
  deriving Inhabited

/-- How a session was started. -/
inductive Mode where
  | launch
  | attach
  | inProcess
  deriving DecidableEq, Inhabited

/-- A session engine. -/
structure Engine where
  defaults : EngineDefaults
  inbox : Nat
  exec : Nat
  book : BreakpointBook
  watcher : ChildWatcher
  mode : Option Mode
  channel : Option Nat
  listener : Option Nat
  child : Option Nat
  probe : Bool
  readLoop : Option Nat
  /-- Output streams of the debuggee being read: the child, and whether it is standard output. -/
  outputs : List (Nat × Bool)
  started : Bool
  /-- The debuggee's exit code once known, as the probe or the process gave it: a process's
  exit passes on whatever value it came with. -/
  exitCode : Option Json
  exitedSent : Bool
  restartRequested : Bool
  configurationDonePending : Bool
  pendingFailed : Nat
  shutdown : Option Nat
  canProbe : Bool
  deriving Inhabited

/-- How the front end makes an engine: the defaults for sessions, the probe command timeout,
the child watcher's configuration, and whether in-process probes can be made. -/
structure EnginePlan where
  defaults : EngineDefaults
  timeout : Json
  watch : WatchConfig
  canProbe : Bool
  deriving Inhabited

/-- The client front end: its wire, its message numbering, its current engine. -/
structure Server where
  link : Link
  codec : Codec
  engine : Nat
  closed : Bool
  plan : EnginePlan
  deriving Inhabited

/-- A started process as the adapter sees it: kills, exit and error listeners, and readers
of its output, which is read as UTF-8 text. -/
structure Child where
  /-- The engine whose launcher started it. -/
  spawner : Nat
  kills : Nat
  exitHooks : List Nat
  errorHooks : List Nat
  stdoutReader : Option Nat
  stderrReader : Option Nat
  stdoutText : Utf8.Stream
  stderrText : Utf8.Stream
  deriving Inhabited

/-- How the simulated probe refuses a command. -/
inductive Refusal where
  | plain (message : String)
  | transport (message : String)
  deriving Inhabited

/-- The simulated surroundings: the probe's script, its refusals, the current in-process
probe, the socket probe, the listener whose connections become the socket probe and the
framing that probe uses, and whether TCP connections on the host reach any listener. -/
structure Rig where
  script : List (String × List (List Json))
  refusals : List (String × Refusal)
  current : Option Nat
  socket : Option Nat
  attachListener : Option Nat
  attachBinary : Bool
  tcpReachable : Bool
  deriving Inhabited

/-- What can be seen from outside. -/
inductive Note where
  | toClient (m : Json)
  | logged (d : Diagnostic)
  | probe (activity : Json)
  | spawned (call : SpawnCall)
  | closed
  | emitted (j : Json)
  | outcome (tag : Json) (o : Outcome)
  | ran (label : String)
  | channelEvent (j : Json)
  | message (j : Json)
  | wrote (j : Json)
  | bytes (bs : List UInt8)
  | loopEnded
  deriving Inhabited

/-- The whole state. -/
structure World where
  loop : Loop Outcome Cont Turn
  inboxes : Array Inbox
  slots : Array Slot
  execs : Array Execution
  channels : Array Channel
  pipes : Array Pipe
  listeners : Array Listener
  engines : Array Engine
  server : Server
  processes : ProcessTable
  children : Array Child
  rig : Rig
  host : Host
  style : LogStyle
  trace : List Note

end DapBridge
