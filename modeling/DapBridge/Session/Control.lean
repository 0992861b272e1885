import DapBridge.Ipc.Channel

/-!
# Running and stopping the debuggee

The run/stop machine of a session:

  notStarted → running → stopped → running … → terminated

Resuming commands (`continue`, the steps) are written to the probe and not answered.
Commands that need an answer get an id and a result slot before they are written; the
caller waits on the slot until the probe replies, the wait runs out of time, or the
session shuts down. A stop wakes everyone waiting for one; terminating fails them.

Commands go to a sink: the in-process probe, a channel, a channel whose probe is still
connecting (commands wait until it connects), or a recorder. The in-process probe is the
simulated one: it notes what it receives and answers from its script, one message per
later turn.
-/

namespace DapBridge

namespace Act

/-! ## The simulated in-process probe -/

/-- A scripted message, with `"id": "$id"` replaced by the id of the command it answers. -/
def answerTo (cmd : Json) (m : Json) : Json :=
  match m with
  | .obj fs =>
    if Json.Fields.get? fs "id" == some (.string "$id") then
      match cmd.field? "id" with
      | some id => .obj (Json.Fields.set fs "id" id)
      | none => .obj (Json.Fields.erase fs "id")
    else m
  | _ => m

/-- The next scripted reaction to a command, taken off its queue: the messages that answer it. -/
def takeReaction (cmd : Json) : Act (List Json) := do
  let name := (cmd.strField? "command").getD ""
  match (← get).rig.script.lookup name with
  | some (reaction :: rest) =>
    change fun w => { w with rig := { w.rig with script := w.rig.script.map fun (k, v) => if k == name then (k, rest) else (k, v) } }
    return reaction.map (answerTo cmd)
  | _ => return []

/-- The in-process probe of engine `e` takes a command: it refuses it if told to, else notes
it and emits its next scripted reaction, one message per later turn. -/
def probeWrite (e : Nat) (cmd : Json) : Act Unit := do
  let name := (cmd.strField? "command").getD ""
  match (← get).rig.refusals.lookup name with
  | some r =>
    note (.probe (Json.object [("refused", cmd)]))
    match r with
    | .plain m => fail (.other "Error" m)
    | .transport m => failWith (.transport m)
  | none =>
    note (.probe (Json.object [("received", cmd)]))
    (← takeReaction cmd).forM fun m => defer (.probeEmit e m)

/-! ## Sinks -/

/-- Write a command to a sink. -/
def writeSink (s : Sink) (m : Json) : Act Unit := do
  match s with
  | .probe e => probeWrite e m
  | .channel c => channelWrite c m
  | .gate c =>
    let ch := (← get).channelAt c
    if ch.released || !channelEnabled ch then channelWrite c m
    else change (·.withChannel c fun x => { x with held := x.held ++ [m] })
  | .recorder none => note (.wrote m)
  | .recorder (some refusal) => fail (.other "Error" refusal)

/-! ## The run/stop machine -/

def stateOf (x : Nat) : Act ExecState := return ((← get).execAt x).current

def setState (x : Nat) (s : ExecState) : Act Unit := change (·.withExec x fun e => { e with current := s })

/-- Operations need a debuggee that started and has not terminated. -/
def requireLive (x : Nat) (operation : String) : Act Unit := do
  match ← stateOf x with
  | .terminated => failWith (.state s!"Cannot {operation}: the debuggee has terminated")
  | .notStarted => failWith (.operation "No debuggee process")
  | _ => pure ()

def requireSink (x : Nat) : Act Sink := do
  match ((← get).execAt x).sink with
  | some s => return s
  | none => failWith (.transport "No live IPC connection")

/-- notStarted → running. -/
def execStart (x : Nat) : Act Unit := do
  let s ← stateOf x
  if !s.isNotStarted then failWith (.state s!"Cannot start: execution is {s.kind}")
  setState x .running

/-- Forget the last stop and run. -/
def runAgain (x : Nat) : Act Unit :=
  change (·.withExec x fun e => { e with registry := e.registry.resetStopState, board := e.board.reset, current := .running })

/-- A command that is not answered. -/
def execSend (x : Nat) (command : String) (args : Option Json) : Act Unit := do
  let sink ← requireSink x
  writeSink sink (Json.objectOpt [("command", some (.string command)), ("arguments", args)])

/-- Resume a stopped debuggee. -/
def execContinue (x : Nat) (threadId : Option Json) : Act Nat := promiseOf do
  requireLive x "continue"
  if !(← stateOf x).isStopped then return .json (Json.object [("allThreadsContinued", .bool false)])
  runAgain x
  execSend x "continue" (some (Json.objectOpt [("threadId", threadId)]))
  return .json (Json.object [("allThreadsContinued", .bool true)])

/-- Step a stopped debuggee; otherwise nothing happens. The extra arguments may replace the
thread id. -/
def execStep (x : Nat) (kind : String) (threadId : Option Json) (extra : List (String × Json)) : Act Nat := promiseOf do
  requireLive x kind
  let s ← stateOf x
  if !s.isStopped then
    debug s!"Ignoring {kind} while {s.kind}" none
    return .none
  runAgain x
  let args := extra.foldl (fun fs (k, v) => Json.Fields.set fs k v) (Json.Fields.ofOptions [("threadId", threadId)])
  execSend x kind (some (.obj args))
  return .none

/-- Ask for a pause; false when stopped already. -/
def execPause (x : Nat) (threadId : Option Json) : Act Nat := promiseOf do
  requireLive x "pause"
  if (← stateOf x).isStopped then return .json (.bool false)
  execSend x "pause" (some (Json.objectOpt [("threadId", threadId)]))
  return .json (.bool true)

/-- Send a command and wait for the body of the probe's reply. -/
def execRequest (x : Nat) (command : String) (args : Option Json) (timeout : Option Json) : Act Nat := do
  let p ← fresh
  let started ← attempt do
    requireLive x command
    let sink ← requireSink x
    let exec := (← get).execAt x
    let entry ← register x command exec.inbox
    let m := Json.objectOpt [("command", some (.string command)), ("id", some (.num entry.id)), ("arguments", args)]
    match ← attempt (writeSink sink m) with
    | .ok () => pure ()
    | .error f =>
      let failure := match f with
        | .adapter ⟨.transport, _, _⟩ => f
        | _ => .adapter (.transport s!"Failed to send '{command}'")
      discard <| failPending x entry.id failure
      fail failure
    let q ← waitSlot entry.slot (some ((timeout.filter (!·.isNull)).getD exec.timeout)) s!"'{command}'"
    await q (.replied p command)
  match started with
  | .ok () => pure ()
  | .error f => reject p f
  return p

/-- A reply came for a command: a refusal fails it, else its body is the answer. -/
def replied (p : Nat) (command : String) (o : Outcome) : Act Unit := do
  match o with
  | .ok (.json reply) =>
    if reply.field? "success" == some (.bool false) then
      let detail := (reply.strField? "message").getD s!"Probe command '{command}' failed"
      reject p (.adapter (.operation detail))
    else fulfil p (match reply.field? "body" with
      | some b => .json b
      | none => .none)
  | .ok _ => fulfil p .none
  | .error f => reject p f

/-- A probe message that answers a waiting command settles it; false otherwise. -/
def resolveReply (x : Nat) (m : Json) : Act Bool := do
  match (m.field? "id").bind Json.getNum? with
  | some id => if (← pendingEntry? x id).isSome then resolvePending x id m else return false
  | none => return false

/-- Tell whoever listens that the machine stopped. -/
def announceStop (x : Nat) (s : ExecState) : Act Unit := do
  match ((← get).execAt x).owner with
  | .observer => note (.emitted (Json.object [("stopped", s.toJson)]))
  | .engine _ => pure ()

/-- A stop arrived; ignored before the start and after the end. Its values are kept as given:
a reason that counts as false is `breakpoint`, a missing or `null` thread is thread 1. -/
def handleStopped (x : Nat) (reason threadId description : Option Json) : Act (Option ExecState) := do
  let s ← stateOf x
  if s.isTerminated || s.isNotStarted then
    debug s!"Ignoring stopped event while {s.kind}" none
    return none
  let reason := (reason.filter Json.truthy).getD (.string "breakpoint")
  let threadId := (threadId.filter (!·.isNull)).getD (.num 1)
  let stopped := ExecState.stopped reason threadId description
  let waiters := ((← get).execAt x).stopWaiters
  change fun w => w.withExec x fun e =>
    { e with current := stopped, stops := e.stops + 1, registry := e.registry.markThreadStopped (some threadId) (some (.bool true)),
             stopWaiters := [] }
  settleWaiters waiters (.ok (.json stopped.toJson))
  announceStop x stopped
  return some stopped

/-- Wait for the next stop, or take the current one. -/
def waitForStop (x : Nat) (timeout : Option Json) : Act Nat := do
  match ← stateOf x with
  | .terminated => done (.error (.adapter (.state "The debuggee has terminated")))
  | s@(.stopped ..) => done (.ok (.json s.toJson))
  | _ =>
    let p ← fresh
    let timer ← match timeout with
      | some ms => some <$> after ms.toNumber (.stopTimeout x p ms)
      | none => pure none
    change (·.withExec x fun e => { e with stopWaiters := e.stopWaiters ++ [⟨p, timer⟩] })
    return p

/-- A stop wait ran out of time. -/
def stopTimedOut (x p : Nat) (ms : Json) : Act Unit := do
  change (·.withExec x fun e => { e with stopWaiters := e.stopWaiters.filter (·.promise != p) })
  reject p (.adapter (.operation s!"No stop observed within {Json.displayText ms}ms"))

/-- Tell whoever listens that the machine terminated. -/
def announceTermination (x : Nat) : Act Unit := do
  match ((← get).execAt x).owner with
  | .observer => note (.emitted (Json.object [("terminated", .bool true)]))
  | .engine e =>
    let body := if ((← get).engineAt e).restartRequested then some (Json.object [("restart", .bool true)]) else none
    sendEvent "terminated" body

/-- Any state → terminated; the news goes out once. True on the call that sent it. -/
def markTerminated (x : Nat) : Act Bool := do
  let exec := (← get).execAt x
  change (·.withExec x fun e => { e with current := .terminated, stopWaiters := [] })
  settleWaiters exec.stopWaiters (.error (.adapter (.state "The debuggee terminated before stopping")))
  if exec.terminatedNotified then return false
  change (·.withExec x fun e => { e with terminatedNotified := true })
  announceTermination x
  return true

/-- Terminate, drop the sink and fail every command still waiting; how many failed. -/
def execShutdown (x : Nat) (reason : Fault) : Act Nat := do
  discard <| markTerminated x
  change (·.withExec x fun e => { e with sink := none })
  failAllPending x reason

def shutdownFault : Fault := .adapter (.state "Debugger shutdown")

end Act

end DapBridge
