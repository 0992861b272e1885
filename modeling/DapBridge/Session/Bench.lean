import DapBridge.Session.Rig

/-!
# Benches: one part of the adapter on its own

A bench holds one part of the adapter in a world of its own, where only the trace watches:

* a scheduling context that runs scripted tasks;
* a book of commands waiting on the probe, with contexts named on demand;
* a run/stop machine whose commands go to a recorder;
* a probe channel over an in-memory stream whose written bytes are kept.

The operations here are those a watcher performs on the part: what the part itself does is
in its own module. Outcomes the watcher waits for are noted under the label it chose.
-/

namespace DapBridge

namespace Bench

open Act

/-- An empty world that logs in the given style. -/
def world (host : Host) (style : LogStyle) : World :=
  World.blank ⟨default, 0, [], [], [], host, style, false⟩

/-- A new scheduling context. -/
def openContext (name : String) : Act Nat :=
  modifyGet fun w => (w.inboxes.size, { w with inboxes := w.inboxes.push ⟨name, [], false, false⟩ })

/-- The context of that name, opened on first use. -/
def contextNamed (name : String) : Act Nat := do
  match (← get).inboxes.toList.findIdx? (·.name == name) with
  | some i => return i
  | none => openContext name

/-- Whether a context is closed. -/
def contextClosed (i : Nat) : Act Bool := return ((← get).inboxAt i).closed

/-- A promise that settles once the context has run what was posted on it so far. -/
def flushContext (i : Nat) : Act Nat := flush i

/-- Note the outcome of a promise under a label, once it settles. -/
def watch (p : Nat) (tag : Json) : Act Unit := await p (.observe tag)

/-! ## The command book and the run/stop machine -/

/-- A run/stop machine that only the trace watches; its commands are answered on a context of
its own. -/
def machine (timeout : Json) : Act Nat := do
  let inbox ← openContext "session"
  let x : Execution :=
    ⟨.notStarted, none, .empty, inbox, Registry.create firstReference, .empty, [], false, 0, timeout, .observer⟩
  modifyGet fun w => (w.execs.size, { w with execs := w.execs.push x })

/-- Wait on a slot with no deadline, under a label. -/
def watchSlot (s : Nat) (tag : Json) : Act Unit := do watch (← waitSlot s none "command") tag

/-- Register a command whose outcome is delivered on the named context, and watch its slot. -/
def registerCommand (x : Nat) (command owner : String) : Act PendingEntry := do
  let entry ← register x command (← contextNamed owner)
  watchSlot entry.slot (Json.object [("id", .num entry.id), ("tag", .string "wait")])
  return entry

/-- Whether a command still waits. -/
def isPending (x : Nat) (id : Double) : Act Bool := return (← pendingEntry? x id).isSome

/-- How many commands wait. -/
def pendingSize (x : Nat) : Act Nat := return ((← get).execAt x).book.entries.length

/-- Whether a slot has its outcome. -/
def slotSettled (s : Nat) : Act Bool := do
  match ((← get).slotAt s).state with
  | .pending => return false
  | _ => return true

/-- Give the machine a recorder as its sink: it keeps every command, or refuses each one with
a plain error. -/
def attachRecorder (x : Nat) (refusal : Option String) : Act Unit :=
  change (·.withExec x fun e => { e with sink := some (.recorder refusal) })

/-- The machine's run/stop state. -/
def machineState (x : Nat) : Act ExecState := stateOf x

/-- The threads the machine knows. -/
def machineThreads (x : Nat) : Act (List Json) := return ((← get).execAt x).registry.threadList

/-- A stop event's body, its values as given: a reason that counts as false is a breakpoint,
a missing or `null` thread is the first. -/
def stoppedFrom (x : Nat) (body : Json) : Act (Option ExecState) :=
  handleStopped x (body.field? "reason") (body.field? "threadId") (body.field? "description")

/-- Shut the machine down, for the given reason or the usual one. -/
def shutdownFor (x : Nat) (reason : Option String) : Act Nat :=
  execShutdown x (match reason with
    | some m => .adapter (.transport m)
    | none => shutdownFault)

/-! ## A channel over an in-memory stream -/

/-- A channel on a stream that is connected already and whose written bytes are kept, or,
without an endpoint, one with neither a listener nor a stream. Its messages, its connection
and its end are noted. The channel and the stream. -/
def streamChannel (framing : Framing) (transport : Option String) (endpoint : Bool) : Act (Nat × Nat) := do
  let inbox ← openContext "session"
  let stream : Pipe := ⟨none, [], false, false, .record, false, false, []⟩
  let pipe ← modifyGet fun w => (w.pipes.size, { w with pipes := w.pipes.push stream })
  let ch : Channel := ⟨framing, inbox, transport.getD "stream", none, if endpoint then some pipe else none,
    false, false, none, Decoder.fresh framing, none, [.observer], [.observer], [], false⟩
  let c ← modifyGet fun w => (w.channels.size, { w with channels := w.channels.push ch })
  return (c, pipe)

/-- Start the read loop; true when it was running already. -/
def runChannel (c : Nat) : Act Bool := do
  let before := ((← get).channelAt c).loop
  let p ← runAcceptAndRead c .observer
  return before == some p

/-- Bytes arrive on the stream. -/
def pushBytes (s : Nat) (bytes : List UInt8) : Act Unit := soon (.pipeData s bytes)

/-- The stream's input ends. -/
def endStream (s : Nat) : Act Unit := soon (.pipeEnd s)

/-- Whether the channel has a live stream, and whether it still works. -/
def channelStatus (c : Nat) : Act (Bool × Bool) := do
  let w ← get
  let ch := w.channelAt c
  return (channelConnected w ch, channelEnabled ch)

/-- Whether the channel's read loop has ended. -/
def loopEnded (c : Nat) : Act Bool := do
  let w ← get
  return ((w.channelAt c).loop.bind w.loop.outcome?).isSome

end Bench

end DapBridge
