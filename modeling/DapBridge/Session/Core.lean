import DapBridge.Session.World

/-!
# Acting on the world

`Act α` is a step of the adapter: it reads and changes the world and gives a value or
fails with a fault. A failure keeps the changes made before it, as a thrown error does, and
`tryCatch` does not undo them either.

Here are the steps every part uses: promises and the event loop, the trace and the
diagnostic log, scheduling contexts, writing to the client, result slots and the book of
commands waiting on the probe.
-/

namespace DapBridge

/-- A step of the adapter. -/
abbrev Act := EStateM Fault World

namespace Act

/-- Run a step that cannot fail. -/
def change (f : World → World) : Act Unit := modify f

/-- The outcome of a step, as a value: a failure becomes a value and the changes stay. -/
def attempt {α : Type} (a : Act α) : Act (Except Fault α) :=
  tryCatch (do let v ← a; pure (.ok v)) (fun f => pure (.error f))

def fail {α : Type} (f : Fault) : Act α := throw f

def failWith {α : Type} (e : AdapterError) : Act α := throw (.adapter e)

end Act

namespace World

/-! ## Parts by number -/

def inboxAt (w : World) (i : Nat) : Inbox := w.inboxes.getD i default
def slotAt (w : World) (i : Nat) : Slot := w.slots.getD i default
def execAt (w : World) (i : Nat) : Execution := w.execs.getD i default
def channelAt (w : World) (i : Nat) : Channel := w.channels.getD i default
def pipeAt (w : World) (i : Nat) : Pipe := w.pipes.getD i default
def listenerAt (w : World) (i : Nat) : Listener := w.listeners.getD i default
def engineAt (w : World) (i : Nat) : Engine := w.engines.getD i default
def childAt (w : World) (i : Nat) : Child := w.children.getD i default

def withInbox (w : World) (i : Nat) (f : Inbox → Inbox) : World := { w with inboxes := w.inboxes.modify i f }
def withSlot (w : World) (i : Nat) (f : Slot → Slot) : World := { w with slots := w.slots.modify i f }
def withExec (w : World) (i : Nat) (f : Execution → Execution) : World := { w with execs := w.execs.modify i f }
def withChannel (w : World) (i : Nat) (f : Channel → Channel) : World := { w with channels := w.channels.modify i f }
def withPipe (w : World) (i : Nat) (f : Pipe → Pipe) : World := { w with pipes := w.pipes.modify i f }
def withListener (w : World) (i : Nat) (f : Listener → Listener) : World := { w with listeners := w.listeners.modify i f }
def withEngine (w : World) (i : Nat) (f : Engine → Engine) : World := { w with engines := w.engines.modify i f }
def withChild (w : World) (i : Nat) (f : Child → Child) : World := { w with children := w.children.modify i f }

/-! ## Trace and log -/

def note (w : World) (n : Note) : World := { w with trace := n :: w.trace }

/-- Write a diagnostic record, if the log's style writes its kind. -/
def log (w : World) (d : Diagnostic) : World :=
  if w.style.admits (some (.string d.kind)) then w.note (.logged d) else w

end World

namespace Act

def note (n : Note) : Act Unit := change (·.note n)

def log (d : Diagnostic) : Act Unit := change (·.log d)

def debug (message : String) (data : Option Json) : Act Unit := log (.debug message data)

/-! ## Promises and the loop -/

/-- A new pending promise. -/
def fresh : Act Nat := modifyGet fun w => let (p, l) := w.loop.fresh; (p, { w with loop := l })

/-- A new promise with its outcome. -/
def done (o : Outcome) : Act Nat := modifyGet fun w => let (p, l) := w.loop.done o; (p, { w with loop := l })

def settle (p : Nat) (o : Outcome) : Act Unit := change fun w => { w with loop := w.loop.settle p o }

def fulfil (p : Nat) (v : Val) : Act Unit := settle p (.ok v)

def reject (p : Nat) (f : Fault) : Act Unit := settle p (.error f)

/-- Resume `k` once `p` settles. -/
def await (p : Nat) (k : Cont) : Act Unit := change fun w => { w with loop := w.loop.await p k }

/-- Settle `target` as `source` settles, two jobs later. -/
def follow (target source : Nat) : Act Unit := change fun w => { w with loop := w.loop.follow target source }

def defer (t : Turn) : Act Unit := change fun w => { w with loop := w.loop.defer t }

def soon (t : Turn) : Act Unit := change fun w => { w with loop := w.loop.soon t }

/-- The delay of a timer asked for `ms` milliseconds: whole milliseconds, and one for
anything under one or over the largest delay. -/
def timerDelay (ms : Double) : Nat :=
  match ms.truncInt with
  | some i => if 1 ≤ i ∧ i ≤ 2147483647 then i.toNat else 1
  | none => 1

/-- A timer `ms` milliseconds from now. -/
def after (ms : Double) (t : Turn) : Act Nat :=
  modifyGet fun w => let (id, l) := w.loop.after (timerDelay ms) t; (id, { w with loop := l })

def cancel (id : Nat) : Act Unit := change fun w => { w with loop := w.loop.cancel id }

/-- The promise of a function that runs `body` and returns: settled already. -/
def promiseOf (body : Act Val) : Act Nat := do
  let o ← attempt body
  done o

/-! ## Scheduling contexts -/

/-- The error a closed context gives. -/
def closedContext (name : String) : Fault := .other "ContextClosedError" s!"Scheduling context '{name}' is closed"

def isClosedContext : Fault → Bool
  | .other "ContextClosedError" _ => true
  | _ => false

/-- Post an errand on a context; it runs on a later turn, after those posted before it. A
closed context refuses it. -/
def post (i : Nat) (x : Errand) : Act Unit := do
  let w ← get
  let box := w.inboxAt i
  if box.closed then fail (closedContext box.name)
  set (w.withInbox i fun b => { b with queue := b.queue ++ [x], scheduled := true })
  if !box.scheduled then defer (.drain i)

/-- Wait until what was posted so far has run: a promise resolved by an errand, or at once on
a closed context. -/
def flush (i : Nat) : Act Nat := do
  let p ← fresh
  if (← get).inboxAt i |>.closed then fulfil p .none
  else post i (.resolve p)
  return p

/-- Stop a context: queued errands are dropped. -/
def closeInbox (i : Nat) : Act Unit := change fun w => w.withInbox i fun b => { b with closed := true, queue := [] }

/-! ## The client -/

/-- Write a message to the client, unless the wire is closed. -/
def toClient (m : Json) : Act Unit := do
  if (← get).server.link.isOpen then note (.toClient m)

/-- Number a message with the codec and write it. -/
def numbered (make : Codec → Json × Codec) : Act Unit := do
  let w ← get
  let (m, codec) := make w.server.codec
  set { w with server := { w.server with codec := codec } }
  toClient m

def sendEvent (event : String) (body : Option Json) : Act Unit :=
  numbered (·.event (Text.ofString event) body)

/-! ## Result slots -/

def newSlot : Act Nat := modifyGet fun w => (w.slots.size, { w with slots := w.slots.push ⟨.pending, []⟩ })

/-- Settle the waiters of a slot, in order. -/
def settleWaiters (ws : List Waiter) (o : Outcome) : Act Unit :=
  ws.forM fun wt => do
    if let some t := wt.timer then cancel t
    settle wt.promise o

/-- Resolve a slot; false if it was settled already. -/
def resolveSlot (s : Nat) (v : Json) : Act Bool := do
  let slot := (← get).slotAt s
  match slot.state with
  | .pending =>
    change (·.withSlot s fun _ => ⟨.resolved v, []⟩)
    settleWaiters slot.waiters (.ok (.json v))
    return true
  | _ => return false

/-- Reject a slot; false if it was settled already. -/
def rejectSlot (s : Nat) (f : Fault) : Act Bool := do
  let slot := (← get).slotAt s
  match slot.state with
  | .pending =>
    change (·.withSlot s fun _ => ⟨.rejected f, []⟩)
    settleWaiters slot.waiters (.error f)
    return true
  | _ => return false

/-- Wait for a slot's outcome. A deadline only ends this wait: the slot stays pending. -/
def waitSlot (s : Nat) (timeout : Option Json) (label : String) : Act Nat := do
  match ((← get).slotAt s).state with
  | .resolved v => done (.ok (.json v))
  | .rejected f => done (.error f)
  | .pending =>
    let p ← fresh
    let timer ← match timeout with
      | some ms => some <$> after ms.toNumber (.slotTimeout s p label ms)
      | none => pure none
    change (·.withSlot s fun sl => { sl with waiters := sl.waiters ++ [⟨p, timer⟩] })
    return p

/-- A slot wait ran out of time. -/
def slotTimedOut (s p : Nat) (label : String) (ms : Json) : Act Unit := do
  change (·.withSlot s fun sl => { sl with waiters := sl.waiters.filter (·.promise != p) })
  reject p (.adapter (.timeout s!"Probe {label} timed out after {Json.displayText ms}ms"))

/-! ## Commands waiting on the probe -/

/-- Give a command an id and a slot, before it is written. -/
def register (x : Nat) (command : String) (owner : Nat) : Act PendingEntry := do
  let slot ← newSlot
  modifyGet fun w =>
    let book := (w.execAt x).book
    let entry : PendingEntry := ⟨book.nextId, command, slot, owner⟩
    (entry, w.withExec x fun e => { e with book := ⟨PendingBook.put entry book.entries, book.nextId + 1⟩ })

def pendingEntry? (x : Nat) (id : Double) : Act (Option PendingEntry) := do
  return ((← get).execAt x).book.entries.find? (·.id == id)

def dropEntry (x : Nat) (id : Double) : Act Unit :=
  change (·.withExec x fun e => { e with book := { e.book with entries := e.book.entries.filter (·.id != id) } })

/-- Settle a command's slot on its owner's context, or at once if that context is closed. -/
def settleEntry (entry : PendingEntry) (o : Except Fault Json) : Act Unit := do
  match ← attempt (post entry.owner (.settleSlot entry.slot o)) with
  | .ok () => pure ()
  | .error f =>
    if !isClosedContext f then fail f
    debug s!"Owner context closed, settling command {entry.id} ({entry.command}) directly" none
    match o with
    | .ok v => discard <| resolveSlot entry.slot v
    | .error e => discard <| rejectSlot entry.slot e

/-- Deliver a reply; false if no command with that id waits. -/
def resolvePending (x : Nat) (id : Double) (v : Json) : Act Bool := do
  match ← pendingEntry? x id with
  | none => return false
  | some entry =>
    dropEntry x id
    settleEntry entry (.ok v)
    return true

def failPending (x : Nat) (id : Double) (f : Fault) : Act Bool := do
  match ← pendingEntry? x id with
  | none => return false
  | some entry =>
    dropEntry x id
    settleEntry entry (.error f)
    return true

/-- Fail every waiting command; how many there were. -/
def failAllPending (x : Nat) (f : Fault) : Act Nat := do
  let entries := ((← get).execAt x).book.entries
  change (·.withExec x fun e => { e with book := { e.book with entries := [] } })
  entries.forM fun entry => settleEntry entry (.error f)
  return entries.length

end Act

end DapBridge
