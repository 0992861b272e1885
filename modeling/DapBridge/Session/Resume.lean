import DapBridge.Session.Server

/-!
# Running the loop

What each piece of waiting work does when its time comes: a continuation resumes with the
outcome it waited for, an errand runs on its context, a turn of the loop runs. `World.settle`
runs the loop until nothing is queued: after every turn, every tick and job it queued runs
first. Timers wait for the clock, which only `World.advance` moves.

Running takes fuel: each job or turn uses one unit, and a run that has none left stops.
-/

namespace DapBridge

/-- The first line of an error's stack: its name, then `": "` and its message when the message
is not empty, up to the first line feed. -/
def errorHeadLine (name message : String) : String :=
  let header := if message.isEmpty then name else s!"{name}: {message}"
  (header.splitOn "\n").headD header

/-- What a failed task reports: the first line of an error's stack, or the text of a thrown
value that is no error. -/
def Fault.stackHead : Fault → String
  | .adapter e => errorHeadLine e.kind.name e.message
  | .other name m => errorHeadLine name m
  | .value v => v.displayText

namespace Act

/-- Where an `await` resumes. -/
def resume (k : Cont) (o : Outcome) : Act Unit :=
  match k with
  | .observe tag => note (.outcome tag o)
  | .loopEnded => note .loopEnded
  | .served req => Frontend.served req o
  | .serverClosed => Frontend.serverClosed
  | .handled p wrap => Session.handled p wrap o
  | .launched e p config =>
    match o with
    | .error f => do Session.abandonStart e; reject p f
    | .ok _ => Session.afterStart e p config
  | .listening e p config cwd program =>
    match o with
    | .ok (.endpoint ep) => do
      match ← attempt (Session.startProcess e p config cwd program ep) with
      | .ok () => pure ()
      | .error f => reject p f
    | .ok _ => reject p (.other "Error" "listener")
    | .error f => reject p f
  | .entryStopped p =>
    match o with
    | .ok _ => fulfil p .none
    | .error f => reject p f
  | .attached e p config => Session.attached e p config o
  | .shutDown p =>
    match o with
    | .ok _ => fulfil p .none
    | .error f => reject p f
  | .readLoopEnded e p => Session.readLoopEnded e p
  | .flushed e p => Session.flushed e p
  | .localsRead _ p name frameId => Session.localsRead p name frameId o
  | .localsFetched _ p frameId => Session.localsFetched p frameId o
  | .answered e p use => Session.answered e p use o
  | .replied p command => replied p command o
  | .endpointOpen p ep =>
    match o with
    | .ok _ => fulfil p (.endpoint ep)
    | .error f => reject p f
  | .listenerMade p _ => settle p o

/-- Run one posted errand. -/
def runErrand (inbox : Nat) (x : Errand) : Act Unit :=
  match x with
  | .probeMessage e m => Session.handleProbeMessage e m
  | .probeDisconnected e r => Session.handleProbeDisconnected e r
  | .processExit e code signal => Session.handleProcessExit e code signal
  | .processError e m => Session.handleProcessError e m
  | .programOutput _ category text => Session.emitProgramOutput category text
  | .settleSlot s o =>
    match o with
    | .ok v => discard <| resolveSlot s v
    | .error f => discard <| rejectSlot s f
  | .resolve p => fulfil p .none
  | .channelMessage c m => do
    match ((← get).channelAt c).handler with
    | some (.engine e) => Session.handleProbeMessage e m
    | some .observer =>
      note (.message m)
      if let some t := m.field? "throw" then fail (.other "Error" t.displayText)
    | none => pure ()
  | .script (.mk label children closes failure) => do
    note (.ran label)
    children.forM fun c => post inbox (.script c)
    if closes then closeInbox inbox
    if let some m := failure then fail (.other "Error" m)

/-- Run the errands of a context that were queued when the turn began; a failed errand is
reported and the rest still run, unless the context closes. -/
def drainInbox (i : Nat) : Act Unit := do
  let box := (← get).inboxAt i
  change (·.withInbox i fun b => { b with scheduled := false, queue := [] })
  box.queue.forM fun x => do
    if ((← get).inboxAt i).closed then return
    match ← attempt (runErrand i x) with
    | .ok () => pure ()
    | .error f => log (.error s!"Task on context '{box.name}' failed" (some f.stackHead))

/-- Run one turn of the loop. -/
def runTurn (t : Turn) : Act Unit :=
  match t with
  | .drain i => drainInbox i
  | .probeEmit e m => postForSession e (.probeMessage e m)
  | .slotTimeout s p label ms => slotTimedOut s p label ms
  | .stopTimeout x p ms => stopTimedOut x p ms
  | .pipeEnd s => do
    if ((← get).pipeAt s).probeSide then probeClosed s
    else
      change (·.withPipe s fun p => { p with ended := true })
      pipeEvent s none
  | .pipeError s m => pipeEvent s (some (.transport s!"IPC connection failed: {m}"))
  | .pipeClose s => pipeEvent s none
  | .pipeData s bytes => do
    let pipe := (← get).pipeAt s
    if pipe.probeSide then probeRead s bytes
    else match pipe.reader with
      | some c => channelData c bytes
      | none => change (·.withPipe s fun p => { p with buffered := p.buffered ++ [bytes] })
  | .listenReady p => fulfil p .none
  | .listenRefused p m => reject p (.adapter (.transport s!"Failed to open IPC listener: {m}"))
  | .accept l s => acceptSocket l s
  | .connected p s => fulfil p (.pipe s)
  | .refused p m => reject p (.adapter (.transport s!"Failed to connect to probe: {m}"))

/-- Run one job. -/
def runJob (j : Job Outcome Cont) : Act Unit :=
  match j with
  | .react (.resume k) o => resume k o
  | .react (.forward t) o => settle t o
  | .adopt t s => change fun w => { w with loop := w.loop.listen s (.forward t) }

end Act

namespace World

/-- Run a step; a failure that reaches the top is dropped and its changes kept. -/
def exec (a : Act Unit) (w : World) : World :=
  match a.run w with
  | .ok _ s => s
  | .error _ s => s

/-- Run queued ticks and jobs until there are none. -/
def runJobs : Nat → World → World
  | 0, w => w
  | fuel + 1, w =>
    match w.loop.takeJob? with
    | none => w
    | some (next, l) =>
      let w := { w with loop := l }
      let w := match next with
        | .tick t => w.exec (Act.runTurn t)
        | .job j => w.exec (Act.runJob j)
      runJobs fuel w

/-- Run the loop until nothing is queued: jobs first, then turns, each followed by its jobs. -/
def settle : Nat → World → World
  | 0, w => w
  | fuel + 1, w =>
    let w := w.runJobs (fuel + 1)
    match w.loop.takeTurn? with
    | none => w
    | some (t, l) => settle fuel ({ w with loop := l }.exec (Act.runTurn t))

/-- Run the loop until the promise `p` has settled and the jobs queued by then have run, or
until nothing is queued: what a caller that waits on `p` sees before it goes on. -/
def runUntil (p : Nat) : Nat → World → World
  | 0, w => w
  | fuel + 1, w =>
    let w := w.runJobs (fuel + 1)
    if (w.loop.outcome? p).isSome then w
    else match w.loop.takeTurn? with
      | none => w
      | some (t, l) => runUntil p fuel ({ w with loop := l }.exec (Act.runTurn t))

/-- Let `ms` milliseconds pass: timers due by then run in order, each followed by a settled loop. -/
def advance (ms : Nat) : Nat → World → World
  | 0, w => w
  | fuel + 1, w =>
    let limit := w.loop.now + ms
    match w.loop.takeDue? limit with
    | none => { w with loop := { w.loop with now := limit } }
    | some (t, l) =>
      let w := ({ w with loop := l }.exec (Act.runTurn t)).settle (fuel + 1)
      advance (limit - w.loop.now) fuel w

end World

end DapBridge
