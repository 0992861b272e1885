import DapBridge.Proofs.Settlement

/-!
# The run/stop machine, operation by operation

Each operation of a run/stop machine as a function of the world: what it returns and what it
leaves behind, in every case its code distinguishes. The machine here is the one a bench
builds: its commands go to a recorder (which keeps them, or refuses each with a plain error),
and its news goes to an observer that notes it in the trace.

Operations that return a promise settle it at once or leave it to the loop: `continue`, the
steps, `pause` and a stop wait on a stopped or terminated machine give a settled promise; a
request gives a pending one whose outcome its reply, its deadline or a shutdown decides.
-/

namespace DapBridge

namespace Act

/-- The fault a stop wait gets when the machine terminates first. -/
def stopTerminatedFault : Fault := .adapter (.state "The debuggee terminated before stopping")

/-- The fault a stop wait gets when it starts on a terminated machine. -/
def terminatedWaitFault : Fault := .adapter (.state "The debuggee has terminated")

/-- The fault a stop wait gets when its deadline runs out. -/
def noStopFault (ms : Json) : Fault := .adapter (.operation s!"No stop observed within {Json.displayText ms}ms")

def noSinkFault : Fault := .adapter (.transport "No live IPC connection")

/-- The fault a request gets when its command cannot be written. -/
def sendFault (command : String) : Fault := .adapter (.transport s!"Failed to send '{command}'")

/-- The state a stop event puts the machine in: a reason that counts as false is a breakpoint,
a missing or `null` thread is the first. -/
def stopOf (reason threadId description : Option Json) : ExecState :=
  .stopped ((reason.filter Json.truthy).getD (.string "breakpoint")) ((threadId.filter (!·.isNull)).getD (.num 1))
    description

/-- What the promise of a request gets from the outcome of its slot wait. -/
def repliedOutcome (command : String) : Outcome → Outcome
  | .ok (.json reply) =>
    if reply.field? "success" == some (.bool false) then
      .error (.adapter (.operation ((reply.strField? "message").getD s!"Probe command '{command}' failed")))
    else .ok (match reply.field? "body" with
      | some b => .json b
      | none => .none)
  | .ok _ => .ok .none
  | .error f => .error f

/-- The id a probe message answers, if it carries a number there. -/
def replyId (m : Json) : Option Double := (m.field? "id").bind Json.getNum?

/-- A request's command as written: its name, its id and its arguments. -/
def requestMessage (command : String) (id : Double) (args : Option Json) : Json :=
  Json.objectOpt [("command", some (.string command)), ("id", some (.num id)), ("arguments", args)]

end Act

namespace World

variable (w : World) (x : Nat)

/-- The machine runs again after a stop: the stop's threads and frames are forgotten. -/
def runAgain : World :=
  w.withExec x fun e => { e with registry := e.registry.resetStopState, board := e.board.reset, current := .running }

/-- A stop wait on a running or unstarted machine: a fresh promise and, with a deadline, its
timer. -/
def stopWait (timeout : Option Json) : World :=
  let p := w.loop.cells.size
  let l := w.loop.fresh.2
  let timed : Option Nat × Loop Outcome Cont Turn := match timeout with
    | some ms => (some l.nextTimer, (l.after (Act.timerDelay ms.toNumber) (.stopTimeout x p ms)).2)
    | none => (none, l)
  (w.setLoop timed.2).withExec x fun e => { e with stopWaiters := e.stopWaiters ++ [⟨p, timed.1⟩] }

/-- An accepted stop: the machine is stopped in `s`, one more stop is counted, its thread is
marked stopped, every stop waiter hears `s`, and the observer notes it. -/
def acceptStop (s : ExecState) (threadId : Json) : World :=
  let stopped : Execution → Execution := fun e =>
    { e with current := s, stops := e.stops + 1, stopWaiters := [],
             registry := e.registry.markThreadStopped (some threadId) (some (.bool true)) }
  ((w.withExec x stopped).setLoop (w.loop.release (w.execAt x).stopWaiters (.ok (.json s.toJson)))).note
    (.emitted (Json.object [("stopped", s.toJson)]))

/-- The machine terminated: its stop waiters fail, and the observer hears of it the first time. -/
def terminate : World :=
  let w' := (w.withExec x fun e => { e with current := .terminated, stopWaiters := [] }).setLoop
    (w.loop.release (w.execAt x).stopWaiters (.error Act.stopTerminatedFault))
  if (w.execAt x).terminatedNotified then w'
  else (w'.withExec x fun e => { e with terminatedNotified := true }).note
    (.emitted (Json.object [("terminated", .bool true)]))

/-- A stop wait's deadline ran out: the waiter leaves and its promise fails. -/
def stopExpired (p : Nat) (ms : Json) : World :=
  (w.withExec x fun e => { e with stopWaiters := e.stopWaiters.filter (·.promise != p) }).setLoop
    (w.loop.settle p (.error (Act.noStopFault ms)))

/-- A request whose command went out: it has the next id and a new slot, its command is
written, and its promise waits on a wait on that slot with the request's deadline. -/
def requestWritten (command : String) (args timeout : Option Json) : World :=
  let p := w.loop.cells.size
  let e := w.nextEntry x command (w.execAt x).inbox
  let w₁ := ((w.setLoop w.loop.fresh.2).register x command (w.execAt x).inbox).note
    (.wrote (Act.requestMessage command e.id args))
  let w₂ := w₁.waitOn e.slot (some ((timeout.filter (!·.isNull)).getD (w.execAt x).timeout)) s!"'{command}'"
  w₂.setLoop (w₂.loop.await (p + 1) (.replied p command))

/-- A request whose command the sink refused: its entry leaves the book at once with the send
failure, which is also its promise's outcome. -/
def requestRefused (command : String) : World :=
  let p := w.loop.cells.size
  let e := w.nextEntry x command (w.execAt x).inbox
  let w₁ := (w.setLoop w.loop.fresh.2).register x command (w.execAt x).inbox
  let w₂ := (w₁.dropEntry x e.id).settleEntry e (.error (Act.sendFault command))
  w₂.setLoop (w₂.loop.settle p (.error (Act.sendFault command)))

/-- The loop's next job runs: a tick first, then a promise job. -/
def nextJob : World :=
  match w.loop.takeJob? with
  | some (.tick t, l) => (w.setLoop l).exec (Act.runTurn t)
  | some (.job j, l) => (w.setLoop l).exec (Act.runJob j)
  | none => w

end World

namespace Act

variable (w : World) (x : Nat)

/-- Why an operation is refused before the start and after the end, if it is. -/
def liveFault (s : ExecState) (operation : String) : Option Fault :=
  match s with
  | .terminated => some (.adapter (.state s!"Cannot {operation}: the debuggee has terminated"))
  | .notStarted => some (.adapter (.operation "No debuggee process"))
  | _ => none

theorem stateOf_run : (stateOf x).run w = .ok (w.execAt x).current w := rfl

theorem requireLive_run (operation : String) : (requireLive x operation).run w =
    match liveFault (w.execAt x).current operation with
    | some f => .error f w
    | none => .ok () w := by
  unfold requireLive
  cases h : (w.execAt x).current <;> simp [h, liveFault, stateOf_run, failWith, throw, throwThe, MonadExceptOf.throw] <;> rfl

theorem promiseOf_run (body : Act Val) : (promiseOf body).run w =
    match body.run w with
    | .ok v w' => .ok w'.loop.cells.size (w'.setLoop (w'.loop.done (.ok v)).2)
    | .error f w' => .ok w'.loop.cells.size (w'.setLoop (w'.loop.done (.error f)).2) := by
  simp only [promiseOf, EStateM.run_bind, run_attempt]
  cases body.run w <;> rfl

theorem requireSink_run : (requireSink x).run w =
    match (w.execAt x).sink with
    | some s => .ok s w
    | none => .error (.adapter (.transport "No live IPC connection")) w := by
  unfold requireSink
  cases h : (w.execAt x).sink with
  | some s => simp only [EStateM.run_bind, EStateM.run_get, h, EStateM.run_pure]
  | none =>
    simp only [failWith, throw, throwThe, MonadExceptOf.throw, EStateM.run_bind, EStateM.run_get, h]
    rfl

theorem writeSink_recorder_run (m : Json) : (writeSink (.recorder none) m).run w = .ok () (w.note (.wrote m)) := rfl

theorem writeSink_refusing_run (r : String) (m : Json) :
    (writeSink (.recorder (some r)) m).run w = .error (.other "Error" r) w := rfl

theorem execSend_run (command : String) (args : Option Json) : (execSend x command args).run w =
    match (w.execAt x).sink with
    | some s => (writeSink s (Json.objectOpt [("command", some (.string command)), ("arguments", args)])).run w
    | none => .error (.adapter (.transport "No live IPC connection")) w := by
  simp only [execSend, EStateM.run_bind, requireSink_run]
  cases (w.execAt x).sink <;> rfl

theorem runAgain_run : (runAgain x).run w = .ok () (w.runAgain x) := rfl

theorem execContinue_run (threadId : Option Json) : (execContinue x threadId).run w =
    match liveFault (w.execAt x).current "continue" with
    | some f => .ok w.loop.cells.size (w.setLoop (w.loop.done (.error f)).2)
    | none =>
      if (w.execAt x).current.isStopped then
        match (execSend x "continue" (some (Json.objectOpt [("threadId", threadId)]))).run (w.runAgain x) with
        | .ok () w' => .ok w'.loop.cells.size
            (w'.setLoop (w'.loop.done (.ok (.json (Json.object [("allThreadsContinued", .bool true)])))).2)
        | .error f w' => .ok w'.loop.cells.size (w'.setLoop (w'.loop.done (.error f)).2)
      else .ok w.loop.cells.size
        (w.setLoop (w.loop.done (.ok (.json (Json.object [("allThreadsContinued", .bool false)])))).2) := by
  cases hs : (w.execAt x).current with
  | stopped r t d =>
    simp only [execContinue, promiseOf_run, EStateM.run_bind, requireLive_run, hs, liveFault, stateOf_run,
      ExecState.isStopped, if_true, Bool.not_true, Bool.false_eq_true, if_false, runAgain_run]
    cases (execSend x "continue" (some (Json.objectOpt [("threadId", threadId)]))).run (w.runAgain x) <;> rfl
  | _ =>
    simp only [execContinue, ExecState.isStopped, Bool.not_eq_eq_eq_not, Bool.not_true, bind_pure_comp,
      promiseOf_run, EStateM.run_bind, requireLive_run, liveFault, hs, stateOf_run, ↓reduceIte, EStateM.run_pure,
      ExceptT.stM_eq, Bool.false_eq_true]

/-- The arguments of a step command: the thread, then the extra values over it. -/
def stepArguments (threadId : Option Json) (extra : List (String × Json)) : Json :=
  .obj (extra.foldl (fun fs (k, v) => Json.Fields.set fs k v) (Json.Fields.ofOptions [("threadId", threadId)]))

theorem execStep_run (kind : String) (threadId : Option Json) (extra : List (String × Json)) :
    (execStep x kind threadId extra).run w =
    match liveFault (w.execAt x).current kind with
    | some f => .ok w.loop.cells.size (w.setLoop (w.loop.done (.error f)).2)
    | none =>
      if (w.execAt x).current.isStopped then
        match (execSend x kind (some (stepArguments threadId extra))).run (w.runAgain x) with
        | .ok () w' => .ok w'.loop.cells.size (w'.setLoop (w'.loop.done (.ok .none)).2)
        | .error f w' => .ok w'.loop.cells.size (w'.setLoop (w'.loop.done (.error f)).2)
      else
        let w' := w.log (.debug s!"Ignoring {kind} while {(w.execAt x).current.kind}" none)
        .ok w'.loop.cells.size (w'.setLoop (w'.loop.done (.ok .none)).2) := by
  cases hs : (w.execAt x).current with
  | stopped r t d =>
    cases h : (execSend x kind (some (stepArguments threadId extra))).run (w.runAgain x) with
    | ok u w' =>
      simp only [stepArguments] at h
      simp only [execStep, promiseOf_run, EStateM.run_bind, requireLive_run, hs, liveFault, stateOf_run,
        ExecState.isStopped, if_true, Bool.not_true, Bool.false_eq_true, if_false, runAgain_run, h, EStateM.run_pure]
    | error f w' =>
      simp only [stepArguments] at h
      simp only [execStep, promiseOf_run, EStateM.run_bind, requireLive_run, hs, liveFault, stateOf_run,
        ExecState.isStopped, if_true, Bool.not_true, Bool.false_eq_true, if_false, runAgain_run, h]
  | _ =>
    simp only [execStep, ExecState.isStopped, Bool.not_eq_eq_eq_not, Bool.not_true, bind_pure_comp, promiseOf_run,
      EStateM.run_bind, requireLive_run, liveFault, hs, stateOf_run, ↓reduceIte, run_map, debug_run, ExceptT.stM_eq,
      World.log_loop, Bool.false_eq_true]

theorem execPause_run (threadId : Option Json) : (execPause x threadId).run w =
    match liveFault (w.execAt x).current "pause" with
    | some f => .ok w.loop.cells.size (w.setLoop (w.loop.done (.error f)).2)
    | none =>
      if (w.execAt x).current.isStopped then .ok w.loop.cells.size (w.setLoop (w.loop.done (.ok (.json (.bool false)))).2)
      else match (execSend x "pause" (some (Json.objectOpt [("threadId", threadId)]))).run w with
        | .ok () w' => .ok w'.loop.cells.size (w'.setLoop (w'.loop.done (.ok (.json (.bool true)))).2)
        | .error f w' => .ok w'.loop.cells.size (w'.setLoop (w'.loop.done (.error f)).2) := by
  cases hs : (w.execAt x).current with
  | stopped r t d =>
    simp only [execPause, ExecState.isStopped, bind_pure_comp, promiseOf_run, EStateM.run_bind, requireLive_run,
      liveFault, hs, stateOf_run, ↓reduceIte, EStateM.run_pure, ExceptT.stM_eq]
  | running =>
    simp only [execPause, promiseOf_run, EStateM.run_bind, requireLive_run, hs, liveFault, stateOf_run,
      ExecState.isStopped, Bool.false_eq_true, if_false]
    cases (execSend x "pause" (some (Json.objectOpt [("threadId", threadId)]))).run w <;> rfl
  | _ =>
    simp only [execPause, bind_pure_comp, promiseOf_run, EStateM.run_bind, requireLive_run, liveFault, hs,
      ExceptT.stM_eq]

theorem execStart_run : (execStart x).run w =
    if (w.execAt x).current.isNotStarted then .ok () (w.withExec x fun e => { e with current := .running })
    else .error (.adapter (.state s!"Cannot start: execution is {(w.execAt x).current.kind}")) w := by
  cases hs : (w.execAt x).current <;>
    simp [execStart, hs, stateOf_run, ExecState.isNotStarted, failWith, throw, throwThe, MonadExceptOf.throw] <;> rfl

/-- A part of the machine's record that an update leaves as it was reads the same after it. -/
theorem execAt_withExec_self {α : Type} (f : Execution → Execution) (g : Execution → α) (hg : ∀ e, g (f e) = g e) :
    g ((w.withExec x f).execAt x) = g (w.execAt x) := by
  simp only [World.execAt_withExec]
  split <;> simp [hg]

theorem announceStop_run (s : ExecState) (h : (w.execAt x).owner = .observer) :
    (announceStop x s).run w = .ok () (w.note (.emitted (Json.object [("stopped", s.toJson)]))) := by
  simp only [announceStop, EStateM.run_bind, EStateM.run_get, h, note_run]

theorem handleStopped_run (h : (w.execAt x).owner = .observer) (reason threadId description : Option Json) :
    (handleStopped x reason threadId description).run w =
    if (w.execAt x).current.isTerminated || (w.execAt x).current.isNotStarted then
      .ok none (w.log (.debug s!"Ignoring stopped event while {(w.execAt x).current.kind}" none))
    else .ok (some (stopOf reason threadId description))
      (w.acceptStop x (stopOf reason threadId description) ((threadId.filter (!·.isNull)).getD (.num 1))) := by
  cases hs : (w.execAt x).current with
  | terminated | notStarted =>
    simp only [handleStopped, ExecState.isTerminated, ExecState.isNotStarted, Bool.or_eq_true, bind_pure_comp,
      EStateM.run_bind, stateOf_run, hs, Bool.false_eq_true, or_false, or_true, ↓reduceIte, run_map, debug_run,
      Bool.or_false, Bool.or_true]
  | running | stopped =>
    simp only [handleStopped, EStateM.run_bind, stateOf_run, hs, ExecState.isTerminated, ExecState.isNotStarted,
      Bool.or_self, Bool.false_eq_true, if_false, EStateM.run_get, change_run, settleWaiters_run]
    rw [announceStop_run]
    · rfl
    · -- the stop leaves the machine's owner as it was
      rw [World.execAt_setLoop]
      refine (execAt_withExec_self w x _ Execution.owner ?_).trans h
      intro e
      rfl

theorem waitForStop_run (timeout : Option Json) : (waitForStop x timeout).run w =
    match (w.execAt x).current with
    | .terminated => .ok w.loop.cells.size (w.setLoop (w.loop.done (.error terminatedWaitFault)).2)
    | s@(.stopped ..) => .ok w.loop.cells.size (w.setLoop (w.loop.done (.ok (.json s.toJson))).2)
    | _ => .ok w.loop.cells.size (w.stopWait x timeout) := by
  cases hs : (w.execAt x).current <;> cases timeout <;>
    simp only [waitForStop, bind_pure_comp, pure_bind, bind_map_left, EStateM.run_bind, stateOf_run, hs, fresh_run,
      done_run, ExceptT.stM_eq, after_run, World.setLoop_loop, World.setLoop_setLoop, run_map, change_run,
      World.stopWait, terminatedWaitFault]

theorem stopTimedOut_run (p : Nat) (ms : Json) : (stopTimedOut x p ms).run w = .ok () (w.stopExpired x p ms) := rfl

theorem announceTermination_run (h : (w.execAt x).owner = .observer) :
    (announceTermination x).run w = .ok () (w.note (.emitted (Json.object [("terminated", .bool true)]))) := by
  simp only [announceTermination, EStateM.run_bind, EStateM.run_get, h, note_run]

theorem markTerminated_run (h : (w.execAt x).owner = .observer) :
    (markTerminated x).run w = .ok (!(w.execAt x).terminatedNotified) (w.terminate x) := by
  cases hn : (w.execAt x).terminatedNotified with
  | true =>
    simp only [markTerminated, bind_pure_comp, EStateM.run_bind, EStateM.run_get, hn, ↓reduceIte, change_run,
      run_map, settleWaiters_run, World.withExec_loop, Bool.not_true, World.terminate, stopTerminatedFault]
  | false =>
    simp only [markTerminated, EStateM.run_bind, EStateM.run_get, change_run, settleWaiters_run, hn, Bool.false_eq_true,
      if_false]
    rw [announceTermination_run]
    · simp [World.terminate, hn, stopTerminatedFault]
    · -- termination leaves the machine's owner as it was
      rw [execAt_withExec_self _ x _ Execution.owner, World.execAt_setLoop, execAt_withExec_self _ x _ Execution.owner]
      · exact h
      all_goals intro e; rfl

theorem execShutdown_run (h : (w.execAt x).owner = .observer) (f : Fault) : (execShutdown x f).run w =
    let w' := (w.terminate x).withExec x fun e => { e with sink := none }
    .ok (w'.execAt x).book.entries.length ((w'.execAt x).book.entries.foldl (fun w e => w.settleEntry e (.error f))
      (w'.withExec x fun e => { e with book := { e.book with entries := [] } })) := by
  simp only [execShutdown, EStateM.run_bind, run_discard, markTerminated_run w x h, change_run]
  exact failAllPending_run _ x f

theorem resolveReply_run (m : Json) : (resolveReply x m).run w =
    match replyId m with
    | none => .ok false w
    | some n => (resolvePending x n m).run w := by
  unfold resolveReply replyId
  rcases (m.field? "id").bind Json.getNum? with _ | n
  · rfl
  · simp only [EStateM.run_bind, findEntry_run]
    cases hf : (w.execAt x).book.entries.find? (·.id == n) <;> simp [resolvePending_run, hf]

theorem replied_run (p : Nat) (command : String) (o : Outcome) :
    (replied p command o).run w = .ok () (w.setLoop (w.loop.settle p (repliedOutcome command o))) := by
  rcases o with f | v
  · rfl
  · cases v with
    | json reply =>
      simp only [replied, repliedOutcome]
      split <;> rfl
    | _ => rfl

theorem execRequest_guarded {command : String} {f : Fault} (hf : liveFault (w.execAt x).current command = some f)
    (args timeout : Option Json) : (execRequest x command args timeout).run w =
      .ok w.loop.cells.size (w.setLoop (w.loop.fresh.2.settle w.loop.cells.size (.error f))) := by
  simp only [execRequest, EStateM.run_bind, fresh_run, run_attempt, requireLive_run, World.execAt_setLoop, hf]
  rfl

theorem execRequest_unsinked {command : String} (hl : liveFault (w.execAt x).current command = none)
    (hs : (w.execAt x).sink = none) (args timeout : Option Json) : (execRequest x command args timeout).run w =
      .ok w.loop.cells.size (w.setLoop (w.loop.fresh.2.settle w.loop.cells.size (.error noSinkFault))) := by
  simp only [execRequest, EStateM.run_bind, fresh_run, run_attempt, requireLive_run, World.execAt_setLoop, hl,
    requireSink_run, hs]
  rfl

theorem execRequest_written {command : String} (hl : liveFault (w.execAt x).current command = none)
    (hs : (w.execAt x).sink = some (.recorder none)) (args timeout : Option Json) :
    (execRequest x command args timeout).run w = .ok w.loop.cells.size (w.requestWritten x command args timeout) := by
  simp only [execRequest, EStateM.run_bind, fresh_run, run_attempt, requireLive_run, World.execAt_setLoop, hl,
    requireSink_run, hs, EStateM.run_get, register_run, writeSink_recorder_run]
  -- the new slot is pending, and the wait's promise comes right after the request's
  rw [waitSlot_pending _ _ _ (by simp [World.slotAt_register, World.nextEntry])]
  simp only [await_run, World.note_loop, World.register_loop, World.setLoop_loop, Loop.fresh_cells_size]
  rfl

/-- The book after a registration finds the new entry by its id. -/
theorem find_registered {w : World} {x : Nat} (hx : x < w.execs.size) (command : String) (owner : Nat) :
    ((w.register x command owner).execAt x).book.entries.find? (·.id == (w.nextEntry x command owner).id) =
      some (w.nextEntry x command owner) := by
  rw [World.execAt_register, if_pos ⟨rfl, hx⟩]
  exact PendingBook.find?_put _ _

theorem execRequest_refused {command r : String} (hx : x < w.execs.size)
    (hl : liveFault (w.execAt x).current command = none) (hs : (w.execAt x).sink = some (.recorder (some r)))
    (args timeout : Option Json) :
    (execRequest x command args timeout).run w = .ok w.loop.cells.size (w.requestRefused x command) := by
  simp only [execRequest, EStateM.run_bind, fresh_run, run_attempt, requireLive_run, World.execAt_setLoop, hl,
    requireSink_run, hs, EStateM.run_get, register_run, writeSink_refusing_run]
  rw [run_discard, failPending_run, find_registered (by simpa using hx) _ _]
  rfl

end Act

end DapBridge
