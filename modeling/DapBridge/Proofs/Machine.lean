import Mathlib.Data.List.Nodup
import DapBridge.Proofs.Controller

/-!
# The run/stop machine as a transition system

A bench's run/stop machine, on its own with the loop that serves it: its events are the calls
a client makes (give it a recorder as its sink, start, continue, step, pause, request, a
reply from the probe, a stop, a stop wait, terminate, shut down) and what the loop does
between them (a timer runs out, a turn drains the machine's context, a job delivers an
outcome). Timers may run out in any order, and calls may come between any turn and any job.

Each event is one function of the world (`step_*`), and every event keeps `Shape`, what
holds of such a machine between events (`shape_step`, `shape_run`):

* the machine's own record: it exists, an observer hears its news, its sink is a recorder
  or missing, and it was told of termination exactly when it terminated;
* its book and its context: entries owned by its context, with slots that exist, and
  settlements queued only on that context, which stays open and has a drain turn queued
  whenever it holds work;
* the loop: no ticks, and every job and reaction delivers a request's reply;
* the promises someone waits on: a slot waiter and a stop waiter each hold a pending promise
  of their own, and every timer is the deadline of one of them.
-/

namespace DapBridge

namespace Loop

variable (l : Loop Outcome Cont Turn)

/-- Promise `p` is a request's, whose reply a queued job or a pending promise's reaction will
deliver. -/
def Targets (p : Nat) : Prop :=
  (∃ c o, Job.react (.resume (Cont.replied p c)) o ∈ l.jobs) ∨
  ∃ (q : Nat) (rs : List (Reaction Cont)) (c : String), l.cells[q]? = some (Cell.pending rs) ∧
    Reaction.resume (Cont.replied p c) ∈ rs

/-- The loop of a run/stop machine on its bench: nothing is queued as a tick, and every job and
every reaction delivers a reply to a request promise that exists. -/
structure Replies : Prop where
  ticks : l.ticks = []
  jobs : ∀ j ∈ l.jobs, ∃ p c o, j = Job.react (.resume (Cont.replied p c)) o ∧ p < l.cells.size
  reactions : ∀ (q : Nat) (rs : List (Reaction Cont)), l.cells[q]? = some (Cell.pending rs) →
    ∀ r ∈ rs, ∃ p c, r = Reaction.resume (Cont.replied p c) ∧ p < l.cells.size

variable {l} {l' : Loop Outcome Cont Turn}

/-- An operation that leaves the promises and the job queues alone keeps them. -/
theorem Replies.of_eq (h : l.Replies) (hc : l'.cells = l.cells) (hj : l'.jobs = l.jobs)
    (ht : l'.ticks = l.ticks) : l'.Replies where
  ticks := ht.trans h.ticks
  jobs := by rw [hj, hc]; exact h.jobs
  reactions := by rw [hc]; exact h.reactions

theorem targets_of_eq (hc : l'.cells = l.cells) (hj : l'.jobs = l.jobs) (p : Nat) : l'.Targets p ↔ l.Targets p := by
  simp only [Targets, hc, hj]

/-- Settling a promise queues its reactions as jobs: the targets are those there were, and the
promise itself is no longer pending. -/
theorem Replies.settle (h : l.Replies) (p : Nat) (o : Outcome) : (l.settle p o).Replies := by
  unfold Loop.settle
  split
  · rename_i rs hrs
    refine ⟨h.ticks, ?_, ?_⟩
    · intro j hj
      rcases List.mem_append.1 hj with hj | hj
      · simpa using h.jobs j hj
      · obtain ⟨r, hr, rfl⟩ := List.mem_map.1 hj
        obtain ⟨p', c, rfl, hp'⟩ := h.reactions p rs hrs r hr
        exact ⟨p', c, o, rfl, by simpa using hp'⟩
    · intro q rs' hq r hr
      rw [Array.getElem?_modify] at hq
      split at hq
      · simp at hq
      · simpa using h.reactions q rs' hq r hr
  · exact h

theorem Targets.of_settle {p p' : Nat} {o : Outcome} (h : (l.settle p o).Targets p') : l.Targets p' := by
  unfold Loop.settle at h
  split at h
  · rename_i rs hrs
    rcases h with ⟨c, o', hj⟩ | ⟨q, rs', c, hq, hr⟩
    · rcases List.mem_append.1 hj with hj | hj
      · exact .inl ⟨c, o', hj⟩
      · obtain ⟨r, hr, he⟩ := List.mem_map.1 hj
        cases he
        exact .inr ⟨p, rs, c, hrs, hr⟩
    · rw [Array.getElem?_modify] at hq
      split at hq
      · simp at hq
      · exact .inr ⟨q, rs', c, hq, hr⟩
  · exact h

/-- A new pending promise, with no reactions. -/
theorem Replies.fresh (h : l.Replies) : l.fresh.2.Replies := by
  refine ⟨h.ticks, fun j hj => ?_, fun q rs hq r hr => ?_⟩
  · obtain ⟨p, c, o, rfl, hp⟩ := h.jobs j hj
    exact ⟨p, c, o, rfl, by simp [Loop.fresh]; omega⟩
  · simp only [Loop.fresh, Array.getElem?_push] at hq
    split at hq
    · simp only [Option.some.injEq, Cell.pending.injEq] at hq
      subst hq
      cases hr
    · obtain ⟨p, c, rfl, hp⟩ := h.reactions q rs hq r hr
      exact ⟨p, c, rfl, by simp; omega⟩

theorem targets_fresh (p : Nat) : l.fresh.2.Targets p ↔ l.Targets p := by
  simp only [Targets, Loop.fresh, Array.getElem?_push]
  constructor
  · rintro (h | ⟨q, rs, c, hq, hr⟩)
    · exact .inl h
    · split at hq
      · simp only [Option.some.injEq, Cell.pending.injEq] at hq
        subst hq
        cases hr
      · exact .inr ⟨q, rs, c, hq, hr⟩
  · rintro (h | ⟨q, rs, c, hq, hr⟩)
    · exact .inl h
    · refine .inr ⟨q, rs, c, ?_, hr⟩
      rw [if_neg]
      · exact hq
      · rintro rfl
        simp at hq

/-- A new promise settled already. -/
theorem Replies.done (h : l.Replies) (o : Outcome) : (l.done o).2.Replies := by
  refine ⟨h.ticks, fun j hj => ?_, fun q rs hq r hr => ?_⟩
  · obtain ⟨p, c, o', rfl, hp⟩ := h.jobs j hj
    exact ⟨p, c, o', rfl, by simp [Loop.done]; omega⟩
  · simp only [Loop.done, Array.getElem?_push] at hq
    split at hq
    · simp at hq
    · obtain ⟨p, c, rfl, hp⟩ := h.reactions q rs hq r hr
      exact ⟨p, c, rfl, by simp; omega⟩

theorem targets_done (o : Outcome) (p : Nat) : (l.done o).2.Targets p ↔ l.Targets p := by
  simp only [Targets, Loop.done, Array.getElem?_push]
  constructor
  · rintro (h | ⟨q, rs, c, hq, hr⟩)
    · exact .inl h
    · split at hq
      · simp at hq
      · exact .inr ⟨q, rs, c, hq, hr⟩
  · rintro (h | ⟨q, rs, c, hq, hr⟩)
    · exact .inl h
    · refine .inr ⟨q, rs, c, ?_, hr⟩
      rw [if_neg]
      · exact hq
      · rintro rfl
        simp at hq

/-- A request's reply awaited on promise `q`: a new reaction, or a job at once when `q` has
settled already. -/
theorem Replies.await (h : l.Replies) (q : Nat) {p : Nat} (c : String) (hp : p < l.cells.size) :
    (l.await q (.replied p c)).Replies := by
  unfold Loop.await Loop.listen
  split
  · rename_i rs hrs
    refine ⟨h.ticks, fun j hj => ?_, fun q' rs' hq r hr => ?_⟩
    · obtain ⟨p', c', o, rfl, hp'⟩ := h.jobs j hj
      exact ⟨p', c', o, rfl, by simpa using hp'⟩
    · rw [Array.getElem?_modify] at hq
      split at hq
      · rename_i hqq
        obtain ⟨rfl, -⟩ := hqq
        rw [hrs] at hq
        simp only [Option.map_some, Option.some.injEq, Cell.pending.injEq] at hq
        subst hq
        rcases List.mem_append.1 hr with hr | hr
        · simpa using h.reactions q rs hrs r hr
        · rw [List.mem_singleton.1 hr]
          exact ⟨p, c, rfl, by simpa using hp⟩
      · simpa using h.reactions q' rs' hq r hr
  · rename_i o hrs
    refine ⟨h.ticks, fun j hj => ?_, h.reactions⟩
    rcases List.mem_append.1 hj with hj | hj
    · exact h.jobs j hj
    · rw [List.mem_singleton.1 hj]
      exact ⟨p, c, o, rfl, hp⟩
  · exact h

theorem Targets.of_await {q p p' : Nat} {c : String} (h : (l.await q (.replied p c)).Targets p') :
    p' = p ∨ l.Targets p' := by
  unfold Loop.await Loop.listen at h
  split at h
  · rename_i rs hrs
    rcases h with ⟨c', o, hj⟩ | ⟨q', rs', c', hq, hr⟩
    · exact .inr (.inl ⟨c', o, hj⟩)
    · rw [Array.getElem?_modify] at hq
      split at hq
      · rename_i hqq
        obtain ⟨rfl, -⟩ := hqq
        rw [hrs] at hq
        simp only [Option.map_some, Option.some.injEq, Cell.pending.injEq] at hq
        subst hq
        rcases List.mem_append.1 hr with hr | hr
        · exact .inr (.inr ⟨q, rs, c', hrs, hr⟩)
        · simp only [List.mem_singleton, Reaction.resume.injEq, Cont.replied.injEq] at hr
          exact .inl hr.1
      · exact .inr (.inr ⟨q', rs', c', hq, hr⟩)
  · rcases h with ⟨c', o, hj⟩ | hr
    · rcases List.mem_append.1 hj with hj | hj
      · exact .inr (.inl ⟨c', o, hj⟩)
      · simp only [List.mem_singleton, Job.react.injEq, Reaction.resume.injEq, Cont.replied.injEq] at hj
        exact .inl hj.1.1
    · exact .inr (.inr hr)
  · exact .inr h

theorem Replies.cancel (h : l.Replies) (id : Nat) : (l.cancel id).Replies := h.of_eq rfl rfl rfl

theorem Replies.release (h : l.Replies) (ws : List Waiter) (o : Outcome) : (l.release ws o).Replies := by
  induction ws generalizing l with
  | nil => exact h
  | cons wt ws ih =>
    rw [Loop.release_cons]
    apply ih
    apply Replies.settle
    cases wt.timer
    · exact h
    · exact h.cancel _

theorem Targets.of_release {ws : List Waiter} {o : Outcome} {p : Nat} (h : (l.release ws o).Targets p) :
    l.Targets p := by
  induction ws generalizing l with
  | nil => exact h
  | cons wt ws ih =>
    rw [Loop.release_cons] at h
    have := (ih h).of_settle
    cases ht : wt.timer <;> rw [ht] at this
    · exact this
    · exact (targets_of_eq rfl rfl p).1 this

/-- The next job taken off its queue. -/
theorem Replies.dropJob (h : l.Replies) {j : Job Outcome Cont} {js : List (Job Outcome Cont)} (hj : l.jobs = j :: js) :
    ({ l with jobs := js } : Loop Outcome Cont Turn).Replies :=
  ⟨h.ticks, fun j' hj' => h.jobs j' (by simp [hj, hj']), h.reactions⟩

theorem Targets.of_dropJob {j : Job Outcome Cont} {js : List (Job Outcome Cont)} (hj : l.jobs = j :: js) {p : Nat}
    (h : ({ l with jobs := js } : Loop Outcome Cont Turn).Targets p) : l.Targets p := by
  rcases h with ⟨c, o, hm⟩ | h
  · exact .inl ⟨c, o, by simp [hj, hm]⟩
  · exact .inr h

/-- A new promise settled at once is a promise made settled. -/
theorem fresh_settle (l : Loop Outcome Cont Turn) (o : Outcome) : l.fresh.2.settle l.cells.size o = (l.done o).2 := by
  simp only [Loop.settle, Loop.fresh, Loop.done, Array.getElem?_push_size, List.map_nil, List.append_nil]
  congr 1
  apply Array.ext
  · simp
  · intro i _ h₂
    rw [Array.getElem_modify, Array.getElem_push, Array.getElem_push]
    by_cases hi : i < l.cells.size
    · simp [hi, Nat.ne_of_gt hi]
    · simp only [Array.size_push] at h₂
      simp [hi]
      omega

end Loop

namespace World

variable (w : World)

/-- A new promise, settled at once. -/
def done (o : Outcome) : World := w.setLoop (w.loop.done o).2

@[simp] theorem done_loop (o : Outcome) : (w.done o).loop = (w.loop.done o).2 := rfl

theorem exec_of_error {w' : World} {a : Act Unit} {f : Fault} (h : a.run w = .error f w') : w.exec a = w' := by
  simp [exec, h]

/-- A call whose result is dropped leaves what it did, failed or not. -/
theorem exec_discard {α : Type} (a : Act α) :
    w.exec (discard a) = match a.run w with
      | .ok _ w' => w'
      | .error _ w' => w' := by
  simp only [exec, Act.run_discard]
  cases a.run w <;> rfl

/-- The machine's sink is a recorder, or it has none. -/
def Recording (x : Nat) : Prop := ∀ s, (w.execAt x).sink = some s → ∃ r, s = .recorder r

@[simp] theorem sink_runAgain (x : Nat) : ((w.runAgain x).execAt x).sink = (w.execAt x).sink :=
  Act.execAt_withExec_self w x _ Execution.sink fun _ => rfl

/-- A waiter added to a slot that exists. -/
theorem mem_addWaiter {s j : Nat} (hs : s < w.slots.size) (wt₀ wt : Waiter) :
    wt ∈ ((w.withSlot s fun sl => { sl with waiters := sl.waiters ++ [wt₀] }).slotAt j).waiters ↔
      wt ∈ (w.slotAt j).waiters ∨ (s = j ∧ wt = wt₀) := by
  by_cases hj : s = j
  · subst hj
    simp [hs]
  · simp [hj]

/-- A slot wait adds one waiter, holding the next promise. -/
theorem mem_waitOn {s j : Nat} {t : Option Json} {label : String} {wt : Waiter}
    (h : wt ∈ ((w.waitOn s t label).slotAt j).waiters) :
    wt ∈ (w.slotAt j).waiters ∨ wt.promise = w.loop.cells.size := by
  by_cases hj : s = j ∧ j < w.slots.size
  · cases t <;> simp [World.waitOn, hj] at h <;> rcases h with h | rfl
    · exact .inl h
    · exact .inr rfl
    · exact .inl h
    · exact .inr rfl
  · exact .inl (by cases t <;> simpa [World.waitOn, hj] using h)

@[simp] theorem waitOn_cells_size (s : Nat) (t : Option Json) (label : String) :
    (w.waitOn s t label).loop.cells.size = w.loop.cells.size + 1 := by
  cases t <;> simp [waitOn, Loop.after]

@[simp] theorem register_execs_size (x : Nat) (command : String) (owner : Nat) :
    (w.register x command owner).execs.size = w.execs.size := by
  simp [register]

theorem slotAt_register_waiters (x : Nat) (command : String) (owner j : Nat) :
    ((w.register x command owner).slotAt j).waiters = (w.slotAt j).waiters := by
  rw [slotAt_register]
  split
  · rename_i hj
    subst hj
    simp [slotAt]
    rfl
  · rfl

/-- On an open context a command's outcome is queued. -/
theorem settleEntry_of_open {c : PendingEntry} (h : (w.inboxAt c.owner).closed = false) (o : Except Fault Json) :
    w.settleEntry c o = w.enqueue c.owner (.settleSlot c.slot o) := by
  simp [settleEntry, h]

end World

namespace Act

/-- Why a recorder, or a missing sink, does not take a command: none when it takes it. -/
def writeFault : Option Sink → Option Fault
  | none => some noSinkFault
  | some (.recorder (some r)) => some (.other "Error" r)
  | some _ => none

/-- A command not answered, written to a recorder or to no sink. -/
theorem execSend_recording (w : World) (x : Nat) (h : w.Recording x)
    (command : String) (args : Option Json) : (execSend x command args).run w =
      match writeFault (w.execAt x).sink with
      | some f => .error f w
      | none => .ok () (w.note (.wrote (Json.objectOpt [("command", some (.string command)), ("arguments", args)]))) := by
  rw [execSend_run]
  cases hs : (w.execAt x).sink with
  | none => rfl
  | some s =>
    obtain ⟨r, rfl⟩ := h s hs
    cases r <;> rfl

end Act

namespace RunStop

/-- What can happen to a run/stop machine on its bench: the calls of its client and the work
of the loop. -/
inductive Event where
  | attach (refusal : Option String)
  | start
  | resume (threadId : Option Json)
  | step (kind : String) (threadId : Option Json) (extra : List (String × Json))
  | pause (threadId : Option Json)
  | request (command : String) (args timeout : Option Json)
  | reply (m : Json)
  | stopped (reason threadId description : Option Json)
  | waitForStop (timeout : Option Json)
  | terminate
  | shutdown (reason : Fault)
  | expire (timer : Nat)
  | turn
  | job

/-- One event, on run/stop machine `x`. What a call returns is dropped; its promise, if it
gives one, is the loop's newest. -/
def step (x : Nat) (w : World) : Event → World
  | .attach r => w.exec (Bench.attachRecorder x r)
  | .start => w.exec (Act.execStart x)
  | .resume t => w.exec (discard (Act.execContinue x t))
  | .step kind t extra => w.exec (discard (Act.execStep x kind t extra))
  | .pause t => w.exec (discard (Act.execPause x t))
  | .request c args timeout => w.exec (discard (Act.execRequest x c args timeout))
  | .reply m => w.exec (discard (Act.resolveReply x m))
  | .stopped r t d => w.exec (discard (Act.handleStopped x r t d))
  | .waitForStop timeout => w.exec (discard (Act.waitForStop x timeout))
  | .terminate => w.exec (discard (Act.markTerminated x))
  | .shutdown f => w.exec (discard (Act.execShutdown x f))
  | .expire id => w.fire id
  | .turn => w.nextTurn
  | .job => w.nextJob

/-- The events in order. -/
def run (x : Nat) (w : World) (es : List Event) : World := es.foldl (step x) w

@[simp] theorem run_nil (x : Nat) (w : World) : run x w [] = w := rfl

@[simp] theorem run_cons (x : Nat) (w : World) (e : Event) (es : List Event) :
    run x w (e :: es) = run x (step x w e) es := rfl

theorem run_append (x : Nat) (w : World) (es es' : List Event) : run x w (es ++ es') = run x (run x w es) es' := by
  simp [run, List.foldl_append]

/-! ## Each event as a function of the world -/

variable (x : Nat) (w : World)

theorem step_attach (r : Option String) :
    step x w (.attach r) = w.withExec x fun e => { e with sink := some (.recorder r) } := rfl

theorem step_start : step x w .start =
    if (w.execAt x).current.isNotStarted then w.withExec x fun e => { e with current := .running } else w := by
  simp only [step]
  split
  · exact World.exec_of_run w (by rw [Act.execStart_run, if_pos ‹_›])
  · exact World.exec_of_error w (by rw [Act.execStart_run, if_neg ‹_›])

theorem step_resume (hr : w.Recording x) (t : Option Json) : step x w (.resume t) =
    match Act.liveFault (w.execAt x).current "continue" with
    | some f => w.done (.error f)
    | none =>
      if (w.execAt x).current.isStopped then
        match Act.writeFault (w.execAt x).sink with
        | some f => (w.runAgain x).done (.error f)
        | none => ((w.runAgain x).note (.wrote (Json.objectOpt [("command", some (.string "continue")),
            ("arguments", some (Json.objectOpt [("threadId", t)]))]))).done
            (.ok (.json (Json.object [("allThreadsContinued", .bool true)])))
      else w.done (.ok (.json (Json.object [("allThreadsContinued", .bool false)]))) := by
  have hr' : (w.runAgain x).Recording x := by simpa [World.Recording] using hr
  simp only [step, World.exec_discard, Act.execContinue_run]
  cases Act.liveFault (w.execAt x).current "continue" with
  | some f => rfl
  | none =>
    by_cases hs : (w.execAt x).current.isStopped = true
    · simp only [hs, if_true]
      rw [Act.execSend_recording _ x hr', World.sink_runAgain]
      cases Act.writeFault (w.execAt x).sink <;> rfl
    · simp only [hs, if_false, Bool.false_eq_true]
      rfl

theorem step_step (hr : w.Recording x) (kind : String) (t : Option Json) (extra : List (String × Json)) :
    step x w (.step kind t extra) =
    match Act.liveFault (w.execAt x).current kind with
    | some f => w.done (.error f)
    | none =>
      if (w.execAt x).current.isStopped then
        match Act.writeFault (w.execAt x).sink with
        | some f => (w.runAgain x).done (.error f)
        | none => ((w.runAgain x).note (.wrote (Json.objectOpt [("command", some (.string kind)),
            ("arguments", some (Act.stepArguments t extra))]))).done (.ok .none)
      else (w.log (.debug s!"Ignoring {kind} while {(w.execAt x).current.kind}" none)).done (.ok .none) := by
  have hr' : (w.runAgain x).Recording x := by simpa [World.Recording] using hr
  simp only [step, World.exec_discard, Act.execStep_run]
  cases Act.liveFault (w.execAt x).current kind with
  | some f => rfl
  | none =>
    by_cases hs : (w.execAt x).current.isStopped = true
    · simp only [hs, if_true]
      rw [Act.execSend_recording _ x hr', World.sink_runAgain]
      cases Act.writeFault (w.execAt x).sink <;> rfl
    · simp only [hs, if_false, Bool.false_eq_true]
      rfl

theorem step_pause (hr : w.Recording x) (t : Option Json) : step x w (.pause t) =
    match Act.liveFault (w.execAt x).current "pause" with
    | some f => w.done (.error f)
    | none =>
      if (w.execAt x).current.isStopped then w.done (.ok (.json (.bool false)))
      else
        match Act.writeFault (w.execAt x).sink with
        | some f => w.done (.error f)
        | none => (w.note (.wrote (Json.objectOpt [("command", some (.string "pause")),
            ("arguments", some (Json.objectOpt [("threadId", t)]))]))).done (.ok (.json (.bool true))) := by
  simp only [step, World.exec_discard, Act.execPause_run]
  cases Act.liveFault (w.execAt x).current "pause" with
  | some f => rfl
  | none =>
    by_cases hs : (w.execAt x).current.isStopped = true
    · simp only [hs, if_true]
      rfl
    · simp only [hs, if_false, Bool.false_eq_true]
      rw [Act.execSend_recording _ x hr]
      cases Act.writeFault (w.execAt x).sink <;> rfl

theorem step_request (hx : x < w.execs.size) (hr : w.Recording x) (command : String)
    (args timeout : Option Json) : step x w (.request command args timeout) =
    match Act.liveFault (w.execAt x).current command with
    | some f => w.done (.error f)
    | none =>
      match (w.execAt x).sink with
      | none => w.done (.error Act.noSinkFault)
      | some (.recorder (some _)) => w.requestRefused x command
      -- the sink is a recorder that keeps what it is given
      | some _ => w.requestWritten x command args timeout := by
  simp only [step, World.exec_discard]
  cases hl : Act.liveFault (w.execAt x).current command with
  | some f =>
    rw [Act.execRequest_guarded w x hl]
    exact congrArg w.setLoop (Loop.fresh_settle _ _)
  | none =>
    cases hs : (w.execAt x).sink with
    | none =>
      rw [Act.execRequest_unsinked w x hl hs]
      exact congrArg w.setLoop (Loop.fresh_settle _ _)
    | some s =>
      obtain ⟨r, rfl⟩ := hr s hs
      cases r with
      | none => rw [Act.execRequest_written w x hl hs]
      | some r => rw [Act.execRequest_refused w x hx hl hs]

theorem step_reply (m : Json) : step x w (.reply m) =
    match Act.replyId m with
    | none => w
    | some n =>
      match (w.execAt x).book.entries.find? (·.id == n) with
      | none => w
      | some e => (w.dropEntry x n).settleEntry e (.ok m) := by
  simp only [step, World.exec_discard, Act.resolveReply_run]
  cases Act.replyId m with
  | none => rfl
  | some n =>
    simp only [Act.resolvePending_run]
    cases (w.execAt x).book.entries.find? (·.id == n) <;> rfl

theorem step_stopped (ho : (w.execAt x).owner = .observer) (reason threadId description : Option Json) :
    step x w (.stopped reason threadId description) =
    if (w.execAt x).current.isTerminated || (w.execAt x).current.isNotStarted then
      w.log (.debug s!"Ignoring stopped event while {(w.execAt x).current.kind}" none)
    else w.acceptStop x (Act.stopOf reason threadId description) ((threadId.filter (!·.isNull)).getD (.num 1)) := by
  simp only [step, World.exec_discard, Act.handleStopped_run w x ho]
  by_cases h : ((w.execAt x).current.isTerminated || (w.execAt x).current.isNotStarted) = true
  · simp only [h, if_true]
  · simp only [h, if_false, Bool.false_eq_true]

theorem step_waitForStop (timeout : Option Json) : step x w (.waitForStop timeout) =
    match (w.execAt x).current with
    | .terminated => w.done (.error Act.terminatedWaitFault)
    | s@(.stopped ..) => w.done (.ok (.json s.toJson))
    | _ => w.stopWait x timeout := by
  simp only [step, World.exec_discard, Act.waitForStop_run]
  cases (w.execAt x).current <;> rfl

theorem step_terminate (ho : (w.execAt x).owner = .observer) : step x w .terminate = w.terminate x := by
  simp only [step, World.exec_discard, Act.markTerminated_run w x ho]

theorem step_shutdown (ho : (w.execAt x).owner = .observer) (f : Fault) : step x w (.shutdown f) =
    let w' := (w.terminate x).withExec x fun e => { e with sink := none }
    (w'.execAt x).book.entries.foldl (fun w e => w.settleEntry e (.error f))
      (w'.withExec x fun e => { e with book := { e.book with entries := [] } }) := by
  simp only [step, World.exec_discard, Act.execShutdown_run w x ho]

theorem step_expire_none {id : Nat} (hf : w.loop.timers.find? (·.id == id) = none) : step x w (.expire id) = w := by
  simp [step, World.fire, hf]

theorem step_expire_slot {id : Nat} {t : Timer Turn} (hf : w.loop.timers.find? (·.id == id) = some t)
    {s p : Nat} {label : String} {ms : Json} (ht : t.task = .slotTimeout s p label ms) :
    step x w (.expire id) = w.expire s p id label ms :=
  Settlement.fire_slotTimeout w hf ht

theorem step_expire_stop {id : Nat} {t : Timer Turn} (hf : w.loop.timers.find? (·.id == id) = some t)
    {y p : Nat} {ms : Json} (ht : t.task = .stopTimeout y p ms) :
    step x w (.expire id) = (w.setLoop (w.loop.cancel id)).stopExpired y p ms := by
  simp only [step, World.fire, hf, ht, Act.runTurn]
  exact World.exec_of_run _ (Act.stopTimedOut_run _ y p ms)

theorem step_turn_idle (h : w.loop.turns = []) : step x w .turn = w := by
  simp [step, World.nextTurn, Loop.takeTurn?, h]

theorem step_turn {i : Nat} {ts : List Turn} (h : w.loop.turns = .drain i :: ts)
    (hq : ∀ e ∈ (w.inboxAt i).queue, ∃ s o, e = .settleSlot s o) (hc : (w.inboxAt i).closed = false) :
    step x w .turn = (w.setLoop { w.loop with turns := ts }).drained i :=
  Settlement.nextTurn_drain w h hq (.inl hc)

theorem step_job_idle (hk : w.loop.ticks = []) (hj : w.loop.jobs = []) : step x w .job = w := by
  simp [step, World.nextJob, Loop.takeJob?, hk, hj]

theorem step_job (hk : w.loop.ticks = []) {p : Nat} {c : String} {o : Outcome} {js : List (Job Outcome Cont)}
    (hj : w.loop.jobs = .react (.resume (.replied p c)) o :: js) :
    step x w .job = w.setLoop ({ w.loop with jobs := js }.settle p (Act.repliedOutcome c o)) := by
  simp only [step, World.nextJob, Loop.takeJob?, hk, hj, Act.runJob, Act.resume]
  exact World.exec_of_run _ (Act.replied_run _ p c o)

/-! ## What holds between events -/

/-- Promise `p` is held by a waiter on some slot. -/
def SlotHeld (w : World) (p : Nat) : Prop := ∃ s, ∃ wt ∈ (w.slotAt s).waiters, wt.promise = p

/-- The machine's record, its book and its context. -/
structure Record (x : Nat) (w : World) : Prop where
  machine : x < w.execs.size
  observed : (w.execAt x).owner = .observer
  recording : w.Recording x
  /-- The observer is told of termination exactly when the machine has terminated. -/
  notified : (w.execAt x).terminatedNotified = (w.execAt x).current.isTerminated
  entries : ∀ c ∈ (w.execAt x).book.entries,
    c.owner = (w.execAt x).inbox ∧ c.slot < w.slots.size
  context : (w.execAt x).inbox < w.inboxes.size
  opened : (w.inboxAt (w.execAt x).inbox).closed = false
  errands : ∀ e ∈ (w.inboxAt (w.execAt x).inbox).queue, ∃ s o, e = .settleSlot s o ∧ s < w.slots.size
  scheduled : (w.inboxAt (w.execAt x).inbox).queue ≠ [] → (w.inboxAt (w.execAt x).inbox).scheduled = true
  /-- The loop's only turn is the drain of the machine's context, queued when it is asked for. -/
  turns : w.loop.turns =
    if (w.inboxAt (w.execAt x).inbox).scheduled then [.drain (w.execAt x).inbox] else []

/-- The promises someone waits on: each waiter holds a pending promise of its own, a promise a
reply is for is no waiter's, and every timer is the deadline of a waiter that still waits. -/
structure Waiters (x : Nat) (w : World) : Prop where
  replies : w.loop.Replies
  slotWaiters : ∀ s, ∀ wt ∈ (w.slotAt s).waiters, (w.slotAt s).state = .pending ∧
    w.loop.outcome? wt.promise = none ∧ wt.promise < w.loop.cells.size
  apart : ∀ s s' wt wt', wt ∈ (w.slotAt s).waiters → wt' ∈ (w.slotAt s').waiters →
    wt.promise = wt'.promise → s = s' ∧ wt = wt'
  free : ∀ p, w.loop.Targets p → ¬SlotHeld w p
  stopWaiters : ∀ wt ∈ (w.execAt x).stopWaiters, w.loop.outcome? wt.promise = none ∧
    wt.promise < w.loop.cells.size ∧ ¬SlotHeld w wt.promise ∧ ¬w.loop.Targets wt.promise
  stopApart : ((w.execAt x).stopWaiters.map (·.promise)).Nodup
  timers : ∀ t ∈ w.loop.timers, t.id < w.loop.nextTimer ∧
    ((∃ s q label ms, t.task = .slotTimeout s q label ms ∧ (⟨q, some t.id⟩ : Waiter) ∈ (w.slotAt s).waiters) ∨
     (∃ q ms, t.task = .stopTimeout x q ms ∧ (⟨q, some t.id⟩ : Waiter) ∈ (w.execAt x).stopWaiters))
  /-- Every deadline a waiter holds was made already: its id is below the next timer's. -/
  stamps : (∀ s, ∀ wt ∈ (w.slotAt s).waiters, ∀ id, wt.timer = some id → id < w.loop.nextTimer) ∧
    ∀ wt ∈ (w.execAt x).stopWaiters, ∀ id, wt.timer = some id → id < w.loop.nextTimer

/-- What holds of a run/stop machine on its bench between events. -/
structure Shape (x : Nat) (w : World) : Prop extends Record x w, Waiters x w

section Frames

variable {x : Nat} {w w' : World}

/-- The book facts of `w`'s machine hold of a record with the same book and context, in a world
with at least as many slots. -/
theorem Record.entries_of_book (h : Record x w) {e : Execution} (hb : e.book = (w.execAt x).book)
    (hi : e.inbox = (w.execAt x).inbox) (hs : w.slots.size ≤ w'.slots.size) :
    ∀ c ∈ e.book.entries, c.owner = e.inbox ∧ c.slot < w'.slots.size := by
  intro c hc
  rw [hb] at hc
  rw [hi]
  obtain ⟨h2, h3⟩ := h.entries c hc
  exact ⟨h2, by omega⟩

/-- A world whose machine record keeps the owner and context of `w`'s, with a sound book, a
recorder sink and a notice of termination in step with the state, and whose context and turns
are `w`'s, keeps the record's facts. -/
theorem Record.of_exec (h : Record x w) {e : Execution} (hx : x < w'.execs.size) (he : w'.execAt x = e)
    (ho : e.owner = (w.execAt x).owner) (hi : e.inbox = (w.execAt x).inbox)
    (hentries : ∀ c ∈ e.book.entries, c.owner = e.inbox ∧ c.slot < w'.slots.size)
    (hsink : ∀ s, e.sink = some s → ∃ r, s = .recorder r) (hnot : e.terminatedNotified = e.current.isTerminated)
    (hbox : w'.inboxAt (w.execAt x).inbox = w.inboxAt (w.execAt x).inbox) (ht : w'.loop.turns = w.loop.turns)
    (hs : w.slots.size ≤ w'.slots.size) (hn : w.inboxes.size ≤ w'.inboxes.size) : Record x w' where
  machine := hx
  observed := by rw [he, ho]; exact h.observed
  recording := fun s hs' => hsink s (he ▸ hs')
  notified := by rw [he]; exact hnot
  entries := by rw [he]; exact hentries
  context := by rw [he, hi]; exact Nat.lt_of_lt_of_le h.context hn
  opened := by rw [he, hi, hbox]; exact h.opened
  errands := fun e' he' => by
    rw [he, hi, hbox] at he'
    obtain ⟨s, o, rfl, hs'⟩ := h.errands e' he'
    exact ⟨s, o, rfl, by omega⟩
  scheduled := by rw [he, hi, hbox]; exact h.scheduled
  turns := by rw [he, hi, hbox, ht]; exact h.turns

theorem Record.of_eq (h : Record x w) (hx : x < w'.execs.size) (he : w'.execAt x = w.execAt x)
    (hi : w'.inboxAt (w.execAt x).inbox = w.inboxAt (w.execAt x).inbox) (ht : w'.loop.turns = w.loop.turns)
    (hs : w.slots.size ≤ w'.slots.size) (hn : w.inboxes.size ≤ w'.inboxes.size) : Record x w' :=
  h.of_exec hx he rfl rfl (h.entries_of_book rfl rfl hs) h.recording h.notified hi ht hs hn

/-- The waiters look at each slot's waiters, and at a slot's state only where someone waits. -/
theorem Waiters.of_slots (h : Waiters x w) (hwait : ∀ j, (w'.slotAt j).waiters = (w.slotAt j).waiters)
    (hstate : ∀ j, (w.slotAt j).waiters ≠ [] → (w'.slotAt j).state = (w.slotAt j).state) (hl : w'.loop = w.loop)
    (hw : (w'.execAt x).stopWaiters = (w.execAt x).stopWaiters) : Waiters x w' := by
  have hheld : ∀ p, SlotHeld w' p ↔ SlotHeld w p := fun p => by simp only [SlotHeld, hwait]
  refine ⟨hl ▸ h.replies, ?_, ?_, ?_, ?_, ?_, ?_, ?_⟩
  · intro s wt hwt
    rw [hwait] at hwt
    rw [hstate s (List.ne_nil_of_mem hwt), hl]
    exact h.slotWaiters s wt hwt
  · intro s s' wt wt' hw₁ hw₂
    rw [hwait] at hw₁ hw₂
    exact h.apart s s' wt wt' hw₁ hw₂
  · intro p hp
    rw [hheld]
    exact h.free p (hl ▸ hp)
  · intro wt hwt
    rw [hw] at hwt
    rw [hheld, hl]
    exact h.stopWaiters wt hwt
  · rw [hw]; exact h.stopApart
  · intro t ht
    rw [hl] at ht ⊢
    simpa [hwait, hw] using h.timers t ht
  · rw [hl, hw]
    exact ⟨fun s wt hwt => h.stamps.1 s wt (by simpa only [hwait] using hwt), h.stamps.2⟩

theorem Waiters.of_eq (h : Waiters x w) (hs : w'.slots = w.slots) (hl : w'.loop = w.loop)
    (hw : (w'.execAt x).stopWaiters = (w.execAt x).stopWaiters) : Waiters x w' :=
  h.of_slots (fun j => by rw [World.slotAt_slots j hs]) (fun j _ => by rw [World.slotAt_slots j hs]) hl hw

/-- An effect seen only in the trace keeps the shape. -/
theorem Shape.of_trace (h : Shape x w) (hx : w'.execs = w.execs) (hi : w'.inboxes = w.inboxes)
    (hs : w'.slots = w.slots) (hl : w'.loop = w.loop) : Shape x w' :=
  have he : w'.execAt x = w.execAt x := World.execAt_execs x hx
  { toRecord := h.toRecord.of_eq (hx ▸ h.machine) he (World.inboxAt_inboxes _ hi) (by rw [hl]) (Nat.le_of_eq (by rw [hs]))
      (Nat.le_of_eq (by rw [hi]))
    toWaiters := h.toWaiters.of_eq hs hl (by rw [he]) }

theorem Shape.note (h : Shape x w) (n : Note) : Shape x (w.note n) := h.of_trace rfl rfl rfl rfl

theorem Shape.log (h : Shape x w) (d : Diagnostic) : Shape x (w.log d) :=
  h.of_trace (by simp) (by simp) (by simp) (by simp)

/-- Promises that exist are no fresh promise's: every target and every waiter's promise is
below the loop's size. -/
theorem Waiters.lt_of_targets (h : Waiters x w) {p : Nat} (hp : w.loop.Targets p) : p < w.loop.cells.size := by
  rcases hp with ⟨c, o, hj⟩ | ⟨q, rs, c, hq, hr⟩
  · obtain ⟨p', c', o', he, hp'⟩ := h.replies.jobs _ hj
    cases he
    exact hp'
  · obtain ⟨p', c', he, hp'⟩ := h.replies.reactions q rs hq _ hr
    cases he
    exact hp'

theorem Waiters.lt_of_slotHeld (h : Waiters x w) {p : Nat} (hp : SlotHeld w p) : p < w.loop.cells.size := by
  obtain ⟨s, wt, hwt, rfl⟩ := hp
  exact (h.slotWaiters s wt hwt).2.2

/-- A change of the loop that keeps every outcome there was, adds no target and keeps the
timers keeps the waiters. -/
theorem Waiters.of_loop (h : Waiters x w) {L : Loop Outcome Cont Turn} (hr : L.Replies)
    (hout : ∀ q < w.loop.cells.size, L.outcome? q = w.loop.outcome? q) (hsize : w.loop.cells.size ≤ L.cells.size)
    (htargets : ∀ p, L.Targets p → w.loop.Targets p) (htimers : L.timers = w.loop.timers)
    (hnext : L.nextTimer = w.loop.nextTimer) : Waiters x (w.setLoop L) := by
  refine ⟨hr, ?_, h.apart, ?_, ?_, h.stopApart, ?_, ?_⟩
  · intro s wt hwt
    obtain ⟨h1, h2, h3⟩ := h.slotWaiters s wt (by simpa using hwt)
    refine ⟨by simpa using h1, ?_, by simp; omega⟩
    simpa [hout _ h3] using h2
  · intro p hp
    simpa [SlotHeld] using h.free p (htargets p (by simpa using hp))
  · intro wt hwt
    obtain ⟨h1, h2, h3, h4⟩ := h.stopWaiters wt (by simpa using hwt)
    exact ⟨by simpa [hout _ h2] using h1, by simp; omega, by simpa [SlotHeld] using h3,
      fun ht => h4 (htargets _ (by simpa using ht))⟩
  · intro t ht
    simpa [htimers, hnext] using h.timers t (by simpa [htimers] using ht)
  · simpa [hnext] using h.stamps

theorem Shape.done (h : Shape x w) (o : Outcome) : Shape x (w.done o) where
  toRecord := h.toRecord.of_eq h.machine rfl rfl rfl (Nat.le_refl _) (Nat.le_refl _)
  toWaiters := h.toWaiters.of_loop (h.replies.done o) (fun q hq => by simp [Nat.ne_of_lt hq])
    (by simp) (fun p hp => (Loop.targets_done o p).1 hp) rfl rfl

/-- A new pending promise that nothing waits on yet. -/
theorem Shape.fresh (h : Shape x w) : Shape x (w.setLoop w.loop.fresh.2) where
  toRecord := h.toRecord.of_eq h.machine rfl rfl rfl (Nat.le_refl _) (Nat.le_refl _)
  toWaiters := h.toWaiters.of_loop h.replies.fresh (fun q _ => by simp) (by simp)
    (fun p hp => (Loop.targets_fresh p).1 hp) rfl rfl

/-- A change of the machine's record that keeps its owner and context and a sound book, and
keeps the sink a recorder and the notice of termination in step with the state. -/
theorem Record.withExec (h : Record x w) (f : Execution → Execution)
    (ho : (f (w.execAt x)).owner = (w.execAt x).owner) (hi : (f (w.execAt x)).inbox = (w.execAt x).inbox)
    (hentries : ∀ c ∈ (f (w.execAt x)).book.entries,
      c.owner = (f (w.execAt x)).inbox ∧ c.slot < w.slots.size)
    (hsink : ∀ s, (f (w.execAt x)).sink = some s → ∃ r, s = .recorder r)
    (hnot : (f (w.execAt x)).terminatedNotified = (f (w.execAt x)).current.isTerminated) :
    Record x (w.withExec x f) :=
  h.of_exec (by simpa using h.machine) (by simp [h.machine]) ho hi hentries hsink hnot rfl rfl
    (by simp) (Nat.le_refl _)

/-- A change of the machine's record that also keeps its stop waiters. -/
theorem Shape.withExec (h : Shape x w) (f : Execution → Execution)
    (ho : (f (w.execAt x)).owner = (w.execAt x).owner) (hi : (f (w.execAt x)).inbox = (w.execAt x).inbox)
    (hw : (f (w.execAt x)).stopWaiters = (w.execAt x).stopWaiters)
    (hentries : ∀ c ∈ (f (w.execAt x)).book.entries,
      c.owner = (f (w.execAt x)).inbox ∧ c.slot < w.slots.size)
    (hsink : ∀ s, (f (w.execAt x)).sink = some s → ∃ r, s = .recorder r)
    (hnot : (f (w.execAt x)).terminatedNotified = (f (w.execAt x)).current.isTerminated) :
    Shape x (w.withExec x f) where
  toRecord := h.toRecord.withExec f ho hi hentries hsink hnot
  toWaiters := h.toWaiters.of_eq rfl rfl (by simp [h.machine, hw])

/-! ### Stop waiters -/

/-- Every stop waiter hears the outcome and leaves, its deadline with it, while the machine's
record changes in a way that keeps its owner, book and context. -/
theorem Shape.releaseStops (h : Shape x w) (o : Outcome) (hx : x < w'.execs.size)
    (ho : (w'.execAt x).owner = (w.execAt x).owner) (hb : (w'.execAt x).book = (w.execAt x).book)
    (hi : (w'.execAt x).inbox = (w.execAt x).inbox) (hw : (w'.execAt x).stopWaiters = [])
    (hsink : ∀ s, (w'.execAt x).sink = some s → ∃ r, s = .recorder r)
    (hnot : (w'.execAt x).terminatedNotified = (w'.execAt x).current.isTerminated)
    (hbox : w'.inboxAt (w.execAt x).inbox = w.inboxAt (w.execAt x).inbox) (hs : w'.slots = w.slots)
    (hl : w'.loop = w.loop.release (w.execAt x).stopWaiters o) (hn : w.inboxes.size ≤ w'.inboxes.size) :
    Shape x w' := by
  have hslot : ∀ j, w'.slotAt j = w.slotAt j := fun j => World.slotAt_slots j hs
  -- no slot waiter holds a stop waiter's promise
  have hheld : ∀ s, ∀ wt ∈ (w.slotAt s).waiters, ∀ wt' ∈ (w.execAt x).stopWaiters, wt'.promise ≠ wt.promise :=
    fun s wt hwt wt' hwt' he' => (h.stopWaiters wt' hwt').2.2.1 ⟨s, wt, hwt, he'.symm⟩
  refine ⟨h.toRecord.of_exec hx rfl ho hi (h.entries_of_book hb hi (Nat.le_of_eq (by rw [hs]))) hsink hnot hbox
      (by rw [hl, Loop.release_turns])
      (Nat.le_of_eq (by rw [hs])) hn,
    ⟨hl ▸ h.replies.release _ o, ?_, ?_, ?_, ?_, ?_, ?_, ?_⟩⟩
  · intro s wt hwt
    rw [hslot] at hwt ⊢
    obtain ⟨h1, h2, h3⟩ := h.slotWaiters s wt hwt
    refine ⟨h1, ?_, by rw [hl, Loop.release_cells_size]; exact h3⟩
    rw [hl, Loop.outcome?_release_of_not_mem _ _ _ (hheld s wt hwt)]
    exact h2
  · intro s s' wt wt' hw₁ hw₂
    rw [hslot] at hw₁ hw₂
    exact h.apart s s' wt wt' hw₁ hw₂
  · intro p hp
    rw [hl] at hp
    simpa [SlotHeld, hslot] using h.free p hp.of_release
  · intro wt hwt
    rw [hw] at hwt
    cases hwt
  · rw [hw]
    exact List.nodup_nil
  · intro t ht
    rw [hl, Loop.mem_release_timers] at ht
    rw [hl, Loop.release_nextTimer]
    obtain ⟨hid, hslot' | ⟨q, ms, htask, hq⟩⟩ := h.timers t ht.1
    · exact ⟨hid, .inl (by simpa [hslot] using hslot')⟩
    · exact absurd rfl (ht.2 _ hq)
  · refine ⟨fun s wt hwt => ?_, fun wt hwt => by rw [hw] at hwt; cases hwt⟩
    rw [hl, Loop.release_nextTimer]
    exact h.stamps.1 s wt (by rwa [hslot] at hwt)

/-- An accepted stop: the machine is stopped, and every stop waiter hears the stop. -/
theorem Shape.acceptStop (h : Shape x w) (hlive : (w.execAt x).current.isTerminated = false)
    {s : ExecState} (hs : s.isTerminated = false) (threadId : Json) : Shape x (w.acceptStop x s threadId) := by
  unfold World.acceptStop
  refine Shape.note ?_ _
  refine h.releaseStops (.ok (.json s.toJson)) (by simpa using h.machine) (by simp [h.machine])
    (by simp [h.machine]) (by simp [h.machine]) (by simp [h.machine]) ?_ ?_ rfl rfl rfl (Nat.le_refl _)
  · intro r hr
    exact h.recording r (by simpa [h.machine] using hr)
  · simpa [h.machine, hs, hlive] using h.notified
/-- Termination: every stop waiter fails, and the notice goes out the first time. -/
theorem Shape.terminate (h : Shape x w) : Shape x (w.terminate x) := by
  unfold World.terminate
  split
  · rename_i hn
    refine h.releaseStops (.error Act.stopTerminatedFault) (by simpa using h.machine) (by simp [h.machine])
      (by simp [h.machine]) (by simp [h.machine]) (by simp [h.machine]) ?_ ?_ rfl rfl rfl (Nat.le_refl _)
    · intro r hr
      exact h.recording r (by simpa [h.machine] using hr)
    · simp [h.machine, hn, ExecState.isTerminated]
  · refine Shape.note ?_ _
    refine h.releaseStops (.error Act.stopTerminatedFault) (by simpa using h.machine) (by simp [h.machine])
      (by simp [h.machine]) (by simp [h.machine]) (by simp [h.machine]) ?_ ?_ rfl rfl rfl (Nat.le_refl _)
    · intro r hr
      exact h.recording r (by simpa [h.machine] using hr)
    · simp [h.machine, ExecState.isTerminated]

/-- A new stop waiter, holding the next promise and perhaps a new timer of its own. -/
theorem Shape.addStopWaiter (h : Shape x w) {L : Loop Outcome Cont Turn} {tm : Option Nat} (hr : L.Replies)
    (hout : ∀ q, L.outcome? q = w.loop.outcome? q) (hsize : L.cells.size = w.loop.cells.size + 1)
    (htargets : ∀ p, L.Targets p → w.loop.Targets p) (hturns : L.turns = w.loop.turns)
    (hnext : w.loop.nextTimer ≤ L.nextTimer)
    (htimers : ∀ t ∈ L.timers, t ∈ w.loop.timers ∨
      (tm = some t.id ∧ t.id < L.nextTimer ∧ ∃ ms, t.task = .stopTimeout x w.loop.cells.size ms))
    (htm : ∀ id, tm = some id → id < L.nextTimer) :
    Shape x ((w.setLoop L).withExec x fun e => { e with stopWaiters := e.stopWaiters ++ [⟨w.loop.cells.size, tm⟩] }) := by
  let w₁ := (w.setLoop L).withExec x fun e => { e with stopWaiters := e.stopWaiters ++ [⟨w.loop.cells.size, tm⟩] }
  have he : w₁.execAt x = { w.execAt x with stopWaiters := (w.execAt x).stopWaiters ++ [⟨w.loop.cells.size, tm⟩] } := by
    simp [w₁, h.machine]
  have hheld : ∀ p, SlotHeld w₁ p ↔ SlotHeld w p := fun p => by simp [SlotHeld, w₁]
  have hnew : ¬SlotHeld w w.loop.cells.size ∧ ¬w.loop.Targets w.loop.cells.size :=
    ⟨fun hp => Nat.lt_irrefl _ (h.lt_of_slotHeld hp), fun hp => Nat.lt_irrefl _ (h.lt_of_targets hp)⟩
  have hR : Record x (w.setLoop L) := h.toRecord.of_eq h.machine rfl rfl hturns (Nat.le_refl _) (Nat.le_refl _)
  refine ⟨hR.withExec _ rfl rfl (h.entries_of_book rfl rfl (Nat.le_refl _)) (fun s hs => h.recording s (by simpa using hs))
      (by simpa using h.notified),
    ⟨by simpa [w₁] using hr, ?_, ?_, ?_, ?_, ?_, ?_, ?_⟩⟩
  · intro s wt hwt
    simp only [World.slotAt_withExec, World.slotAt_setLoop] at hwt ⊢
    obtain ⟨h1, h2, h3⟩ := h.slotWaiters s wt hwt
    exact ⟨h1, by simpa [hout] using h2, by simp [hsize]; omega⟩
  · intro s s' wt wt' hw₁ hw₂
    exact h.apart s s' wt wt' (by simpa [w₁] using hw₁) (by simpa [w₁] using hw₂)
  · intro p hp
    rw [hheld]
    exact h.free p (htargets p (by simpa [w₁] using hp))
  · intro wt hwt
    rw [he] at hwt
    rw [hheld]
    rcases List.mem_append.1 hwt with hwt | hwt
    · obtain ⟨h1, h2, h3, h4⟩ := h.stopWaiters wt hwt
      exact ⟨by simpa [w₁, hout] using h1, by simp [hsize]; omega, h3,
        fun ht => h4 (htargets _ (by simpa [w₁] using ht))⟩
    · rw [List.mem_singleton.1 hwt]
      refine ⟨by simp [hout, Loop.outcome?_of_size_le], by simp [hsize], hnew.1,
        fun ht => hnew.2 (htargets _ (by simpa [w₁] using ht))⟩
  · rw [he]
    simp only [List.map_append, List.map_cons, List.map_nil]
    refine List.nodup_append.2 ⟨h.stopApart, List.nodup_cons.2 ⟨List.not_mem_nil, List.nodup_nil⟩, ?_⟩
    intro a ha b hb
    obtain ⟨wt, hwt, rfl⟩ := List.mem_map.1 ha
    rw [List.mem_singleton.1 hb]
    exact Nat.ne_of_lt (h.stopWaiters wt hwt).2.1
  · intro t ht
    rw [he]
    simp only [World.withExec_loop, World.setLoop_loop] at ht ⊢
    rcases htimers t ht with ht | ⟨htm, hid, ms, htask⟩
    · obtain ⟨hid, hslot | ⟨q, ms, htask, hq⟩⟩ := h.timers t ht
      · exact ⟨by omega, .inl (by simpa using hslot)⟩
      · exact ⟨by omega, .inr ⟨q, ms, htask, List.mem_append_left _ hq⟩⟩
    · exact ⟨hid, .inr ⟨_, ms, htask, by rw [← htm]; simp⟩⟩
  · refine ⟨fun s wt hwt id hid => ?_, fun wt hwt id hid => ?_⟩
    · simp only [World.slotAt_withExec, World.slotAt_setLoop, World.withExec_loop, World.setLoop_loop] at hwt ⊢
      exact Nat.lt_of_lt_of_le (h.stamps.1 s wt hwt id hid) hnext
    · rw [he] at hwt
      simp only [World.withExec_loop, World.setLoop_loop]
      rcases List.mem_append.1 hwt with hwt | hwt
      · exact Nat.lt_of_lt_of_le (h.stamps.2 wt hwt id hid) hnext
      · rw [List.mem_singleton.1 hwt] at hid
        exact htm id hid

theorem Shape.stopWait (h : Shape x w) (timeout : Option Json) : Shape x (w.stopWait x timeout) := by
  cases timeout with
  | none =>
    exact h.addStopWaiter h.replies.fresh (by simp) (by simp) (fun p hp => (Loop.targets_fresh p).1 hp) rfl
      (Nat.le_refl _) (fun t ht => .inl ht) (fun _ hid => by cases hid)
  | some ms =>
    refine h.addStopWaiter (h.replies.fresh.of_eq rfl rfl rfl) (by simp) (by simp [Loop.after])
      (fun p hp => (Loop.targets_fresh p).1 hp) rfl (by simp [Loop.after, Loop.fresh]) (fun t ht => ?_)
      (fun id hid => by cases hid; simp [Loop.after, Loop.fresh])
    simp only [Loop.after, Loop.fresh, List.mem_append, List.mem_singleton] at ht
    rcases ht with ht | rfl
    · exact .inl ht
    · exact .inr ⟨rfl, by simp [Loop.after, Loop.fresh], ms, rfl⟩

/-- Two stop waiters holding one promise are one waiter. -/
theorem Shape.stop_eq (h : Shape x w) {wt wt' : Waiter} (hw : wt ∈ (w.execAt x).stopWaiters)
    (hw' : wt' ∈ (w.execAt x).stopWaiters) (he : wt.promise = wt'.promise) : wt = wt' :=
  List.inj_on_of_nodup_map h.stopApart hw hw' he

/-- A stop wait's deadline runs out: its waiter leaves with the fault, and its timer is gone. -/
theorem Shape.stopExpired (h : Shape x w) {t : Timer Turn} (ht : t ∈ w.loop.timers) {p : Nat} {ms : Json}
    (htask : t.task = .stopTimeout x p ms) : Shape x ((w.setLoop (w.loop.cancel t.id)).stopExpired x p ms) := by
  have hown : (⟨p, some t.id⟩ : Waiter) ∈ (w.execAt x).stopWaiters := by
    obtain ⟨-, ⟨s, q, label, ms', htask', -⟩ | ⟨q, ms', htask', hq⟩⟩ := h.timers t ht
    · rw [htask] at htask'
      cases htask'
    · rw [htask] at htask'
      cases htask'
      exact hq
  have hp := h.stopWaiters _ hown
  let C := w.loop.cancel t.id
  let F : Execution → Execution := fun e => { e with stopWaiters := e.stopWaiters.filter (·.promise != p) }
  let w₁ := ((w.setLoop C).withExec x F).setLoop (C.settle p (.error (Act.noStopFault ms)))
  show Shape x w₁
  have he : w₁.execAt x = F (w.execAt x) := by simp [w₁, h.machine]
  have hl : w₁.loop = C.settle p (.error (Act.noStopFault ms)) := rfl
  have hslot : ∀ j, w₁.slotAt j = w.slotAt j := fun j => rfl
  have hout : ∀ q ≠ p, w₁.loop.outcome? q = w.loop.outcome? q := fun q hq => by
    rw [hl, Loop.outcome?_settle_of_ne _ _ hq]
    rfl
  have htargets : ∀ q, w₁.loop.Targets q → w.loop.Targets q := fun q hq => by
    rw [hl] at hq
    have hC : C.Targets q := hq.of_settle
    exact (Loop.targets_of_eq rfl rfl q).1 hC
  have hC : Record x (w.setLoop C) := h.toRecord.of_eq h.machine rfl rfl rfl (Nat.le_refl _) (Nat.le_refl _)
  have hR : Record x ((w.setLoop C).withExec x F) :=
    hC.withExec F rfl rfl (h.entries_of_book rfl rfl (Nat.le_refl _)) (fun s hs => h.recording s (by simpa using hs))
      (by simpa using h.notified)
  refine ⟨hR.of_eq (by simpa [w₁] using h.machine) rfl rfl (by rw [hl]; simp [C, Loop.cancel]) (Nat.le_refl _)
      (Nat.le_refl _),
    ⟨hl ▸ (h.replies.cancel _).settle _ _, ?_, ?_, ?_, ?_, ?_, ?_, ?_⟩⟩
  · intro s wt hwt
    rw [hslot] at hwt ⊢
    obtain ⟨h1, h2, h3⟩ := h.slotWaiters s wt hwt
    have hne : wt.promise ≠ p := fun e => hp.2.2.1 ⟨s, wt, hwt, e⟩
    refine ⟨h1, by rw [hout _ hne]; exact h2, ?_⟩
    rw [hl, Loop.settle_cells_size]
    exact h3
  · intro s s' wt wt' hw₁ hw₂
    rw [hslot] at hw₁ hw₂
    exact h.apart s s' wt wt' hw₁ hw₂
  · intro q hq
    have := h.free q (htargets q hq)
    simpa [SlotHeld, hslot] using this
  · intro wt hwt
    rw [he] at hwt
    obtain ⟨hwt, hne⟩ := List.mem_filter.1 hwt
    have hne : wt.promise ≠ p := by simpa using hne
    obtain ⟨h1, h2, h3, h4⟩ := h.stopWaiters wt hwt
    refine ⟨by rw [hout _ hne]; exact h1, by rw [hl, Loop.settle_cells_size]; exact h2,
      by simpa [SlotHeld, hslot] using h3, fun hq => h4 (htargets _ hq)⟩
  · rw [he]
    exact h.stopApart.sublist ((List.filter_sublist).map _)
  · intro t' ht'
    rw [hl, Loop.settle_timers] at ht'
    rw [hl, Loop.settle_nextTimer, he]
    simp only [C, Loop.cancel, List.mem_filter, bne_iff_ne, ne_eq] at ht' ⊢
    obtain ⟨hid, hslot' | ⟨q, ms', htask', hq⟩⟩ := h.timers t' ht'.1
    · exact ⟨hid, .inl (by simpa [hslot] using hslot')⟩
    · refine ⟨hid, .inr ⟨q, ms', htask', List.mem_filter.2 ⟨hq, ?_⟩⟩⟩
      simp only [bne_iff_ne, ne_eq]
      rintro rfl
      have := h.stop_eq hq hown rfl
      simp only [Waiter.mk.injEq, Option.some.injEq, true_and] at this
      exact ht'.2 this
  · rw [hl, Loop.settle_nextTimer, he]
    exact ⟨fun s wt hwt => h.stamps.1 s wt (by rwa [hslot] at hwt),
      fun wt hwt => h.stamps.2 wt (List.mem_filter.1 hwt).1⟩

/-! ### Slot waiters -/

theorem lt_of_mem_waiters {s : Nat} {wt : Waiter} (h : wt ∈ (w.slotAt s).waiters) : s < w.slots.size :=
  Settlement.lt_of_mem_waiters h

/-- A slot's deadline runs out: its waiter leaves with the timeout, and its timer is gone. -/
theorem Shape.expire (h : Shape x w) {t : Timer Turn} (ht : t ∈ w.loop.timers) {s q : Nat} {label : String}
    {ms : Json} (htask : t.task = .slotTimeout s q label ms) : Shape x (w.expire s q t.id label ms) := by
  have hown : (⟨q, some t.id⟩ : Waiter) ∈ (w.slotAt s).waiters := by
    obtain ⟨-, ⟨s', q', label', ms', htask', hq⟩ | ⟨q', ms', htask', -⟩⟩ := h.timers t ht
    · rw [htask] at htask'
      cases htask'
      exact hq
    · rw [htask] at htask'
      cases htask'
  have hq : SlotHeld w q := ⟨s, _, hown, rfl⟩
  have hslot : ∀ j, (w.expire s q t.id label ms).slotAt j =
      if s = j then { w.slotAt j with waiters := (w.slotAt j).waiters.filter (·.promise != q) } else w.slotAt j := by
    intro j
    by_cases hj : s = j
    · subst hj
      simp [World.expire, lt_of_mem_waiters hown]
    · simp [World.expire, hj]
  -- the waiters left are those that waited on other promises
  have hmem : ∀ j wt, wt ∈ ((w.expire s q t.id label ms).slotAt j).waiters → wt ∈ (w.slotAt j).waiters ∧ wt.promise ≠ q := by
    intro j wt hwt
    rw [hslot] at hwt
    split at hwt
    · simpa using hwt
    · rename_i hj
      exact ⟨hwt, fun he => hj (h.apart _ _ _ _ hown hwt he.symm).1⟩
  have hheld : ∀ p, SlotHeld (w.expire s q t.id label ms) p → SlotHeld w p := by
    rintro p ⟨j, wt, hwt, rfl⟩
    exact ⟨j, wt, (hmem j wt hwt).1, rfl⟩
  have hl : (w.expire s q t.id label ms).loop = (w.loop.cancel t.id).settle q (.error (Act.slotTimeoutFault label ms)) := rfl
  have hout : ∀ p ≠ q, (w.expire s q t.id label ms).loop.outcome? p = w.loop.outcome? p := fun p hp => by
    rw [hl, Loop.outcome?_settle_of_ne _ _ hp]
    rfl
  have htargets : ∀ p, (w.expire s q t.id label ms).loop.Targets p → w.loop.Targets p := fun p hp => by
    rw [hl] at hp
    have hC : (w.loop.cancel t.id).Targets p := hp.of_settle
    exact (Loop.targets_of_eq rfl rfl p).1 hC
  refine ⟨h.toRecord.of_eq (by simpa [World.expire] using h.machine) rfl rfl (by simp [hl, Loop.cancel])
    (by simp [World.expire]) (Nat.le_refl _), ⟨hl ▸ (h.replies.cancel _).settle _ _, ?_, ?_, ?_, ?_, h.stopApart, ?_, ?_⟩⟩
  · intro j wt hwt
    obtain ⟨hwt', hne⟩ := hmem j wt hwt
    obtain ⟨h1, h2, h3⟩ := h.slotWaiters j wt hwt'
    refine ⟨by rw [hslot]; split <;> simp [h1], by rw [hout _ hne]; exact h2, ?_⟩
    rw [hl, Loop.settle_cells_size]
    exact h3
  · intro j j' wt wt' hw₁ hw₂ he
    exact h.apart j j' wt wt' (hmem j wt hw₁).1 (hmem j' wt' hw₂).1 he
  · intro p hp hs
    exact h.free p (htargets p hp) (hheld p hs)
  · intro wt hwt
    obtain ⟨h1, h2, h3, h4⟩ := h.stopWaiters wt hwt
    have hne : wt.promise ≠ q := fun he => h3 (he ▸ hq)
    exact ⟨by rw [hout _ hne]; exact h1, by rw [hl, Loop.settle_cells_size]; exact h2,
      fun hs => h3 (hheld _ hs), fun hp => h4 (htargets _ hp)⟩
  · intro t' ht'
    rw [hl, Loop.settle_timers] at ht'
    rw [hl, Loop.settle_nextTimer]
    simp only [Loop.cancel, List.mem_filter, bne_iff_ne, ne_eq] at ht' ⊢
    obtain ⟨hid, ⟨s', q', label', ms', htask', hw'⟩ | hstop⟩ := h.timers t' ht'.1
    · refine ⟨hid, .inl ⟨s', q', label', ms', htask', ?_⟩⟩
      rw [hslot]
      split
      · rename_i hs'
        subst hs'
        refine List.mem_filter.2 ⟨hw', ?_⟩
        simp only [bne_iff_ne, ne_eq]
        rintro rfl
        have := (h.apart _ _ _ _ hw' hown rfl).2
        simp only [Waiter.mk.injEq, Option.some.injEq, true_and] at this
        exact ht'.2 this
      · exact hw'
    · exact ⟨hid, .inr hstop⟩
  · rw [hl, Loop.settle_nextTimer]
    exact ⟨fun j wt hwt => h.stamps.1 j wt (hmem j wt hwt).1, h.stamps.2⟩

/-- A slot given its outcome: its waiters hear it and leave, their deadlines with them. -/
theorem Shape.fillSlot (h : Shape x w) (s : Nat) (o : Except Fault Json) : Shape x (w.fillSlot s o) := by
  by_cases hp : (w.slotAt s).state = .pending
  case neg => rwa [Act.fillSlot_settled w o hp]
  have hslot : ∀ j, (w.fillSlot s o).slotAt j =
      if s = j ∧ j < w.slots.size then ⟨SlotState.ofResult o, []⟩ else w.slotAt j := by
    intro j
    simp [World.fillSlot, hp]
  have hl := World.fillSlot_loop_of_pending s o hp
  -- every waiter left waits on another slot, as it did
  have hwait : ∀ j wt, wt ∈ ((w.fillSlot s o).slotAt j).waiters → j ≠ s ∧ wt ∈ (w.slotAt j).waiters := by
    intro j wt hwt
    rw [hslot] at hwt
    split at hwt
    · cases hwt
    · rename_i hj
      refine ⟨fun hjs => hj ⟨hjs.symm, ?_⟩, hwt⟩
      subst hjs
      exact lt_of_mem_waiters hwt
  have hheld : ∀ p, SlotHeld (w.fillSlot s o) p → SlotHeld w p := by
    rintro p ⟨j, wt, hwt, rfl⟩
    exact ⟨j, wt, (hwait j wt hwt).2, rfl⟩
  -- a promise that no waiter on `s` holds keeps its outcome
  have hout : ∀ p, (∀ wt ∈ (w.slotAt s).waiters, wt.promise ≠ p) →
      (w.fillSlot s o).loop.outcome? p = w.loop.outcome? p := fun p hp' => by
    rw [hl, Loop.outcome?_release_of_not_mem _ _ _ hp']
  refine ⟨h.toRecord.of_eq (by simpa using h.machine) (by simp) (by simp) (by simp) (by simp) (by simp),
    ⟨hl ▸ h.replies.release _ _, ?_, ?_, ?_, ?_, by simpa using h.stopApart, ?_, ?_⟩⟩
  · intro j wt hwt
    obtain ⟨hjs, hwt⟩ := hwait j wt hwt
    obtain ⟨h1, h2, h3⟩ := h.slotWaiters j wt hwt
    refine ⟨by rw [hslot, if_neg (fun h => hjs h.1.symm)]; exact h1, ?_, by rw [hl, Loop.release_cells_size]; exact h3⟩
    rw [hout _ (fun wt' hw' he => hjs (h.apart _ _ _ _ hwt hw' he.symm).1)]
    exact h2
  · intro j j' wt wt' hw₁ hw₂ he
    exact h.apart j j' wt wt' (hwait j wt hw₁).2 (hwait j' wt' hw₂).2 he
  · intro p hp' hs
    rw [hl] at hp'
    exact h.free p hp'.of_release (hheld p hs)
  · intro wt hwt
    simp only [World.execAt_fillSlot] at hwt
    obtain ⟨h1, h2, h3, h4⟩ := h.stopWaiters wt hwt
    refine ⟨by rw [hout _ (fun wt' hw' he => h3 ⟨s, wt', hw', he⟩)]; exact h1,
      by rw [hl, Loop.release_cells_size]; exact h2, fun hs => h3 (hheld _ hs), fun ht => h4 ?_⟩
    rw [hl] at ht
    exact ht.of_release
  · intro t ht
    rw [hl, Loop.mem_release_timers] at ht
    rw [hl, Loop.release_nextTimer]
    obtain ⟨hid, ⟨s₀, q, label, ms, htask, hmem⟩ | ⟨q, ms, htask, hmem⟩⟩ := h.timers t ht.1
    · have hs₀ : s₀ ≠ s := by
        rintro rfl
        exact ht.2 _ hmem rfl
      exact ⟨hid, .inl ⟨s₀, q, label, ms, htask, by rwa [hslot, if_neg (fun h => hs₀ h.1.symm)]⟩⟩
    · exact ⟨hid, .inr ⟨q, ms, htask, by simpa using hmem⟩⟩
  · rw [hl, Loop.release_nextTimer]
    exact ⟨fun j wt hwt => h.stamps.1 j wt (hwait j wt hwt).2, fun wt hwt => h.stamps.2 wt (by simpa using hwt)⟩

theorem Shape.settleQueued (h : Shape x w) (xs : List Errand) : Shape x (w.settleQueued xs) := by
  induction xs generalizing w with
  | nil => exact h
  | cons e xs ih =>
    cases e with
    | settleSlot s o => exact ih (h.fillSlot s o)
    | _ => exact ih h

/-- The machine's context emptied for the turn that drains it: no turn is left. -/
theorem Shape.cleared (h : Shape x w) {ts : List Turn} (ht : w.loop.turns = .drain (w.execAt x).inbox :: ts) :
    Shape x ((w.setLoop { w.loop with turns := ts }).withInbox (w.execAt x).inbox fun b =>
      { b with scheduled := false, queue := [] }) := by
  have hsched : (w.inboxAt (w.execAt x).inbox).scheduled = true := by
    rw [h.turns] at ht
    split at ht <;> simp_all
  have hts : ts = [] := by
    rw [h.turns, if_pos hsched] at ht
    simp at ht
    exact ht
  subst hts
  -- the context drained exists: a context out of range is never scheduled
  have hi : (w.execAt x).inbox < w.inboxes.size := by
    refine Nat.lt_of_not_le fun hle => ?_
    rw [Settlement.inboxAt_of_size_le hle] at hsched
    cases hsched
  have hW : Waiters x (w.setLoop { w.loop with turns := [] }) :=
    h.toWaiters.of_loop (h.replies.of_eq rfl rfl rfl) (fun _ _ => rfl) (Nat.le_refl _)
      (fun p hp => (Loop.targets_of_eq rfl rfl p).1 hp) rfl rfl
  have hbox : (((w.setLoop { w.loop with turns := [] }).withInbox (w.execAt x).inbox fun b =>
      { b with scheduled := false, queue := [] }).inboxAt (w.execAt x).inbox) =
      { w.inboxAt (w.execAt x).inbox with scheduled := false, queue := [] } := by
    simp [hi]
  refine ⟨⟨by simpa using h.machine, by simpa using h.observed, fun r hr => h.recording r (by simpa using hr),
    by simpa using h.notified, by simpa using h.entries, by simpa using h.context, ?_, ?_, ?_, ?_⟩,
    hW.of_eq rfl rfl rfl⟩
  · simp only [World.execAt_withInbox, World.execAt_setLoop, hbox]
    exact h.opened
  · simp [hbox]
  · simp [hbox]
  · simp [hbox]

/-- The turn that drains the machine's context: what was queued on it runs, and no turn is left. -/
theorem Shape.drain (h : Shape x w) {ts : List Turn} (ht : w.loop.turns = .drain (w.execAt x).inbox :: ts) :
    Shape x ((w.setLoop { w.loop with turns := ts }).drained (w.execAt x).inbox) := by
  unfold World.drained
  exact (h.cleared ht).settleQueued _

/-- A job delivers a reply: the request's promise settles, and nothing else changes. -/
theorem Shape.job (h : Shape x w) {p : Nat} {c : String} {o : Outcome} {js : List (Job Outcome Cont)}
    (hj : w.loop.jobs = .react (.resume (.replied p c)) o :: js) (o' : Outcome) :
    Shape x (w.setLoop ({ w.loop with jobs := js }.settle p o')) := by
  have hp : w.loop.Targets p := .inl ⟨c, o, by simp [hj]⟩
  have hl : (w.setLoop ({ w.loop with jobs := js }.settle p o')).loop = { w.loop with jobs := js }.settle p o' := rfl
  have hout : ∀ q ≠ p, (w.setLoop ({ w.loop with jobs := js }.settle p o')).loop.outcome? q = w.loop.outcome? q :=
    fun q hq => by rw [hl, Loop.outcome?_settle_of_ne _ _ hq]; rfl
  have htargets : ∀ q, (w.setLoop ({ w.loop with jobs := js }.settle p o')).loop.Targets q → w.loop.Targets q :=
    fun q hq => Loop.Targets.of_dropJob hj (hl ▸ hq).of_settle
  refine ⟨h.toRecord.of_eq h.machine rfl rfl (by simp) (Nat.le_refl _) (Nat.le_refl _),
    ⟨hl ▸ (h.replies.dropJob hj).settle _ _, ?_, h.apart, ?_, ?_, h.stopApart, ?_, ?_⟩⟩
  · intro s wt hwt
    obtain ⟨h1, h2, h3⟩ := h.slotWaiters s wt hwt
    have hne : wt.promise ≠ p := fun he => h.free p hp ⟨s, wt, hwt, he⟩
    exact ⟨h1, by rw [hout _ hne]; exact h2, by rw [hl, Loop.settle_cells_size]; exact h3⟩
  · intro q hq
    exact h.free q (htargets q hq)
  · intro wt hwt
    obtain ⟨h1, h2, h3, h4⟩ := h.stopWaiters wt hwt
    have hne : wt.promise ≠ p := fun he => h4 (he ▸ hp)
    exact ⟨by rw [hout _ hne]; exact h1, by rw [hl, Loop.settle_cells_size]; exact h2, h3,
      fun hq => h4 (htargets _ hq)⟩
  · intro t ht
    rw [hl, Loop.settle_timers] at ht
    rw [hl, Loop.settle_nextTimer]
    exact h.timers t ht
  · rw [hl, Loop.settle_nextTimer]
    exact h.stamps

/-! ### Promises, the context and the book -/

/-- A promise that no waiter holds settles: its reactions become jobs, and nothing else changes. -/
theorem Shape.settle (h : Shape x w) {p : Nat} (hp : ¬SlotHeld w p)
    (hs : ∀ wt ∈ (w.execAt x).stopWaiters, wt.promise ≠ p) (o : Outcome) :
    Shape x (w.setLoop (w.loop.settle p o)) := by
  have hout : ∀ q ≠ p, (w.loop.settle p o).outcome? q = w.loop.outcome? q :=
    fun q hq => Loop.outcome?_settle_of_ne _ _ hq
  refine ⟨h.toRecord.of_eq h.machine rfl rfl (by simp) (Nat.le_refl _) (Nat.le_refl _),
    ⟨h.replies.settle p o, ?_, h.apart, ?_, ?_, h.stopApart, ?_, ?_⟩⟩
  · intro s wt hwt
    obtain ⟨h1, h2, h3⟩ := h.slotWaiters s wt hwt
    have hne : wt.promise ≠ p := fun he => hp ⟨s, wt, hwt, he⟩
    exact ⟨h1, by rw [World.setLoop_loop, hout _ hne]; exact h2, by simpa using h3⟩
  · intro q hq
    exact h.free q hq.of_settle
  · intro wt hwt
    obtain ⟨h1, h2, h3, h4⟩ := h.stopWaiters wt hwt
    exact ⟨by rw [World.setLoop_loop, hout _ (hs wt hwt)]; exact h1, by simpa using h2, h3,
      fun hq => h4 hq.of_settle⟩
  · intro t ht
    simpa using h.timers t (by simpa using ht)
  · simpa using h.stamps

/-- The waiters do not look at the loop's turns. -/
theorem Waiters.of_turns (h : Waiters x w) (hs : w'.slots = w.slots)
    (hl : w'.loop = { w.loop with turns := w'.loop.turns })
    (hw : (w'.execAt x).stopWaiters = (w.execAt x).stopWaiters) : Waiters x w' :=
  have h' : Waiters x (w.setLoop { w.loop with turns := w'.loop.turns }) :=
    h.of_loop (h.replies.of_eq rfl rfl rfl) (fun _ _ => rfl) (Nat.le_refl _)
      (fun p hp => (Loop.targets_of_eq rfl rfl p).1 hp) rfl rfl
  h'.of_eq hs hl hw

/-- A settlement queued on the machine's context, for a slot that exists: the context asks for
its drain unless it had. -/
theorem Shape.enqueue (h : Shape x w) {s : Nat} (hs : s < w.slots.size) (o : Except Fault Json) :
    Shape x (w.enqueue (w.execAt x).inbox (.settleSlot s o)) := by
  have hbox : (w.enqueue (w.execAt x).inbox (.settleSlot s o)).inboxAt (w.execAt x).inbox =
      { w.inboxAt (w.execAt x).inbox with
        queue := (w.inboxAt (w.execAt x).inbox).queue ++ [.settleSlot s o]
        scheduled := true } := by
    rw [World.inboxAt_enqueue, if_pos ⟨rfl, h.context⟩]
  have ht : (w.enqueue (w.execAt x).inbox (.settleSlot s o)).loop.turns = [.drain (w.execAt x).inbox] := by
    rw [World.enqueue_turns, h.turns]
    by_cases hsch : (w.inboxAt (w.execAt x).inbox).scheduled = true <;> simp [hsch]
  have hl : (w.enqueue (w.execAt x).inbox (.settleSlot s o)).loop =
      { w.loop with turns := (w.enqueue (w.execAt x).inbox (.settleSlot s o)).loop.turns } := by
    unfold World.enqueue
    split <;> rfl
  refine ⟨⟨by simpa using h.machine, by simpa using h.observed, fun r hr => h.recording r (by simpa using hr),
    by simpa using h.notified, by simpa using h.entries, by simpa using h.context, ?_, ?_, ?_, ?_⟩,
    h.toWaiters.of_turns (by simp) hl (by simp)⟩
  · simp only [World.execAt_enqueue, hbox]
    exact h.opened
  · intro e he
    simp only [World.execAt_enqueue, hbox, List.mem_append, List.mem_singleton] at he
    rcases he with he | rfl
    · obtain ⟨s', o', rfl, hs'⟩ := h.errands e he
      exact ⟨s', o', rfl, by simpa using hs'⟩
    · exact ⟨s, o, rfl, by simpa using hs⟩
  · intro _
    simp only [World.execAt_enqueue, hbox]
  · simp only [World.execAt_enqueue, hbox, if_true]
    exact ht

/-- A command's outcome goes to its owner, the machine's context, which is open. -/
theorem Shape.settleEntry (h : Shape x w) {c : PendingEntry} (hc : c.owner = (w.execAt x).inbox)
    (hs : c.slot < w.slots.size) (o : Except Fault Json) : Shape x (w.settleEntry c o) := by
  unfold World.settleEntry
  simp only [hc, h.opened, Bool.false_eq_true, if_false]
  exact h.enqueue hs o

/-- Commands of the machine's context failed one after another. -/
theorem Shape.settleEntries (h : Shape x w) (f : Fault) (cs : List PendingEntry)
    (hc : ∀ c ∈ cs, c.owner = (w.execAt x).inbox ∧ c.slot < w.slots.size) :
    Shape x (cs.foldl (fun w c => w.settleEntry c (.error f)) w) := by
  induction cs generalizing w with
  | nil => exact h
  | cons c cs ih =>
    obtain ⟨h1, h2⟩ := hc c List.mem_cons_self
    refine ih (h.settleEntry h1 h2 _) fun c' hc' => ?_
    rw [World.execAt_execs x (World.settleEntry_execs _ _), World.settleEntry_slots_size]
    exact hc c' (List.mem_cons_of_mem _ hc')

/-- Entries leave the book: what is left is still sound. -/
theorem Shape.withBook (h : Shape x w) (f : PendingBook → PendingBook)
    (hf : ∀ c ∈ (f (w.execAt x).book).entries, c ∈ (w.execAt x).book.entries) :
    Shape x (w.withExec x fun e => { e with book := f e.book }) :=
  h.withExec _ rfl rfl rfl (fun c hc => h.entries c (hf c hc)) h.recording h.notified

theorem Shape.dropEntry (h : Shape x w) (id : Double) : Shape x (w.dropEntry x id) :=
  h.withBook (fun b => { b with entries := b.entries.filter (·.id != id) }) (fun _ hc => List.mem_of_mem_filter hc)

/-- A command registered on the machine's context: a new pending slot that nobody waits on,
and its entry filed under the next id. -/
theorem Shape.register (h : Shape x w) (command : String) :
    Shape x (w.register x command (w.execAt x).inbox) := by
  have he : (w.register x command (w.execAt x).inbox).execAt x = { w.execAt x with book :=
      ⟨PendingBook.put (w.nextEntry x command (w.execAt x).inbox) (w.execAt x).book.entries,
        (w.execAt x).book.nextId + 1⟩ } := by
    rw [World.execAt_register, if_pos ⟨rfl, h.machine⟩]
  -- the new slot is past the old ones, where nobody waits
  have hnew : (w.slotAt w.slots.size).waiters = [] := by simp [World.slotAt]; rfl
  have hstate : ∀ j, (w.slotAt j).waiters ≠ [] →
      ((w.register x command (w.execAt x).inbox).slotAt j).state = (w.slotAt j).state := by
    intro j hj
    rw [World.slotAt_register, if_neg]
    rintro rfl
    exact hj hnew
  have hentries : ∀ c ∈ PendingBook.put (w.nextEntry x command (w.execAt x).inbox) (w.execAt x).book.entries,
      c.owner = (w.execAt x).inbox ∧ c.slot < w.slots.size + 1 := by
    intro c hc
    rcases PendingBook.mem_put _ hc with rfl | hc
    · exact ⟨rfl, by simp [World.nextEntry]⟩
    · obtain ⟨h2, h3⟩ := h.entries c hc
      exact ⟨h2, by omega⟩
  refine ⟨h.toRecord.of_exec (by simpa [World.register] using h.machine) he rfl rfl (by simpa using hentries) h.recording
    h.notified rfl rfl (by simp) (Nat.le_refl _),
    h.toWaiters.of_slots (World.slotAt_register_waiters w x command _) hstate rfl (by rw [he])⟩

/-- A new waiter on a pending slot, holding the next promise and perhaps a new timer of its own. -/
theorem Shape.addSlotWaiter (h : Shape x w) {s : Nat} (hs : s < w.slots.size)
    (hp : (w.slotAt s).state = .pending) {L : Loop Outcome Cont Turn} {tm : Option Nat} (hr : L.Replies)
    (hout : ∀ q, L.outcome? q = w.loop.outcome? q) (hsize : L.cells.size = w.loop.cells.size + 1)
    (htargets : ∀ p, L.Targets p → w.loop.Targets p) (hturns : L.turns = w.loop.turns)
    (hnext : w.loop.nextTimer ≤ L.nextTimer)
    (htimers : ∀ t ∈ L.timers, t ∈ w.loop.timers ∨
      (tm = some t.id ∧ t.id < L.nextTimer ∧ ∃ label ms, t.task = .slotTimeout s w.loop.cells.size label ms))
    (htm : ∀ id, tm = some id → id < L.nextTimer) :
    Shape x ((w.setLoop L).withSlot s fun sl => { sl with waiters := sl.waiters ++ [⟨w.loop.cells.size, tm⟩] }) := by
  let w₁ := (w.setLoop L).withSlot s fun sl => { sl with waiters := sl.waiters ++ [⟨w.loop.cells.size, tm⟩] }
  -- a waiter of `w₁` is an old one, or the new one on `s`
  have hmem : ∀ j wt, wt ∈ (w₁.slotAt j).waiters ↔
      wt ∈ (w.slotAt j).waiters ∨ (s = j ∧ wt = ⟨w.loop.cells.size, tm⟩) :=
    fun j wt => World.mem_addWaiter (w.setLoop L) hs _ wt
  have hstate : ∀ j, (w₁.slotAt j).state = (w.slotAt j).state := by
    intro j
    by_cases hj : s = j
    · subst hj
      simp [w₁, hs]
    · simp [w₁, hj]
  have hnew : ¬SlotHeld w w.loop.cells.size ∧ ¬w.loop.Targets w.loop.cells.size :=
    ⟨fun hq => Nat.lt_irrefl _ (h.lt_of_slotHeld hq), fun hq => Nat.lt_irrefl _ (h.lt_of_targets hq)⟩
  have hheld : ∀ q, SlotHeld w₁ q → SlotHeld w q ∨ q = w.loop.cells.size := by
    rintro q ⟨j, wt, hwt, rfl⟩
    rcases (hmem j wt).1 hwt with hwt | ⟨-, rfl⟩
    · exact .inl ⟨j, wt, hwt, rfl⟩
    · exact .inr rfl
  have he : w₁.execAt x = w.execAt x := rfl
  refine ⟨h.toRecord.of_eq (by simpa [w₁] using h.machine) rfl rfl (by simp [hturns]) (by simp)
      (Nat.le_refl _), ⟨by simpa [w₁] using hr, ?_, ?_, ?_, ?_, h.stopApart, ?_, ?_⟩⟩
  · intro j wt hwt
    rw [hstate]
    rcases (hmem j wt).1 hwt with hwt | ⟨rfl, rfl⟩
    · obtain ⟨h1, h2, h3⟩ := h.slotWaiters j wt hwt
      exact ⟨h1, by simpa [w₁, hout] using h2, by simp [hsize]; omega⟩
    · exact ⟨hp, by simp [hout, Loop.outcome?_of_size_le], by simp [hsize]⟩
  · intro j j' wt wt' hw₁ hw₂ hpe
    rcases (hmem j wt).1 hw₁ with hw₁ | ⟨rfl, rfl⟩ <;> rcases (hmem j' wt').1 hw₂ with hw₂ | ⟨rfl, rfl⟩
    · exact h.apart j j' wt wt' hw₁ hw₂ hpe
    · exact absurd ⟨_, _, hw₁, hpe⟩ hnew.1
    · exact absurd ⟨_, _, hw₂, hpe.symm⟩ hnew.1
    · exact ⟨rfl, rfl⟩
  · intro q hq hq'
    have hq₀ := htargets q (by simpa [w₁] using hq)
    rcases hheld q hq' with hq' | rfl
    · exact h.free q hq₀ hq'
    · exact hnew.2 hq₀
  · intro wt hwt
    obtain ⟨h1, h2, h3, h4⟩ := h.stopWaiters wt hwt
    refine ⟨by simpa [w₁, hout] using h1, by simp [hsize]; omega, fun hq => ?_,
      fun hq => h4 (htargets _ (by simpa [w₁] using hq))⟩
    rcases hheld _ hq with hq | hq
    · exact h3 hq
    · exact Nat.ne_of_lt h2 hq
  · intro t ht
    simp only [World.withSlot_loop, World.setLoop_loop] at ht ⊢
    rcases htimers t ht with ht | ⟨htm, hid, label, ms, htask⟩
    · obtain ⟨hid, ⟨s', q, label, ms, htask, hq⟩ | ⟨q, ms, htask, hq⟩⟩ := h.timers t ht
      · exact ⟨by omega, .inl ⟨s', q, label, ms, htask, (hmem s' _).2 (.inl hq)⟩⟩
      · exact ⟨by omega, .inr ⟨q, ms, htask, hq⟩⟩
    · exact ⟨hid, .inl ⟨s, _, label, ms, htask, (hmem s _).2 (.inr ⟨rfl, by rw [htm]⟩)⟩⟩
  · simp only [World.withSlot_loop, World.setLoop_loop]
    refine ⟨fun j wt hwt id hid => ?_, fun wt hwt id hid => Nat.lt_of_lt_of_le (h.stamps.2 wt hwt id hid) hnext⟩
    rcases (hmem j wt).1 hwt with hwt | ⟨-, rfl⟩
    · exact Nat.lt_of_lt_of_le (h.stamps.1 j wt hwt id hid) hnext
    · exact htm id hid

theorem Shape.waitOn (h : Shape x w) {s : Nat} (hs : s < w.slots.size) (hp : (w.slotAt s).state = .pending)
    (timeout : Option Json) (label : String) : Shape x (w.waitOn s timeout label) := by
  cases timeout with
  | none =>
    exact h.addSlotWaiter hs hp h.replies.fresh (by simp) (by simp) (fun p hp => (Loop.targets_fresh p).1 hp) rfl
      (Nat.le_refl _) (fun t ht => .inl ht) (fun _ hid => by cases hid)
  | some ms =>
    refine h.addSlotWaiter hs hp (h.replies.fresh.of_eq rfl rfl rfl) (by simp) (by simp [Loop.after])
      (fun p hp => (Loop.targets_fresh p).1 hp) rfl (by simp [Loop.after, Loop.fresh]) (fun t ht => ?_)
      (fun id hid => by cases hid; simp [Loop.after, Loop.fresh])
    simp only [Loop.after, Loop.fresh, List.mem_append, List.mem_singleton] at ht
    rcases ht with ht | rfl
    · exact .inl ht
    · exact .inr ⟨rfl, by simp [Loop.after, Loop.fresh], label, ms, rfl⟩

/-- A request's promise `p`, which no waiter holds, awaits promise `q`. -/
theorem Shape.await (h : Shape x w) (q : Nat) {p : Nat} (c : String) (hp : p < w.loop.cells.size)
    (hheld : ¬SlotHeld w p) (hstop : ∀ wt ∈ (w.execAt x).stopWaiters, wt.promise ≠ p) :
    Shape x (w.setLoop (w.loop.await q (.replied p c))) := by
  have hout : ∀ r, (w.loop.await q (.replied p c)).outcome? r = w.loop.outcome? r := by simp [Loop.await]
  refine ⟨h.toRecord.of_eq h.machine rfl rfl (by simp [Loop.await]) (Nat.le_refl _) (Nat.le_refl _),
    ⟨h.replies.await q c hp, ?_, h.apart, ?_, ?_, h.stopApart, ?_, ?_⟩⟩
  · intro s wt hwt
    obtain ⟨h1, h2, h3⟩ := h.slotWaiters s wt hwt
    exact ⟨h1, by simpa [hout] using h2, by simpa [Loop.await] using h3⟩
  · intro r hr
    rcases Loop.Targets.of_await hr with rfl | hr
    · exact hheld
    · exact h.free r hr
  · intro wt hwt
    obtain ⟨h1, h2, h3, h4⟩ := h.stopWaiters wt hwt
    refine ⟨by simpa [hout] using h1, by simpa [Loop.await] using h2, h3, fun ht => ?_⟩
    rcases Loop.Targets.of_await ht with he | ht
    · exact hstop wt hwt he
    · exact h4 ht
  · intro t ht
    simpa [Loop.await] using h.timers t (by simpa [Loop.await] using ht)
  · simpa [Loop.await] using h.stamps

/-- A request's promise `p` waits on a new wait on a pending slot, whose promise is `q`. -/
theorem Shape.awaitSlot (h : Shape x w) {s p : Nat} (hs : s < w.slots.size) (hpend : (w.slotAt s).state = .pending)
    (hp : p < w.loop.cells.size) (hheld : ¬SlotHeld w p) (hstop : ∀ wt ∈ (w.execAt x).stopWaiters, wt.promise ≠ p)
    (q : Nat) (c : String) (timeout : Option Json) (label : String) :
    Shape x ((w.waitOn s timeout label).setLoop ((w.waitOn s timeout label).loop.await q (.replied p c))) := by
  refine (h.waitOn hs hpend timeout label).await q c (by simp; omega) ?_ (by simpa using hstop)
  rintro ⟨j, wt, hwt, rfl⟩
  rcases World.mem_waitOn w hwt with hwt | he
  · exact hheld ⟨j, wt, hwt, rfl⟩
  · omega

/-- A request whose command went out: a new promise waits on the wait on its command's slot. -/
theorem Shape.requestWritten (h : Shape x w) (command : String) (args timeout : Option Json) :
    Shape x (w.requestWritten x command args timeout) := by
  have h₁ := (h.fresh.register command).note
    (.wrote (Act.requestMessage command (w.nextEntry x command (w.execAt x).inbox).id args))
  -- the request's promise is the fresh one, which no waiter holds
  have hheld : ¬SlotHeld (((w.setLoop w.loop.fresh.2).register x command (w.execAt x).inbox).note
      (.wrote (Act.requestMessage command (w.nextEntry x command (w.execAt x).inbox).id args))) w.loop.cells.size := by
    rintro ⟨j, wt, hwt, he⟩
    rw [World.slotAt_note, World.slotAt_register_waiters] at hwt
    exact Nat.ne_of_lt (h.lt_of_slotHeld ⟨j, wt, hwt, rfl⟩) he
  have hstop : ∀ wt ∈ (w.execAt x).stopWaiters, wt.promise ≠ w.loop.cells.size :=
    fun wt hwt => Nat.ne_of_lt (h.stopWaiters wt hwt).2.1
  unfold World.requestWritten
  exact h₁.awaitSlot (by simp [World.nextEntry]) (by simp [World.slotAt_register, World.nextEntry]) (by simp) hheld
    (by simpa [World.execAt_register, h.machine] using hstop) _ command _ _

/-- A request whose command the sink refused: its entry leaves the book with the send failure,
and its promise fails. -/
theorem Shape.requestRefused (h : Shape x w) (command : String) : Shape x (w.requestRefused x command) := by
  have hx : ((w.setLoop w.loop.fresh.2).register x command (w.execAt x).inbox).execAt x =
      { w.execAt x with book := ⟨PendingBook.put (w.nextEntry x command (w.execAt x).inbox) (w.execAt x).book.entries,
        (w.execAt x).book.nextId + 1⟩ } := by
    rw [World.execAt_register, if_pos ⟨rfl, h.machine⟩]
    rfl
  have h₁ : Shape x (((w.setLoop w.loop.fresh.2).register x command (w.execAt x).inbox).dropEntry x
      (w.nextEntry x command (w.execAt x).inbox).id) := (h.fresh.register command).dropEntry _
  have h₂ := h₁.settleEntry (c := w.nextEntry x command (w.execAt x).inbox)
    (by simp [World.execAt_dropEntry, hx, h.machine, World.nextEntry]) (by simp [World.nextEntry])
    (.error (Act.sendFault command))
  -- the machine's context is open, so the send failure is queued on it
  have hopen := World.settleEntry_of_open (((w.setLoop w.loop.fresh.2).register x command (w.execAt x).inbox).dropEntry x
      (w.nextEntry x command (w.execAt x).inbox).id) (c := w.nextEntry x command (w.execAt x).inbox) h.opened
    (.error (Act.sendFault command))
  unfold World.requestRefused
  refine h₂.settle ?_ ?_ _
  · rintro ⟨j, wt, hwt, he⟩
    rw [hopen, World.slotAt_enqueue, World.slotAt_dropEntry, World.slotAt_register_waiters] at hwt
    exact Nat.ne_of_lt (h.lt_of_slotHeld ⟨j, wt, hwt, rfl⟩) he
  · intro wt hwt
    simp only [hopen, World.execAt_enqueue, World.execAt_dropEntry, World.register_execs_size, World.setLoop_execs,
      h.machine, and_self, if_true, hx] at hwt
    exact Nat.ne_of_lt (h.stopWaiters wt hwt).2.1

/-! ### The machine's own record -/

theorem Shape.attach (h : Shape x w) (r : Option String) :
    Shape x (w.withExec x fun e => { e with sink := some (.recorder r) }) :=
  h.withExec _ rfl rfl rfl (h.entries_of_book rfl rfl (Nat.le_refl _)) (fun _ hs => ⟨r, (Option.some.inj hs).symm⟩)
    h.notified

theorem Shape.start (h : Shape x w) (hs : (w.execAt x).current.isNotStarted = true) :
    Shape x (w.withExec x fun e => { e with current := .running }) :=
  h.withExec _ rfl rfl rfl (h.entries_of_book rfl rfl (Nat.le_refl _)) h.recording (by
    show (w.execAt x).terminatedNotified = false
    rw [h.notified]
    revert hs
    cases (w.execAt x).current <;> simp [ExecState.isNotStarted, ExecState.isTerminated])

/-- The machine runs again after a stop. -/
theorem Shape.runAgain (h : Shape x w) (hs : (w.execAt x).current.isStopped = true) : Shape x (w.runAgain x) :=
  h.withExec _ rfl rfl rfl (h.entries_of_book rfl rfl (Nat.le_refl _)) h.recording (by
    show (w.execAt x).terminatedNotified = false
    rw [h.notified]
    revert hs
    cases (w.execAt x).current <;> simp [ExecState.isStopped, ExecState.isTerminated])

theorem Shape.withoutSink (h : Shape x w) : Shape x (w.withExec x fun e => { e with sink := none }) :=
  h.withExec _ rfl rfl rfl (h.entries_of_book rfl rfl (Nat.le_refl _)) (fun _ hs => by cases hs) h.notified

/-- The book emptied, and every command on it failed with `f`. -/
theorem Shape.failBook (h : Shape x w) (f : Fault) :
    Shape x ((w.execAt x).book.entries.foldl (fun w e => w.settleEntry e (.error f))
      (w.withExec x fun e => { e with book := { e.book with entries := [] } })) := by
  have h₁ := h.withBook (fun b => { b with entries := [] }) (fun _ hc => absurd hc List.not_mem_nil)
  refine h₁.settleEntries f _ fun c hc => ?_
  obtain ⟨h2, h3⟩ := h.entries c hc
  exact ⟨by simpa [h.machine] using h2, by simpa using h3⟩

/-! ### Every event -/

/-- Every event keeps the shape. -/
theorem shape_step (h : Shape x w) (e : Event) : Shape x (step x w e) := by
  cases e with
  | attach r => exact h.attach r
  | start =>
    rw [step_start]
    split
    · exact h.start ‹_›
    · exact h
  | resume t =>
    rw [step_resume x w h.recording]
    cases Act.liveFault (w.execAt x).current "continue" with
    | some f => exact h.done _
    | none =>
      by_cases hs : (w.execAt x).current.isStopped = true
      · simp only [hs, if_true]
        cases Act.writeFault (w.execAt x).sink with
        | some f => exact (h.runAgain hs).done _
        | none => exact ((h.runAgain hs).note _).done _
      · simp only [hs, if_false, Bool.false_eq_true]
        exact h.done _
  | step kind t extra =>
    rw [step_step x w h.recording]
    cases Act.liveFault (w.execAt x).current kind with
    | some f => exact h.done _
    | none =>
      by_cases hs : (w.execAt x).current.isStopped = true
      · simp only [hs, if_true]
        cases Act.writeFault (w.execAt x).sink with
        | some f => exact (h.runAgain hs).done _
        | none => exact ((h.runAgain hs).note _).done _
      · simp only [hs, if_false, Bool.false_eq_true]
        exact (h.log _).done _
  | pause t =>
    rw [step_pause x w h.recording]
    cases Act.liveFault (w.execAt x).current "pause" with
    | some f => exact h.done _
    | none =>
      by_cases hs : (w.execAt x).current.isStopped = true
      · simp only [hs, if_true]
        exact h.done _
      · simp only [hs, if_false, Bool.false_eq_true]
        cases Act.writeFault (w.execAt x).sink with
        | some f => exact h.done _
        | none => exact (h.note _).done _
  | request command args timeout =>
    rw [step_request x w h.machine h.recording]
    cases Act.liveFault (w.execAt x).current command with
    | some f => exact h.done _
    | none =>
      simp only
      split
      · exact h.done _
      · exact h.requestRefused command
      · exact h.requestWritten command args timeout
  | reply m =>
    rw [step_reply]
    cases Act.replyId m with
    | none => exact h
    | some n =>
      simp only
      cases hf : (w.execAt x).book.entries.find? (·.id == n) with
      | none => exact h
      | some c =>
        obtain ⟨h2, h3⟩ := h.entries c (List.mem_of_find?_eq_some hf)
        exact (h.dropEntry n).settleEntry (by simpa [World.execAt_dropEntry, h.machine] using h2) (by simpa using h3) _
  | stopped reason threadId description =>
    rw [step_stopped x w h.observed]
    split
    · exact h.log _
    · rename_i hs
      have hlive : (w.execAt x).current.isTerminated = false := by
        simpa using (Bool.or_eq_false_iff.1 (Bool.eq_false_iff.2 hs)).1
      exact h.acceptStop hlive rfl _
  | waitForStop timeout =>
    rw [step_waitForStop]
    cases (w.execAt x).current with
    | notStarted => exact h.stopWait timeout
    | running => exact h.stopWait timeout
    | stopped r t d => exact h.done _
    | terminated => exact h.done _
  | terminate =>
    rw [step_terminate x w h.observed]
    exact h.terminate
  | shutdown f =>
    rw [step_shutdown x w h.observed]
    exact h.terminate.withoutSink.failBook f
  | expire id =>
    cases hf : w.loop.timers.find? (·.id == id) with
    | none =>
      rw [step_expire_none x w hf]
      exact h
    | some t =>
      have ht := List.mem_of_find?_eq_some hf
      have hid : t.id = id := by simpa using List.find?_some hf
      obtain ⟨-, ⟨s, q, label, ms, htask, -⟩ | ⟨q, ms, htask, -⟩⟩ := h.timers t ht
      · rw [step_expire_slot x w hf htask, ← hid]
        exact h.expire ht htask
      · rw [step_expire_stop x w hf htask, ← hid]
        exact h.stopExpired ht htask
  | turn =>
    have ht := h.turns
    cases hsch : (w.inboxAt (w.execAt x).inbox).scheduled
    · rw [step_turn_idle x w (by simpa [hsch] using ht)]
      exact h
    · simp only [hsch, if_true] at ht
      rw [step_turn x w ht (fun e he => by obtain ⟨s, o, rfl, -⟩ := h.errands e he; exact ⟨s, o, rfl⟩) h.opened]
      exact h.drain ht
  | job =>
    cases hj : w.loop.jobs with
    | nil =>
      rw [step_job_idle x w h.replies.ticks hj]
      exact h
    | cons j js =>
      obtain ⟨p, c, o, rfl, -⟩ := h.replies.jobs j (by simp [hj])
      rw [step_job x w h.replies.ticks hj]
      exact h.job hj _

/-- Every run keeps the shape. -/
theorem shape_run (h : Shape x w) (es : List Event) : Shape x (run x w es) := by
  induction es generalizing w with
  | nil => exact h
  | cons e es ih => exact ih (shape_step h e)

/-! ### Settled promises stay settled -/

theorem keeps_release (l : Loop Outcome Cont Turn) (ws : List Waiter) (o : Outcome) : l.Keeps (l.release ws o) :=
  fun _ _ h => l.outcome?_release_of_settled o ws h

theorem keeps_fillSlot (w : World) (s : Nat) (o : Except Fault Json) : w.loop.Keeps (w.fillSlot s o).loop := by
  by_cases hp : (w.slotAt s).state = .pending
  · rw [World.fillSlot_loop_of_pending s o hp]
    exact keeps_release _ _ _
  · rw [Act.fillSlot_settled w o hp]
    exact Loop.Keeps.refl _

theorem keeps_settleEntry (w : World) (c : PendingEntry) (o : Except Fault Json) :
    w.loop.Keeps (w.settleEntry c o).loop := by
  unfold World.settleEntry
  split
  · have := keeps_fillSlot (w.log (.debug s!"Owner context closed, settling command {c.id} ({c.command}) directly" none))
      c.slot o
    rwa [World.log_loop] at this
  · exact Loop.keeps_of_cells _ (World.enqueue_cells _ _)

theorem keeps_settleEntries (w : World) (f : Fault) (cs : List PendingEntry) :
    w.loop.Keeps (cs.foldl (fun w c => w.settleEntry c (.error f)) w).loop := by
  induction cs generalizing w with
  | nil => exact Loop.Keeps.refl _
  | cons c cs ih => exact (keeps_settleEntry w c _).trans (ih _)

theorem keeps_settleQueued (w : World) (xs : List Errand) : w.loop.Keeps (w.settleQueued xs).loop := by
  induction xs generalizing w with
  | nil => exact Loop.Keeps.refl _
  | cons e xs ih =>
    cases e with
    | settleSlot s o => exact (keeps_fillSlot w s o).trans (ih _)
    | _ => exact ih w

theorem keeps_waitOn (w : World) (s : Nat) (t : Option Json) (label : String) :
    w.loop.Keeps (w.waitOn s t label).loop := by
  cases t with
  | none => exact w.loop.keeps_fresh
  | some ms => exact w.loop.keeps_fresh.trans (Loop.keeps_after _ _ _)

theorem keeps_stopWait (w : World) (t : Option Json) : w.loop.Keeps (w.stopWait x t).loop := by
  cases t with
  | none => exact w.loop.keeps_fresh
  | some ms => exact w.loop.keeps_fresh.trans (Loop.keeps_after _ _ _)

theorem keeps_terminate (w : World) : w.loop.Keeps (w.terminate x).loop := by
  unfold World.terminate
  split <;> exact keeps_release _ _ _

theorem keeps_requestWritten (w : World) (command : String) (args timeout : Option Json) :
    w.loop.Keeps (w.requestWritten x command args timeout).loop :=
  w.loop.keeps_fresh.trans ((keeps_waitOn (((w.setLoop w.loop.fresh.2).register x command (w.execAt x).inbox).note
    (.wrote (Act.requestMessage command (w.nextEntry x command (w.execAt x).inbox).id args))) _ _ _).trans
    (Loop.keeps_listen _ _ _))

theorem keeps_requestRefused (w : World) (command : String) : w.loop.Keeps (w.requestRefused x command).loop :=
  w.loop.keeps_fresh.trans ((keeps_settleEntry ((((w.setLoop w.loop.fresh.2).register x command
    (w.execAt x).inbox).dropEntry x (w.nextEntry x command (w.execAt x).inbox).id)) _ _).trans
    (Loop.keeps_settle _ _ _))

/-- A promise once settled keeps its outcome through every event. -/
theorem keeps_step (h : Shape x w) (e : Event) : w.loop.Keeps (step x w e).loop := by
  cases e with
  | attach r => exact Loop.Keeps.refl _
  | start =>
    rw [step_start]
    split <;> exact Loop.Keeps.refl _
  | resume t =>
    rw [step_resume x w h.recording]
    cases Act.liveFault (w.execAt x).current "continue" with
    | some f => exact Loop.keeps_done _ _
    | none =>
      by_cases hs : (w.execAt x).current.isStopped = true
      · simp only [hs, if_true]
        cases Act.writeFault (w.execAt x).sink <;> exact Loop.keeps_done _ _
      · simp only [hs, if_false, Bool.false_eq_true]
        exact Loop.keeps_done _ _
  | step kind t extra =>
    rw [step_step x w h.recording]
    cases Act.liveFault (w.execAt x).current kind with
    | some f => exact Loop.keeps_done _ _
    | none =>
      by_cases hs : (w.execAt x).current.isStopped = true
      · simp only [hs, if_true]
        cases Act.writeFault (w.execAt x).sink <;> exact Loop.keeps_done _ _
      · simp only [hs, if_false, Bool.false_eq_true, World.done_loop, World.log_loop]
        exact Loop.keeps_done _ _
  | pause t =>
    rw [step_pause x w h.recording]
    cases Act.liveFault (w.execAt x).current "pause" with
    | some f => exact Loop.keeps_done _ _
    | none =>
      by_cases hs : (w.execAt x).current.isStopped = true
      · simp only [hs, if_true]
        exact Loop.keeps_done _ _
      · simp only [hs, if_false, Bool.false_eq_true]
        cases Act.writeFault (w.execAt x).sink <;> exact Loop.keeps_done _ _
  | request command args timeout =>
    rw [step_request x w h.machine h.recording]
    cases Act.liveFault (w.execAt x).current command with
    | some f => exact Loop.keeps_done _ _
    | none =>
      simp only
      split
      · exact Loop.keeps_done _ _
      · exact keeps_requestRefused w command
      · exact keeps_requestWritten w command args timeout
  | reply m =>
    rw [step_reply]
    cases Act.replyId m with
    | none => exact Loop.Keeps.refl _
    | some n =>
      simp only
      cases (w.execAt x).book.entries.find? (·.id == n) with
      | none => exact Loop.Keeps.refl _
      | some c => exact keeps_settleEntry (w.dropEntry x n) c _
  | stopped reason threadId description =>
    rw [step_stopped x w h.observed]
    split
    · rw [World.log_loop]
      exact Loop.Keeps.refl _
    · exact keeps_release _ _ _
  | waitForStop timeout =>
    rw [step_waitForStop]
    cases (w.execAt x).current with
    | notStarted => exact keeps_stopWait w timeout
    | running => exact keeps_stopWait w timeout
    | stopped r t d => exact Loop.keeps_done _ _
    | terminated => exact Loop.keeps_done _ _
  | terminate =>
    rw [step_terminate x w h.observed]
    exact keeps_terminate w
  | shutdown f =>
    rw [step_shutdown x w h.observed]
    exact (keeps_terminate w).trans (keeps_settleEntries (((w.terminate x).withExec x fun e => { e with sink := none }).withExec x
      fun e => { e with book := { e.book with entries := [] } }) f _)
  | expire id =>
    cases hf : w.loop.timers.find? (·.id == id) with
    | none =>
      rw [step_expire_none x w hf]
      exact Loop.Keeps.refl _
    | some t =>
      obtain ⟨-, ⟨s, q, label, ms, htask, -⟩ | ⟨q, ms, htask, -⟩⟩ := h.timers t (List.mem_of_find?_eq_some hf)
      · rw [step_expire_slot x w hf htask]
        exact (Loop.keeps_of_cells _ rfl).trans (Loop.keeps_settle (w.loop.cancel id) _ _)
      · rw [step_expire_stop x w hf htask]
        exact (Loop.keeps_of_cells _ rfl).trans (Loop.keeps_settle (w.loop.cancel id) _ _)
  | turn =>
    have ht := h.turns
    cases hsch : (w.inboxAt (w.execAt x).inbox).scheduled
    · rw [step_turn_idle x w (by simpa [hsch] using ht)]
      exact Loop.Keeps.refl _
    · simp only [hsch, if_true] at ht
      rw [step_turn x w ht (fun e he => by obtain ⟨s, o, rfl, -⟩ := h.errands e he; exact ⟨s, o, rfl⟩) h.opened]
      unfold World.drained
      refine Loop.Keeps.trans ?_ (keeps_settleQueued ((w.setLoop { w.loop with turns := [] }).withInbox
        (w.execAt x).inbox fun b => { b with scheduled := false, queue := [] }) _)
      exact Loop.keeps_of_cells _ rfl
  | job =>
    cases hj : w.loop.jobs with
    | nil =>
      rw [step_job_idle x w h.replies.ticks hj]
      exact Loop.Keeps.refl _
    | cons j js =>
      obtain ⟨p, c, o, rfl, -⟩ := h.replies.jobs j (by simp [hj])
      rw [step_job x w h.replies.ticks hj]
      exact (Loop.keeps_of_cells _ rfl).trans (Loop.keeps_settle { w.loop with jobs := js } _ _)

/-- A promise once settled keeps its outcome through every run. -/
theorem keeps_run (h : Shape x w) (es : List Event) : w.loop.Keeps (run x w es).loop := by
  induction es generalizing w with
  | nil => exact Loop.Keeps.refl _
  | cons e es ih => exact (keeps_step h e).trans (ih (shape_step h e))

/-! ### The machine as a bench makes it -/

/-- A bench's run/stop machine as it is made: machine `0`, not started, with no sink, an empty
book and a context of its own, its commands timing out after `timeout`. -/
def bench (host : Host) (style : LogStyle) (timeout : Json) : World :=
  (Bench.world host style).exec (discard (Bench.machine timeout))

theorem shape_bench (host : Host) (style : LogStyle) (timeout : Json) : Shape 0 (bench host style timeout) := by
  have he : (bench host style timeout).execAt 0 =
      ⟨.notStarted, none, .empty, 0, Registry.create firstReference, .empty, [], false, 0, timeout, .observer⟩ := rfl
  have hl : (bench host style timeout).loop = Loop.empty := rfl
  have hi : (bench host style timeout).inboxAt 0 = ⟨"session", [], false, false⟩ := rfl
  -- there are no slots, so nobody waits on one
  have hs : ∀ s, ((bench host style timeout).slotAt s).waiters = [] := fun s => by
    simp [World.slotAt, show (bench host style timeout).slots = #[] from rfl]
    rfl
  refine ⟨⟨Nat.zero_lt_one, by rw [he], ?_, by rw [he]; rfl, ?_, by rw [he]; exact Nat.zero_lt_one, by rw [he, hi],
    ?_, ?_, by rw [hl, he, hi]; rfl⟩, ⟨?_, ?_, ?_, ?_, ?_, by rw [he]; exact List.nodup_nil, ?_, ?_⟩⟩
  · intro s hs'
    rw [he] at hs'
    cases hs'
  · intro c hc
    rw [he] at hc
    cases hc
  · intro e he'
    rw [he, hi] at he'
    cases he'
  · intro hq
    rw [he, hi] at hq
    exact absurd rfl hq
  · rw [hl]
    refine ⟨rfl, fun j hj => ?_, fun q rs hq => ?_⟩
    · cases hj
    · simp [Loop.empty] at hq
  · intro s wt hwt
    rw [hs] at hwt
    cases hwt
  · intro s _ wt _ hwt
    rw [hs] at hwt
    cases hwt
  · intro p hp
    rw [hl] at hp
    rcases hp with ⟨c, o, hj⟩ | ⟨q, rs, c, hq, -⟩
    · cases hj
    · simp [Loop.empty] at hq
  · intro wt hwt
    rw [he] at hwt
    cases hwt
  · intro t ht
    rw [hl] at ht
    cases ht
  · rw [he]
    refine ⟨fun s wt hwt => ?_, fun wt hwt => ?_⟩
    · rw [hs] at hwt
      cases hwt
    · cases hwt

end Frames

end RunStop

end DapBridge
