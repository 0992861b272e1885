import DapBridge.Proofs.Machine
import DapBridge.Proofs.Numbering

/-!
# The life of a run/stop machine

What a bench's run/stop machine does with its run/stop state, its stop count, its notice of
termination and its stop waiters, over every run of events.

* The state after a run depends on the events alone: it is a fold of `next` over them
  (`current_run`), and `next` never leaves `terminated` (`terminated_run`).
* The stop count grows by one for each stop the machine accepts, a stop while it runs or is
  stopped (`stops_run`).
* The observer hears of termination once in a run that terminates and never in one that does
  not (`terminations_bench`).
* Before the start and after the end, `continue`, the steps, `pause` and requests are refused
  with a new failed promise and nothing else (`refused_step`).
* A stop wait made while the machine is stopped resolves at once with that stop, and one made
  after the end fails at once. Any other is a stop waiter, which leaves with the next accepted
  stop, with the fault of termination, or with its own deadline, whichever comes first, and
  keeps that outcome (`stopWaiter_run`).

Each fact about a run comes from one about a step, read off `effect_step`: every event is
calm (it leaves state, stop count, stop waiters and notices alone) or is one of five effects.
-/

namespace DapBridge

/-- A notice that tells of termination. -/
def Note.isTermination : Note → Bool
  | .emitted j => (j.field? "terminated").isSome
  | _ => false

namespace World

/-- How often the trace tells of termination. -/
def terminations (w : World) : Nat := w.trace.countP Note.isTermination

variable (w : World)

@[simp] theorem terminations_note (n : Note) :
    (w.note n).terminations = w.terminations + if n.isTermination then 1 else 0 := by
  simp [terminations, List.countP_cons]

@[simp] theorem terminations_log (d : Diagnostic) : (w.log d).terminations = w.terminations := by
  unfold log
  split <;> simp [Note.isTermination]

theorem fillSlot_trace (s : Nat) (o : Except Fault Json) : (w.fillSlot s o).trace = w.trace := by
  unfold fillSlot
  split <;> rfl

theorem waitOn_trace (s : Nat) (t : Option Json) (label : String) : (w.waitOn s t label).trace = w.trace := by
  cases t <;> rfl

end World

namespace RunStop

/-! ## The run/stop state as a function of the events -/

/-- The run/stop state an event leaves: a start, a resumption of a stopped machine, an accepted
stop and the end change it, and nothing else does. -/
def next (s : ExecState) : Event → ExecState
  | .start => if s.isNotStarted then .running else s
  | .resume _ => if s.isStopped then .running else s
  | .step .. => if s.isStopped then .running else s
  | .stopped r t d => if s.isTerminated || s.isNotStarted then s else Act.stopOf r t d
  | .terminate => .terminated
  | .shutdown _ => .terminated
  | _ => s

/-- A stop is accepted by a machine that has started and not ended. -/
def accepts (s : ExecState) : Event → Bool
  | .stopped .. => !(s.isTerminated || s.isNotStarted)
  | _ => false

/-- How many stops a run accepts, from state `s`. -/
def acceptedStops : ExecState → List Event → Nat
  | _, [] => 0
  | s, e :: es => (if accepts s e then 1 else 0) + acceptedStops (next s e) es

@[simp] theorem next_terminated (e : Event) : next .terminated e = .terminated := by
  cases e <;> rfl

theorem foldl_next_terminated (es : List Event) : es.foldl next .terminated = .terminated := by
  induction es with
  | nil => rfl
  | cons e es ih => rw [List.foldl_cons, next_terminated, ih]

/-! ## Calm effects -/

/-- An effect that leaves machine `x`'s run/stop state, stop count and stop waiters alone, tells
nobody of termination, and keeps every settled promise. -/
structure Calm (x : Nat) (w w' : World) : Prop where
  current : (w'.execAt x).current = (w.execAt x).current
  stops : (w'.execAt x).stops = (w.execAt x).stops
  terminations : w'.terminations = w.terminations
  stopWaiters : ∀ wt ∈ (w.execAt x).stopWaiters, wt ∈ (w'.execAt x).stopWaiters
  keeps : w.loop.Keeps w'.loop

namespace Calm

variable {x : Nat} {w w' w'' : World}

theorem refl (x : Nat) (w : World) : Calm x w w := ⟨rfl, rfl, rfl, fun _ h => h, Loop.Keeps.refl _⟩

theorem trans (h₁ : Calm x w w') (h₂ : Calm x w' w'') : Calm x w w'' :=
  ⟨h₂.current.trans h₁.current, h₂.stops.trans h₁.stops, h₂.terminations.trans h₁.terminations,
    fun wt hw => h₂.stopWaiters wt (h₁.stopWaiters wt hw), h₁.keeps.trans h₂.keeps⟩

/-- An effect that leaves the machine's record and the notices alone. -/
theorem of_eq (he : w'.execAt x = w.execAt x) (ht : w'.terminations = w.terminations)
    (hl : w.loop.Keeps w'.loop) : Calm x w w' :=
  ⟨by rw [he], by rw [he], ht, fun wt hw => by rw [he]; exact hw, hl⟩

/-- A change of a machine's record that keeps its state, its stop count and its stop waiters,
and perhaps adds more. -/
theorem withExec (i : Nat) (f : Execution → Execution)
    (hf : ∀ e, (f e).current = e.current ∧ (f e).stops = e.stops ∧ ∀ wt ∈ e.stopWaiters, wt ∈ (f e).stopWaiters) :
    Calm x w (w.withExec i f) := by
  by_cases hi : i = x ∧ x < w.execs.size
  · have he : (w.withExec i f).execAt x = f (w.execAt x) := by rw [World.execAt_withExec, if_pos hi]
    exact ⟨by rw [he, (hf _).1], by rw [he, (hf _).2.1], rfl, fun wt hw => by rw [he]; exact (hf _).2.2 wt hw,
      Loop.Keeps.refl _⟩
  · exact of_eq (by rw [World.execAt_withExec, if_neg hi]) rfl (Loop.Keeps.refl _)

theorem done (o : Outcome) : Calm x w (w.done o) := of_eq rfl rfl (w.loop.keeps_done o)

theorem note {n : Note} (hn : n.isTermination = false) : Calm x w (w.note n) :=
  of_eq rfl (by simp [hn]) (Loop.Keeps.refl _)

/-- A command written. -/
theorem wrote (j : Json) : Calm x w (w.note (.wrote j)) := note rfl

theorem log (d : Diagnostic) : Calm x w (w.log d) :=
  of_eq (World.execAt_log w x d) (World.terminations_log w d) (by rw [World.log_loop]; exact Loop.Keeps.refl _)

theorem fillSlot (s : Nat) (o : Except Fault Json) : Calm x w (w.fillSlot s o) :=
  of_eq (World.execAt_fillSlot s o x) (by simp [World.terminations, World.fillSlot_trace]) (keeps_fillSlot w s o)

theorem enqueue (i : Nat) (e : Errand) : Calm x w (w.enqueue i e) :=
  of_eq (World.execAt_enqueue i e x) (by simp [World.terminations, World.enqueue_trace])
    (Loop.keeps_of_cells _ (World.enqueue_cells i e))

theorem settleEntry (c : PendingEntry) (o : Except Fault Json) : Calm x w (w.settleEntry c o) := by
  unfold World.settleEntry
  split
  · exact (log _).trans (fillSlot _ _)
  · exact enqueue _ _

theorem settleEntries (f : Fault) (cs : List PendingEntry) :
    Calm x w (cs.foldl (fun w c => w.settleEntry c (.error f)) w) := by
  induction cs generalizing w with
  | nil => exact refl x w
  | cons c cs ih => exact (settleEntry c _).trans ih

theorem settleQueued (xs : List Errand) : Calm x w (w.settleQueued xs) := by
  induction xs generalizing w with
  | nil => exact refl x w
  | cons e xs ih =>
    cases e with
    | settleSlot s o => exact (fillSlot s o).trans ih
    | _ => exact ih

theorem waitOn (s : Nat) (t : Option Json) (label : String) : Calm x w (w.waitOn s t label) :=
  of_eq (World.execAt_waitOn s t label x) (by simp [World.terminations, World.waitOn_trace]) (keeps_waitOn w s t label)

/-- New slots. -/
theorem slots (s : Array Slot) : Calm x w { w with slots := s } := of_eq rfl rfl (Loop.Keeps.refl _)

theorem register (y : Nat) (command : String) (owner : Nat) : Calm x w (w.register y command owner) := by
  unfold World.register
  refine (slots _).trans (withExec y _ ?_)
  exact fun _ => ⟨rfl, rfl, fun _ h => h⟩

theorem dropEntry (y : Nat) (id : Double) : Calm x w (w.dropEntry y id) := withExec y _ fun _ => ⟨rfl, rfl, fun _ h => h⟩

theorem setLoop {l : Loop Outcome Cont Turn} (hl : w.loop.Keeps l) : Calm x w (w.setLoop l) := of_eq rfl rfl hl

theorem requestWritten (command : String) (args timeout : Option Json) :
    Calm x w (w.requestWritten x command args timeout) := by
  have h₁ : Calm x w (((w.setLoop w.loop.fresh.2).register x command (w.execAt x).inbox).note
      (.wrote (Act.requestMessage command (w.nextEntry x command (w.execAt x).inbox).id args))) :=
    ((setLoop w.loop.keeps_fresh).trans (register x command _)).trans (wrote _)
  unfold World.requestWritten
  exact (h₁.trans (waitOn _ _ _)).trans (setLoop (Loop.keeps_listen _ _ _))

theorem requestRefused (command : String) : Calm x w (w.requestRefused x command) := by
  have h₁ : Calm x w (((w.setLoop w.loop.fresh.2).register x command (w.execAt x).inbox).dropEntry x
      (w.nextEntry x command (w.execAt x).inbox).id) :=
    ((setLoop w.loop.keeps_fresh).trans (register x command _)).trans (dropEntry _ _)
  unfold World.requestRefused
  exact (h₁.trans (settleEntry _ _)).trans (setLoop (Loop.keeps_settle _ _ _))

theorem stopWait (t : Option Json) : Calm x w (w.stopWait x t) := by
  have hl : w.loop.Keeps (w.stopWait x t).loop := keeps_stopWait w t
  unfold World.stopWait at hl ⊢
  exact (setLoop hl).trans (withExec x _ fun _ => ⟨rfl, rfl, fun _ h => List.mem_append_left _ h⟩)

theorem expire (s p id : Nat) (label : String) (ms : Json) : Calm x w (w.expire s p id label ms) :=
  of_eq rfl rfl ((Loop.keeps_of_cells _ rfl).trans (Loop.keeps_settle (w.loop.cancel id) _ _))

theorem withInbox (i : Nat) (f : Inbox → Inbox) : Calm x w (w.withInbox i f) := of_eq rfl rfl (Loop.Keeps.refl _)

theorem drained (i : Nat) : Calm x w (w.drained i) := by
  unfold World.drained
  exact (withInbox _ _).trans (settleQueued _)

end Calm

/-! ## What an event does to the machine's record -/

/-- What one event does to machine `x`'s record: nothing it shows, or one of five things. -/
inductive Effect (x : Nat) (w : World) : Event → World → Prop
  /-- The state, the stop count, the stop waiters and the notices stay. -/
  | calm {e : Event} {w' : World} : next (w.execAt x).current e = (w.execAt x).current →
      accepts (w.execAt x).current e = false → Calm x w w' → Effect x w e w'
  /-- A machine that had not started starts. -/
  | start : (w.execAt x).current = .notStarted →
      Effect x w .start (w.withExec x fun e => { e with current := .running })
  /-- A stopped machine is resumed: it runs again before its command goes out. -/
  | resume {e : Event} {w' : World} : (w.execAt x).current.isStopped = true →
      next (w.execAt x).current e = .running → accepts (w.execAt x).current e = false →
      Calm x (w.runAgain x) w' → Effect x w e w'
  /-- A stop is accepted. -/
  | stop {r t d : Option Json} : accepts (w.execAt x).current (.stopped r t d) = true →
      Effect x w (.stopped r t d) (w.acceptStop x (Act.stopOf r t d) ((t.filter (!·.isNull)).getD (.num 1)))
  /-- The machine ends, by termination or shutdown. -/
  | finish {e : Event} {w' : World} : (e = .terminate ∨ ∃ f, e = .shutdown f) → Calm x (w.terminate x) w' →
      Effect x w e w'
  /-- A stop wait's deadline runs out. -/
  | expire {id p : Nat} {t : Timer Turn} {ms : Json} : t ∈ w.loop.timers → t.id = id →
      t.task = .stopTimeout x p ms → Effect x w (.expire id) ((w.setLoop (w.loop.cancel id)).stopExpired x p ms)

/-- A machine that refuses a call for want of life is not stopped. -/
theorem isStopped_of_liveFault {s : ExecState} {op : String} {f : Fault} (h : Act.liveFault s op = some f) :
    s.isStopped = false := by
  cases s <;> simp_all [Act.liveFault, ExecState.isStopped]

variable {x : Nat} {w : World}

/-- Every event is calm or one of the five effects. -/
theorem effect_step (h : Shape x w) (e : Event) : Effect x w e (step x w e) := by
  cases e with
  | attach r => exact .calm rfl rfl (Calm.withExec x _ fun _ => ⟨rfl, rfl, fun _ h => h⟩)
  | start =>
    rw [step_start]
    split
    · rename_i hs
      refine .start ?_
      revert hs
      cases (w.execAt x).current <;> simp [ExecState.isNotStarted]
    · rename_i hs
      exact .calm (by simp [next, hs]) rfl (Calm.refl x w)
  | resume t =>
    rw [step_resume x w h.recording]
    cases hl : Act.liveFault (w.execAt x).current "continue" with
    | some f => exact .calm (by simp [next, isStopped_of_liveFault hl]) rfl (Calm.done _)
    | none =>
      by_cases hs : (w.execAt x).current.isStopped = true
      · simp only [hs, if_true]
        refine .resume hs (by simp [next, hs]) rfl ?_
        cases Act.writeFault (w.execAt x).sink with
        | some f => exact Calm.done _
        | none => exact (Calm.wrote _).trans (Calm.done _)
      · simp only [hs, if_false, Bool.false_eq_true]
        exact .calm (by simp [next, hs]) rfl (Calm.done _)
  | step kind t extra =>
    rw [step_step x w h.recording]
    cases hl : Act.liveFault (w.execAt x).current kind with
    | some f => exact .calm (by simp [next, isStopped_of_liveFault hl]) rfl (Calm.done _)
    | none =>
      by_cases hs : (w.execAt x).current.isStopped = true
      · simp only [hs, if_true]
        refine .resume hs (by simp [next, hs]) rfl ?_
        cases Act.writeFault (w.execAt x).sink with
        | some f => exact Calm.done _
        | none => exact (Calm.wrote _).trans (Calm.done _)
      · simp only [hs, if_false, Bool.false_eq_true]
        exact .calm (by simp [next, hs]) rfl ((Calm.log _).trans (Calm.done _))
  | pause t =>
    refine .calm rfl rfl ?_
    rw [step_pause x w h.recording]
    cases Act.liveFault (w.execAt x).current "pause" with
    | some f => exact Calm.done _
    | none =>
      by_cases hs : (w.execAt x).current.isStopped = true
      · simp only [hs, if_true]
        exact Calm.done _
      · simp only [hs, if_false, Bool.false_eq_true]
        cases Act.writeFault (w.execAt x).sink with
        | some f => exact Calm.done _
        | none => exact (Calm.wrote _).trans (Calm.done _)
  | request command args timeout =>
    refine .calm rfl rfl ?_
    rw [step_request x w h.machine h.recording]
    cases Act.liveFault (w.execAt x).current command with
    | some f => exact Calm.done _
    | none =>
      simp only
      split
      · exact Calm.done _
      · exact Calm.requestRefused command
      · exact Calm.requestWritten command args timeout
  | reply m =>
    refine .calm rfl rfl ?_
    rw [step_reply]
    cases Act.replyId m with
    | none => exact Calm.refl x w
    | some n =>
      simp only
      cases (w.execAt x).book.entries.find? (·.id == n) with
      | none => exact Calm.refl x w
      | some c => exact (Calm.dropEntry x n).trans (Calm.settleEntry c _)
  | stopped reason threadId description =>
    rw [step_stopped x w h.observed]
    split
    · rename_i hs
      exact .calm (by simp [next, hs]) (by simp [accepts, hs]) (Calm.log _)
    · rename_i hs
      exact .stop (by simpa [accepts] using hs)
  | waitForStop timeout =>
    refine .calm rfl rfl ?_
    rw [step_waitForStop]
    cases (w.execAt x).current with
    | notStarted => exact Calm.stopWait timeout
    | running => exact Calm.stopWait timeout
    | stopped r t d => exact Calm.done _
    | terminated => exact Calm.done _
  | terminate =>
    rw [step_terminate x w h.observed]
    exact .finish (.inl rfl) (Calm.refl x _)
  | shutdown f =>
    rw [step_shutdown x w h.observed]
    dsimp only
    refine .finish (.inr ⟨f, rfl⟩) (((Calm.withExec x _ ?_).trans (Calm.withExec x _ ?_)).trans
      (Calm.settleEntries f _)) <;>
      exact fun _ => ⟨rfl, rfl, fun _ h => h⟩
  | expire id =>
    cases hf : w.loop.timers.find? (·.id == id) with
    | none =>
      rw [step_expire_none x w hf]
      exact .calm rfl rfl (Calm.refl x w)
    | some t =>
      have ht := List.mem_of_find?_eq_some hf
      have hid : t.id = id := by simpa using List.find?_some hf
      obtain ⟨-, ⟨s, q, label, ms, htask, -⟩ | ⟨q, ms, htask, -⟩⟩ := h.timers t ht
      · rw [step_expire_slot x w hf htask]
        exact .calm rfl rfl (Calm.expire s q id label ms)
      · rw [step_expire_stop x w hf htask]
        exact .expire ht hid htask
  | turn =>
    refine .calm rfl rfl ?_
    have ht := h.turns
    cases hsch : (w.inboxAt (w.execAt x).inbox).scheduled
    · rw [step_turn_idle x w (by simpa [hsch] using ht)]
      exact Calm.refl x w
    · simp only [hsch, if_true] at ht
      rw [step_turn x w ht (fun e he => by obtain ⟨s, o, rfl, -⟩ := h.errands e he; exact ⟨s, o, rfl⟩) h.opened]
      refine (Calm.setLoop ?_).trans (Calm.drained _)
      exact Loop.keeps_of_cells _ rfl
  | job =>
    refine .calm rfl rfl ?_
    cases hj : w.loop.jobs with
    | nil =>
      rw [step_job_idle x w h.replies.ticks hj]
      exact Calm.refl x w
    | cons j js =>
      obtain ⟨p, c, o, rfl, -⟩ := h.replies.jobs j (by simp [hj])
      rw [step_job x w h.replies.ticks hj]
      exact Calm.setLoop ((Loop.keeps_of_cells _ rfl).trans (Loop.keeps_settle { w.loop with jobs := js } _ _))

/-! ## The state, the stop count and the notices -/

theorem World.terminations_terminate (w : World) (x : Nat) :
    (w.terminate x).terminations = w.terminations + if (w.execAt x).terminatedNotified then 0 else 1 := by
  unfold World.terminate
  split <;> simp [*, Note.isTermination] <;> rfl

namespace Effect

variable {e : Event} {w' : World}

/-- An ending event leaves the machine terminated and accepts no stop. -/
theorem next_of_finish {s : ExecState} (he : e = .terminate ∨ ∃ f, e = .shutdown f) :
    next s e = .terminated ∧ accepts s e = false := by
  rcases he with rfl | ⟨f, rfl⟩ <;> exact ⟨rfl, rfl⟩

/-- An accepted stop puts the machine in the state it reports. -/
theorem next_of_accepts {s : ExecState} {r t d : Option Json} (ha : accepts s (.stopped r t d) = true) :
    next s (.stopped r t d) = Act.stopOf r t d := by
  have hs : (s.isTerminated || s.isNotStarted) = false := by simpa [accepts] using ha
  simp [next, hs]

theorem current (he : Effect x w e w') (h : Shape x w) : (w'.execAt x).current = next (w.execAt x).current e := by
  cases he with
  | calm hn _ hc => rw [hc.current, hn]
  | start hs => simp [h.machine, next, hs, ExecState.isNotStarted]
  | resume _ hn _ hc =>
    rw [hc.current, hn]
    simp [World.runAgain, h.machine]
  | stop ha =>
    rw [next_of_accepts ha]
    simp [World.acceptStop, h.machine]
  | finish hev hc =>
    rw [hc.current, (next_of_finish hev).1]
    unfold World.terminate
    split <;> simp [h.machine]
  | expire => simp [World.stopExpired, h.machine, next]

theorem stops (he : Effect x w e w') (h : Shape x w) :
    (w'.execAt x).stops = if accepts (w.execAt x).current e then (w.execAt x).stops + 1 else (w.execAt x).stops := by
  cases he with
  | calm _ ha hc => simp [hc.stops, ha]
  | start hs => simp [h.machine, accepts]
  | resume _ _ ha hc => simp [hc.stops, ha, World.runAgain, h.machine]
  | stop ha => simp [ha, World.acceptStop, h.machine]
  | finish hev hc =>
    rw [hc.stops, (next_of_finish hev).2]
    unfold World.terminate
    split <;> simp [h.machine]
  | expire => simp [World.stopExpired, h.machine, accepts]

/-- The observer hears of termination when the machine ends for the first time, and only then. -/
theorem terminations (he : Effect x w e w') (h : Shape x w) : w'.terminations = w.terminations +
    if (next (w.execAt x).current e).isTerminated && !(w.execAt x).current.isTerminated then 1 else 0 := by
  cases he with
  | calm hn _ hc => simp [hc.terminations, hn]
  | start hs => simp [next, hs, ExecState.isTerminated, ExecState.isNotStarted, World.terminations]
  | resume _ hn _ hc =>
    rw [hc.terminations, hn]
    simp [World.runAgain, World.terminations, ExecState.isTerminated]
  | stop ha =>
    -- the notice of a stop is no notice of termination
    rw [next_of_accepts ha]
    unfold World.acceptStop
    rw [World.terminations_note]
    rfl
  | finish hev hc =>
    rw [hc.terminations, (next_of_finish hev).1, World.terminations_terminate, h.notified]
    cases (w.execAt x).current.isTerminated <;> rfl
  | expire => simp [World.stopExpired, World.terminations, next]

end Effect

theorem current_step (h : Shape x w) (e : Event) : ((step x w e).execAt x).current = next (w.execAt x).current e :=
  (effect_step h e).current h

/-- The state after a run is the fold of `next` over its events. -/
theorem current_run (h : Shape x w) (es : List Event) :
    ((run x w es).execAt x).current = es.foldl next (w.execAt x).current := by
  induction es generalizing w with
  | nil => rfl
  | cons e es ih => rw [run_cons, ih (shape_step h e), current_step h e, List.foldl_cons]

/-- A terminated machine stays terminated. -/
theorem terminated_run (h : Shape x w) (ht : (w.execAt x).current = .terminated) (es : List Event) :
    ((run x w es).execAt x).current = .terminated := by
  rw [current_run h, ht, foldl_next_terminated]

/-- Counting by one from `0` gives `n` exactly while `n ≤ 2^53`; the stop count is such a count. -/
theorem Double.iterate_add_one_zero {n : Nat} (h : n ≤ 2 ^ 53) : (· + 1)^[n] (0 : Double) = Double.ofNat n := by
  have hzero : Double.ofInt 0 = 0 := Double.ofInt_of_nonneg le_rfl
  have hcount := Double.iterate_add_one_ofInt (s := 0) (by norm_num) n (by omega)
  rw [hzero] at hcount
  rw [hcount, Double.ofInt_of_nonneg (by omega)]
  congr 1
  omega

/-- The stop count moves on by one for each stop the run accepts. -/
theorem stops_run (h : Shape x w) (es : List Event) :
    ((run x w es).execAt x).stops = (· + 1)^[acceptedStops (w.execAt x).current es] (w.execAt x).stops := by
  induction es generalizing w with
  | nil => rfl
  | cons e es ih =>
    rw [run_cons, ih (shape_step h e), (effect_step h e).stops h, current_step h e, acceptedStops]
    by_cases ha : accepts (w.execAt x).current e = true
    · -- the accepted stop is the first step of the count
      simp only [ha, if_true]
      rw [Nat.add_comm, Function.iterate_add_apply, Function.iterate_one]
    · simp only [ha, Bool.false_eq_true, if_false, Nat.zero_add]

/-- A run tells of termination once if it ends the machine, and never otherwise. -/
theorem terminations_run (h : Shape x w) (es : List Event) : (run x w es).terminations = w.terminations +
    if (es.foldl next (w.execAt x).current).isTerminated && !(w.execAt x).current.isTerminated then 1 else 0 := by
  induction es generalizing w with
  | nil => simp
  | cons e es ih =>
    rw [run_cons, ih (shape_step h e), (effect_step h e).terminations h, current_step h e, List.foldl_cons]
    -- once the first event ends the machine, the rest of the run keeps it ended
    cases hs : (w.execAt x).current.isTerminated
    · cases hn : (next (w.execAt x).current e).isTerminated
      · simp
      · have ht : next (w.execAt x).current e = .terminated := by
          revert hn
          cases next (w.execAt x).current e <;> simp [ExecState.isTerminated]
        simp [ht, foldl_next_terminated, ExecState.isTerminated]
    · have ht : (w.execAt x).current = .terminated := by
        revert hs
        cases (w.execAt x).current <;> simp [ExecState.isTerminated]
      simp [ht, foldl_next_terminated, ExecState.isTerminated]

/-! ## Stop waiters -/

/-- How event `e` ends stop waiter `wt` of machine `x` in world `w`, and with what outcome. -/
inductive StopEnd (x : Nat) (w : World) (wt : Waiter) : Event → Outcome → Prop
  /-- An accepted stop: the waiter hears the state it puts the machine in. -/
  | stop {r t d : Option Json} : accepts (w.execAt x).current (.stopped r t d) = true →
      StopEnd x w wt (.stopped r t d) (.ok (.json (Act.stopOf r t d).toJson))
  /-- Termination: the waiter fails. -/
  | terminate : StopEnd x w wt .terminate (.error Act.stopTerminatedFault)
  /-- A shutdown terminates the machine: the waiter fails the same way. -/
  | shutdown (f : Fault) : StopEnd x w wt (.shutdown f) (.error Act.stopTerminatedFault)
  /-- The waiter's own deadline runs out. -/
  | expire {id : Nat} {ms : Json} : wt.timer = some id →
      (∃ t ∈ w.loop.timers, t.id = id ∧ t.task = .stopTimeout x wt.promise ms) →
      StopEnd x w wt (.expire id) (.error (Act.noStopFault ms))

/-- A stop waiter waits on, or the event ends it and its promise has the outcome the end gives. -/
theorem Effect.stopWaiter {e : Event} {w' : World} (he : Effect x w e w') (h : Shape x w) {wt : Waiter}
    (hw : wt ∈ (w.execAt x).stopWaiters) :
    wt ∈ (w'.execAt x).stopWaiters ∨ ∃ o, StopEnd x w wt e o ∧ w'.loop.outcome? wt.promise = some o := by
  obtain ⟨hn, hp, -, -⟩ := h.stopWaiters wt hw
  cases he with
  | calm _ _ hc => exact .inl (hc.stopWaiters wt hw)
  | start hs => exact .inl (by simpa [h.machine] using hw)
  | resume _ _ _ hc => exact .inl (hc.stopWaiters wt (by simpa [World.runAgain, h.machine] using hw))
  | stop ha => exact .inr ⟨_, .stop ha, Loop.outcome?_release_of_mem w.loop _ _ hw hp hn⟩
  | finish hev hc =>
    -- termination releases every stop waiter, and the rest of a shutdown keeps outcomes
    have ho : (w.terminate x).loop.outcome? wt.promise = some (.error Act.stopTerminatedFault) := by
      unfold World.terminate
      split <;> exact Loop.outcome?_release_of_mem w.loop _ _ hw hp hn
    rcases hev with rfl | ⟨f, rfl⟩
    · exact .inr ⟨_, .terminate, hc.keeps _ _ ho⟩
    · exact .inr ⟨_, .shutdown f, hc.keeps _ _ ho⟩
  | @expire id p t ms ht hid htask =>
    have hown : (⟨p, some t.id⟩ : Waiter) ∈ (w.execAt x).stopWaiters := by
      obtain ⟨-, ⟨s, q, label, ms', htask', -⟩ | ⟨q, ms', htask', hq⟩⟩ := h.timers t ht
      · rw [htask] at htask'
        cases htask'
      · rw [htask] at htask'
        cases htask'
        exact hq
    by_cases hwp : wt.promise = p
    · -- the deadline is this waiter's own
      have hwt : wt = ⟨p, some t.id⟩ := h.stop_eq hw hown hwp
      refine .inr ⟨_, .expire (by rw [hwt, hid]) ⟨t, ht, hid, by rw [hwp]; exact htask⟩, ?_⟩
      show ((w.loop.cancel id).settle p _).outcome? wt.promise = _
      rw [hwp] at hp hn ⊢
      exact Loop.outcome?_settle_self (w.loop.cancel id) _ hp hn
    · exact .inl (by simpa [World.stopExpired, h.machine, hwp] using hw)

/-- What run `es` does to stop waiter `wt`: it waits on with its promise pending, or the first
event that ends it gives its promise the outcome it keeps. -/
def StopFate (x : Nat) (w : World) (wt : Waiter) (es : List Event) : Prop :=
  (wt ∈ ((run x w es).execAt x).stopWaiters ∧ (run x w es).loop.outcome? wt.promise = none) ∨
  ∃ es₁ e es₂ o, es = es₁ ++ e :: es₂ ∧ wt ∈ ((run x w es₁).execAt x).stopWaiters ∧
    StopEnd x (run x w es₁) wt e o ∧ (run x w es).loop.outcome? wt.promise = some o

theorem stopWaiter_run (h : Shape x w) {wt : Waiter} (hw : wt ∈ (w.execAt x).stopWaiters) (es : List Event) :
    StopFate x w wt es := by
  induction es generalizing w with
  | nil => exact .inl ⟨hw, (h.stopWaiters wt hw).1⟩
  | cons e es ih =>
    rcases (effect_step h e).stopWaiter h hw with hw' | ⟨o, hend, ho⟩
    · rcases ih (shape_step h e) hw' with hstay | ⟨es₁, e', es₂, o, rfl, hw₁, hend, ho⟩
      · exact .inl hstay
      · exact .inr ⟨e :: es₁, e', es₂, o, rfl, hw₁, hend, ho⟩
    · exact .inr ⟨[], e, es, o, rfl, hw, hend, keeps_run (shape_step h e) es _ _ ho⟩

/-! ## Stop waits -/

/-- A stop wait on a stopped machine resolves at once with its state, for good. -/
theorem waitForStop_stopped (h : Shape x w) (hs : (w.execAt x).current.isStopped = true) (t : Option Json)
    (es : List Event) : (run x (step x w (.waitForStop t)) es).loop.outcome? w.loop.cells.size =
      some (.ok (.json (w.execAt x).current.toJson)) := by
  have hw : step x w (.waitForStop t) = w.done (.ok (.json (w.execAt x).current.toJson)) := by
    rw [step_waitForStop]
    revert hs
    cases (w.execAt x).current <;> simp [ExecState.isStopped]
  refine keeps_run (shape_step h _) es _ _ ?_
  rw [hw]
  simp

/-- A stop wait on a terminated machine fails at once, for good. -/
theorem waitForStop_terminated (h : Shape x w) (hs : (w.execAt x).current = .terminated) (t : Option Json)
    (es : List Event) : (run x (step x w (.waitForStop t)) es).loop.outcome? w.loop.cells.size =
      some (.error Act.terminatedWaitFault) := by
  have hw : step x w (.waitForStop t) = w.done (.error Act.terminatedWaitFault) := by
    rw [step_waitForStop, hs]
  refine keeps_run (shape_step h _) es _ _ ?_
  rw [hw]
  simp

/-- A stop wait on a machine that runs or has not started is a new stop waiter, on the newest
promise. -/
theorem waitForStop_waits (h : Shape x w) (hs : (w.execAt x).current = .running ∨ (w.execAt x).current = .notStarted)
    (t : Option Json) : ∃ wt ∈ ((step x w (.waitForStop t)).execAt x).stopWaiters, wt.promise = w.loop.cells.size := by
  have hw : step x w (.waitForStop t) = w.stopWait x t := by
    rw [step_waitForStop]
    rcases hs with hs | hs <;> rw [hs]
  rw [hw]
  cases t with
  | none => exact ⟨⟨w.loop.cells.size, none⟩, by simp [World.stopWait, h.machine], rfl⟩
  | some ms => exact ⟨⟨w.loop.cells.size, some w.loop.fresh.2.nextTimer⟩, by simp [World.stopWait, h.machine], rfl⟩

/-! ## Calls that need a live machine -/

/-- The operation a call that needs a live machine names when it is refused. -/
def Event.operation : Event → Option String
  | .resume _ => some "continue"
  | .step kind _ _ => some kind
  | .pause _ => some "pause"
  | .request command _ _ => some command
  | _ => none

/-- Such calls are refused exactly before the start and after the end. -/
theorem liveFault_eq_some {s : ExecState} {op : String} {f : Fault} : Act.liveFault s op = some f ↔
    (s = .terminated ∧ f = .adapter (.state s!"Cannot {op}: the debuggee has terminated")) ∨
    (s = .notStarted ∧ f = .adapter (.operation "No debuggee process")) := by
  cases s <;> simp [Act.liveFault, eq_comm]

/-- A refused call gets a failed promise, and nothing else happens: nothing is written. -/
theorem refused_step (h : Shape x w) {e : Event} {op : String} {f : Fault} (he : e.operation = some op)
    (hf : Act.liveFault (w.execAt x).current op = some f) : step x w e = w.done (.error f) := by
  cases e <;> simp only [Event.operation, Option.some.injEq, reduceCtorEq] at he <;> subst he
  · rw [step_resume x w h.recording, hf]
  · rw [step_step x w h.recording, hf]
  · rw [step_pause x w h.recording, hf]
  · rw [step_request x w h.machine h.recording, hf]

/-! ## A bench's machine over any run -/

/-- On a bench's machine, the observer hears of termination once if the run terminates it, and
never otherwise. -/
theorem terminations_bench (host : Host) (style : LogStyle) (timeout : Json) (es : List Event) :
    (run 0 (bench host style timeout) es).terminations =
      if ((run 0 (bench host style timeout) es).execAt 0).current.isTerminated then 1 else 0 := by
  have h₀ := shape_bench host style timeout
  -- the bench starts with a silent trace and a machine that has not started
  have ht : (bench host style timeout).terminations = 0 := rfl
  have hc : ((bench host style timeout).execAt 0).current = .notStarted := rfl
  have hn : ExecState.notStarted.isTerminated = false := rfl
  rw [terminations_run h₀, current_run h₀, ht, hc]
  simp only [hn, Bool.not_false, Bool.and_true, Nat.zero_add]

/-- The life of a bench's run/stop machine over any run of events. Its state is the fold of
`next` over them, so once terminated it stays so; the observer hears of termination once if the
run terminates it and never otherwise; `continue`, the steps, `pause` and requests are refused
after the end and before the start, with a failed promise and nothing else; a stop wait on a
stopped machine resolves at once with its state, on a terminated one fails at once, and on any
other is a stop waiter that the first accepted stop, termination or its own deadline settles for
good; and the stop count is the number of stops accepted. -/
theorem lifecycle_bench (host : Host) (style : LogStyle) (timeout : Json) (es : List Event) :
    let w := run 0 (bench host style timeout) es
    (w.execAt 0).current = es.foldl next .notStarted ∧
    (∀ es', (w.execAt 0).current = .terminated → ((run 0 w es').execAt 0).current = .terminated) ∧
    w.terminations = (if (w.execAt 0).current.isTerminated then 1 else 0) ∧
    (∀ e op, e.operation = some op → (w.execAt 0).current = .terminated →
      step 0 w e = w.done (.error (.adapter (.state s!"Cannot {op}: the debuggee has terminated")))) ∧
    (∀ e op, e.operation = some op → (w.execAt 0).current = .notStarted →
      step 0 w e = w.done (.error (.adapter (.operation "No debuggee process")))) ∧
    (∀ t es', (w.execAt 0).current.isStopped = true →
      (run 0 (step 0 w (.waitForStop t)) es').loop.outcome? w.loop.cells.size =
        some (.ok (.json (w.execAt 0).current.toJson))) ∧
    (∀ t es', (w.execAt 0).current = .terminated →
      (run 0 (step 0 w (.waitForStop t)) es').loop.outcome? w.loop.cells.size =
        some (.error Act.terminatedWaitFault)) ∧
    (∀ t es', (w.execAt 0).current = .running ∨ (w.execAt 0).current = .notStarted →
      ∃ wt ∈ ((step 0 w (.waitForStop t)).execAt 0).stopWaiters, wt.promise = w.loop.cells.size ∧
        StopFate 0 (step 0 w (.waitForStop t)) wt es') ∧
    (w.execAt 0).stops = (· + 1)^[acceptedStops .notStarted es] 0 ∧
      (acceptedStops .notStarted es ≤ 2 ^ 53 → (w.execAt 0).stops = Double.ofNat (acceptedStops .notStarted es)) := by
  intro w
  have h₀ := shape_bench host style timeout
  have h := shape_run h₀ es
  refine ⟨current_run h₀ es, fun es' ht => terminated_run h ht es', terminations_bench host style timeout es,
    fun e op he ht => refused_step h he (liveFault_eq_some.2 (.inl ⟨ht, rfl⟩)),
    fun e op he ht => refused_step h he (liveFault_eq_some.2 (.inr ⟨ht, rfl⟩)),
    fun t es' hs => waitForStop_stopped h hs t es', fun t es' ht => waitForStop_terminated h ht t es',
    fun t es' hs => ?_, ?_⟩
  · obtain ⟨wt, hw, hp⟩ := waitForStop_waits h hs t
    exact ⟨wt, hw, hp, stopWaiter_run (shape_step h _) hw es'⟩
  · have hs : (w.execAt 0).stops = (· + 1)^[acceptedStops .notStarted es] 0 := stops_run h₀ es
    exact ⟨hs, fun hb => hs.trans (Double.iterate_add_one_zero hb)⟩

/-- A machine that stops, is told to terminate and is then shut down has terminated, told of it
once, and counted one stop. -/
theorem lifecycle_bench_stop_then_ends :
    let w := run 0 (bench ⟨0, fun _ => "", Path.hostTree, Validator.standard⟩ .plain .null)
      [.attach none, .start, .stopped none none none, .terminate, .shutdown Act.noSinkFault]
    (w.execAt 0).current = .terminated ∧ w.terminations = 1 ∧ (w.execAt 0).stops = 1 := by
  intro w
  obtain ⟨hc, -, ht, -, -, -, -, -, hs⟩ := lifecycle_bench ⟨0, fun _ => "", Path.hostTree, Validator.standard⟩ .plain .null
    [.attach none, .start, .stopped none none none, .terminate, .shutdown Act.noSinkFault]
  have hc' : (w.execAt 0).current = .terminated := hc.trans rfl
  exact ⟨hc', by rw [ht, hc']; rfl, (hs.2 (by decide)).trans rfl⟩

/-- A stop wait made while the machine is stopped does not wait for the next stop: it resolves
at once with the stop before it. The machine stops for `a`, a wait is made, the machine is
continued and stops for `b`, and the wait has resolved with `a`. -/
theorem stop_wait_resolves_with_earlier_stop :
    let w := run 0 (bench ⟨0, fun _ => "", Path.hostTree, Validator.standard⟩ .plain .null) [.attach none, .start, .stopped (some (.string "a")) none none]
    let w' := run 0 (step 0 w (.waitForStop none)) [.resume none, .stopped (some (.string "b")) none none]
    w'.loop.outcome? w.loop.cells.size = some (.ok (.json (Act.stopOf (some (.string "a")) none none).toJson)) ∧
    (w'.execAt 0).current = Act.stopOf (some (.string "b")) none none := by
  intro w w'
  have h₀ := shape_bench ⟨0, fun _ => "", Path.hostTree, Validator.standard⟩ .plain .null
  have h := shape_run h₀ [.attach none, .start, .stopped (some (.string "a")) none none]
  have hs : (w.execAt 0).current = Act.stopOf (some (.string "a")) none none := (current_run h₀ _).trans rfl
  refine ⟨?_, ?_⟩
  · rw [← hs]
    exact waitForStop_stopped h (by rw [hs]; rfl) none _
  · rw [current_run (shape_step h _), current_step h, hs]
    rfl

end RunStop

end DapBridge
