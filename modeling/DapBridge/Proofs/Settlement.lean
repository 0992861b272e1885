import Mathlib
import DapBridge.Session.Bench
import DapBridge.Proofs.Effects

/-!
# Settling commands: each outcome delivered once, unless its context closes first

The commands of a run/stop machine wait in its book with a result slot each, and their
outcomes are delivered on scheduling contexts. Here that part of the adapter runs on its
own, as a transition system: its events are the calls the book, its slots and its contexts
take (register, resolve, fail, fail all, wait on a slot, close a context, open one) and
what the event loop does between them (a turn, which drains a context, and a timer that
runs out). Timers may run out in any order and calls may come between any two turns.

What holds over every run (`settles_once_and_delivers`), from the invariant `Inv` that every
event keeps (`inv_step`, `inv_run`):

* a slot is settled at most once, and its first outcome is never replaced (`settled_run`);
* a waiter hears exactly the outcome of its slot, unless its own deadline ran out first, in
  which case it fails with a timeout (`fate_run`);
* a command taken off the book is settled at once when its owner's context is already
  closed, and otherwise has its settlement queued on that context (`Inv.removed`); once the
  loop has run every turn, which it always can (`drain_run`), it is settled unless that
  context was closed in between (`settled_when_quiet`).

The exception is real: closing a context drops what is queued on it, and the command has
already left the book, so nothing will ever settle it (`lost_after_close`, `lost_run`,
`settlement_lost_when_context_closes`).
-/

namespace DapBridge

namespace World

/-- The settlements a drain runs, in order. -/
def settleQueued : World → List Errand → World
  | w, [] => w
  | w, .settleSlot s o :: xs => settleQueued (w.fillSlot s o) xs
  | w, _ :: xs => settleQueued w xs

variable (w : World)

/-- A context drained: its queue emptied and the settlements on it run, in order. -/
def drained (i : Nat) : World :=
  (w.withInbox i fun b => { b with scheduled := false, queue := [] }).settleQueued (w.inboxAt i).queue

/-- A timer runs out: it leaves the list and its task runs. -/
def fire (id : Nat) : World :=
  match w.loop.timers.find? (·.id == id) with
  | some t => exec (Act.runTurn t.task) (w.setLoop (w.loop.cancel id))
  | none => w

/-- A slot's deadline run out: the waiter on promise `p` leaves slot `s`, the timer `id` is gone
and `p` fails with the timeout. -/
def expire (s p id : Nat) (label : String) (ms : Json) : World :=
  (w.withSlot s fun sl => { sl with waiters := sl.waiters.filter (·.promise != p) }).setLoop
    ((w.loop.cancel id).settle p (.error (Act.slotTimeoutFault label ms)))

/-- The loop's next turn runs. -/
def nextTurn : World :=
  match w.loop.takeTurn? with
  | some (t, l) => exec (Act.runTurn t) (w.setLoop l)
  | none => w

section Fields

variable {w} (s p id : Nat) (label : String) (ms : Json)

@[simp] theorem expire_inboxes : (w.expire s p id label ms).inboxes = w.inboxes := rfl
@[simp] theorem expire_execs : (w.expire s p id label ms).execs = w.execs := rfl
@[simp] theorem expire_turns : (w.expire s p id label ms).loop.turns = w.loop.turns := by simp [expire, Loop.cancel]
@[simp] theorem expire_slots_size : (w.expire s p id label ms).slots.size = w.slots.size := by simp [expire]
@[simp] theorem inboxAt_expire (i : Nat) : (w.expire s p id label ms).inboxAt i = w.inboxAt i := rfl
@[simp] theorem execAt_expire (i : Nat) : (w.expire s p id label ms).execAt i = w.execAt i := rfl

@[simp] theorem slotAt_expire_state (j : Nat) : ((w.expire s p id label ms).slotAt j).state = (w.slotAt j).state := by
  by_cases h : s = j ∧ j < w.slots.size <;> simp [expire, h]

end Fields

@[simp] theorem settleQueued_inboxes (xs : List Errand) : (w.settleQueued xs).inboxes = w.inboxes := by
  induction xs generalizing w with
  | nil => rfl
  | cons e xs ih => cases e <;> simp [settleQueued, ih]

@[simp] theorem settleQueued_execs (xs : List Errand) : (w.settleQueued xs).execs = w.execs := by
  induction xs generalizing w with
  | nil => rfl
  | cons e xs ih => cases e <;> simp [settleQueued, ih]

@[simp] theorem settleQueued_turns (xs : List Errand) : (w.settleQueued xs).loop.turns = w.loop.turns := by
  induction xs generalizing w with
  | nil => rfl
  | cons e xs ih => cases e <;> simp [settleQueued, ih]

@[simp] theorem inboxAt_settleQueued (xs : List Errand) (i : Nat) : (w.settleQueued xs).inboxAt i = w.inboxAt i :=
  inboxAt_inboxes i (settleQueued_inboxes w xs)

@[simp] theorem execAt_settleQueued (xs : List Errand) (i : Nat) : (w.settleQueued xs).execAt i = w.execAt i :=
  execAt_execs i (settleQueued_execs w xs)

@[simp] theorem settleQueued_slots_size (xs : List Errand) : (w.settleQueued xs).slots.size = w.slots.size := by
  induction xs generalizing w with
  | nil => rfl
  | cons e xs ih => cases e <;> simp [settleQueued, ih]

/-- Running the queued settlements leaves every settled slot as it was. -/
theorem slotAt_settleQueued_of_settled (xs : List Errand) {j : Nat} (h : (w.slotAt j).state ≠ .pending) :
    (w.settleQueued xs).slotAt j = w.slotAt j := by
  induction xs generalizing w with
  | nil => rfl
  | cons e xs ih =>
    cases e with
    | settleSlot s o =>
      simp only [settleQueued]
      rw [ih _ (by rwa [slotAt_fillSlot_of_settled s o h]), slotAt_fillSlot_of_settled s o h]
    | _ => exact ih _ h

/-- A slot that a queued settlement names is settled once the queue has run. -/
theorem settled_of_settleQueued {xs : List Errand} {j : Nat} {o : Except Fault Json}
    (hx : .settleSlot j o ∈ xs) (hj : j < w.slots.size) : ((w.settleQueued xs).slotAt j).state ≠ .pending := by
  induction xs generalizing w with
  | nil => cases hx
  | cons e xs ih =>
    rcases List.mem_cons.1 hx with rfl | hxs
    · simp only [settleQueued]
      by_cases hp : (w.slotAt j).state = .pending
      · have hs : ((w.fillSlot j o).slotAt j).state ≠ .pending := by
          rw [slotAt_fillSlot_self j o hj hp]; cases o <;> simp [SlotState.ofResult]
        rw [slotAt_settleQueued_of_settled _ xs hs]
        exact hs
      · rw [slotAt_settleQueued_of_settled _ xs (by rwa [slotAt_fillSlot_of_settled j o hp])]
        rwa [slotAt_fillSlot_of_settled j o hp]
    · cases e with
      | settleSlot s o' => exact ih (w.fillSlot s o') hxs (by simpa using hj)
      | _ => exact ih w hxs hj

theorem exec_of_run {w' : World} {a : Act Unit} (h : a.run w = .ok () w') : w.exec a = w' := by
  simp [exec, h]

theorem exec_discard_of_run {α : Type} {w' : World} {a : Act α} {r : α} (h : a.run w = .ok r w') :
    w.exec (discard a) = w' := by
  simp [exec, Act.run_discard, h]

end World

namespace Act

/-- A drain whose context holds only settlements runs them in order. -/
theorem drainLoop_run (i : Nat) (body : Errand → Act Unit)
    (hbody : ∀ (w : World) s o, (w.inboxAt i).closed = false → (body (.settleSlot s o)).run w = .ok () (w.fillSlot s o))
    (xs : List Errand) (hxs : ∀ e ∈ xs, ∃ s o, e = .settleSlot s o) (w : World) (hc : (w.inboxAt i).closed = false) :
    (forM xs body).run w = .ok () (w.settleQueued xs) := by
  induction xs generalizing w with
  | nil => rfl
  | cons e xs ih =>
    obtain ⟨s, o, rfl⟩ := hxs e (by simp)
    simp only [List.forM_cons, EStateM.run_bind, hbody w s o hc, World.settleQueued]
    exact ih (fun e he => hxs e (by simp [he])) _ (by simpa using hc)

theorem drainInbox_run (w : World) (i : Nat) (hq : ∀ e ∈ (w.inboxAt i).queue, ∃ s o, e = .settleSlot s o)
    (hc : (w.inboxAt i).closed = false ∨ (w.inboxAt i).queue = []) :
    (drainInbox i).run w = .ok () (w.drained i) := by
  simp only [drainInbox, EStateM.run_bind, EStateM.run_get, change_run, World.drained]
  rcases hc with hc | hq0
  · apply drainLoop_run i _ _ _ hq _ (by simp only [World.inboxAt_withInbox]; split <;> simp [hc])
    intro w s o hc'
    cases o <;> simp [hc', run_attempt, runErrand, discard_resolveSlot, discard_rejectSlot]
  · rw [hq0]
    rfl

end Act

namespace Settlement

/-- What can happen to the book of a run/stop machine and to the contexts its outcomes are
delivered on. -/
inductive Event where
  | register (command : String) (owner : Nat)
  | resolve (id : Double) (v : Json)
  | fail (id : Double) (f : Fault)
  | failAll (f : Fault)
  | wait (slot : Nat) (timeout : Option Json) (label : String)
  | expire (timer : Nat)
  | turn
  | close (context : Nat)
  | openContext (name : String)

/-- One event, on the book of run/stop machine `x`. -/
def step (x : Nat) (w : World) : Event → World
  | .register c i => w.exec (discard (Act.register x c i))
  | .resolve id v => w.exec (discard (Act.resolvePending x id v))
  | .fail id f => w.exec (discard (Act.failPending x id f))
  | .failAll f => w.exec (discard (Act.failAllPending x f))
  | .wait s t label => w.exec (discard (Act.waitSlot s t label))
  | .expire id => w.fire id
  | .turn => w.nextTurn
  | .close i => w.exec (Act.closeInbox i)
  | .openContext name => w.exec (discard (Bench.openContext name))

/-- Calls are made on parts that exist: a command is owned by a context, a wait is on a slot. -/
def Event.Valid (w : World) : Event → Prop
  | .register _ i => i < w.inboxes.size
  | .wait s _ _ => s < w.slots.size
  | _ => True

/-- The entries an event adds to the book of machine `x`. -/
def Event.registers (x : Nat) (w : World) : Event → List PendingEntry
  | .register c i => [w.nextEntry x c i]
  | _ => []

/-- The runs from `w₀`, with the entries registered along the way. -/
inductive Run (x : Nat) (w₀ : World) : World → List PendingEntry → Prop where
  | start : Run x w₀ w₀ []
  | step {w : World} {regs : List PendingEntry} (e : Event) :
      Run x w₀ w regs → e.Valid w → Run x w₀ (step x w e) (regs ++ e.registers x w)

/-! ## Each event as a function of the world -/

variable (x : Nat) (w : World)

theorem step_register (c : String) (i : Nat) : step x w (.register c i) = w.register x c i :=
  w.exec_discard_of_run (Act.register_run w x c i)

theorem step_resolve (id : Double) (v : Json) :
    step x w (.resolve id v) = match (w.execAt x).book.entries.find? (·.id == id) with
      | none => w
      | some e => (w.dropEntry x id).settleEntry e (.ok v) := by
  simp only [step]
  split
  · rename_i h
    exact w.exec_discard_of_run (show (Act.resolvePending x id v).run w = .ok false w by rw [Act.resolvePending_run, h])
  · rename_i e h
    exact w.exec_discard_of_run (show (Act.resolvePending x id v).run w = .ok true _ by rw [Act.resolvePending_run, h])

theorem step_fail (id : Double) (f : Fault) :
    step x w (.fail id f) = match (w.execAt x).book.entries.find? (·.id == id) with
      | none => w
      | some e => (w.dropEntry x id).settleEntry e (.error f) := by
  simp only [step]
  split
  · rename_i h
    exact w.exec_discard_of_run (show (Act.failPending x id f).run w = .ok false w by rw [Act.failPending_run, h])
  · rename_i e h
    exact w.exec_discard_of_run (show (Act.failPending x id f).run w = .ok true _ by rw [Act.failPending_run, h])

theorem step_failAll (f : Fault) :
    step x w (.failAll f) = (w.execAt x).book.entries.foldl (fun w e => w.settleEntry e (.error f))
      (w.withExec x fun e => { e with book := { e.book with entries := [] } }) :=
  w.exec_discard_of_run (Act.failAllPending_run w x f)

theorem step_wait_pending {s : Nat} (t : Option Json) (label : String) (h : (w.slotAt s).state = .pending) :
    step x w (.wait s t label) = w.waitOn s t label :=
  w.exec_discard_of_run (Act.waitSlot_pending w t label h)

theorem step_wait_settled {s : Nat} {o : Outcome} (t : Option Json) (label : String)
    (h : (w.slotAt s).state.outcome? = some o) :
    step x w (.wait s t label) = w.setLoop (w.loop.done o).2 :=
  w.exec_discard_of_run (Act.waitSlot_settled w t label h)

theorem step_close (i : Nat) :
    step x w (.close i) = w.withInbox i fun b => { b with closed := true, queue := [] } :=
  w.exec_of_run (Act.closeInbox_run w i)

theorem step_openContext (name : String) :
    step x w (.openContext name) = { w with inboxes := w.inboxes.push ⟨name, [], false, false⟩ } :=
  w.exec_discard_of_run (show (Bench.openContext name).run w = .ok w.inboxes.size _ from rfl)

/-! ## The timers and the turns of the loop -/

theorem fire_slotTimeout {id : Nat} {t : Timer Turn} (hf : w.loop.timers.find? (·.id == id) = some t)
    {s p : Nat} {label : String} {ms : Json} (ht : t.task = .slotTimeout s p label ms) :
    w.fire id = w.expire s p id label ms := by
  simp only [World.fire, hf, ht, Act.runTurn]
  rw [World.exec_of_run _ (Act.slotTimedOut_run _ s p label ms)]
  rfl

theorem nextTurn_drain {i : Nat} {ts : List Turn} (h : w.loop.turns = .drain i :: ts)
    (hq : ∀ e ∈ (w.inboxAt i).queue, ∃ s o, e = .settleSlot s o)
    (hc : (w.inboxAt i).closed = false ∨ (w.inboxAt i).queue = []) :
    w.nextTurn = (w.setLoop { w.loop with turns := ts }).drained i := by
  simp only [World.nextTurn, Loop.takeTurn?, h]
  exact World.exec_of_run _ (Act.drainInbox_run _ i (by simpa using hq) (by simpa using hc))

/-! ## Waiters -/

/-- What holds of the waiters on slots: each waits on a pending slot with a pending promise no
other waiter holds, and every timer is the deadline of a waiter that still waits. -/
structure Waiting (w : World) : Prop where
  pending : ∀ s, ∀ wt ∈ (w.slotAt s).waiters, (w.slotAt s).state = .pending ∧
    w.loop.outcome? wt.promise = none ∧ wt.promise < w.loop.cells.size
  apart : ∀ s s' wt wt', wt ∈ (w.slotAt s).waiters → wt' ∈ (w.slotAt s').waiters →
    wt.promise = wt'.promise → s = s' ∧ wt = wt'
  timers : ∀ t ∈ w.loop.timers, ∃ s p label ms, t.task = .slotTimeout s p label ms ∧
    { promise := p, timer := some t.id } ∈ (w.slotAt s).waiters

variable {x w} {w' : World}

theorem lt_of_mem_waiters {s : Nat} {wt : Waiter} (h : wt ∈ (w.slotAt s).waiters) : s < w.slots.size := by
  refine Nat.lt_of_not_le fun hs => ?_
  have : w.slotAt s = default := by simp [World.slotAt, hs]
  rw [this] at h
  cases h

/-- An effect that leaves the slots and the timers alone, and only adds promises, keeps the
waiters. -/
theorem Waiting.frame (hW : Waiting w) (hs : w'.slots = w.slots)
    (hout : ∀ q < w.loop.cells.size, w'.loop.outcome? q = w.loop.outcome? q)
    (hsize : w.loop.cells.size ≤ w'.loop.cells.size) (ht : w'.loop.timers = w.loop.timers) : Waiting w' := by
  have hslot : ∀ j, w'.slotAt j = w.slotAt j := fun j => World.slotAt_slots j hs
  refine ⟨?_, ?_, ?_⟩
  · intro s wt hwt
    rw [hslot] at hwt ⊢
    obtain ⟨h1, h2, h3⟩ := hW.pending s wt hwt
    exact ⟨h1, by rw [hout _ h3]; exact h2, by omega⟩
  · intro s s' wt wt' hw hw'
    rw [hslot] at hw hw'
    exact hW.apart s s' wt wt' hw hw'
  · intro t htm
    rw [ht] at htm
    simpa [hslot] using hW.timers t htm

/-- Settling a slot: its waiters leave with the outcome and their timers are cancelled. -/
theorem Waiting.fillSlot (hW : Waiting w) (s : Nat) (o : Except Fault Json) : Waiting (w.fillSlot s o) := by
  by_cases hp : (w.slotAt s).state = .pending
  case neg => rwa [Act.fillSlot_settled w o hp]
  have hslot : ∀ j, (w.fillSlot s o).slotAt j =
      if s = j ∧ j < w.slots.size then ⟨SlotState.ofResult o, []⟩ else w.slotAt j := by
    intro j
    simp [World.fillSlot, hp]
  have hloop := World.fillSlot_loop_of_pending s o hp
  -- every waiter left waits on another slot, as it did
  have hwait : ∀ j wt, wt ∈ ((w.fillSlot s o).slotAt j).waiters → j ≠ s ∧ wt ∈ (w.slotAt j).waiters := by
    intro j wt hwt
    rw [hslot] at hwt
    split at hwt
    · cases hwt
    · rename_i hj
      refine ⟨fun hjs => hj ⟨hjs.symm, ?_⟩, hwt⟩
      subst hjs
      exact lt_of_mem_waiters hwt
  refine ⟨?_, ?_, ?_⟩
  · intro j wt hwt
    obtain ⟨hjs, hwt⟩ := hwait j wt hwt
    obtain ⟨h1, h2, h3⟩ := hW.pending j wt hwt
    refine ⟨by rw [hslot, if_neg (fun h => hjs h.1.symm)]; exact h1, ?_, by simpa [hloop] using h3⟩
    rw [hloop, Loop.outcome?_release_of_not_mem _ _ _ (fun wt' hw' he => hjs (hW.apart _ _ _ _ hwt hw' he.symm).1)]
    exact h2
  · intro j j' wt wt' hw hw' he
    exact hW.apart j j' wt wt' (hwait j wt hw).2 (hwait j' wt' hw').2 he
  · intro t ht
    rw [hloop, Loop.mem_release_timers] at ht
    obtain ⟨s₀, p, label, ms, htask, hmem⟩ := hW.timers t ht.1
    have hs₀ : s₀ ≠ s := by
      rintro rfl
      exact ht.2 _ hmem rfl
    refine ⟨s₀, p, label, ms, htask, ?_⟩
    rwa [hslot, if_neg (fun h => hs₀ h.1.symm)]

theorem Waiting.settleQueued (hW : Waiting w) (xs : List Errand) : Waiting (w.settleQueued xs) := by
  induction xs generalizing w with
  | nil => exact hW
  | cons e xs ih =>
    cases e with
    | settleSlot s o => exact ih (hW.fillSlot s o)
    | _ => exact ih hW

/-- A new waiter on a pending slot, holding the next promise and perhaps a new timer of its own. -/
theorem Waiting.addWaiter (hW : Waiting w) {s : Nat} (hs : s < w.slots.size) (hp : (w.slotAt s).state = .pending)
    {L : Loop Outcome Cont Turn} {tm : Option Nat} (hout : ∀ q, L.outcome? q = w.loop.outcome? q)
    (hsize : L.cells.size = w.loop.cells.size + 1)
    (htimers : ∀ t ∈ L.timers, t ∈ w.loop.timers ∨
      tm = some t.id ∧ ∃ label ms, t.task = .slotTimeout s w.loop.cells.size label ms) :
    Waiting ((w.setLoop L).withSlot s fun sl => { sl with waiters := sl.waiters ++ [⟨w.loop.cells.size, tm⟩] }) := by
  have hslot : ∀ j, ((w.setLoop L).withSlot s fun sl => { sl with waiters := sl.waiters ++ [⟨w.loop.cells.size, tm⟩] }).slotAt j =
      if s = j then { w.slotAt j with waiters := (w.slotAt j).waiters ++ [⟨w.loop.cells.size, tm⟩] } else w.slotAt j := by
    intro j
    by_cases h : s = j
    · subst h; simp [hs]
    · simp [h]
  -- a waiter now is the new one, on `s`, or one that waited before, where it did
  have hmem : ∀ j wt, wt ∈ (((w.setLoop L).withSlot s fun sl =>
      { sl with waiters := sl.waiters ++ [⟨w.loop.cells.size, tm⟩] }).slotAt j).waiters →
      (s = j ∧ wt = ⟨w.loop.cells.size, tm⟩) ∨ wt ∈ (w.slotAt j).waiters := by
    intro j wt hwt
    rw [hslot] at hwt
    split at hwt
    · rename_i h
      rcases List.mem_append.1 hwt with hwt | hwt
      · exact .inr hwt
      · exact .inl ⟨h, List.mem_singleton.1 hwt⟩
    · exact .inr hwt
  have hold : ∀ j wt, wt ∈ (w.slotAt j).waiters → wt.promise < w.loop.cells.size :=
    fun j wt h => (hW.pending j wt h).2.2
  refine ⟨?_, ?_, ?_⟩
  · intro j wt hwt
    rcases hmem j wt hwt with ⟨rfl, rfl⟩ | hwt
    · refine ⟨by simp [hslot, hp], ?_, by simp [hsize]⟩
      simp [hout, Loop.outcome?_of_size_le]
    · obtain ⟨h1, h2, h3⟩ := hW.pending j wt hwt
      refine ⟨by rw [hslot]; split <;> simp [h1], by simpa [hout] using h2, by simp [hsize]; omega⟩
  · intro j j' wt wt' hw hw' he
    rcases hmem j wt hw with ⟨rfl, rfl⟩ | hw <;> rcases hmem j' wt' hw' with ⟨rfl, rfl⟩ | hw'
    · exact ⟨rfl, rfl⟩
    · have := hold _ _ hw'; simp at he; omega
    · have := hold _ _ hw; simp at he; omega
    · exact hW.apart j j' wt wt' hw hw' he
  · intro t ht
    rcases htimers t ht with ht | ⟨htm, label, ms, htask⟩
    · obtain ⟨j, q, label, ms, htask, hw⟩ := hW.timers t ht
      exact ⟨j, q, label, ms, htask, by rw [hslot]; split <;> simp [hw]⟩
    · exact ⟨s, _, label, ms, htask, by rw [hslot, if_pos rfl, htm]; simp⟩

theorem Waiting.waitOn (hW : Waiting w) {s : Nat} (hs : s < w.slots.size) (hp : (w.slotAt s).state = .pending)
    (t : Option Json) (label : String) : Waiting (w.waitOn s t label) := by
  cases t with
  | none => exact hW.addWaiter hs hp (by simp) (by simp) (fun t ht => .inl (by simpa [Loop.fresh] using ht))
  | some ms =>
    refine hW.addWaiter hs hp (by simp) (by simp [Loop.after]) fun t ht => ?_
    simp only [Loop.after, Loop.fresh, List.mem_append, List.mem_singleton] at ht
    rcases ht with ht | rfl
    · exact .inl ht
    · exact .inr ⟨rfl, label, ms, rfl⟩

/-- A slot's deadline runs out: its waiter leaves with the timeout and its timer is gone. -/
theorem Waiting.timedOut (hW : Waiting w) {t : Timer Turn} (ht : t ∈ w.loop.timers) {s p : Nat} {label : String}
    {ms : Json} (htask : t.task = .slotTimeout s p label ms) :
    Waiting (w.expire s p t.id label ms) := by
  obtain ⟨s₀, p₀, label₀, ms₀, htask₀, hown⟩ := hW.timers t ht
  rw [htask] at htask₀
  injection htask₀ with hs hp
  subst hs hp
  have hslot : ∀ j, (w.expire s p t.id label ms).slotAt j =
      if s = j then { w.slotAt j with waiters := (w.slotAt j).waiters.filter (·.promise != p) } else w.slotAt j := by
    intro j
    by_cases h : s = j
    · subst h; simp [World.expire, lt_of_mem_waiters hown]
    · simp [World.expire, h]
  -- the waiters left are those that waited on other promises
  have hmem : ∀ j wt, wt ∈ ((w.expire s p t.id label ms).slotAt j).waiters →
      wt ∈ (w.slotAt j).waiters ∧ wt.promise ≠ p := by
    intro j wt hwt
    rw [hslot] at hwt
    split at hwt
    · simpa using hwt
    · rename_i hj
      exact ⟨hwt, fun he => hj (hW.apart _ _ _ _ hown hwt he.symm).1⟩
  refine ⟨?_, ?_, ?_⟩
  · intro j wt hwt
    obtain ⟨hwt, hne⟩ := hmem j wt hwt
    obtain ⟨h1, h2, h3⟩ := hW.pending j wt hwt
    refine ⟨by rw [hslot]; split <;> simp [h1], ?_, by simpa [World.expire, Loop.cancel] using h3⟩
    simpa [World.expire, Loop.outcome?_settle_of_ne _ _ hne] using h2
  · intro j j' wt wt' hw hw' he
    exact hW.apart j j' wt wt' (hmem j wt hw).1 (hmem j' wt' hw').1 he
  · intro t' ht'
    simp only [World.expire, World.setLoop_loop, Loop.settle_timers, Loop.cancel, List.mem_filter, bne_iff_ne,
      ne_eq] at ht'
    obtain ⟨s', p', label', ms', htask', hw'⟩ := hW.timers t' ht'.1
    refine ⟨s', p', label', ms', htask', ?_⟩
    rw [hslot]
    split
    · rename_i h
      subst h
      refine List.mem_filter.2 ⟨hw', ?_⟩
      simp only [bne_iff_ne, ne_eq]
      rintro rfl
      have := (hW.apart _ _ _ _ hw' hown rfl).2
      simp at this
      exact ht'.2 this
    · exact hw'

/-! ## The book and the contexts -/

/-- Where a command that has left the book stands: its slot is settled, or its settlement is
queued on its owner's context, or that context is closed. -/
def Removed (w : World) (c : PendingEntry) : Prop :=
  (w.slotAt c.slot).state ≠ .pending ∨
  (∃ o, Errand.settleSlot c.slot o ∈ (w.inboxAt c.owner).queue) ∨
  (w.inboxAt c.owner).closed = true

/-- No command registered but `c` was given its id. -/
def Unshared (cmds : List PendingEntry) (c : PendingEntry) : Prop := ∀ c' ∈ cmds, c'.id = c.id → c' = c

/-- The invariant of the book of machine `x`, its slots and the contexts, given the commands
`cmds` registered so far. The commands in `T` have left the book and their settlement is still
to be delivered: `T` is empty between events. -/
structure Inv (x : Nat) (cmds T : List PendingEntry) (w : World) : Prop extends Waiting w where
  /-- A context holds only the settlements of commands that left the book, on their owner. -/
  queued : ∀ i, ∀ e ∈ (w.inboxAt i).queue, ∃ c ∈ cmds, c ∉ (w.execAt x).book.entries ∧ c.owner = i ∧
    ∃ o, e = .settleSlot c.slot o
  turns : ∀ t ∈ w.loop.turns, ∃ i, t = .drain i
  /-- A context that asked for its drain has it queued. -/
  scheduled : ∀ i, (w.inboxAt i).scheduled = true → Turn.drain i ∈ w.loop.turns
  /-- A context with work has asked for its drain. -/
  busy : ∀ i, (w.inboxAt i).queue ≠ [] → (w.inboxAt i).scheduled = true
  closedEmpty : ∀ i, (w.inboxAt i).closed = true → (w.inboxAt i).queue = []
  machine : x < w.execs.size
  inBook : ∀ c ∈ (w.execAt x).book.entries, c ∈ cmds
  /-- Registered commands have a slot and an owner that exist. -/
  known : ∀ c ∈ cmds, c.slot < w.slots.size ∧ c.owner < w.inboxes.size
  slotsApart : ∀ c ∈ cmds, ∀ c' ∈ cmds, c.slot = c'.slot → c = c'
  /-- The book holds one entry per id. -/
  bookApart : ((w.execAt x).book.entries.map (·.id)).Nodup
  transit : ∀ c ∈ T, c ∈ cmds ∧ c ∉ (w.execAt x).book.entries
  /-- Every command off the book whose id no other command got, its settlement delivered, is
  settled, queued or cut off. A command whose id was given again left the book unsettled. -/
  removed : ∀ c ∈ cmds, c ∉ (w.execAt x).book.entries → c ∉ T → Unshared cmds c → Removed w c

variable {cmds T : List PendingEntry} {c : PendingEntry}

theorem inboxAt_of_size_le {i : Nat} (h : w.inboxes.size ≤ i) : w.inboxAt i = default := by
  simp [World.inboxAt, h]

theorem Removed.mono (h : Removed w c)
    (hs : (w.slotAt c.slot).state ≠ .pending → (w'.slotAt c.slot).state ≠ .pending)
    (hq : ∀ e ∈ (w.inboxAt c.owner).queue, e ∈ (w'.inboxAt c.owner).queue)
    (hc : (w.inboxAt c.owner).closed = true → (w'.inboxAt c.owner).closed = true) : Removed w' c := by
  rcases h with h | ⟨o, h⟩ | h
  · exact .inl (hs h)
  · exact .inr (.inl ⟨o, hq _ h⟩)
  · exact .inr (.inr (hc h))

theorem Removed.fillSlot (h : Removed w c) (s : Nat) (o : Except Fault Json) : Removed (w.fillSlot s o) c :=
  h.mono (fun hs => by rwa [World.slotAt_fillSlot_of_settled s o hs]) (by simp) (by simp)

/-- An effect on the slots and the loop's promises and timers alone keeps the invariant when it
keeps the waiters and where each command off the book stands. -/
theorem Inv.of_slots (hI : Inv x cmds T w) (hW : Waiting w') (hin : w'.inboxes = w.inboxes)
    (hex : w'.execs = w.execs) (hturns : w'.loop.turns = w.loop.turns) (hsize : w'.slots.size = w.slots.size)
    (removed : ∀ c ∈ cmds, c ∉ (w.execAt x).book.entries → c ∉ T → Unshared cmds c → Removed w' c) :
    Inv x cmds T w' := by
  have hib : ∀ i, w'.inboxAt i = w.inboxAt i := fun i => World.inboxAt_inboxes i hin
  have hxb : w'.execAt x = w.execAt x := World.execAt_execs x hex
  refine ⟨hW, ?_, ?_, ?_, ?_, ?_, ?_, ?_, ?_, hI.slotsApart, ?_, ?_, ?_⟩
  · simpa [hib, hxb] using hI.queued
  · simpa [hturns] using hI.turns
  · simpa [hib, hturns] using hI.scheduled
  · simpa [hib] using hI.busy
  · simpa [hib] using hI.closedEmpty
  · simpa [hex] using hI.machine
  · simpa [hxb] using hI.inBook
  · simpa [hsize, hin] using hI.known
  · simpa [hxb] using hI.bookApart
  · simpa [hxb] using hI.transit
  · simpa [hxb] using removed

/-- Where a command off the book stands is kept by an effect that leaves states and contexts. -/
theorem Removed.of_state (h : Removed w c) (hs : ∀ j, (w'.slotAt j).state = (w.slotAt j).state)
    (hin : w'.inboxes = w.inboxes) : Removed w' c :=
  h.mono (by rw [hs]; exact id) (by rw [World.inboxAt_inboxes _ hin]; exact fun _ => id)
    (by rw [World.inboxAt_inboxes _ hin]; exact id)

theorem inv_fillSlot (hI : Inv x cmds T w) (s : Nat) (o : Except Fault Json) : Inv x cmds T (w.fillSlot s o) :=
  hI.of_slots (hI.toWaiting.fillSlot s o) (by simp) (by simp) (by simp) (by simp)
    fun c hc hb hT hu => (hI.removed c hc hb hT hu).fillSlot s o

theorem inv_waitOn (hI : Inv x cmds T w) {s : Nat} (hs : s < w.slots.size) (hp : (w.slotAt s).state = .pending)
    (t : Option Json) (label : String) : Inv x cmds T (w.waitOn s t label) :=
  hI.of_slots (hI.toWaiting.waitOn hs hp t label) (by simp) (by simp) (by simp) (by simp)
    fun c hc hb hT hu => (hI.removed c hc hb hT hu).of_state (by simp) (by simp)

/-- A wait on a settled slot only adds a settled promise. -/
theorem inv_done (hI : Inv x cmds T w) (o : Outcome) : Inv x cmds T (w.setLoop (w.loop.done o).2) := by
  refine hI.of_slots (hI.toWaiting.frame (by simp) (fun q hq => ?_) (by simp) (by simp [Loop.done]))
    (by simp) (by simp) (by simp [Loop.done]) (by simp)
    fun c hc hb hT hu => (hI.removed c hc hb hT hu).of_state (by simp) (by simp)
  simp [Nat.ne_of_lt hq]

theorem inv_fire (hI : Inv x cmds T w) (id : Nat) : Inv x cmds T (w.fire id) := by
  cases hf : w.loop.timers.find? (·.id == id) with
  | none => simpa [World.fire, hf] using hI
  | some t =>
    have ht := List.mem_of_find?_eq_some hf
    have hid : t.id = id := by simpa using List.find?_some hf
    obtain ⟨s, p, label, ms, htask, -⟩ := hI.timers t ht
    rw [fire_slotTimeout w hf htask, ← hid]
    exact hI.of_slots (hI.toWaiting.timedOut ht htask) (by simp) (by simp) (by simp) (by simp)
      fun c hc hb hT hu => (hI.removed c hc hb hT hu).of_state (by simp) (by simp)

/-- A command in transit whose settlement has arrived is no longer in transit. -/
theorem Inv.untransit (hI : Inv x cmds (c :: T) w) (h : Removed w c) : Inv x cmds T w := by
  refine { hI with transit := fun c' hc' => hI.transit c' (.tail _ hc'), removed := ?_ }
  intro c' hc' hb hT hu
  by_cases he : c' = c
  · exact he ▸ h
  · exact hI.removed c' hc' hb (by simp [he, hT]) hu

theorem inv_log (hI : Inv x cmds T w) (d : Diagnostic) : Inv x cmds T (w.log d) :=
  hI.of_slots (hI.toWaiting.frame (by simp) (by simp) (by simp) (by simp)) (by simp) (by simp) (by simp) (by simp)
    fun c hc hb hT hu => (hI.removed c hc hb hT hu).of_state (by simp) (by simp)

/-- A settlement queued on the open context of a command off the book: the command now stands
queued. -/
theorem inv_enqueue (hI : Inv x cmds T w) (hc : c ∈ cmds) (hb : c ∉ (w.execAt x).book.entries)
    (hopen : (w.inboxAt c.owner).closed = false) (o : Except Fault Json) :
    Inv x cmds T (w.enqueue c.owner (.settleSlot c.slot o)) ∧
      Removed (w.enqueue c.owner (.settleSlot c.slot o)) c := by
  have hown := (hI.known c hc).2
  -- only the owner's context changes: one more settlement, and its drain asked for
  have hib : ∀ j, (w.enqueue c.owner (.settleSlot c.slot o)).inboxAt j = if c.owner = j then
      { w.inboxAt j with queue := (w.inboxAt j).queue ++ [.settleSlot c.slot o], scheduled := true }
      else w.inboxAt j := by
    intro j
    rw [World.inboxAt_enqueue]
    by_cases h : c.owner = j
    · subst h; simp [hown]
    · simp [h]
  have hturns : ∀ t ∈ w.loop.turns, t ∈ (w.enqueue c.owner (.settleSlot c.slot o)).loop.turns := by
    intro t ht
    rw [World.enqueue_turns]
    split <;> simp [ht]
  have hdrain : Turn.drain c.owner ∈ (w.enqueue c.owner (.settleSlot c.slot o)).loop.turns := by
    rw [World.enqueue_turns]
    split
    · rename_i h; exact hI.scheduled _ h
    · simp
  have hxb : (w.enqueue c.owner (.settleSlot c.slot o)).execAt x = w.execAt x := World.execAt_enqueue _ _ x
  refine ⟨⟨hI.toWaiting.frame (by simp) (fun q _ => Loop.outcome?_of_cells (by simp) q) (by simp) (by simp),
    ?_, ?_, ?_, ?_, ?_, by simpa using hI.machine, by simpa [hxb] using hI.inBook, by simpa using hI.known,
    hI.slotsApart, by simpa [hxb] using hI.bookApart, by simpa [hxb] using hI.transit, ?_⟩, .inr (.inl ⟨o, by rw [hib, if_pos rfl]; simp⟩)⟩
  · intro j e he
    rw [hib] at he
    rw [hxb]
    split at he
    · rename_i h
      rcases List.mem_append.1 he with he | he
      · exact hI.queued j e he
      · exact ⟨c, hc, hb, h, o, List.mem_singleton.1 he⟩
    · exact hI.queued j e he
  · intro t ht
    rw [World.enqueue_turns] at ht
    split at ht
    · exact hI.turns t ht
    · rcases List.mem_append.1 ht with ht | ht
      · exact hI.turns t ht
      · exact ⟨c.owner, List.mem_singleton.1 ht⟩
  · intro j hj
    rw [hib] at hj
    split at hj
    · rename_i h; subst h; exact hdrain
    · exact hturns _ (hI.scheduled j hj)
  · intro j hj
    rw [hib] at hj ⊢
    by_cases h : c.owner = j
    · simp [h]
    · rw [if_neg h] at hj ⊢; exact hI.busy j hj
  · intro j hj
    rw [hib] at hj ⊢
    by_cases h : c.owner = j
    · subst h; rw [if_pos rfl] at hj; simp [hopen] at hj
    · rw [if_neg h] at hj ⊢; exact hI.closedEmpty j hj
  · intro c' hc' hb' hT hu
    refine (hI.removed c' hc' (by rwa [hxb] at hb') hT hu).mono (by simp) (fun e he => ?_)
      (by rw [hib]; split <;> simp)
    rw [hib]
    split
    · exact List.mem_append_left _ he
    · exact he

/-- A command in transit gets its settlement: given to its slot at once when its owner's context
is closed, queued on that context otherwise. -/
theorem inv_settleEntry (hI : Inv x cmds (c :: T) w) (o : Except Fault Json) : Inv x cmds T (w.settleEntry c o) := by
  obtain ⟨hc, hb⟩ := hI.transit c (.head _)
  unfold World.settleEntry
  split
  · rename_i hclosed
    exact (inv_fillSlot (inv_log hI _) c.slot o).untransit (.inr (.inr (by simpa using hclosed)))
  · rename_i hopen
    obtain ⟨hI', hr⟩ := inv_enqueue hI hc hb (by simpa using hopen) o
    exact hI'.untransit hr

/-- The settlements of the commands in transit, delivered in order. -/
theorem inv_settleEntries (es : List PendingEntry) (hI : Inv x cmds (es ++ T) w) (o : Except Fault Json) :
    Inv x cmds T (es.foldl (fun w e => w.settleEntry e o) w) := by
  induction es generalizing w with
  | nil => exact hI
  | cons e es ih => exact ih (inv_settleEntry hI o)

/-- The entry with id `id` leaves the book, and it is the only one with that id. -/
theorem inv_dropEntry (hI : Inv x cmds T w) {id : Double} {e : PendingEntry}
    (he : (w.execAt x).book.entries.find? (·.id == id) = some e) : Inv x cmds (e :: T) (w.dropEntry x id) := by
  have hmem := List.mem_of_find?_eq_some he
  have hid : e.id = id := by simpa using List.find?_some he
  have hbook : ∀ c, c ∈ ((w.dropEntry x id).execAt x).book.entries ↔ c ∈ (w.execAt x).book.entries ∧ c.id ≠ id := by
    intro c
    simp [World.execAt_dropEntry, hI.machine]
  have hib : ∀ i, (w.dropEntry x id).inboxAt i = w.inboxAt i := fun i => World.inboxAt_inboxes i (by simp)
  refine ⟨hI.toWaiting.frame (by simp) (by simp) (by simp) (by simp), ?_, by simpa using hI.turns,
    by simpa [hib] using hI.scheduled, by simpa [hib] using hI.busy, by simpa [hib] using hI.closedEmpty,
    by simpa using hI.machine, fun c h => hI.inBook c ((hbook c).1 h).1, by simpa using hI.known,
    hI.slotsApart, ?_, ?_, ?_⟩
  · intro i e' he'
    rw [hib] at he'
    obtain ⟨c, hc, hb, hown, o, rfl⟩ := hI.queued i e' he'
    exact ⟨c, hc, fun h => hb ((hbook c).1 h).1, hown, o, rfl⟩
  · simpa [World.execAt_dropEntry, hI.machine] using (List.filter_sublist.map PendingEntry.id).nodup hI.bookApart
  · intro c hc
    rcases List.mem_cons.1 hc with rfl | hc
    · exact ⟨hI.inBook _ hmem, fun h => ((hbook _).1 h).2 hid⟩
    · exact ⟨(hI.transit c hc).1, fun h => (hI.transit c hc).2 ((hbook c).1 h).1⟩
  · intro c hc hb hT hu
    -- a command off the new book was off the old one, or it is `e`, the one entry with that id
    have hb' : c ∉ (w.execAt x).book.entries := by
      intro h
      by_cases hci : c.id = id
      · have hce := List.inj_on_of_nodup_map hI.bookApart h hmem (hci.trans hid.symm)
        exact hT (by simp [hce])
      · exact hb ((hbook c).2 ⟨h, hci⟩)
    exact (hI.removed c hc hb' (fun h => hT (.tail _ h)) hu).of_state (by simp) (by simp)

/-- The book emptied at once: every entry it held is in transit. -/
theorem inv_clearBook (hI : Inv x cmds T w) :
    Inv x cmds ((w.execAt x).book.entries ++ T) (w.withExec x fun e => { e with book := { e.book with entries := [] } }) := by
  have hxb : (w.withExec x fun e => { e with book := { e.book with entries := [] } }).execAt x =
      { w.execAt x with book := { (w.execAt x).book with entries := [] } } := by
    simp [hI.machine]
  refine ⟨hI.toWaiting.frame (by simp) (by simp) (by simp) (by simp), ?_, by simpa using hI.turns,
    by simpa using hI.scheduled, by simpa using hI.busy, by simpa using hI.closedEmpty, by simpa using hI.machine,
    by simp [hxb], by simpa using hI.known, hI.slotsApart, by simp [hxb], ?_, ?_⟩
  · intro i e he
    obtain ⟨c, hc, -, hown, o, rfl⟩ := hI.queued i e (by simpa using he)
    exact ⟨c, hc, by simp [hxb], hown, o, rfl⟩
  · intro c hc
    rw [hxb]
    rcases List.mem_append.1 hc with hc | hc
    · exact ⟨hI.inBook c hc, by simp⟩
    · exact ⟨(hI.transit c hc).1, by simp⟩
  · intro c hc _ hT hu
    exact (hI.removed c hc (fun h => hT (List.mem_append_left _ h)) (fun h => hT (List.mem_append_right _ h)) hu).of_state
      (by simp) (by simp)

theorem Waiting.register (hW : Waiting w) (x : Nat) (command : String) (owner : Nat) :
    Waiting (w.register x command owner) := by
  -- the new slot has no waiters, and every slot with one is as it was
  have hslot : ∀ j wt, wt ∈ ((w.register x command owner).slotAt j).waiters →
      (w.register x command owner).slotAt j = w.slotAt j := by
    intro j wt h
    rw [World.slotAt_register] at h ⊢
    split at h
    · cases h
    · rename_i hj; rw [if_neg hj]
  refine ⟨?_, ?_, ?_⟩
  · intro s wt h
    have hs := hslot s wt h
    rw [hs] at h ⊢
    simpa using hW.pending s wt h
  · intro s s' wt wt' h h'
    rw [hslot s wt h] at h
    rw [hslot s' wt' h'] at h'
    exact hW.apart s s' wt wt' h h'
  · intro t ht
    obtain ⟨s, p, label, ms, htask, hw⟩ := hW.timers t (by simpa using ht)
    refine ⟨s, p, label, ms, htask, ?_⟩
    rwa [World.slotAt_register, if_neg (Nat.ne_of_lt (lt_of_mem_waiters hw))]

/-- A command registered: it gets a new slot and is filed under the next id, in place of a command
that had that id. -/
theorem inv_register (hI : Inv x cmds T w) {command : String} {owner : Nat} (hown : owner < w.inboxes.size) :
    Inv x (cmds ++ [w.nextEntry x command owner]) T (w.register x command owner) := by
  have hxb : ((w.register x command owner).execAt x).book =
      ⟨PendingBook.put (w.nextEntry x command owner) (w.execAt x).book.entries, (w.execAt x).book.nextId + 1⟩ := by
    simp [World.execAt_register, hI.machine]
  have hib : ∀ i, (w.register x command owner).inboxAt i = w.inboxAt i :=
    fun i => World.inboxAt_inboxes i (by simp)
  -- a command registered before has a smaller slot than the new one
  have hold : ∀ c ∈ cmds, c.slot < (w.nextEntry x command owner).slot := fun c hc => (hI.known c hc).1
  have hne : ∀ c ∈ cmds, c ≠ w.nextEntry x command owner := fun c hc h => by
    have := hold c hc
    rw [h] at this
    exact Nat.lt_irrefl _ this
  -- a command off the old book is off the new one
  have hoff : ∀ c ∈ cmds, c ∉ (w.execAt x).book.entries →
      c ∉ PendingBook.put (w.nextEntry x command owner) (w.execAt x).book.entries :=
    fun c hc hb h => (PendingBook.mem_put _ h).elim (hne c hc) hb
  have hslot : ∀ c ∈ cmds, (w.register x command owner).slotAt c.slot = w.slotAt c.slot := fun c hc => by
    rw [World.slotAt_register, if_neg (Nat.ne_of_lt (hI.known c hc).1)]
  refine ⟨hI.toWaiting.register x command owner, ?_, by simpa using hI.turns, by simpa [hib] using hI.scheduled,
    by simpa [hib] using hI.busy, by simpa [hib] using hI.closedEmpty, by simpa [World.register] using hI.machine,
    ?_, ?_, ?_, ?_, ?_, ?_⟩
  · intro i e he
    obtain ⟨c, hc, hb, ho, o, rfl⟩ := hI.queued i e (by rwa [hib] at he)
    exact ⟨c, List.mem_append_left _ hc, by rw [hxb]; exact hoff c hc hb, ho, o, rfl⟩
  · intro c hc
    rw [hxb] at hc
    rcases PendingBook.mem_put _ hc with rfl | hc
    · exact List.mem_append_right _ (List.mem_singleton_self _)
    · exact List.mem_append_left _ (hI.inBook c hc)
  · intro c hc
    rcases List.mem_append.1 hc with hc | hc
    · obtain ⟨h1, h2⟩ := hI.known c hc
      simp only [World.register_slots_size, World.register_inboxes]
      omega
    · rw [List.mem_singleton.1 hc]
      simp [World.nextEntry, hown]
  · intro c hc c' hc' h
    rcases List.mem_append.1 hc with hc | hc <;> rcases List.mem_append.1 hc' with hc' | hc'
    · exact hI.slotsApart c hc c' hc' h
    · rw [List.mem_singleton.1 hc'] at h; exact absurd h (Nat.ne_of_lt (hold c hc))
    · rw [List.mem_singleton.1 hc] at h; exact absurd h.symm (Nat.ne_of_lt (hold c' hc'))
    · rw [List.mem_singleton.1 hc, List.mem_singleton.1 hc']
  · rw [hxb]
    exact PendingBook.nodup_put _ hI.bookApart
  · intro c hc
    obtain ⟨h1, h2⟩ := hI.transit c hc
    exact ⟨List.mem_append_left _ h1, by rw [hxb]; exact hoff c h1 h2⟩
  · intro c hc hb hT hu
    rw [hxb] at hb
    -- the new entry is on the book, so `c` was registered before
    have hc' : c ∈ cmds := by
      rcases List.mem_append.1 hc with hc | hc
      · exact hc
      · rw [List.mem_singleton.1 hc] at hb
        exact absurd (PendingBook.mem_put_self _ _) hb
    -- and it was off the old book: had it been on it, the new entry took its id
    have hb' : c ∉ (w.execAt x).book.entries := by
      intro h
      by_cases hid : c.id = (w.nextEntry x command owner).id
      · exact hne c hc' (hu _ (List.mem_append_right _ (List.mem_singleton_self _)) hid.symm).symm
      · exact hb (PendingBook.mem_put_of_ne _ h hid)
    exact (hI.removed c hc' hb' hT fun c'' h'' => hu c'' (List.mem_append_left _ h'')).mono
      (by rw [hslot c hc']; exact id) (by rw [hib]; exact fun _ => id) (by rw [hib]; exact id)

/-- A context closed: its queue is dropped, and every command whose settlement was on it is
cut off. -/
theorem inv_close (hI : Inv x cmds T w) (i : Nat) :
    Inv x cmds T (w.withInbox i fun b => { b with closed := true, queue := [] }) := by
  have hib : ∀ j, (w.withInbox i fun b => { b with closed := true, queue := [] }).inboxAt j =
      if i = j ∧ j < w.inboxes.size then { w.inboxAt j with closed := true, queue := [] } else w.inboxAt j :=
    fun j => by simp
  refine ⟨hI.toWaiting.frame (by simp) (by simp) (by simp) (by simp), ?_, by simpa using hI.turns, ?_, ?_, ?_,
    by simpa using hI.machine, by simpa using hI.inBook, by simpa using hI.known, hI.slotsApart,
    by simpa using hI.bookApart, by simpa using hI.transit, ?_⟩
  · intro j e he
    rw [hib] at he
    split at he
    · cases he
    · simpa using hI.queued j e he
  · intro j hj
    rw [hib] at hj
    split at hj <;> simpa using hI.scheduled j hj
  · intro j hj
    rw [hib] at hj ⊢
    by_cases h : i = j ∧ j < w.inboxes.size
    · simp [h] at hj
    · rw [if_neg h] at hj ⊢; exact hI.busy j hj
  · intro j hj
    rw [hib] at hj ⊢
    by_cases h : i = j ∧ j < w.inboxes.size
    · simp [h]
    · rw [if_neg h] at hj ⊢; exact hI.closedEmpty j hj
  · intro c hc hb hT hu
    have hr := hI.removed c hc (by simpa using hb) hT hu
    by_cases h : i = c.owner ∧ c.owner < w.inboxes.size
    · exact .inr (.inr (by rw [hib, if_pos h]))
    · exact hr.mono (by simp) (by rw [hib, if_neg h]; exact fun _ => id) (by rw [hib, if_neg h]; exact id)

/-- A new context: open, empty and idle. -/
theorem inv_openContext (hI : Inv x cmds T w) (name : String) :
    Inv x cmds T { w with inboxes := w.inboxes.push ⟨name, [], false, false⟩ } := by
  have hib : ∀ j, ({ w with inboxes := w.inboxes.push ⟨name, [], false, false⟩ } : World).inboxAt j =
      if j = w.inboxes.size then ⟨name, [], false, false⟩ else w.inboxAt j :=
    fun j => World.getD_push j w.inboxes _
  refine ⟨hI.toWaiting.frame rfl (fun _ _ => rfl) (Nat.le_refl _) rfl, ?_, hI.turns, ?_, ?_, ?_, hI.machine,
    hI.inBook, fun c hc => ?_, hI.slotsApart, hI.bookApart, hI.transit, fun c hc hb hT hu => ?_⟩
  · intro j e he
    rw [hib] at he
    split at he
    · cases he
    · exact hI.queued j e he
  · intro j hj
    rw [hib] at hj
    split at hj
    · cases hj
    · exact hI.scheduled j hj
  · intro j hj
    rw [hib] at hj ⊢
    split
    · rename_i h; rw [if_pos h] at hj; exact absurd rfl hj
    · rename_i h; rw [if_neg h] at hj; exact hI.busy j hj
  · intro j hj
    rw [hib] at hj ⊢
    split
    · rfl
    · rename_i h; rw [if_neg h] at hj; exact hI.closedEmpty j hj
  · obtain ⟨h1, h2⟩ := hI.known c hc
    exact ⟨h1, by simp; omega⟩
  · have hne := Nat.ne_of_lt (hI.known c hc).2
    exact (hI.removed c hc hb hT hu).mono id (by rw [hib, if_neg hne]; exact fun _ => id) (by rw [hib, if_neg hne]; exact id)

/-- A turn drains the context at the head of the turn queue: it is emptied and stops asking for
a drain, and its settlements run. -/
theorem inv_drained (hI : Inv x cmds T w) {i : Nat} {ts : List Turn} (ht : w.loop.turns = .drain i :: ts) :
    Inv x cmds T ((w.setLoop { w.loop with turns := ts }).drained i) := by
  have hib : ∀ j, ((w.setLoop { w.loop with turns := ts }).drained i).inboxAt j =
      if i = j ∧ j < w.inboxes.size then { w.inboxAt j with scheduled := false, queue := [] } else w.inboxAt j := by
    intro j
    by_cases h : i = j ∧ j < w.inboxes.size <;> simp [World.drained, h]
  have hold : ∀ j, ¬(i = j ∧ j < w.inboxes.size) → ((w.setLoop { w.loop with turns := ts }).drained i).inboxAt j =
      w.inboxAt j := fun j h => by rw [hib, if_neg h]
  have hxb : ((w.setLoop { w.loop with turns := ts }).drained i).execAt x = w.execAt x := by simp [World.drained]
  have hturns : ((w.setLoop { w.loop with turns := ts }).drained i).loop.turns = ts := by simp [World.drained]
  refine ⟨?_, ?_, ?_, ?_, ?_, ?_, by simpa [World.drained] using hI.machine, by simpa [hxb] using hI.inBook,
    by simpa [World.drained] using hI.known, hI.slotsApart, by simpa [hxb] using hI.bookApart,
    by simpa [hxb] using hI.transit, ?_⟩
  · refine Waiting.settleQueued ?_ _
    exact hI.toWaiting.frame (by simp) (fun q _ => Loop.outcome?_of_cells rfl q) (by simp) (by simp)
  · intro j e he
    rw [hxb]
    by_cases h : i = j ∧ j < w.inboxes.size
    · rw [hib, if_pos h] at he; cases he
    · rw [hold j h] at he; exact hI.queued j e he
  · intro t htt
    rw [hturns] at htt
    exact hI.turns t (by simp [ht, htt])
  · intro j hj
    rw [hturns]
    by_cases h : i = j ∧ j < w.inboxes.size
    · rw [hib, if_pos h] at hj; cases hj
    · rw [hold j h] at hj
      -- the drain asked for by `j` is still queued, unless `j` is the context just drained
      have hji : j ≠ i := by
        rintro rfl
        rw [inboxAt_of_size_le (Nat.le_of_not_lt fun hj' => h ⟨rfl, hj'⟩)] at hj
        cases hj
      have := hI.scheduled j hj
      rw [ht] at this
      simpa [hji] using this
  · intro j hj
    by_cases h : i = j ∧ j < w.inboxes.size
    · rw [hib, if_pos h] at hj; exact absurd rfl hj
    · rw [hold j h] at hj ⊢; exact hI.busy j hj
  · intro j hj
    by_cases h : i = j ∧ j < w.inboxes.size
    · rw [hib, if_pos h]
    · rw [hold j h] at hj ⊢; exact hI.closedEmpty j hj
  · intro c hc hb hT hu
    rw [hxb] at hb
    rcases hI.removed c hc hb hT hu with h | ⟨o, h⟩ | h
    · left
      rw [World.drained, World.slotAt_settleQueued_of_settled _ _ (by simpa using h)]
      simpa using h
    · by_cases hi : i = c.owner
      · -- the drain just run held the settlement
        left
        subst hi
        exact World.settled_of_settleQueued _ (by simpa using h) (by simpa using (hI.known c hc).1)
      · exact .inr (.inl ⟨o, by rw [hold _ fun h' => hi h'.1]; exact h⟩)
    · right; right
      rw [hib]
      split <;> simpa using h

/-- With the invariant, the next turn is the drain at the head of the turn queue. -/
theorem nextTurn_of_inv (hI : Inv x cmds T w) {t : Turn} {ts : List Turn} (ht : w.loop.turns = t :: ts) :
    ∃ i, t = .drain i ∧ w.nextTurn = (w.setLoop { w.loop with turns := ts }).drained i := by
  obtain ⟨i, rfl⟩ := hI.turns t (by simp [ht])
  refine ⟨i, rfl, nextTurn_drain w ht (fun e he => ?_) ?_⟩
  · obtain ⟨c, -, -, -, o, h⟩ := hI.queued i e he
    exact ⟨c.slot, o, h⟩
  · cases h : (w.inboxAt i).closed
    · exact .inl rfl
    · exact .inr (hI.closedEmpty i h)

theorem inv_nextTurn (hI : Inv x cmds T w) : Inv x cmds T w.nextTurn := by
  cases ht : w.loop.turns with
  | nil => simpa [World.nextTurn, Loop.takeTurn?, ht] using hI
  | cons t ts =>
    obtain ⟨i, rfl, hn⟩ := nextTurn_of_inv hI ht
    rw [hn]
    exact inv_drained hI ht

/-- Where the registry system starts: machine `x` exists with an empty book, no context has work
or asked for a drain, no turn or timer is queued and no slot has waiters. -/
structure Quiet (x : Nat) (w : World) : Prop where
  machine : x < w.execs.size
  book : (w.execAt x).book.entries = []
  idle : ∀ i, (w.inboxAt i).queue = [] ∧ (w.inboxAt i).scheduled = false
  turns : w.loop.turns = []
  timers : w.loop.timers = []
  waiters : ∀ s, (w.slotAt s).waiters = []

theorem inv_quiet (h : Quiet x w) : Inv x [] [] w := by
  refine ⟨⟨?_, ?_, ?_⟩, ?_, ?_, ?_, ?_, ?_, h.machine, ?_, ?_, ?_, ?_, ?_, ?_⟩ <;> intros <;>
    simp_all [h.waiters, h.turns, h.timers, h.book, (h.idle _).1, (h.idle _).2]

/-- Every event keeps the invariant, adding the commands it registers. -/
theorem inv_step (hI : Inv x cmds [] w) {e : Event} (hv : e.Valid w) :
    Inv x (cmds ++ e.registers x w) [] (step x w e) := by
  cases e with
  | register command owner =>
    rw [step_register]
    exact inv_register hI hv
  | resolve id v =>
    simp only [Event.registers, List.append_nil]
    rw [step_resolve]
    split
    · exact hI
    · rename_i e he
      exact inv_settleEntry (inv_dropEntry hI he) _
  | fail id f =>
    simp only [Event.registers, List.append_nil]
    rw [step_fail]
    split
    · exact hI
    · rename_i e he
      exact inv_settleEntry (inv_dropEntry hI he) _
  | failAll f =>
    simp only [Event.registers, List.append_nil]
    rw [step_failAll]
    exact inv_settleEntries _ (by simpa using inv_clearBook hI) _
  | wait s t label =>
    simp only [Event.registers, List.append_nil]
    cases hst : (w.slotAt s).state with
    | pending => rw [step_wait_pending x w t label hst]; exact inv_waitOn hI hv hst t label
    | resolved v =>
      rw [step_wait_settled x w t label (by simp [hst, SlotState.outcome?] :
        (w.slotAt s).state.outcome? = some (.ok (.json v)))]
      exact inv_done hI _
    | rejected f =>
      rw [step_wait_settled x w t label (by simp [hst, SlotState.outcome?] :
        (w.slotAt s).state.outcome? = some (.error f))]
      exact inv_done hI _
  | expire id => simpa [Event.registers, step] using inv_fire hI id
  | turn => simpa [Event.registers, step] using inv_nextTurn hI
  | close i =>
    simp only [Event.registers, List.append_nil]
    rw [step_close]
    exact inv_close hI i
  | openContext name =>
    simp only [Event.registers, List.append_nil]
    rw [step_openContext]
    exact inv_openContext hI name

/-- A run from a world with the invariant keeps it, with the commands registered on the way. -/
theorem inv_run {w₀ : World} {regs : List PendingEntry} (hI : Inv x cmds [] w₀) (h : Run x w₀ w regs) :
    Inv x (cmds ++ regs) [] w := by
  induction h with
  | start => simpa using hI
  | step e _ hv ih => simpa [List.append_assoc] using inv_step ih hv

/-! ## Which slots a step may settle -/

/-- From `w` to `w'` a slot changes state only from pending, and only where `P` allows. -/
def Fills (P : Nat → Prop) (w w' : World) : Prop :=
  ∀ j, (w'.slotAt j).state = (w.slotAt j).state ∨ ((w.slotAt j).state = .pending ∧ P j)

section Fills

variable {P Q : Nat → Prop} {w'' : World}

theorem Fills.of_state (h : ∀ j, (w'.slotAt j).state = (w.slotAt j).state) : Fills P w w' :=
  fun j => .inl (h j)

theorem Fills.trans (h : Fills P w w') (h' : Fills P w' w'') : Fills P w w'' := by
  intro j
  rcases h j with h1 | h1
  · rcases h' j with h2 | ⟨hp, hP⟩
    · exact .inl (h2.trans h1)
    · exact .inr ⟨h1 ▸ hp, hP⟩
  · exact .inr h1

theorem Fills.mono (h : Fills P w w') (hPQ : ∀ j, P j → Q j) : Fills Q w w' := by
  intro j
  rcases h j with h1 | ⟨hp, hP⟩
  · exact .inl h1
  · exact .inr ⟨hp, hPQ j hP⟩

theorem fills_fillSlot (s : Nat) (o : Except Fault Json) : Fills (· = s) w (w.fillSlot s o) := by
  intro j
  by_cases hj : j = s
  · subst hj
    by_cases hp : (w.slotAt j).state = .pending
    · exact .inr ⟨hp, rfl⟩
    · exact .inl (by rw [World.slotAt_fillSlot_of_settled j o hp])
  · exact .inl (by rw [World.slotAt_fillSlot_of_ne s o hj])

theorem fills_settleQueued (xs : List Errand) :
    Fills (fun j => ∃ o, Errand.settleSlot j o ∈ xs) w (w.settleQueued xs) := by
  induction xs generalizing w with
  | nil => exact Fills.of_state fun _ => rfl
  | cons e xs ih =>
    cases e with
    | settleSlot s o =>
      exact ((fills_fillSlot s o).mono fun j h => ⟨o, by simp [h]⟩).trans
        (ih.mono fun j ⟨o', h⟩ => ⟨o', .tail _ h⟩)
    | _ => exact ih.mono fun j ⟨o', h⟩ => ⟨o', .tail _ h⟩

theorem fills_settleEntry (e : PendingEntry) (o : Except Fault Json) : Fills (· = e.slot) w (w.settleEntry e o) := by
  unfold World.settleEntry
  split
  · exact (Fills.of_state (by simp)).trans (fills_fillSlot _ _)
  · exact Fills.of_state (by simp)

theorem fills_settleEntries (es : List PendingEntry) (o : Except Fault Json) :
    Fills (fun j => ∃ e ∈ es, e.slot = j) w (es.foldl (fun w e => w.settleEntry e o) w) := by
  induction es generalizing w with
  | nil => exact Fills.of_state fun _ => rfl
  | cons e es ih =>
    exact ((fills_settleEntry e o).mono fun j h => ⟨e, .head _, h.symm⟩).trans
      (ih.mono fun j ⟨e', he', h⟩ => ⟨e', .tail _ he', h⟩)

end Fills

/-- A settlement is owed to slot `j`: a command in the book holds it, or a settlement for it is
queued on some context. -/
def Owed (x : Nat) (w : World) (j : Nat) : Prop :=
  (∃ c ∈ (w.execAt x).book.entries, c.slot = j) ∨ ∃ i o, Errand.settleSlot j o ∈ (w.inboxAt i).queue

/-- A step settles only slots a settlement is owed to, and never changes a settled one. -/
theorem fills_step (hI : Inv x cmds [] w) (e : Event) : Fills (Owed x w) w (step x w e) := by
  cases e with
  | register command owner =>
    refine Fills.of_state fun j => ?_
    rw [step_register, World.slotAt_register]
    split
    · rename_i h; subst h; simp [World.slotAt]; rfl
    · rfl
  | resolve id v =>
    rw [step_resolve]
    split
    · exact Fills.of_state fun _ => rfl
    · rename_i e he
      exact (Fills.of_state (by simp)).trans ((fills_settleEntry e _).mono fun j h =>
        .inl ⟨e, List.mem_of_find?_eq_some he, h.symm⟩)
  | fail id f =>
    rw [step_fail]
    split
    · exact Fills.of_state fun _ => rfl
    · rename_i e he
      exact (Fills.of_state (by simp)).trans ((fills_settleEntry e _).mono fun j h =>
        .inl ⟨e, List.mem_of_find?_eq_some he, h.symm⟩)
  | failAll f =>
    rw [step_failAll]
    exact (Fills.of_state (by simp)).trans ((fills_settleEntries _ _).mono fun j h => .inl h)
  | wait s t label =>
    cases hst : (w.slotAt s).state with
    | pending => exact Fills.of_state (by rw [step_wait_pending x w t label hst]; simp)
    | resolved v =>
      exact Fills.of_state (by
        rw [step_wait_settled x w t label (by simp [hst, SlotState.outcome?] :
          (w.slotAt s).state.outcome? = some (.ok (.json v)))]; simp)
    | rejected f =>
      exact Fills.of_state (by
        rw [step_wait_settled x w t label (by simp [hst, SlotState.outcome?] :
          (w.slotAt s).state.outcome? = some (.error f))]; simp)
  | expire id =>
    show Fills _ w (w.fire id)
    cases hf : w.loop.timers.find? (·.id == id) with
    | none => exact Fills.of_state (by simp [World.fire, hf])
    | some t =>
      obtain ⟨s, p, label, ms, htask, -⟩ := hI.timers t (List.mem_of_find?_eq_some hf)
      rw [fire_slotTimeout w hf htask]
      exact Fills.of_state (by simp)
  | turn =>
    simp only [step]
    cases ht : w.loop.turns with
    | nil => exact Fills.of_state (by simp [World.nextTurn, Loop.takeTurn?, ht])
    | cons t ts =>
      obtain ⟨i, rfl, hn⟩ := nextTurn_of_inv hI ht
      rw [hn]
      refine (Fills.of_state (by simp)).trans ((fills_settleQueued _).mono fun j h => ?_)
      obtain ⟨o, h⟩ := h
      exact .inr ⟨i, o, by simpa using h⟩
  | close i => exact Fills.of_state (by rw [step_close]; simp)
  | openContext name => exact Fills.of_state (by rw [step_openContext]; exact fun _ => rfl)

/-! ## What becomes of a waiter -/

/-- What became of waiter `wt` of slot `s`: it still waits, or it heard the slot's outcome, or
its own deadline ran out first. -/
def Fate (s : Nat) (wt : Waiter) (w : World) : Prop :=
  wt ∈ (w.slotAt s).waiters ∨
  (∃ o, (w.slotAt s).state.outcome? = some o ∧ w.loop.outcome? wt.promise = some o) ∨
  ∃ id label ms, wt.timer = some id ∧ w.loop.outcome? wt.promise = some (.error (Act.slotTimeoutFault label ms))

section Fate

variable {s : Nat} {wt : Waiter}

theorem lt_of_settled (h : (w.slotAt s).state ≠ .pending) : s < w.slots.size := by
  refine Nat.lt_of_not_le fun hs => h ?_
  simp [World.slotAt, hs]
  rfl

/-- An effect that keeps the waiter where it waits, every settled slot and every settled
promise keeps its fate. -/
theorem Fate.keep (h : Fate s wt w) (hw : wt ∈ (w.slotAt s).waiters → wt ∈ (w'.slotAt s).waiters)
    (hs : (w.slotAt s).state ≠ .pending → (w'.slotAt s).state = (w.slotAt s).state)
    (hp : ∀ q o, w.loop.outcome? q = some o → w'.loop.outcome? q = some o) : Fate s wt w' := by
  rcases h with h | ⟨o, hso, hpo⟩ | ⟨id, label, ms, ht, hpo⟩
  · exact .inl (hw h)
  · have hne : (w.slotAt s).state ≠ .pending := fun h => by simp [h, SlotState.outcome?] at hso
    exact .inr (.inl ⟨o, by rw [hs hne]; exact hso, hp _ _ hpo⟩)
  · exact .inr (.inr ⟨id, label, ms, ht, hp _ _ hpo⟩)

/-- An effect that leaves the slots and the promises alone keeps every fate. -/
theorem Fate.frame (h : Fate s wt w) (hs : w'.slots = w.slots) (hl : w'.loop.cells = w.loop.cells) :
    Fate s wt w' :=
  h.keep (by rw [World.slotAt_slots s hs]; exact id) (by rw [World.slotAt_slots s hs]; exact fun _ => rfl)
    fun q o hq => by rwa [Loop.outcome?_of_cells hl]

/-- Settling a slot: its waiters hear the outcome. -/
theorem Fate.fillSlot (hW : Waiting w) (h : Fate s wt w) (s' : Nat) (o : Except Fault Json) :
    Fate s wt (w.fillSlot s' o) := by
  by_cases hp : (w.slotAt s').state = .pending
  case neg => rwa [Act.fillSlot_settled w o hp]
  by_cases hin : wt ∈ (w.slotAt s).waiters ∧ s = s'
  · obtain ⟨hw, rfl⟩ := hin
    obtain ⟨-, hn, hlt⟩ := hW.pending s wt hw
    refine .inr (.inl ⟨o.map Val.json, ?_, ?_⟩)
    · rw [World.slotAt_fillSlot_self s o (lt_of_mem_waiters hw) hp]
      simp
    · rw [World.fillSlot_loop_of_pending s o hp]
      exact Loop.outcome?_release_of_mem _ _ _ hw hlt hn
  · refine h.keep (fun hw => ?_) (fun hne => by rw [World.slotAt_fillSlot_of_settled s' o hne]) fun q o' hq => ?_
    · rwa [World.slotAt_fillSlot_of_ne s' o fun e => hin ⟨hw, e⟩]
    · rw [World.fillSlot_loop_of_pending s' o hp]
      exact Loop.outcome?_release_of_settled _ _ _ hq

theorem Waiting.log (hW : Waiting w) (d : Diagnostic) : Waiting (w.log d) :=
  hW.frame (by simp) (by simp) (by simp) (by simp)

theorem Waiting.enqueue (hW : Waiting w) (i : Nat) (e : Errand) : Waiting (w.enqueue i e) :=
  hW.frame (by simp) (fun q _ => Loop.outcome?_of_cells (by simp) q) (by simp) (by simp)

theorem Waiting.settleEntry (hW : Waiting w) (e : PendingEntry) (o : Except Fault Json) :
    Waiting (w.settleEntry e o) := by
  unfold World.settleEntry
  split
  · exact (hW.log _).fillSlot _ _
  · exact hW.enqueue _ _

theorem Fate.settleEntry (hW : Waiting w) (h : Fate s wt w) (e : PendingEntry) (o : Except Fault Json) :
    Fate s wt (w.settleEntry e o) := by
  unfold World.settleEntry
  split
  · exact Fate.fillSlot (hW.log _) (h.frame (by simp) (by simp)) _ _
  · exact h.frame (by simp) (by simp)

theorem Fate.settleEntries (hW : Waiting w) (h : Fate s wt w) (es : List PendingEntry) (o : Except Fault Json) :
    Fate s wt (es.foldl (fun w e => w.settleEntry e o) w) := by
  induction es generalizing w with
  | nil => exact h
  | cons e es ih => exact ih (hW.settleEntry e o) (h.settleEntry hW e o)

theorem Fate.settleQueued (hW : Waiting w) (h : Fate s wt w) (xs : List Errand) : Fate s wt (w.settleQueued xs) := by
  induction xs generalizing w with
  | nil => exact h
  | cons e xs ih =>
    cases e with
    | settleSlot s' o => exact ih (hW.fillSlot s' o) (h.fillSlot hW s' o)
    | _ => exact ih hW h

/-- A deadline runs out: its own waiter fails with the timeout, every other waiter stays. -/
theorem Fate.expire (hW : Waiting w) (h : Fate s wt w) {t : Timer Turn} (ht : t ∈ w.loop.timers) {s' p : Nat}
    {label : String} {ms : Json} (htask : t.task = .slotTimeout s' p label ms) :
    Fate s wt (w.expire s' p t.id label ms) := by
  obtain ⟨s₀, p₀, label₀, ms₀, htask₀, hown⟩ := hW.timers t ht
  rw [htask] at htask₀
  injection htask₀ with hs hp
  subst hs hp
  have hkept : ∀ q o, w.loop.outcome? q = some o → (w.expire s' p t.id label ms).loop.outcome? q = some o :=
    fun q o hq => Loop.outcome?_settle_of_settled _ _ (by simpa using hq)
  by_cases hin : wt ∈ (w.slotAt s).waiters ∧ wt.promise = p
  · -- the deadline is this waiter's own
    obtain ⟨hw, hwp⟩ := hin
    have hwt := (hW.apart _ _ _ _ hw hown hwp).2
    obtain ⟨-, hn, hlt⟩ := hW.pending s wt hw
    refine .inr (.inr ⟨t.id, label, ms, by rw [hwt], ?_⟩)
    rw [hwp] at hn hlt ⊢
    exact Loop.outcome?_settle_self _ _ (by simpa [Loop.cancel] using hlt) (by simpa using hn)
  · refine h.keep (fun hw => ?_) (fun _ => by simp) hkept
    have hne : wt.promise ≠ p := fun e => hin ⟨hw, e⟩
    by_cases hs : s' = s ∧ s < w.slots.size
    · simp [World.expire, hs, hw, hne]
    · simpa [World.expire, hs] using hw

end Fate

/-- Every event keeps the fate of every waiter. -/
theorem fate_step (hI : Inv x cmds [] w) {s : Nat} {wt : Waiter} (h : Fate s wt w) (e : Event) :
    Fate s wt (step x w e) := by
  cases e with
  | register command owner =>
    rw [step_register]
    refine h.keep (fun hw => ?_) (fun hne => ?_) fun q o hq => by simpa using hq
    · rwa [World.slotAt_register, if_neg (Nat.ne_of_lt (lt_of_mem_waiters hw))]
    · rw [World.slotAt_register, if_neg (Nat.ne_of_lt (lt_of_settled hne))]
  | resolve id v =>
    rw [step_resolve]
    split
    · exact h
    · exact (h.frame (by simp) (by simp)).settleEntry (hI.toWaiting.frame (by simp) (by simp) (by simp) (by simp)) _ _
  | fail id f =>
    rw [step_fail]
    split
    · exact h
    · exact (h.frame (by simp) (by simp)).settleEntry (hI.toWaiting.frame (by simp) (by simp) (by simp) (by simp)) _ _
  | failAll f =>
    rw [step_failAll]
    exact (h.frame (by simp) (by simp)).settleEntries (hI.toWaiting.frame (by simp) (by simp) (by simp) (by simp)) _ _
  | wait s' t label =>
    cases hst : (w.slotAt s').state with
    | pending =>
      rw [step_wait_pending x w t label hst]
      refine h.keep (fun hw => ?_) (fun _ => by simp) fun q o hq => ?_
      · cases t <;> by_cases hs : s' = s ∧ s < w.slots.size <;> simp [World.waitOn, hs, hw]
      · cases t <;> simpa [World.waitOn] using hq
    | resolved v =>
      rw [step_wait_settled x w t label (by simp [hst, SlotState.outcome?] :
        (w.slotAt s').state.outcome? = some (.ok (.json v)))]
      refine h.keep (by simp) (by simp) fun q o hq => ?_
      rw [World.setLoop_loop, Loop.outcome?_done, if_neg (Nat.ne_of_lt (Loop.lt_size_of_outcome? _ hq))]
      exact hq
    | rejected f =>
      rw [step_wait_settled x w t label (by simp [hst, SlotState.outcome?] :
        (w.slotAt s').state.outcome? = some (.error f))]
      refine h.keep (by simp) (by simp) fun q o hq => ?_
      rw [World.setLoop_loop, Loop.outcome?_done, if_neg (Nat.ne_of_lt (Loop.lt_size_of_outcome? _ hq))]
      exact hq
  | expire id =>
    show Fate s wt (w.fire id)
    cases hf : w.loop.timers.find? (·.id == id) with
    | none => simpa [World.fire, hf] using h
    | some t =>
      have ht := List.mem_of_find?_eq_some hf
      have hid : t.id = id := by simpa using List.find?_some hf
      obtain ⟨s', p, label, ms, htask, -⟩ := hI.timers t ht
      rw [fire_slotTimeout w hf htask, ← hid]
      exact h.expire hI.toWaiting ht htask
  | turn =>
    show Fate s wt w.nextTurn
    cases ht : w.loop.turns with
    | nil => simpa [World.nextTurn, Loop.takeTurn?, ht] using h
    | cons t ts =>
      obtain ⟨i, rfl, hn⟩ := nextTurn_of_inv hI ht
      rw [hn]
      unfold World.drained
      refine Fate.settleQueued ?_ ?_ _
      · exact hI.toWaiting.frame (by simp) (fun q _ => Loop.outcome?_of_cells rfl q) (by simp) (by simp)
      · exact h.frame (by simp) (by simp)
  | close i =>
    rw [step_close]
    exact h.frame (by simp) (by simp)
  | openContext name =>
    rw [step_openContext]
    exact h.frame rfl rfl

theorem Run.trans {w₀ w₁ w₂ : World} {r₁ r₂ : List PendingEntry} (h₁ : Run x w₀ w₁ r₁) (h₂ : Run x w₁ w₂ r₂) :
    Run x w₀ w₂ (r₁ ++ r₂) := by
  induction h₂ with
  | start => simpa using h₁
  | step e _ hv ih => simpa [List.append_assoc] using Run.step e ih hv

section Runs

variable {w₁ w₂ : World} {regs : List PendingEntry}

/-- Along a run, a settled slot keeps its state. -/
theorem settled_run (hI : Inv x cmds [] w₁) (h : Run x w₁ w₂ regs) {s : Nat}
    (hs : (w₁.slotAt s).state ≠ .pending) : (w₂.slotAt s).state = (w₁.slotAt s).state := by
  induction h with
  | start => rfl
  | step e hr _ ih =>
    rcases fills_step (inv_run hI hr) e s with h | ⟨hp, -⟩
    · rw [h, ih]
    · exact absurd (ih.symm.trans hp) hs

theorem fate_run (hI : Inv x cmds [] w₁) (h : Run x w₁ w₂ regs) {s : Nat} {wt : Waiter} (hf : Fate s wt w₁) :
    Fate s wt w₂ := by
  induction h with
  | start => exact hf
  | step e hr _ ih => exact fate_step (inv_run hI hr) ih e

end Runs

/-! ## The book only grows by registration, and contexts queue only what is owed -/

theorem settleEntries_execs (es : List PendingEntry) (o : Except Fault Json) :
    (es.foldl (fun w e => w.settleEntry e o) w).execs = w.execs := by
  induction es generalizing w with
  | nil => rfl
  | cons e es ih => exact (ih).trans (by simp)

@[simp] theorem closed_drained (i j : Nat) : ((w.drained i).inboxAt j).closed = (w.inboxAt j).closed := by
  simp only [World.drained, World.inboxAt_settleQueued, World.inboxAt_withInbox]
  split <;> rfl

@[simp] theorem execAt_drained (i j : Nat) : (w.drained i).execAt j = w.execAt j := by
  simp [World.drained]

/-- A step adds to the book only what it registers. -/
theorem book_step (hI : Inv x cmds [] w) (e : Event) :
    ∀ c ∈ ((step x w e).execAt x).book.entries, c ∈ (w.execAt x).book.entries ∨ c ∈ e.registers x w := by
  intro c hc
  cases e with
  | register command owner =>
    rw [step_register, World.execAt_register, if_pos ⟨rfl, hI.machine⟩] at hc
    rcases PendingBook.mem_put _ hc with rfl | hc
    · exact .inr (by simp [Event.registers])
    · exact .inl hc
  | resolve id v =>
    rw [step_resolve] at hc
    split at hc
    · exact .inl hc
    · left
      rw [World.execAt_execs x (World.settleEntry_execs _ _), World.execAt_dropEntry, if_pos ⟨rfl, hI.machine⟩] at hc
      exact (List.mem_filter.1 hc).1
  | fail id f =>
    rw [step_fail] at hc
    split at hc
    · exact .inl hc
    · left
      rw [World.execAt_execs x (World.settleEntry_execs _ _), World.execAt_dropEntry, if_pos ⟨rfl, hI.machine⟩] at hc
      exact (List.mem_filter.1 hc).1
  | failAll f =>
    rw [step_failAll, World.execAt_execs x (settleEntries_execs _ _)] at hc
    simp [hI.machine] at hc
  | wait s t label =>
    left
    cases hst : (w.slotAt s).state with
    | pending => rwa [step_wait_pending x w t label hst, World.execAt_waitOn] at hc
    | resolved v =>
      rwa [step_wait_settled x w t label (by simp [hst, SlotState.outcome?] :
        (w.slotAt s).state.outcome? = some (.ok (.json v))), World.execAt_setLoop] at hc
    | rejected f =>
      rwa [step_wait_settled x w t label (by simp [hst, SlotState.outcome?] :
        (w.slotAt s).state.outcome? = some (.error f)), World.execAt_setLoop] at hc
  | expire id =>
    left
    change c ∈ ((w.fire id).execAt x).book.entries at hc
    cases hf : w.loop.timers.find? (·.id == id) with
    | none => simpa [World.fire, hf] using hc
    | some t =>
      obtain ⟨s, p, label, ms, htask, -⟩ := hI.timers t (List.mem_of_find?_eq_some hf)
      rwa [fire_slotTimeout w hf htask, World.execAt_expire] at hc
  | turn =>
    left
    change c ∈ (w.nextTurn.execAt x).book.entries at hc
    cases ht : w.loop.turns with
    | nil => simpa [World.nextTurn, Loop.takeTurn?, ht] using hc
    | cons t ts =>
      obtain ⟨i, -, hn⟩ := nextTurn_of_inv hI ht
      rwa [hn, execAt_drained, World.execAt_setLoop] at hc
  | close i => left; rwa [step_close, World.execAt_withInbox] at hc
  | openContext name => left; rwa [step_openContext] at hc

/-- A settlement on a context after settling `e` was there before, or it is `e`'s own. -/
theorem queue_settleEntry {e : PendingEntry} {o' o : Except Fault Json} {i j : Nat}
    (h : Errand.settleSlot j o ∈ ((w.settleEntry e o').inboxAt i).queue) :
    Errand.settleSlot j o ∈ (w.inboxAt i).queue ∨ j = e.slot := by
  unfold World.settleEntry at h
  split at h
  · exact .inl (by simpa using h)
  · rw [World.inboxAt_enqueue] at h
    split at h
    · rcases List.mem_append.1 h with h | h
      · exact .inl h
      · exact .inr (by simp at h; exact h.1)
    · exact .inl h

theorem queue_settleEntries {es : List PendingEntry} {o' o : Except Fault Json} {i j : Nat}
    (h : Errand.settleSlot j o ∈ ((es.foldl (fun w e => w.settleEntry e o') w).inboxAt i).queue) :
    Errand.settleSlot j o ∈ (w.inboxAt i).queue ∨ ∃ e ∈ es, e.slot = j := by
  induction es generalizing w with
  | nil => exact .inl h
  | cons e es ih =>
    rcases ih h with h | ⟨e', he', hs⟩
    · rcases queue_settleEntry h with h | rfl
      · exact .inl h
      · exact .inr ⟨e, List.mem_cons_self, rfl⟩
    · exact .inr ⟨e', List.mem_cons_of_mem _ he', hs⟩

/-- A step queues only settlements that were owed: those of the commands it takes off the book. -/
theorem queued_step (hI : Inv x cmds [] w) (e : Event) {i j : Nat} {o : Except Fault Json}
    (h : Errand.settleSlot j o ∈ ((step x w e).inboxAt i).queue) : Owed x w j := by
  cases e with
  | register command owner => exact .inr ⟨i, o, by rwa [step_register, World.inboxAt_register] at h⟩
  | resolve id v =>
    rw [step_resolve] at h
    split at h
    · exact .inr ⟨i, o, h⟩
    · rename_i e he
      rcases queue_settleEntry h with h | rfl
      · exact .inr ⟨i, o, by simpa using h⟩
      · exact .inl ⟨e, List.mem_of_find?_eq_some he, rfl⟩
  | fail id f =>
    rw [step_fail] at h
    split at h
    · exact .inr ⟨i, o, h⟩
    · rename_i e he
      rcases queue_settleEntry h with h | rfl
      · exact .inr ⟨i, o, by simpa using h⟩
      · exact .inl ⟨e, List.mem_of_find?_eq_some he, rfl⟩
  | failAll f =>
    rw [step_failAll] at h
    rcases queue_settleEntries h with h | h
    · exact .inr ⟨i, o, by simpa using h⟩
    · exact .inl h
  | wait s t label =>
    refine .inr ⟨i, o, ?_⟩
    cases hst : (w.slotAt s).state with
    | pending => rwa [step_wait_pending x w t label hst, World.inboxAt_waitOn] at h
    | resolved v =>
      rwa [step_wait_settled x w t label (by simp [hst, SlotState.outcome?] :
        (w.slotAt s).state.outcome? = some (.ok (.json v))), World.inboxAt_setLoop] at h
    | rejected f =>
      rwa [step_wait_settled x w t label (by simp [hst, SlotState.outcome?] :
        (w.slotAt s).state.outcome? = some (.error f)), World.inboxAt_setLoop] at h
  | expire id =>
    refine .inr ⟨i, o, ?_⟩
    change Errand.settleSlot j o ∈ ((w.fire id).inboxAt i).queue at h
    cases hf : w.loop.timers.find? (·.id == id) with
    | none => simpa [World.fire, hf] using h
    | some t =>
      obtain ⟨s, p, label, ms, htask, -⟩ := hI.timers t (List.mem_of_find?_eq_some hf)
      rwa [fire_slotTimeout w hf htask, World.inboxAt_expire] at h
  | turn =>
    -- the drained context is left empty
    refine .inr ⟨i, o, ?_⟩
    change Errand.settleSlot j o ∈ (w.nextTurn.inboxAt i).queue at h
    cases ht : w.loop.turns with
    | nil => simpa [World.nextTurn, Loop.takeTurn?, ht] using h
    | cons t ts =>
      obtain ⟨k, -, hn⟩ := nextTurn_of_inv hI ht
      rw [hn] at h
      simp only [World.drained, World.inboxAt_settleQueued, World.inboxAt_withInbox, World.inboxAt_setLoop] at h
      split at h
      · cases h
      · exact h
  | close k =>
    refine .inr ⟨i, o, ?_⟩
    rw [step_close, World.inboxAt_withInbox] at h
    split at h
    · cases h
    · exact h
  | openContext name =>
    refine .inr ⟨i, o, ?_⟩
    rw [step_openContext, show ({ w with inboxes := w.inboxes.push ⟨name, [], false, false⟩ } : World).inboxAt i =
      _ from World.getD_push i w.inboxes _] at h
    split at h
    · cases h
    · exact h

/-- A step owes a settlement only where one was owed, or to the command it registers. -/
theorem owed_step (hI : Inv x cmds [] w) (e : Event) {j : Nat} (h : Owed x (step x w e) j) :
    Owed x w j ∨ ∃ c ∈ e.registers x w, c.slot = j := by
  rcases h with ⟨c, hc, rfl⟩ | ⟨i, o, hq⟩
  · rcases book_step hI e c hc with h | h
    · exact .inl (.inl ⟨c, h, rfl⟩)
    · exact .inr ⟨c, h, rfl⟩
  · exact .inl (queued_step hI e hq)

/-! ## Commands cut off -/

/-- A command cut off: nothing owes its slot a settlement, and the slot is still pending. -/
structure Lost (x : Nat) (c : PendingEntry) (w : World) : Prop where
  unowed : ¬Owed x w c.slot
  pending : (w.slotAt c.slot).state = .pending

theorem Lost.offBook (hl : Lost x c w) : c ∉ (w.execAt x).book.entries :=
  fun hc => hl.unowed (.inl ⟨c, hc, rfl⟩)

/-- A settlement queued for the slot of a registered command is that command's, on its owner's
context, and the command has left the book. -/
theorem queued_own (hI : Inv x cmds T w) (hc : c ∈ cmds) {i : Nat} {o : Except Fault Json}
    (hq : Errand.settleSlot c.slot o ∈ (w.inboxAt i).queue) : i = c.owner ∧ c ∉ (w.execAt x).book.entries := by
  obtain ⟨c', hc', hb, hown, o', he⟩ := hI.queued i _ hq
  obtain rfl : c' = c := hI.slotsApart c' hc' c hc (by injection he with h; exact h.symm)
  exact ⟨hown.symm, hb⟩

/-- A command off the book whose owner's context is closed is owed nothing: a settlement for it
would sit on that context, which is empty. -/
theorem unowed_of_closed (hI : Inv x cmds [] w) (hc : c ∈ cmds) (hb : c ∉ (w.execAt x).book.entries)
    (hcl : (w.inboxAt c.owner).closed = true) : ¬Owed x w c.slot := by
  rintro (⟨c', hc', hs⟩ | ⟨i, o, hq⟩)
  · exact hb (hI.slotsApart c' (hI.inBook c' hc') c hc hs ▸ hc')
  · obtain ⟨rfl, -⟩ := queued_own hI hc hq
    rw [hI.closedEmpty _ hcl] at hq
    cases hq

/-- A registration takes a slot no command had. -/
theorem slot_of_mem_registers {e : Event} {c' : PendingEntry} (h : c' ∈ e.registers x w) : c'.slot = w.slots.size := by
  cases e with
  | register command owner => rw [List.mem_singleton.1 h]; rfl
  | _ => simp [Event.registers] at h

theorem lost_step (hI : Inv x cmds [] w) (hc : c ∈ cmds) (hl : Lost x c w) (e : Event) : Lost x c (step x w e) := by
  refine ⟨fun h => ?_, ?_⟩
  · rcases owed_step hI e h with h | ⟨c', hc', hs⟩
    · exact hl.unowed h
    · have hlt := (hI.known c hc).1
      rw [← hs, slot_of_mem_registers hc'] at hlt
      exact Nat.lt_irrefl _ hlt
  · rcases fills_step hI e c.slot with h | ⟨-, hP⟩
    · rw [h]; exact hl.pending
    · exact absurd hP hl.unowed

/-- Once cut off, a command stays cut off on every run. -/
theorem lost_run {w₁ w₂ : World} {regs : List PendingEntry} (hI : Inv x cmds [] w₁) (hc : c ∈ cmds)
    (hl : Lost x c w₁) (h : Run x w₁ w₂ regs) : Lost x c w₂ := by
  induction h with
  | start => exact hl
  | step e hr _ ih => exact lost_step (inv_run hI hr) (List.mem_append_left _ hc) ih e

/-- Once the loop has no turn left, a command off the book whose owner is open is settled, unless
another command was given its id. -/
theorem settled_when_quiet (hI : Inv x cmds [] w) (hc : c ∈ cmds) (hb : c ∉ (w.execAt x).book.entries)
    (hu : Unshared cmds c) (hopen : (w.inboxAt c.owner).closed = false) (hq : w.loop.turns = []) :
    (w.slotAt c.slot).state ≠ .pending := by
  rcases hI.removed c hc hb (by simp) hu with h | ⟨o, h⟩ | h
  · exact h
  · -- a queued settlement keeps a drain queued
    have := hI.scheduled _ (hI.busy _ (List.ne_nil_of_mem h))
    rw [hq] at this
    cases this
  · rw [hopen] at h
    cases h

/-- From a world with the invariant, running the turns left brings the loop to rest: each turn
takes one and queues none. The book and the closed contexts stay as they are. -/
theorem drain_run (hI : Inv x cmds [] w) : ∃ w', Run x w w' [] ∧ w'.loop.turns = [] ∧
    (w'.execAt x).book = (w.execAt x).book ∧ ∀ i, (w'.inboxAt i).closed = (w.inboxAt i).closed := by
  obtain ⟨n, hn⟩ : ∃ n, w.loop.turns.length = n := ⟨_, rfl⟩
  induction n generalizing w cmds with
  | zero => exact ⟨w, .start, List.length_eq_zero_iff.1 hn, rfl, fun _ => rfl⟩
  | succ n ih =>
    obtain ⟨t, ts, ht⟩ := List.exists_cons_of_length_eq_add_one hn
    obtain ⟨i, -, hnext⟩ := nextTurn_of_inv hI ht
    have h1 : Run x w (step x w .turn) [] := by simpa [Event.registers] using Run.step .turn Run.start trivial
    have hI1 : Inv x (cmds ++ Event.registers x w .turn) [] (step x w .turn) := inv_step hI trivial
    simp only [Event.registers, List.append_nil] at hI1
    have hturns : (step x w .turn).loop.turns.length = n := by
      simp only [step, hnext, World.drained, World.settleQueued_turns, World.withInbox_loop, World.setLoop_loop]
      simpa [ht] using hn
    obtain ⟨w', hr, hq, hb, hcl⟩ := ih hI1 hturns
    refine ⟨w', by simpa using h1.trans hr, hq, ?_, fun j => ?_⟩
    · rw [hb]
      simp [step, hnext]
    · rw [hcl]
      simp [step, hnext]

/-- A command resolved while its owner is open, whose owner closes before the drain that would
deliver the settlement, is cut off: the settlement went with the queue, and the command is off
the book. -/
theorem lost_after_close (hI : Inv x cmds [] w) (command : String) {owner : Nat} (hown : owner < w.inboxes.size)
    (hopen : (w.inboxAt owner).closed = false) (v : Json) :
    Lost x (w.nextEntry x command owner) (step x (step x (step x w (.register command owner))
      (.resolve (w.nextEntry x command owner).id v)) (.close owner)) := by
  -- the new entry is the only one with its id
  have hfind : ((w.register x command owner).execAt x).book.entries.find? (·.id == (w.nextEntry x command owner).id) =
      some (w.nextEntry x command owner) := by
    rw [World.execAt_register, if_pos ⟨rfl, hI.machine⟩]
    exact PendingBook.find?_put _ _
  have hx : x < (w.register x command owner).execs.size := by simpa [World.register] using hI.machine
  have hI₃ := inv_step (inv_step (inv_step hI (e := .register command owner) hown) (e := .resolve (w.nextEntry x command owner).id v) trivial)
    (e := .close owner) trivial
  simp only [Event.registers, List.append_nil] at hI₃
  set w₃ := step x (step x (step x w (.register command owner)) (.resolve (w.nextEntry x command owner).id v))
    (.close owner) with hw₃
  simp only [step_register, step_resolve, hfind, step_close] at hw₃
  unfold World.settleEntry at hw₃
  rw [if_neg (by simp [World.nextEntry, hopen])] at hw₃
  refine ⟨unowed_of_closed hI₃ (List.mem_append_right _ (.head _)) ?_ ?_, ?_⟩ <;> rw [hw₃]
  · rw [World.execAt_withInbox, World.execAt_enqueue, World.execAt_dropEntry, if_pos ⟨rfl, hx⟩]
    simp
  · simp [World.nextEntry, hown]
  · simp [World.slotAt_register, World.nextEntry]

/-- Registering under an id the book holds replaces that entry, as a map does: the command it
held is cut off, its slot pending for good. -/
theorem lost_when_id_reused (hI : Inv x cmds [] w) (hc : c ∈ (w.execAt x).book.entries)
    (hid : c.id = (w.execAt x).book.nextId) (hp : (w.slotAt c.slot).state = .pending) (command : String)
    (owner : Nat) : Lost x c (step x w (.register command owner)) := by
  have hcs := hI.inBook c hc
  have hslot : c.slot ≠ w.slots.size := Nat.ne_of_lt (hI.known c hcs).1
  refine ⟨?_, ?_⟩
  · rintro (⟨c', hc', hs⟩ | ⟨i, o, hq⟩)
    · rw [step_register, World.execAt_register, if_pos ⟨rfl, hI.machine⟩] at hc'
      -- the entry holding the slot is `c`, and the one filed under its id is the new one
      rcases PendingBook.mem_put _ hc' with rfl | hold
      · exact hslot hs.symm
      · obtain rfl : c' = c := hI.slotsApart c' (hI.inBook c' hold) c hcs hs
        have hnew := List.inj_on_of_nodup_map (PendingBook.nodup_put _ hI.bookApart) hc'
          (PendingBook.mem_put_self _ _) hid
        exact hslot (congrArg PendingEntry.slot hnew)
    · rw [step_register, World.inboxAt_register] at hq
      exact (queued_own hI hcs hq).2 hc
  · rw [step_register, World.slotAt_register, if_neg hslot]
    exact hp

/-- Ids count up by one from `1` and stop at `2^53`: the command registered when the book hands
out `2^53` is cut off by the next registration made while it waits, and stays pending on every
run from there. -/
theorem cut_off_at_id_limit (hI : Inv x cmds [] w) (hn : (w.execAt x).book.nextId = Double.ofNat (2 ^ 53))
    {command command' : String} {owner owner' : Nat} (hown : owner < w.inboxes.size) (hown' : owner' < w.inboxes.size)
    {w' : World} {regs : List PendingEntry}
    (hr : Run x (step x (step x w (.register command owner)) (.register command' owner')) w' regs) :
    (w'.slotAt (w.nextEntry x command owner).slot).state = .pending := by
  have hI₁ : Inv x (cmds ++ [w.nextEntry x command owner]) [] (step x w (.register command owner)) :=
    inv_step hI (e := .register command owner) hown
  have hbook : ((step x w (.register command owner)).execAt x).book =
      ⟨PendingBook.put (w.nextEntry x command owner) (w.execAt x).book.entries, (w.execAt x).book.nextId + 1⟩ := by
    rw [step_register, World.execAt_register, if_pos ⟨rfl, hI.machine⟩]
  -- past `2^53` the count stays put, so the next registration reuses the id
  have hstall : (w.nextEntry x command owner).id = ((step x w (.register command owner)).execAt x).book.nextId := by
    rw [hbook]
    show (w.execAt x).book.nextId = (w.execAt x).book.nextId + 1
    rw [hn]
    decide
  have hl := lost_when_id_reused hI₁ (by rw [hbook]; exact PendingBook.mem_put_self _ _) hstall
    (by rw [step_register, World.slotAt_register]; simp [World.nextEntry]) command' owner'
  have hI₂ := inv_step hI₁ (e := .register command' owner') (by
    show owner' < (step x w (.register command owner)).inboxes.size
    rwa [step_register, World.register_inboxes])
  exact (lost_run hI₂ (List.mem_append_left _ (List.mem_append_right _ (.head _))) hl hr).pending

/-! ## Over every run -/

/-- Over every run of the book of machine `x` and its contexts, from a quiet world through `w₁`
to `w₂`: a slot settled at `w₁` keeps its outcome; a waiter of `w₁` has heard its slot's outcome
by the time the slot has one, unless its own deadline ran out first; and a command off the book
whose id no other command got and whose owner's context is open is settled once the loop runs the
turns left. -/
theorem settles_once_and_delivers {x : Nat} {w₀ w₁ w₂ : World} {r₁ r₂ : List PendingEntry}
    (h₀ : Quiet x w₀) (h₁ : Run x w₀ w₁ r₁) (h₂ : Run x w₁ w₂ r₂) :
    (∀ s, (w₁.slotAt s).state ≠ .pending → (w₂.slotAt s).state = (w₁.slotAt s).state) ∧
    (∀ s wt o, wt ∈ (w₁.slotAt s).waiters → (w₂.slotAt s).state.outcome? = some o →
      w₂.loop.outcome? wt.promise = some o ∨
      ∃ id label ms, wt.timer = some id ∧ w₂.loop.outcome? wt.promise = some (.error (Act.slotTimeoutFault label ms))) ∧
    (∀ c ∈ r₁ ++ r₂, c ∉ (w₂.execAt x).book.entries → Unshared (r₁ ++ r₂) c → (w₂.inboxAt c.owner).closed = false →
      ∃ w₃, Run x w₂ w₃ [] ∧ w₃.loop.turns = [] ∧ (w₃.slotAt c.slot).state ≠ .pending) := by
  have hI₁ : Inv x r₁ [] w₁ := by simpa using inv_run (inv_quiet h₀) h₁
  have hI₂ : Inv x (r₁ ++ r₂) [] w₂ := inv_run hI₁ h₂
  refine ⟨fun s hs => settled_run hI₁ h₂ hs, fun s wt o hw ho => ?_, fun c hc hb hu hopen => ?_⟩
  · rcases fate_run hI₁ h₂ (.inl hw) with hw' | ⟨o', hs, hp⟩ | hto
    · -- a waiter still waiting waits on a pending slot
      simp [(hI₂.pending s wt hw').1, SlotState.outcome?] at ho
    · rw [ho, Option.some.injEq] at hs
      exact .inl (hs ▸ hp)
    · exact .inr hto
  · obtain ⟨w₃, hr, hq, hb₃, hcl⟩ := drain_run hI₂
    have hI₃ : Inv x (r₁ ++ r₂) [] w₃ := by simpa using inv_run hI₂ hr
    exact ⟨w₃, hr, hq, settled_when_quiet hI₃ hc (by rwa [hb₃]) hu (by rw [hcl]; exact hopen) hq⟩

/-! ## On the bench -/

/-- The bench of the command book: run/stop machine 0, whose commands are answered on its
context "session", numbered 0, and nothing else. -/
def bookBench (host : Host) : World :=
  (Bench.world host LogStyle.plain).exec (discard (Bench.machine (.num 10000)))

theorem bookBench_inboxes_size (host : Host) : (bookBench host).inboxes.size = 1 := rfl

theorem bookBench_quiet (host : Host) : Quiet 0 (bookBench host) where
  machine := Nat.zero_lt_one
  book := rfl
  idle i := by
    rcases i with _ | i
    · exact ⟨rfl, rfl⟩
    · exact ⟨rfl, rfl⟩
  turns := rfl
  timers := rfl
  waiters _ := rfl

theorem settles_once_and_delivers_on_bench :
    let w₀ := bookBench ⟨0, fun _ => "", Path.hostTree, Validator.standard⟩
    let w₁ := step 0 w₀ (.register "evaluate" 0)
    let w₂ := step 0 w₁ (.resolve (w₀.nextEntry 0 "evaluate" 0).id .null)
    Quiet 0 w₀ ∧ Run 0 w₀ w₁ [w₀.nextEntry 0 "evaluate" 0] ∧ Run 0 w₁ w₂ [] ∧
    (∀ s, (w₁.slotAt s).state ≠ .pending → (w₂.slotAt s).state = (w₁.slotAt s).state) ∧
    (∀ s wt o, wt ∈ (w₁.slotAt s).waiters → (w₂.slotAt s).state.outcome? = some o →
      w₂.loop.outcome? wt.promise = some o ∨
      ∃ id label ms, wt.timer = some id ∧ w₂.loop.outcome? wt.promise = some (.error (Act.slotTimeoutFault label ms))) ∧
    (∀ c ∈ [w₀.nextEntry 0 "evaluate" 0] ++ [], c ∉ (w₂.execAt 0).book.entries →
      Unshared ([w₀.nextEntry 0 "evaluate" 0] ++ []) c → (w₂.inboxAt c.owner).closed = false →
      ∃ w₃, Run 0 w₂ w₃ [] ∧ w₃.loop.turns = [] ∧ (w₃.slotAt c.slot).state ≠ .pending) := by
  intro w₀ w₁ w₂
  have h₀ := bookBench_quiet ⟨0, fun _ => "", Path.hostTree, Validator.standard⟩
  have hv : Event.Valid w₀ (.register "evaluate" 0) := by
    show 0 < (bookBench ⟨0, fun _ => "", Path.hostTree, Validator.standard⟩).inboxes.size
    rw [bookBench_inboxes_size]
    exact Nat.zero_lt_one
  have h₁ : Run 0 w₀ w₁ [w₀.nextEntry 0 "evaluate" 0] := by
    simpa [Event.registers] using Run.step (.register "evaluate" 0) Run.start hv
  have h₂ : Run 0 w₁ w₂ [] := by
    simpa [Event.registers] using Run.step (.resolve (w₀.nextEntry 0 "evaluate" 0).id .null) Run.start trivial
  exact ⟨h₀, h₁, h₂, settles_once_and_delivers h₀ h₁ h₂⟩

/-- On the bench, a command resolved while its context is open, whose context then closes
before the drain that would deliver it, is never settled: after the drain turn no turn is left,
the command is off the book, and on every run from there its slot stays pending. -/
theorem settlement_lost_when_context_closes :
    let w₀ := bookBench ⟨0, fun _ => "", Path.hostTree, Validator.standard⟩
    let c := w₀.nextEntry 0 "evaluate" 0
    let w := step 0 (step 0 (step 0 (step 0 w₀ (.register "evaluate" 0)) (.resolve c.id .null)) (.close 0)) .turn
    Run 0 w₀ w [c] ∧ c ∉ (w.execAt 0).book.entries ∧ w.loop.turns = [] ∧
      ∀ w' regs, Run 0 w w' regs → (w'.slotAt c.slot).state = .pending := by
  intro w₀ c w
  have hI := inv_quiet (bookBench_quiet ⟨0, fun _ => "", Path.hostTree, Validator.standard⟩)
  have hown : 0 < w₀.inboxes.size := by
    show 0 < (bookBench ⟨0, fun _ => "", Path.hostTree, Validator.standard⟩).inboxes.size
    rw [bookBench_inboxes_size]
    exact Nat.zero_lt_one
  have hL := lost_after_close hI "evaluate" hown rfl .null
  -- the run up to the close, then the drain turn
  have h₃ : Run 0 w₀ (step 0 (step 0 (step 0 w₀ (.register "evaluate" 0)) (.resolve c.id .null)) (.close 0)) [c] := by
    simpa [Event.registers] using Run.step (.close 0) (Run.step (.resolve c.id .null)
      (Run.step (.register "evaluate" 0) Run.start hown) trivial) trivial
  have hI₃ : Inv 0 [c] [] (step 0 (step 0 (step 0 w₀ (.register "evaluate" 0)) (.resolve c.id .null)) (.close 0)) := by
    simpa using inv_run hI h₃
  have h₄ : Run 0 (step 0 (step 0 (step 0 w₀ (.register "evaluate" 0)) (.resolve c.id .null)) (.close 0)) w [] := by
    simpa [Event.registers] using Run.step .turn Run.start trivial
  refine ⟨by simpa using h₃.trans h₄, (lost_run hI₃ (.head _) hL h₄).offBook, rfl, fun w' regs hr => ?_⟩
  exact (lost_run hI₃ (.head _) hL (h₄.trans hr)).pending

end Settlement

end DapBridge
