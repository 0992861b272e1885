import DapBridge.Session.Core
import DapBridge.Proofs.Loop

/-!
# What the basic steps of the adapter do to the world

Every step of the adapter is an `Act`, a state-and-failure program over the whole `World`.
Here each basic step gets one equation that says what it returns and which world it leaves,
as a plain function of the world it starts from:

* reading and updating the numbered parts (`slotAt_withSlot`, `inboxAt_withInbox`, ...);
* posting on a scheduling context: queued on an open one (`post_open`), refused by a closed
  one, which is left as it was (`post_closed`);
* result slots: settling a pending slot settles every waiter in order and cancels their
  timers (`resolveSlot_pending`, `settleWaiters_run`); a settled slot refuses a second
  outcome and nothing changes (`resolveSlot_settled`); a wait with a deadline sets one timer;
* the book of commands waiting on the probe: registering, removing and settling an entry,
  on its owner's context or at once when that context is closed (`settleEntry_open`,
  `settleEntry_closed`).

The proofs about contexts, slots and the run/stop machine cite these equations and never
unfold the steps again.
-/

namespace DapBridge

/-! ## The numbered parts of the world -/

namespace World

variable (w : World) (i j : Nat)

@[simp] theorem withSlot_slots (f : Slot → Slot) : (w.withSlot i f).slots = w.slots.modify i f := rfl
@[simp] theorem withSlot_loop (f : Slot → Slot) : (w.withSlot i f).loop = w.loop := rfl
@[simp] theorem withSlot_inboxes (f : Slot → Slot) : (w.withSlot i f).inboxes = w.inboxes := rfl
@[simp] theorem withSlot_execs (f : Slot → Slot) : (w.withSlot i f).execs = w.execs := rfl
@[simp] theorem withSlot_trace (f : Slot → Slot) : (w.withSlot i f).trace = w.trace := rfl

@[simp] theorem withInbox_inboxes (f : Inbox → Inbox) : (w.withInbox i f).inboxes = w.inboxes.modify i f := rfl
@[simp] theorem withInbox_loop (f : Inbox → Inbox) : (w.withInbox i f).loop = w.loop := rfl
@[simp] theorem withInbox_slots (f : Inbox → Inbox) : (w.withInbox i f).slots = w.slots := rfl
@[simp] theorem withInbox_execs (f : Inbox → Inbox) : (w.withInbox i f).execs = w.execs := rfl
@[simp] theorem withInbox_trace (f : Inbox → Inbox) : (w.withInbox i f).trace = w.trace := rfl

@[simp] theorem withExec_execs (f : Execution → Execution) : (w.withExec i f).execs = w.execs.modify i f := rfl
@[simp] theorem withExec_loop (f : Execution → Execution) : (w.withExec i f).loop = w.loop := rfl
@[simp] theorem withExec_slots (f : Execution → Execution) : (w.withExec i f).slots = w.slots := rfl
@[simp] theorem withExec_inboxes (f : Execution → Execution) : (w.withExec i f).inboxes = w.inboxes := rfl
@[simp] theorem withExec_trace (f : Execution → Execution) : (w.withExec i f).trace = w.trace := rfl

@[simp] theorem note_trace (n : Note) : (w.note n).trace = n :: w.trace := rfl
@[simp] theorem note_loop (n : Note) : (w.note n).loop = w.loop := rfl
@[simp] theorem note_slots (n : Note) : (w.note n).slots = w.slots := rfl
@[simp] theorem note_inboxes (n : Note) : (w.note n).inboxes = w.inboxes := rfl
@[simp] theorem note_execs (n : Note) : (w.note n).execs = w.execs := rfl

@[simp] theorem log_loop (d : Diagnostic) : (w.log d).loop = w.loop := by unfold log; split <;> rfl
@[simp] theorem log_slots (d : Diagnostic) : (w.log d).slots = w.slots := by unfold log; split <;> rfl
@[simp] theorem log_inboxes (d : Diagnostic) : (w.log d).inboxes = w.inboxes := by unfold log; split <;> rfl
@[simp] theorem log_execs (d : Diagnostic) : (w.log d).execs = w.execs := by unfold log; split <;> rfl

/-- The world with its loop replaced. -/
def setLoop (l : Loop Outcome Cont Turn) : World := { w with loop := l }

@[simp] theorem setLoop_loop (l : Loop Outcome Cont Turn) : (w.setLoop l).loop = l := rfl
@[simp] theorem setLoop_slots (l : Loop Outcome Cont Turn) : (w.setLoop l).slots = w.slots := rfl
@[simp] theorem setLoop_inboxes (l : Loop Outcome Cont Turn) : (w.setLoop l).inboxes = w.inboxes := rfl
@[simp] theorem setLoop_execs (l : Loop Outcome Cont Turn) : (w.setLoop l).execs = w.execs := rfl
@[simp] theorem setLoop_trace (l : Loop Outcome Cont Turn) : (w.setLoop l).trace = w.trace := rfl
@[simp] theorem setLoop_setLoop (l l' : Loop Outcome Cont Turn) : (w.setLoop l).setLoop l' = w.setLoop l' := rfl
@[simp] theorem slotAt_setLoop (l : Loop Outcome Cont Turn) : (w.setLoop l).slotAt j = w.slotAt j := rfl
@[simp] theorem inboxAt_setLoop (l : Loop Outcome Cont Turn) : (w.setLoop l).inboxAt j = w.inboxAt j := rfl
@[simp] theorem execAt_setLoop (l : Loop Outcome Cont Turn) : (w.setLoop l).execAt j = w.execAt j := rfl

/-- A part read through its array: what a step does to the array decides what it reads. -/
theorem getD_modify {α : Type} [Inhabited α] (xs : Array α) (f : α → α) :
    (xs.modify i f).getD j default = if i = j ∧ j < xs.size then f (xs.getD j default) else xs.getD j default := by
  simp only [Array.getD_eq_getD_getElem?, Array.getElem?_modify]
  by_cases hij : i = j
  · subst hij
    by_cases hj : i < xs.size
    · simp [hj]
    · simp [hj]
  · simp [hij]

theorem getD_push {α : Type} [Inhabited α] (xs : Array α) (x : α) :
    (xs.push x).getD j default = if j = xs.size then x else xs.getD j default := by
  simp only [Array.getD_eq_getD_getElem?, Array.getElem?_push]
  split <;> simp

@[simp] theorem slotAt_slots {w w' : World} (h : w'.slots = w.slots) : w'.slotAt j = w.slotAt j := by
  simp [slotAt, h]

@[simp] theorem slotAt_withSlot (f : Slot → Slot) :
    (w.withSlot i f).slotAt j = if i = j ∧ j < w.slots.size then f (w.slotAt j) else w.slotAt j :=
  getD_modify i j w.slots f

@[simp] theorem slotAt_withInbox (f : Inbox → Inbox) : (w.withInbox i f).slotAt j = w.slotAt j := rfl
@[simp] theorem slotAt_withExec (f : Execution → Execution) : (w.withExec i f).slotAt j = w.slotAt j := rfl
@[simp] theorem slotAt_note (n : Note) : (w.note n).slotAt j = w.slotAt j := rfl
@[simp] theorem slotAt_log (d : Diagnostic) : (w.log d).slotAt j = w.slotAt j := by unfold log; split <;> rfl

theorem inboxAt_inboxes {w w' : World} (h : w'.inboxes = w.inboxes) : w'.inboxAt j = w.inboxAt j := by
  simp [inboxAt, h]

@[simp] theorem inboxAt_withInbox (f : Inbox → Inbox) :
    (w.withInbox i f).inboxAt j = if i = j ∧ j < w.inboxes.size then f (w.inboxAt j) else w.inboxAt j :=
  getD_modify i j w.inboxes f

@[simp] theorem inboxAt_withSlot (f : Slot → Slot) : (w.withSlot i f).inboxAt j = w.inboxAt j := rfl
@[simp] theorem inboxAt_withExec (f : Execution → Execution) : (w.withExec i f).inboxAt j = w.inboxAt j := rfl
@[simp] theorem inboxAt_note (n : Note) : (w.note n).inboxAt j = w.inboxAt j := rfl
@[simp] theorem inboxAt_log (d : Diagnostic) : (w.log d).inboxAt j = w.inboxAt j := by unfold log; split <;> rfl

theorem execAt_execs {w w' : World} (h : w'.execs = w.execs) : w'.execAt j = w.execAt j := by
  simp [execAt, h]

@[simp] theorem execAt_withExec (f : Execution → Execution) :
    (w.withExec i f).execAt j = if i = j ∧ j < w.execs.size then f (w.execAt j) else w.execAt j :=
  getD_modify i j w.execs f

@[simp] theorem execAt_withSlot (f : Slot → Slot) : (w.withSlot i f).execAt j = w.execAt j := rfl
@[simp] theorem execAt_withInbox (f : Inbox → Inbox) : (w.withInbox i f).execAt j = w.execAt j := rfl
@[simp] theorem execAt_note (n : Note) : (w.note n).execAt j = w.execAt j := rfl
@[simp] theorem execAt_log (d : Diagnostic) : (w.log d).execAt j = w.execAt j := by unfold log; split <;> rfl

end World

/-! ## Filing a command under its id -/

namespace PendingBook

variable (e : PendingEntry)

/-- An entry whose id none holds goes at the end. -/
theorem put_of_fresh : ∀ {cs : List PendingEntry}, (∀ c ∈ cs, c.id ≠ e.id) → put e cs = cs ++ [e]
  | [], _ => rfl
  | c :: cs, h => by
    rw [put, if_neg (h c List.mem_cons_self), put_of_fresh fun c' hc' => h c' (List.mem_cons_of_mem _ hc')]
    rfl

/-- Filed entries are the new one and entries held before. -/
theorem mem_put {c : PendingEntry} : ∀ {cs : List PendingEntry}, c ∈ put e cs → c = e ∨ c ∈ cs
  | [], h => .inl (List.mem_singleton.1 h)
  | c' :: cs, h => by
    rw [put] at h
    split at h
    · rcases List.mem_cons.1 h with h | h
      · exact .inl h
      · exact .inr (List.mem_cons_of_mem _ h)
    · rcases List.mem_cons.1 h with h | h
      · exact .inr (h ▸ List.mem_cons_self)
      · rcases mem_put h with h | h
        · exact .inl h
        · exact .inr (List.mem_cons_of_mem _ h)

theorem mem_put_self : ∀ cs : List PendingEntry, e ∈ put e cs
  | [] => List.mem_singleton_self e
  | c :: cs => by
    rw [put]
    split
    · exact List.mem_cons_self
    · exact List.mem_cons_of_mem _ (mem_put_self cs)

/-- An entry under another id stays. -/
theorem mem_put_of_ne {c : PendingEntry} : ∀ {cs : List PendingEntry}, c ∈ cs → c.id ≠ e.id → c ∈ put e cs
  | c' :: cs, hc, hid => by
    rw [put]
    split
    · next heq =>
      rcases List.mem_cons.1 hc with rfl | hc
      · exact absurd heq hid
      · exact List.mem_cons_of_mem _ hc
    · rcases List.mem_cons.1 hc with rfl | hc
      · exact List.mem_cons_self
      · exact List.mem_cons_of_mem _ (mem_put_of_ne hc hid)

/-- Looking the id up finds the entry filed. -/
theorem find?_put : ∀ cs : List PendingEntry, (put e cs).find? (·.id == e.id) = some e
  | [] => by simp [put]
  | c :: cs => by
    rw [put]
    split
    · simp
    · next hne =>
      rw [List.find?_cons_of_neg (by simpa using hne), find?_put cs]

/-- Taking the id out takes out the entry filed and the one it replaced. -/
theorem filter_put : ∀ cs : List PendingEntry, (put e cs).filter (·.id != e.id) = cs.filter (·.id != e.id)
  | [] => by simp [put]
  | c :: cs => by
    rw [put]
    split
    · next heq => simp [heq]
    · next hne => simp [hne, filter_put cs]

/-- Filing twice under one id leaves the later entry where the earlier one went. -/
theorem put_put {e' : PendingEntry} (h : e'.id = e.id) : ∀ cs : List PendingEntry, put e' (put e cs) = put e' cs
  | [] => by simp [put, h]
  | c :: cs => by
    rw [put]
    split
    · next heq => simp [put, h, heq]
    · next hne => rw [put, if_neg (by rwa [h]), put_put h cs, put, if_neg (by rwa [h])]

/-- Filing keeps the ids apart. -/
theorem nodup_put : ∀ {cs : List PendingEntry}, (cs.map (·.id)).Nodup → ((put e cs).map (·.id)).Nodup
  | [], _ => by simp [put]
  | c :: cs, h => by
    rw [List.map_cons, List.nodup_cons] at h
    rw [put]
    split
    · next heq => rwa [List.map_cons, ← heq, List.nodup_cons]
    · next hne =>
      rw [List.map_cons, List.nodup_cons]
      refine ⟨fun hc => ?_, nodup_put h.2⟩
      obtain ⟨c', hc', hid⟩ := List.mem_map.1 hc
      rcases mem_put e hc' with rfl | hc'
      · exact hne hid.symm
      · exact h.1 (List.mem_map.2 ⟨c', hc', hid⟩)

end PendingBook

/-! ## The effects of the basic steps, as functions of the world -/

/-- The outcome a slot holds, once it has one. -/
def SlotState.outcome? : SlotState → Option Outcome
  | .pending => none
  | .resolved v => some (.ok (.json v))
  | .rejected f => some (.error f)

/-- The state of a slot settled with a reply or a fault. -/
def SlotState.ofResult : Except Fault Json → SlotState
  | .ok v => .resolved v
  | .error f => .rejected f

@[simp] theorem SlotState.outcome?_ofResult (o : Except Fault Json) :
    (SlotState.ofResult o).outcome? = some (o.map Val.json) := by
  cases o <;> rfl

/-- Settling a slot's waiters, in order: each one's timer is cancelled and its promise settled. -/
def Loop.release (l : Loop Outcome Cont Turn) (ws : List Waiter) (o : Outcome) : Loop Outcome Cont Turn :=
  ws.foldl (fun l wt => (match wt.timer with
    | some t => l.cancel t
    | none => l).settle wt.promise o) l

namespace Loop

variable (l : Loop Outcome Cont Turn) (o : Outcome)

@[simp] theorem release_nil : l.release [] o = l := rfl

@[simp] theorem release_cons (wt : Waiter) (ws : List Waiter) :
    l.release (wt :: ws) o = ((match wt.timer with
      | some t => l.cancel t
      | none => l).settle wt.promise o).release ws o := rfl

@[simp] theorem release_cells_size (ws : List Waiter) : (l.release ws o).cells.size = l.cells.size := by
  induction ws generalizing l with
  | nil => rfl
  | cons wt ws ih => cases h : wt.timer <;> simp [h, ih, cancel]

@[simp] theorem release_turns (ws : List Waiter) : (l.release ws o).turns = l.turns := by
  induction ws generalizing l with
  | nil => rfl
  | cons wt ws ih => cases h : wt.timer <;> simp [h, ih, cancel]

@[simp] theorem release_nextTimer (ws : List Waiter) : (l.release ws o).nextTimer = l.nextTimer := by
  induction ws generalizing l with
  | nil => rfl
  | cons wt ws ih => cases h : wt.timer <;> simp [h, ih, cancel]

/-- The timers left after a release: those of no released waiter. -/
theorem mem_release_timers (ws : List Waiter) (t : Timer Turn) :
    t ∈ (l.release ws o).timers ↔ t ∈ l.timers ∧ ∀ wt ∈ ws, wt.timer ≠ some t.id := by
  induction ws generalizing l with
  | nil => simp
  | cons wt ws ih =>
    cases h : wt.timer with
    | none => simp [h, ih]
    | some id =>
      simp only [release_cons, h, ih, settle_timers, cancel, List.mem_filter, bne_iff_ne, List.mem_cons,
        forall_eq_or_imp, ne_eq, Option.some.injEq]
      constructor
      · rintro ⟨⟨ht, hid⟩, hws⟩
        exact ⟨ht, fun e => hid e.symm, hws⟩
      · rintro ⟨ht, hid, hws⟩
        exact ⟨⟨ht, fun e => hid e.symm⟩, hws⟩

/-- A promise no released waiter holds keeps its outcome. -/
theorem outcome?_release_of_not_mem (ws : List Waiter) {q : Nat} (hq : ∀ wt ∈ ws, wt.promise ≠ q) :
    (l.release ws o).outcome? q = l.outcome? q := by
  induction ws generalizing l with
  | nil => rfl
  | cons wt ws ih =>
    have hne : q ≠ wt.promise := fun h => hq wt (by simp) h.symm
    rw [release_cons, ih _ (fun wt' h => hq wt' (by simp [h])), outcome?_settle_of_ne _ _ hne]
    cases wt.timer <;> rfl

/-- A settled promise keeps its outcome through a release. -/
theorem outcome?_release_of_settled (ws : List Waiter) {q : Nat} {o' : Outcome} (h : l.outcome? q = some o') :
    (l.release ws o).outcome? q = some o' := by
  induction ws generalizing l with
  | nil => exact h
  | cons wt ws ih =>
    apply ih
    apply outcome?_settle_of_settled
    cases wt.timer <;> exact h

/-- A pending promise that a released waiter holds hears the outcome. -/
theorem outcome?_release_of_mem (ws : List Waiter) {wt : Waiter} (hw : wt ∈ ws)
    (hp : wt.promise < l.cells.size) (hn : l.outcome? wt.promise = none) :
    (l.release ws o).outcome? wt.promise = some o := by
  induction ws generalizing l with
  | nil => cases hw
  | cons wt' ws ih =>
    rw [release_cons]
    rcases List.mem_cons.1 hw with rfl | hw
    · apply outcome?_release_of_settled
      apply outcome?_settle_self
      · cases wt.timer <;> simpa [cancel] using hp
      · cases wt.timer <;> exact hn
    · by_cases hq : wt.promise = wt'.promise
      · apply outcome?_release_of_settled
        rw [hq]
        apply outcome?_settle_self
        · cases wt'.timer <;> simpa [cancel, ← hq] using hp
        · cases wt'.timer <;> simpa [← hq] using hn
      · apply ih _ hw
        · cases wt'.timer <;> simpa [cancel] using hp
        · rw [outcome?_settle_of_ne _ _ hq]
          cases wt'.timer <;> exact hn

end Loop

namespace World

variable (w : World)

/-- An errand queued on an open context, whose drain is asked for unless it was already. -/
def enqueue (i : Nat) (x : Errand) : World :=
  let w' := w.withInbox i fun b => { b with queue := b.queue ++ [x], scheduled := true }
  if (w.inboxAt i).scheduled then w' else w'.setLoop (w.loop.defer (.drain i))

/-- A slot given its outcome, if it has none yet: its waiters hear it. -/
def fillSlot (s : Nat) (o : Except Fault Json) : World :=
  match (w.slotAt s).state with
  | .pending => (w.withSlot s fun _ => ⟨SlotState.ofResult o, []⟩).setLoop
      (w.loop.release (w.slotAt s).waiters (o.map Val.json))
  | _ => w

/-- A new waiter on a pending slot: a fresh promise and, with a deadline, its timer. -/
def waitOn (s : Nat) (timeout : Option Json) (label : String) : World :=
  let p := w.loop.cells.size
  let l := w.loop.fresh.2
  let timed : Option Nat × Loop Outcome Cont Turn := match timeout with
    | some ms => (some l.nextTimer, (l.after (Act.timerDelay ms.toNumber) (.slotTimeout s p label ms)).2)
    | none => (none, l)
  (w.setLoop timed.2).withSlot s fun sl => { sl with waiters := sl.waiters ++ [⟨p, timed.1⟩] }

/-- The entry a new command gets in the book of run/stop machine `x`. -/
def nextEntry (x : Nat) (command : String) (owner : Nat) : PendingEntry :=
  ⟨(w.execAt x).book.nextId, command, w.slots.size, owner⟩

/-- A command registered: a new pending slot, and its entry filed under the next id. -/
def register (x : Nat) (command : String) (owner : Nat) : World :=
  { w with slots := w.slots.push ⟨.pending, []⟩ }.withExec x fun e =>
    { e with book := ⟨PendingBook.put (w.nextEntry x command owner) (w.execAt x).book.entries,
      (w.execAt x).book.nextId + 1⟩ }

/-- The entries of a book other than `id`. -/
def dropEntry (x : Nat) (id : Double) : World :=
  w.withExec x fun e => { e with book := { e.book with entries := e.book.entries.filter (·.id != id) } }

/-- A command's outcome delivered: posted on its owner's context, or given to its slot at once
when that context is closed. -/
def settleEntry (e : PendingEntry) (o : Except Fault Json) : World :=
  if (w.inboxAt e.owner).closed then
    (w.log (.debug s!"Owner context closed, settling command {e.id} ({e.command}) directly" none)).fillSlot e.slot o
  else w.enqueue e.owner (.settleSlot e.slot o)

/-! ### What each effect leaves alone, and what it changes -/

section Fields

variable {w} (s : Nat) (o : Except Fault Json)

@[simp] theorem fillSlot_inboxes : (w.fillSlot s o).inboxes = w.inboxes := by
  unfold fillSlot; split <;> rfl

@[simp] theorem fillSlot_execs : (w.fillSlot s o).execs = w.execs := by
  unfold fillSlot; split <;> rfl

@[simp] theorem inboxAt_fillSlot (i : Nat) : (w.fillSlot s o).inboxAt i = w.inboxAt i :=
  inboxAt_inboxes i (fillSlot_inboxes s o)

@[simp] theorem execAt_fillSlot (i : Nat) : (w.fillSlot s o).execAt i = w.execAt i :=
  execAt_execs i (fillSlot_execs s o)

@[simp] theorem fillSlot_slots_size : (w.fillSlot s o).slots.size = w.slots.size := by
  unfold fillSlot; split <;> simp

@[simp] theorem fillSlot_turns : (w.fillSlot s o).loop.turns = w.loop.turns := by
  unfold fillSlot; split <;> simp

@[simp] theorem fillSlot_cells_size : (w.fillSlot s o).loop.cells.size = w.loop.cells.size := by
  unfold fillSlot; split <;> simp

@[simp] theorem fillSlot_nextTimer : (w.fillSlot s o).loop.nextTimer = w.loop.nextTimer := by
  unfold fillSlot; split <;> simp

theorem slotAt_fillSlot_of_ne {j : Nat} (h : j ≠ s) : (w.fillSlot s o).slotAt j = w.slotAt j := by
  unfold fillSlot; split <;> simp [Ne.symm h]

theorem slotAt_fillSlot_self (hs : s < w.slots.size) (hp : (w.slotAt s).state = .pending) :
    (w.fillSlot s o).slotAt s = ⟨SlotState.ofResult o, []⟩ := by
  simp [fillSlot, hp, hs]

/-- A settled slot is left as it is. -/
theorem slotAt_fillSlot_of_settled {j : Nat} (h : (w.slotAt j).state ≠ .pending) :
    (w.fillSlot s o).slotAt j = w.slotAt j := by
  by_cases hj : j = s
  · subst hj
    unfold fillSlot
    split
    · contradiction
    · rfl
  · exact slotAt_fillSlot_of_ne s o hj

theorem fillSlot_loop_of_pending (hp : (w.slotAt s).state = .pending) :
    (w.fillSlot s o).loop = w.loop.release (w.slotAt s).waiters (o.map Val.json) := by
  simp [fillSlot, hp]

section Wait

variable (t : Option Json) (label : String)

@[simp] theorem waitOn_inboxes : (w.waitOn s t label).inboxes = w.inboxes := by
  cases t <;> simp [waitOn]

@[simp] theorem waitOn_execs : (w.waitOn s t label).execs = w.execs := by
  cases t <;> simp [waitOn]

@[simp] theorem waitOn_slots_size : (w.waitOn s t label).slots.size = w.slots.size := by
  cases t <;> simp [waitOn]

@[simp] theorem waitOn_turns : (w.waitOn s t label).loop.turns = w.loop.turns := by
  cases t <;> simp [waitOn, Loop.after, Loop.fresh]

@[simp] theorem inboxAt_waitOn (i : Nat) : (w.waitOn s t label).inboxAt i = w.inboxAt i :=
  inboxAt_inboxes i (waitOn_inboxes s t label)

@[simp] theorem execAt_waitOn (i : Nat) : (w.waitOn s t label).execAt i = w.execAt i :=
  execAt_execs i (waitOn_execs s t label)

/-- A wait adds a waiter and leaves every slot's state alone. -/
@[simp] theorem slotAt_waitOn_state (j : Nat) : ((w.waitOn s t label).slotAt j).state = (w.slotAt j).state := by
  cases t <;> by_cases h : s = j ∧ j < w.slots.size <;> simp [waitOn, h]

end Wait

variable (i : Nat) (e : Errand)

@[simp] theorem enqueue_slots : (w.enqueue i e).slots = w.slots := by
  unfold enqueue; split <;> rfl

@[simp] theorem enqueue_execs : (w.enqueue i e).execs = w.execs := by
  unfold enqueue; split <;> rfl

@[simp] theorem enqueue_cells : (w.enqueue i e).loop.cells = w.loop.cells := by
  unfold enqueue; split <;> rfl

@[simp] theorem enqueue_timers : (w.enqueue i e).loop.timers = w.loop.timers := by
  unfold enqueue; split <;> rfl

@[simp] theorem enqueue_nextTimer : (w.enqueue i e).loop.nextTimer = w.loop.nextTimer := by
  unfold enqueue; split <;> rfl

@[simp] theorem enqueue_inboxes_size : (w.enqueue i e).inboxes.size = w.inboxes.size := by
  unfold enqueue; split <;> simp

theorem enqueue_trace : (w.enqueue i e).trace = w.trace := by
  unfold enqueue; split <;> rfl

@[simp] theorem slotAt_enqueue (j : Nat) : (w.enqueue i e).slotAt j = w.slotAt j :=
  slotAt_slots j (enqueue_slots i e)

@[simp] theorem execAt_enqueue (j : Nat) : (w.enqueue i e).execAt j = w.execAt j :=
  execAt_execs j (enqueue_execs i e)

theorem enqueue_turns :
    (w.enqueue i e).loop.turns = if (w.inboxAt i).scheduled then w.loop.turns else w.loop.turns ++ [.drain i] := by
  unfold enqueue; split <;> simp [*, Loop.defer]

theorem inboxAt_enqueue (j : Nat) : (w.enqueue i e).inboxAt j =
    if i = j ∧ j < w.inboxes.size then { w.inboxAt j with queue := (w.inboxAt j).queue ++ [e], scheduled := true }
    else w.inboxAt j := by
  unfold enqueue; split <;> simp

variable (x : Nat) (command : String) (owner : Nat)

@[simp] theorem register_inboxes : (w.register x command owner).inboxes = w.inboxes := rfl
@[simp] theorem register_loop : (w.register x command owner).loop = w.loop := rfl
@[simp] theorem inboxAt_register (j : Nat) : (w.register x command owner).inboxAt j = w.inboxAt j := rfl
@[simp] theorem register_slots_size : (w.register x command owner).slots.size = w.slots.size + 1 := by
  simp [register]

theorem slotAt_register (j : Nat) :
    (w.register x command owner).slotAt j = if j = w.slots.size then ⟨.pending, []⟩ else w.slotAt j := by
  simp [register, slotAt, Array.getElem?_push]
  split <;> simp

theorem execAt_register (y : Nat) : (w.register x command owner).execAt y =
    if x = y ∧ y < w.execs.size then
      { w.execAt y with book := ⟨PendingBook.put (w.nextEntry x command owner) (w.execAt x).book.entries,
        (w.execAt x).book.nextId + 1⟩ }
    else w.execAt y := by
  show (World.withExec { w with slots := w.slots.push ⟨.pending, []⟩ } x _).execAt y = _
  rw [execAt_withExec]
  rfl

variable (id : Double)

@[simp] theorem dropEntry_inboxes : (w.dropEntry x id).inboxes = w.inboxes := rfl
@[simp] theorem dropEntry_slots : (w.dropEntry x id).slots = w.slots := rfl
@[simp] theorem dropEntry_loop : (w.dropEntry x id).loop = w.loop := rfl
@[simp] theorem dropEntry_execs_size : (w.dropEntry x id).execs.size = w.execs.size := by simp [dropEntry]

@[simp] theorem slotAt_dropEntry (j : Nat) : (w.dropEntry x id).slotAt j = w.slotAt j := rfl
@[simp] theorem inboxAt_dropEntry (j : Nat) : (w.dropEntry x id).inboxAt j = w.inboxAt j := rfl

theorem execAt_dropEntry (y : Nat) : (w.dropEntry x id).execAt y =
    if x = y ∧ y < w.execs.size then
      { w.execAt y with book := { (w.execAt y).book with entries := (w.execAt y).book.entries.filter (·.id != id) } }
    else w.execAt y := by
  simp [dropEntry]

variable (c : PendingEntry) (o : Except Fault Json)

@[simp] theorem settleEntry_execs : (w.settleEntry c o).execs = w.execs := by
  unfold settleEntry; split <;> simp

@[simp] theorem settleEntry_inboxes_size : (w.settleEntry c o).inboxes.size = w.inboxes.size := by
  unfold settleEntry; split <;> simp

@[simp] theorem settleEntry_slots_size : (w.settleEntry c o).slots.size = w.slots.size := by
  unfold settleEntry; split <;> simp

end Fields

end World

namespace Act

variable (w : World)

theorem run_attempt {α : Type} (a : Act α) :
    (attempt a).run w = match a.run w with
      | .ok v w' => .ok (.ok v) w'
      | .error f w' => .ok (.error f) w' := by
  show EStateM.tryCatch (EStateM.bind a fun v => EStateM.pure (Except.ok v)) (fun f => EStateM.pure (Except.error f)) w = _
  -- unfolded by `delta`: simp would add an equation lemma of the core definition to this module
  delta EStateM.tryCatch
  simp only [EStateM.bind, EStateM.run, EStateM.pure]
  cases a w <;> rfl

theorem run_discard {α : Type} (a : Act α) :
    (discard a).run w = match a.run w with
      | .ok _ w' => .ok () w'
      | .error f w' => .error f w' := by
  show EStateM.map _ a w = _
  simp only [EStateM.map, EStateM.run]
  cases a w <;> rfl

theorem run_map {α β : Type} (f : α → β) (a : Act α) :
    (f <$> a).run w = match a.run w with
      | .ok v w' => .ok (f v) w'
      | .error e w' => .error e w' := by
  show EStateM.map f a w = _
  simp only [EStateM.map, EStateM.run]
  cases a w <;> rfl

@[simp] theorem change_run (f : World → World) : (change f).run w = .ok () (f w) := rfl

@[simp] theorem note_run (n : Note) : (note n).run w = .ok () (w.note n) := rfl

@[simp] theorem log_run (d : Diagnostic) : (log d).run w = .ok () (w.log d) := rfl

@[simp] theorem debug_run (m : String) (data : Option Json) :
    (debug m data).run w = .ok () (w.log (.debug m data)) := rfl

@[simp] theorem fresh_run : fresh.run w = .ok w.loop.cells.size (w.setLoop (w.loop.fresh.2)) := rfl

@[simp] theorem done_run (o : Outcome) : (done o).run w = .ok w.loop.cells.size (w.setLoop ((w.loop.done o).2)) := rfl

@[simp] theorem settle_run (p : Nat) (o : Outcome) : (settle p o).run w = .ok () (w.setLoop (w.loop.settle p o)) := rfl

@[simp] theorem fulfil_run (p : Nat) (v : Val) : (fulfil p v).run w = .ok () (w.setLoop (w.loop.settle p (.ok v))) := rfl

@[simp] theorem reject_run (p : Nat) (f : Fault) : (reject p f).run w = .ok () (w.setLoop (w.loop.settle p (.error f))) := rfl

@[simp] theorem await_run (p : Nat) (k : Cont) : (await p k).run w = .ok () (w.setLoop (w.loop.await p k)) := rfl

@[simp] theorem defer_run (t : Turn) : (defer t).run w = .ok () (w.setLoop (w.loop.defer t)) := rfl

@[simp] theorem cancel_run (id : Nat) : (cancel id).run w = .ok () (w.setLoop (w.loop.cancel id)) := rfl

@[simp] theorem after_run (ms : Double) (t : Turn) :
    (after ms t).run w = .ok w.loop.nextTimer (w.setLoop ((w.loop.after (timerDelay ms) t).2)) := rfl

@[simp] theorem closeInbox_run (i : Nat) :
    (closeInbox i).run w = .ok () (w.withInbox i fun b => { b with closed := true, queue := [] }) := rfl

@[simp] theorem newSlot_run : newSlot.run w = .ok w.slots.size { w with slots := w.slots.push ⟨.pending, []⟩ } := rfl

/-! ## Scheduling contexts -/

/-- An open context queues the errand. -/
theorem post_open {i : Nat} (x : Errand) (h : (w.inboxAt i).closed = false) :
    (post i x).run w = .ok () (w.enqueue i x) := by
  simp only [post, h, defer, change, EStateM.run_bind, EStateM.run_get, World.enqueue]
  cases (w.inboxAt i).scheduled <;> rfl

/-- A closed context refuses the errand and nothing changes. -/
theorem post_closed {i : Nat} (x : Errand) (h : (w.inboxAt i).closed = true) :
    (post i x).run w = .error (closedContext (w.inboxAt i).name) w := by
  simp only [post, h, fail, EStateM.run_bind, EStateM.run_get]
  rfl

/-! ## Result slots -/

theorem settleWaiters_run (ws : List Waiter) (o : Outcome) :
    (settleWaiters ws o).run w = .ok () (w.setLoop (w.loop.release ws o)) := by
  induction ws generalizing w with
  | nil => rfl
  | cons wt ws ih =>
    cases ht : wt.timer <;>
      simp [settleWaiters, List.forM_cons, ht, Loop.release] at ih ⊢ <;> simp [ih]

theorem resolveSlot_pending {s : Nat} (v : Json) (h : (w.slotAt s).state = .pending) :
    (resolveSlot s v).run w = .ok true (w.fillSlot s (.ok v)) := by
  simp only [resolveSlot, bind_pure_comp, EStateM.run_bind, EStateM.run_get, h, change_run, run_map,
    settleWaiters_run, World.withSlot_loop, World.fillSlot, SlotState.ofResult, Except.map]

theorem resolveSlot_settled {s : Nat} (v : Json) (h : (w.slotAt s).state ≠ .pending) :
    (resolveSlot s v).run w = .ok false w := by
  cases hs : (w.slotAt s).state <;> simp_all [resolveSlot]

theorem rejectSlot_pending {s : Nat} (f : Fault) (h : (w.slotAt s).state = .pending) :
    (rejectSlot s f).run w = .ok true (w.fillSlot s (.error f)) := by
  simp only [rejectSlot, bind_pure_comp, EStateM.run_bind, EStateM.run_get, h, change_run, run_map,
    settleWaiters_run, World.withSlot_loop, World.fillSlot, SlotState.ofResult, Except.map]

theorem rejectSlot_settled {s : Nat} (f : Fault) (h : (w.slotAt s).state ≠ .pending) :
    (rejectSlot s f).run w = .ok false w := by
  cases hs : (w.slotAt s).state <;> simp_all [rejectSlot]

theorem fillSlot_settled {s : Nat} (o : Except Fault Json) (h : (w.slotAt s).state ≠ .pending) :
    w.fillSlot s o = w := by
  cases hs : (w.slotAt s).state <;> simp_all [World.fillSlot]

/-- Resolving a slot with the answer thrown away: whatever its state, `fillSlot`. -/
theorem discard_resolveSlot (s : Nat) (v : Json) :
    (discard (resolveSlot s v)).run w = .ok () (w.fillSlot s (.ok v)) := by
  by_cases h : (w.slotAt s).state = .pending
  · simp [run_discard, resolveSlot_pending, h]
  · simp [run_discard, resolveSlot_settled, fillSlot_settled, h]

theorem discard_rejectSlot (s : Nat) (f : Fault) :
    (discard (rejectSlot s f)).run w = .ok () (w.fillSlot s (.error f)) := by
  by_cases h : (w.slotAt s).state = .pending
  · simp [run_discard, rejectSlot_pending, h]
  · simp [run_discard, rejectSlot_settled, fillSlot_settled, h]

theorem waitSlot_settled {s : Nat} {o : Outcome} (timeout : Option Json) (label : String)
    (h : (w.slotAt s).state.outcome? = some o) :
    (waitSlot s timeout label).run w = .ok w.loop.cells.size (w.setLoop ((w.loop.done o).2)) := by
  cases hs : (w.slotAt s).state <;> simp_all [waitSlot, SlotState.outcome?]

theorem waitSlot_pending {s : Nat} (timeout : Option Json) (label : String)
    (h : (w.slotAt s).state = .pending) :
    (waitSlot s timeout label).run w = .ok w.loop.cells.size (w.waitOn s timeout label) := by
  cases timeout with
  | none =>
    simp only [waitSlot, bind_pure_comp, pure_bind, EStateM.run_bind, EStateM.run_get, h, fresh_run,
      ExceptT.stM_eq, run_map, change_run, World.waitOn]
  | some ms =>
    simp only [waitSlot, bind_pure_comp, bind_map_left, EStateM.run_bind, EStateM.run_get, h, fresh_run,
      ExceptT.stM_eq, after_run, World.setLoop_loop, World.setLoop_setLoop, run_map, change_run, World.waitOn]

/-- The fault of a wait on a slot that ran out of time. -/
def slotTimeoutFault (label : String) (ms : Json) : Fault :=
  .adapter (.timeout s!"Probe {label} timed out after {Json.displayText ms}ms")

/-- A wait ran out of time: that waiter leaves the slot and its promise fails. -/
theorem slotTimedOut_run (s p : Nat) (label : String) (ms : Json) :
    (slotTimedOut s p label ms).run w = .ok ()
      ((w.withSlot s fun sl => { sl with waiters := sl.waiters.filter (·.promise != p) }).setLoop
        (w.loop.settle p (.error (slotTimeoutFault label ms)))) :=
  rfl

/-! ## The book of commands waiting on the probe -/

theorem register_run (x : Nat) (command : String) (owner : Nat) :
    (register x command owner).run w = .ok (w.nextEntry x command owner) (w.register x command owner) := rfl

theorem findEntry_run (x : Nat) (id : Double) :
    ( pendingEntry? x id).run w = .ok ((w.execAt x).book.entries.find? (·.id == id)) w := rfl

theorem dropEntry_run (x : Nat) (id : Double) : (dropEntry x id).run w = .ok () (w.dropEntry x id) := rfl

theorem settleEntry_run (e : PendingEntry) (o : Except Fault Json) :
    (settleEntry e o).run w = .ok () (w.settleEntry e o) := by
  cases hc : (w.inboxAt e.owner).closed
  · simp [settleEntry, run_attempt, post_open w _ hc, World.settleEntry, hc]
  · simp only [settleEntry, EStateM.run_bind, run_attempt, post_closed w _ hc, World.settleEntry, hc]
    cases o <;> simp [isClosedContext, closedContext, discard_resolveSlot, discard_rejectSlot]

theorem settleEntries_run (es : List PendingEntry) (o : Except Fault Json) :
    (forM es fun e => settleEntry e o).run w = .ok () (es.foldl (fun w e => w.settleEntry e o) w) := by
  induction es generalizing w with
  | nil => rfl
  | cons e es ih =>
    simp only [List.forM_cons, EStateM.run_bind, settleEntry_run, List.foldl_cons]
    exact ih _

theorem resolvePending_run (x : Nat) (id : Double) (v : Json) :
    (resolvePending x id v).run w =
      match (w.execAt x).book.entries.find? (·.id == id) with
      | none => .ok false w
      | some e => .ok true ((w.dropEntry x id).settleEntry e (.ok v)) := by
  simp only [resolvePending, EStateM.run_bind, findEntry_run]
  cases (w.execAt x).book.entries.find? (·.id == id) with
  | none => simp only [EStateM.run_pure]
  | some e => simp only [bind_pure_comp, EStateM.run_bind, dropEntry_run, run_map, settleEntry_run]

theorem failPending_run (x : Nat) (id : Double) (f : Fault) :
    (failPending x id f).run w =
      match (w.execAt x).book.entries.find? (·.id == id) with
      | none => .ok false w
      | some e => .ok true ((w.dropEntry x id).settleEntry e (.error f)) := by
  simp only [failPending, EStateM.run_bind, findEntry_run]
  cases (w.execAt x).book.entries.find? (·.id == id) with
  | none => simp only [EStateM.run_pure]
  | some e => simp only [bind_pure_comp, EStateM.run_bind, dropEntry_run, run_map, settleEntry_run]

theorem failAllPending_run (x : Nat) (f : Fault) :
    (failAllPending x f).run w = .ok (w.execAt x).book.entries.length
      ((w.execAt x).book.entries.foldl (fun w e => w.settleEntry e (.error f))
        (w.withExec x fun e => { e with book := { e.book with entries := [] } })) := by
  simp only [failAllPending, List.forM_eq_forM, bind_pure_comp, EStateM.run_bind, EStateM.run_get, change_run,
    run_map, settleEntries_run]

end Act

end DapBridge
