import Mathlib
import DapBridge.Proofs.Settlement

/-!
# Scheduling contexts: each task runs once, in the order it was posted

A scheduling context is an inbox of errands. `post` queues an errand and asks the loop for a
drain turn unless one is asked for already; the drain turn takes the queue as it stands, clears
it and runs that batch in order, so what the batch posts waits for a later turn; `close` drops
the queue and refuses later posts; `flush` posts an errand that resolves a promise, or resolves
it at once on a closed context.

For every kind of errand, a drain runs its batch one errand at a time (`Act.drainInbox_eq`,
`Act.drainOne`): a failure is reported and the batch goes on (`Act.drainOne_open`), and once the
context is closed the rest of the batch is skipped (`Act.forM_drainOne_closes`).

On a bench of its own the context runs scripted tasks, which note their label, post their
children, may close their context and may fail. Its calls are `post`, `flush`, `close` and a
turn of the loop, in any order. Along a run the errands posted and those run are kept as two lists (`posted`, `ran`),
and from the invariant `Inv` that every call keeps (`inv_step`) it follows, over every run from
the bench (`context_fifo`), that:

* what ran is a prefix of what was posted: tasks run in posting order and each at most once;
* the trace holds, for each task that ran and in that order, its label and the report of its
  failure, so a failing task does not stop the rest of its batch;
* a task that closes the context is the last one to run: the rest of its batch never runs;
* while the context is open, what was posted and has not run waits in the queue, and enough
  turns run all of it unless a task closes the context (`drains`); once it is closed nothing
  is posted or run any more;
* a flush's promise settles exactly when its errand runs, so only after every errand posted
  before it; on a closed context it is settled when `flush` returns.
-/

namespace DapBridge

namespace Act

/-- The report of an errand that failed on the context named `name`. -/
def failureReport (name : String) (f : Fault) : Diagnostic :=
  .error s!"Task on context '{name}' failed" (some f.stackHead)

/-- One errand of a drain batch on context `i`: skipped once the context is closed, and its
failure reported rather than passed on. -/
def drainOne (i : Nat) (name : String) (x : Errand) : Act Unit := do
  if ((← get).inboxAt i).closed then return
  match ← attempt (runErrand i x) with
  | .ok () => pure ()
  | .error f => log (failureReport name f)

/-- A drain takes the queue as it stands, clears it and its request for a turn, and runs that
batch. -/
theorem drainInbox_eq (i : Nat) : drainInbox i = (do
    let box := (← get).inboxAt i
    change (·.withInbox i fun b => { b with scheduled := false, queue := [] })
    forM box.queue (drainOne i box.name)) := rfl

variable {i : Nat} {name : String} {w : World}

theorem drainOne_closed (h : (w.inboxAt i).closed = true) (x : Errand) :
    (drainOne i name x).run w = .ok () w := by
  simp only [drainOne, EStateM.run_bind, EStateM.run_get, h]
  rfl

/-- On an open context an errand runs, and a failure is reported in place of the errand's
result: the batch goes on either way. -/
theorem drainOne_open (h : (w.inboxAt i).closed = false) (x : Errand) :
    (drainOne i name x).run w = .ok () (match (runErrand i x).run w with
      | .ok () w' => w'
      | .error f w' => w'.log (failureReport name f)) := by
  simp only [drainOne, EStateM.run_bind, EStateM.run_get, h, Bool.false_eq_true, if_false, run_attempt]
  cases (runErrand i x).run w <;> rfl

/-- Nothing of a batch runs on a closed context. -/
theorem forM_drainOne_closed (h : (w.inboxAt i).closed = true) (xs : List Errand) :
    (forM xs (drainOne i name)).run w = .ok () w := by
  induction xs with
  | nil => rfl
  | cons x xs ih => simp only [List.forM_cons, EStateM.run_bind, drainOne_closed h, ih]

/-- An errand that leaves its context closed is the last of its batch to run. -/
theorem forM_drainOne_closes {x : Errand} {w' : World} (hx : (drainOne i name x).run w = .ok () w')
    (hc : (w'.inboxAt i).closed = true) (xs : List Errand) :
    (forM (x :: xs) (drainOne i name)).run w = .ok () w' := by
  simp only [List.forM_cons, EStateM.run_bind, hx, forM_drainOne_closed hc]

end Act

/-! ## The errands of the bench -/

namespace Errand

/-- The errands a scripted task posts when it runs: its children, in order. -/
def spawned : Errand → List Errand
  | .script (.mk _ children _ _) => children.map .script
  | _ => []

/-- Whether an errand closes its context when it runs: a task asked to. -/
def closes : Errand → Bool
  | .script (.mk _ _ c _) => c
  | _ => false

/-- The promise a flush errand resolves. -/
def resolves? : Errand → Option Nat
  | .resolve p => some p
  | _ => none

/-- The errands of the bench: scripted tasks and flushes. -/
def Scripted : Errand → Prop
  | .script _ => True
  | .resolve _ => True
  | _ => False

theorem Scripted.of_mem_spawned {x y : Errand} (hy : y ∈ x.spawned) : y.Scripted := by
  cases x with
  | script t =>
    obtain ⟨label, children, closes, failure⟩ := t
    obtain ⟨c, -, rfl⟩ := List.mem_map.1 hy
    trivial
  | _ => cases hy

@[simp] theorem resolves?_spawned (xs : List Errand) :
    (xs.flatMap spawned).filterMap resolves? = [] := by
  induction xs with
  | nil => rfl
  | cons x xs ih =>
    rcases x with _ | _ | _ | _ | _ | _ | _ | _ | ⟨label, children, closes, failure⟩ <;>
      simp [spawned, ih, resolves?]

/-- The children of a task weigh less than the task: the measure under which every run of
turns ends. -/
theorem spawned_weight (x : Errand) : ((x.spawned.map sizeOf).sum) + 1 ≤ sizeOf x := by
  cases x with
  | script t =>
    obtain ⟨label, children, closes, failure⟩ := t
    have hc : ((children.map Errand.script).map sizeOf).sum + 1 ≤ sizeOf children := by
      induction children with
      | nil => simp
      | cons c cs ih => simp only [List.map_cons, List.sum_cons, List.cons.sizeOf_spec,
          Errand.script.sizeOf_spec]; omega
    simp only [spawned, Errand.script.sizeOf_spec, ScriptTask.mk.sizeOf_spec]
    omega
  | _ => simp [spawned] <;> omega

theorem flatMap_spawned_weight (xs : List Errand) :
    (((xs.flatMap spawned).map sizeOf).sum) + xs.length ≤ (xs.map sizeOf).sum := by
  induction xs with
  | nil => simp
  | cons x xs ih =>
    have := spawned_weight x
    simp only [List.flatMap_cons, List.map_append, List.sum_append, List.length_cons, List.map_cons,
      List.sum_cons]
    omega

/-- The errands of a batch that run on an open context: those up to the first that closes it,
that one included. -/
def upToClose : List Errand → List Errand
  | [] => []
  | x :: xs => if x.closes then [x] else x :: upToClose xs

theorem upToClose_prefix (xs : List Errand) : upToClose xs <+: xs := by
  induction xs with
  | nil => exact List.prefix_refl _
  | cons x xs ih =>
    unfold upToClose
    split
    · exact List.prefix_cons_inj x |>.2 (List.nil_prefix)
    · exact (List.prefix_cons_inj x).2 ih

theorem upToClose_of_any (xs : List Errand) (h : xs.any closes = false) : upToClose xs = xs := by
  induction xs with
  | nil => rfl
  | cons x xs ih =>
    simp only [List.any_cons, Bool.or_eq_false_iff] at h
    simp [upToClose, h.1, ih h.2]

/-- A batch that runs holds a closing errand only as its last. -/
theorem getLast?_upToClose {xs : List Errand} {x : Errand} (hx : x ∈ upToClose xs) (hc : x.closes = true) :
    (upToClose xs).getLast? = some x := by
  induction xs with
  | nil => cases hx
  | cons y ys ih =>
    unfold upToClose at hx ⊢
    by_cases hy : y.closes = true
    · simp only [hy, if_true, List.mem_singleton] at hx ⊢
      rw [hx]
      rfl
    · simp only [hy, Bool.false_eq_true, if_false, List.mem_cons] at hx ⊢
      rcases hx with rfl | hx
      · exact absurd hc hy
      · rw [List.getLast?_cons, ih hx]
        rfl

end Errand

/-- The notes a diagnostic adds to the trace: itself, if the log takes its kind. -/
def LogStyle.record (s : LogStyle) (d : Diagnostic) : List Note :=
  if s.admits (some (.string d.kind)) then [.logged d] else []

namespace Errand

/-- What running a bench errand shows in the trace, in order: a task's label, then the report
of its failure. -/
def notes (style : LogStyle) (name : String) : Errand → List Note
  | .script (.mk label _ _ none) => [.ran label]
  | .script (.mk label _ _ (some m)) => .ran label :: style.record (Act.failureReport name (.other "Error" m))
  | _ => []

end Errand

namespace World

variable (w : World) (i : Nat)

@[simp] theorem note_style (n : Note) : (w.note n).style = w.style := rfl

theorem log_trace (d : Diagnostic) : (w.log d).trace = w.style.record d ++ w.trace := by
  unfold log LogStyle.record
  split <;> rfl

@[simp] theorem log_style (d : Diagnostic) : (w.log d).style = w.style := by unfold log; split <;> rfl

@[simp] theorem enqueue_style (x : Errand) : (w.enqueue i x).style = w.style := by unfold enqueue; split <;> rfl

@[simp] theorem setLoop_style (l : Loop Outcome Cont Turn) : (w.setLoop l).style = w.style := rfl

@[simp] theorem withInbox_style (f : Inbox → Inbox) : (w.withInbox i f).style = w.style := rfl

/-- Errands queued in order on an open context. -/
def enqueueAll (xs : List Errand) : World := xs.foldl (fun w x => w.enqueue i x) w

/-- Context `i` closed: it drops its queue. -/
def shut : World := w.withInbox i fun b => { b with closed := true, queue := [] }

/-- A bench errand run on open context `i` named `name`: a task notes its label, queues its
children, closes the context if asked and reports its failure; a flush resolves its promise. -/
def runScripted (name : String) : Errand → World
  | .script (.mk label children closes failure) =>
    let w' := (w.note (.ran label)).enqueueAll i (children.map .script)
    let w'' := if closes then w'.shut i else w'
    match failure with
    | some m => w''.log (Act.failureReport name (.other "Error" m))
    | none => w''
  | .resolve p => w.setLoop (w.loop.settle p (.ok .none))
  | _ => w

/-- A batch of bench errands run in order on an open context, up to the first that closes it. -/
def runBatch (name : String) : World → List Errand → World
  | w, [] => w
  | w, x :: xs => if x.closes then w.runScripted i name x else runBatch name (w.runScripted i name x) xs

end World

/-! ## The context's drain is asked for when something waits -/

/-- A drain turn is queued exactly when the context asked for one, and it asks for one whenever
something waits on it. -/
structure Ready (i : Nat) (w : World) : Prop where
  size : i < w.inboxes.size
  turns : w.loop.turns = if (w.inboxAt i).scheduled then [.drain i] else []
  asked : (w.inboxAt i).queue ≠ [] → (w.inboxAt i).scheduled = true

namespace Ready

variable {i : Nat} {w : World}

/-- A change that leaves the inboxes and the turn queue alone keeps the context ready. -/
theorem frame {w' : World} (h : Ready i w) (hin : w'.inboxes = w.inboxes) (ht : w'.loop.turns = w.loop.turns) :
    Ready i w' := by
  have hb : w'.inboxAt i = w.inboxAt i := World.inboxAt_inboxes i hin
  exact ⟨hin ▸ h.size, by rw [ht, hb, h.turns], by rw [hb]; exact h.asked⟩

/-- A context that asked for no turn has nothing waiting. -/
theorem queue_nil (h : Ready i w) (hs : (w.inboxAt i).scheduled = false) : (w.inboxAt i).queue = [] := by
  cases hq : (w.inboxAt i).queue with
  | nil => rfl
  | cons x xs => simp [h.asked (by simp [hq])] at hs

theorem enqueue (h : Ready i w) (x : Errand) : Ready i (w.enqueue i x) := by
  have hb : (w.enqueue i x).inboxAt i = { w.inboxAt i with queue := (w.inboxAt i).queue ++ [x], scheduled := true } := by
    simp [World.inboxAt_enqueue, h.size]
  refine ⟨by simpa using h.size, ?_, fun _ => by rw [hb]⟩
  rw [World.enqueue_turns, hb, h.turns]
  cases (w.inboxAt i).scheduled <;> simp

theorem enqueueAll (h : Ready i w) (xs : List Errand) : Ready i (w.enqueueAll i xs) := by
  induction xs generalizing w with
  | nil => exact h
  | cons x xs ih => exact ih (h.enqueue x)

/-- A closed context has nothing waiting, so it stays ready. -/
theorem shut (h : Ready i w) : Ready i (w.shut i) :=
  ⟨by simpa [World.shut] using h.size, by simp [World.shut, h.size, h.turns], by simp [World.shut, h.size]⟩

theorem runScripted (h : Ready i w) (name : String) (x : Errand) : Ready i (w.runScripted i name x) := by
  cases x with
  | script t =>
    obtain ⟨label, children, closes, failure⟩ := t
    have hn : Ready i (w.note (.ran label)) := h.frame rfl rfl
    have h' := hn.enqueueAll (children.map .script)
    have h'' : Ready i (if closes then ((w.note (.ran label)).enqueueAll i (children.map .script)).shut i
        else (w.note (.ran label)).enqueueAll i (children.map .script)) := by
      cases closes
      · exact h'
      · exact h'.shut
    cases failure with
    | none => exact h''
    | some m => exact h''.frame (by simp [World.runScripted]) (by simp [World.runScripted])
  | resolve p => exact h.frame rfl (by simp [World.runScripted])
  | _ => exact h

theorem runBatch (h : Ready i w) (name : String) (xs : List Errand) : Ready i (w.runBatch i name xs) := by
  induction xs generalizing w with
  | nil => exact h
  | cons x xs ih =>
    unfold World.runBatch
    split
    · exact h.runScripted name x
    · exact ih (h.runScripted name x)

end Ready

/-! ## What a bench errand changes -/

namespace World

variable {w : World} {i : Nat} {name : String}

theorem enqueueAll_inbox (h : i < w.inboxes.size) (xs : List Errand) :
    ((w.enqueueAll i xs).inboxAt i).queue = (w.inboxAt i).queue ++ xs ∧
      ((w.enqueueAll i xs).inboxAt i).closed = (w.inboxAt i).closed ∧
      ((w.enqueueAll i xs).inboxAt i).name = (w.inboxAt i).name := by
  induction xs generalizing w with
  | nil => simp [enqueueAll]
  | cons x xs ih =>
    obtain ⟨hq, hc, hn⟩ := ih (w := w.enqueue i x) (by simpa using h)
    simp only [enqueueAll, List.foldl_cons] at hq hc hn ⊢
    simp [hq, hc, hn, inboxAt_enqueue, h]

@[simp] theorem enqueueAll_inboxes_size (xs : List Errand) : (w.enqueueAll i xs).inboxes.size = w.inboxes.size := by
  induction xs generalizing w with
  | nil => rfl
  | cons x xs ih =>
    simp only [enqueueAll, List.foldl_cons] at ih ⊢
    rw [ih]
    simp

@[simp] theorem enqueueAll_cells (xs : List Errand) : (w.enqueueAll i xs).loop.cells = w.loop.cells := by
  induction xs generalizing w with
  | nil => rfl
  | cons x xs ih =>
    simp only [enqueueAll, List.foldl_cons] at ih ⊢
    rw [ih]
    simp

@[simp] theorem enqueueAll_trace (xs : List Errand) : (w.enqueueAll i xs).trace = w.trace := by
  induction xs generalizing w with
  | nil => rfl
  | cons x xs ih =>
    simp only [enqueueAll, List.foldl_cons] at ih ⊢
    rw [ih, enqueue_trace]

@[simp] theorem enqueueAll_style (xs : List Errand) : (w.enqueueAll i xs).style = w.style := by
  induction xs generalizing w with
  | nil => rfl
  | cons x xs ih =>
    simp only [enqueueAll, List.foldl_cons] at ih ⊢
    rw [ih, enqueue_style]

@[simp] theorem shut_loop : (w.shut i).loop = w.loop := rfl
@[simp] theorem shut_trace : (w.shut i).trace = w.trace := rfl
@[simp] theorem shut_style : (w.shut i).style = w.style := rfl
@[simp] theorem shut_inboxes_size : (w.shut i).inboxes.size = w.inboxes.size := by simp [shut]

theorem shut_inbox (h : i < w.inboxes.size) : (w.shut i).inboxAt i = { w.inboxAt i with closed := true, queue := [] } := by
  simp [shut, h]

/-- A bench errand appends what it spawns to the queue and leaves the context named as it was;
one that closes the context leaves it closed and empty. -/
theorem runScripted_inbox (name : String) (h : i < w.inboxes.size) (x : Errand) :
    ((w.runScripted i name x).inboxAt i).queue = (if x.closes then [] else (w.inboxAt i).queue ++ x.spawned) ∧
      ((w.runScripted i name x).inboxAt i).closed = (x.closes || (w.inboxAt i).closed) ∧
      ((w.runScripted i name x).inboxAt i).name = (w.inboxAt i).name := by
  cases x with
  | script t =>
    obtain ⟨label, children, closes, failure⟩ := t
    obtain ⟨hq, hc, hn⟩ := enqueueAll_inbox (w := w.note (.ran label)) (by simpa using h) (children.map .script)
    have hsize : i < ((w.note (.ran label)).enqueueAll i (children.map .script)).inboxes.size := by simpa using h
    cases closes <;> cases failure <;> simp_all [runScripted, Errand.spawned, Errand.closes, shut_inbox hsize]
  | resolve p => simp [runScripted, Errand.spawned, Errand.closes]
  | _ => simp [runScripted, Errand.spawned, Errand.closes]

@[simp] theorem runScripted_inboxes_size (x : Errand) : (w.runScripted i name x).inboxes.size = w.inboxes.size := by
  cases x with
  | script t =>
    obtain ⟨label, children, closes, failure⟩ := t
    cases closes <;> cases failure <;> simp [runScripted]
  | _ => simp [runScripted]

@[simp] theorem runScripted_style (x : Errand) : (w.runScripted i name x).style = w.style := by
  cases x with
  | script t =>
    obtain ⟨label, children, closes, failure⟩ := t
    cases closes <;> cases failure <;> simp [runScripted]
  | _ => simp [runScripted, setLoop]

@[simp] theorem runScripted_cells_size (x : Errand) :
    (w.runScripted i name x).loop.cells.size = w.loop.cells.size := by
  cases x with
  | script t =>
    obtain ⟨label, children, closes, failure⟩ := t
    cases closes <;> cases failure <;> simp [runScripted]
  | _ => simp [runScripted]

theorem runScripted_trace (x : Errand) :
    (w.runScripted i name x).trace = (x.notes w.style name).reverse ++ w.trace := by
  cases x with
  | script t =>
    obtain ⟨label, children, closes, failure⟩ := t
    cases failure with
    | none => cases closes <;> simp [runScripted, Errand.notes]
    | some m =>
      cases closes <;>
      simp only [runScripted, Errand.notes, log_trace, enqueueAll_trace, enqueueAll_style, note_trace,
        note_style, shut_trace, shut_style, LogStyle.record, Bool.false_eq_true, if_true, if_false] <;>
      split <;> simp
  | _ => simp [runScripted, Errand.notes]

/-- A flush errand settles its promise; nothing else a bench errand does settles one. -/
theorem runScripted_settled (x : Errand) (q : Nat) :
    ((w.runScripted i name x).loop.outcome? q).isSome ↔
      (w.loop.outcome? q).isSome ∨ (q < w.loop.cells.size ∧ x.resolves? = some q) := by
  cases x with
  | script t =>
    obtain ⟨label, children, closes, failure⟩ := t
    have hc : ((w.note (.ran label)).enqueueAll i (children.map .script)).loop.outcome? q = w.loop.outcome? q :=
      Loop.outcome?_of_cells (by simp) q
    cases closes <;> cases failure <;> simp [runScripted, hc, Errand.resolves?]
  | resolve p =>
    simp only [runScripted, setLoop_loop, Loop.outcome?_settle, Errand.resolves?, Option.some.injEq]
    by_cases hq : q = p
    · subst hq
      cases hs : w.loop.outcome? q <;> simp
    · simp [hq, Ne.symm hq]
  | _ => simp [runScripted, Errand.resolves?]

/-- A batch appends what its errands spawn, unless one of them closes the context, which is
then closed and empty. -/
theorem runBatch_inbox (name : String) (h : i < w.inboxes.size) (xs : List Errand) :
    ((w.runBatch i name xs).inboxAt i).queue =
        (if xs.any Errand.closes then [] else (w.inboxAt i).queue ++ xs.flatMap Errand.spawned) ∧
      ((w.runBatch i name xs).inboxAt i).closed = (xs.any Errand.closes || (w.inboxAt i).closed) ∧
      ((w.runBatch i name xs).inboxAt i).name = (w.inboxAt i).name := by
  induction xs generalizing w with
  | nil => simp [runBatch]
  | cons x xs ih =>
    obtain ⟨hq, hc, hn⟩ := runScripted_inbox name h x
    unfold runBatch
    cases hx : x.closes with
    | true => simp_all
    | false =>
      obtain ⟨hq', hc', hn'⟩ := ih (w := w.runScripted i name x) (by simpa using h)
      simp only [hx, Bool.false_eq_true, if_false, Bool.false_or] at hq hc
      simp [hx, hq', hc', hn', hq, hc, hn]

@[simp] theorem runBatch_cells_size (xs : List Errand) :
    (w.runBatch i name xs).loop.cells.size = w.loop.cells.size := by
  induction xs generalizing w with
  | nil => rfl
  | cons x xs ih =>
    unfold runBatch
    split
    · simp
    · rw [ih]
      simp

@[simp] theorem runBatch_style (xs : List Errand) : (w.runBatch i name xs).style = w.style := by
  induction xs generalizing w with
  | nil => rfl
  | cons x xs ih =>
    unfold runBatch
    split
    · simp
    · rw [ih]
      simp

theorem runBatch_trace (xs : List Errand) :
    (w.runBatch i name xs).trace = ((Errand.upToClose xs).flatMap (Errand.notes w.style name)).reverse ++ w.trace := by
  induction xs generalizing w with
  | nil => rfl
  | cons x xs ih =>
    unfold runBatch Errand.upToClose
    cases hx : x.closes with
    | true => simp [runScripted_trace]
    | false =>
      have := ih (w := w.runScripted i name x)
      simp only [runScripted_style] at this
      simp [this, runScripted_trace]

theorem runBatch_settled (xs : List Errand) (q : Nat) :
    ((w.runBatch i name xs).loop.outcome? q).isSome ↔
      (w.loop.outcome? q).isSome ∨ (q < w.loop.cells.size ∧ q ∈ (Errand.upToClose xs).filterMap Errand.resolves?) := by
  induction xs generalizing w with
  | nil => simp [runBatch, Errand.upToClose]
  | cons x xs ih =>
    have hstep := ih (w := w.runScripted i name x)
    simp only [runScripted_cells_size] at hstep
    unfold runBatch Errand.upToClose
    by_cases hx : x.closes = true
    · -- a closing errand is a task, which settles nothing
      have hr : x.resolves? = none := by cases x <;> simp_all [Errand.closes, Errand.resolves?]
      simp [hx, runScripted_settled, hr]
    · simp only [hx, Bool.false_eq_true, if_false]
      rw [hstep, runScripted_settled]
      cases hr : x.resolves? with
      | none => simp [hr]
      | some p =>
        simp only [hr, List.filterMap_cons, List.mem_cons, Option.some.injEq, and_or_left, or_assoc]
        constructor
        · rintro (h | ⟨hb, rfl⟩ | h)
          · exact .inl h
          · exact .inr (.inl ⟨hb, rfl⟩)
          · exact .inr (.inr h)
        · rintro (h | ⟨hb, rfl⟩ | h)
          · exact .inl h
          · exact .inr (.inl ⟨hb, rfl⟩)
          · exact .inr (.inr h)

end World

/-! ## Running bench errands on a drain -/

namespace World

/-- A drain turn taken: off the loop's turn queue, and the batch off the context's queue. -/
def takeBatch (w : World) (i : Nat) : World :=
  (w.setLoop { w.loop with turns := [] }).withInbox i fun b => { b with scheduled := false, queue := [] }

variable {w : World} {i : Nat}

@[simp] theorem takeBatch_inboxes_size : (w.takeBatch i).inboxes.size = w.inboxes.size := by simp [takeBatch]
@[simp] theorem takeBatch_cells : (w.takeBatch i).loop.cells = w.loop.cells := rfl
@[simp] theorem takeBatch_style : (w.takeBatch i).style = w.style := rfl
@[simp] theorem takeBatch_trace : (w.takeBatch i).trace = w.trace := rfl

theorem takeBatch_inbox (h : i < w.inboxes.size) :
    (w.takeBatch i).inboxAt i = { w.inboxAt i with scheduled := false, queue := [] } := by
  simp [takeBatch, h]

@[simp] theorem outcome?_enqueue (x : Errand) (q : Nat) : (w.enqueue i x).loop.outcome? q = w.loop.outcome? q :=
  Loop.outcome?_of_cells (by simp) q

theorem ready_takeBatch (h : i < w.inboxes.size) : Ready i (w.takeBatch i) :=
  ⟨by simpa using h, by simp [takeBatch, h], by simp [takeBatch_inbox h]⟩

/-- A batch run on a drain turn leaves in the queue only what the batch spawned, or nothing when
one of its errands closes the context. -/
theorem takeBatch_runBatch_inbox (h : i < w.inboxes.size) (name : String) (xs : List Errand) :
    (((w.takeBatch i).runBatch i name xs).inboxAt i).queue =
        (if xs.any Errand.closes then [] else xs.flatMap Errand.spawned) ∧
      (((w.takeBatch i).runBatch i name xs).inboxAt i).closed = (xs.any Errand.closes || (w.inboxAt i).closed) ∧
      (((w.takeBatch i).runBatch i name xs).inboxAt i).name = (w.inboxAt i).name := by
  obtain ⟨hq, hc, hn⟩ := runBatch_inbox (w := w.takeBatch i) name (by simpa using h) xs
  rw [takeBatch_inbox h, List.nil_append] at hq
  rw [takeBatch_inbox h] at hc hn
  exact ⟨hq, hc, hn⟩

end World

namespace Act

variable {i : Nat} {name : String} {w : World}

/-- Children posted on an open context are queued in order. -/
theorem forM_post_open (h : i < w.inboxes.size) (hc : (w.inboxAt i).closed = false) (cs : List ScriptTask) :
    (forM cs fun c => post i (.script c)).run w = .ok () (w.enqueueAll i (cs.map .script)) := by
  induction cs generalizing w with
  | nil => rfl
  | cons c cs ih =>
    have hc' : ((w.enqueue i (.script c)).inboxAt i).closed = false := by simp [World.inboxAt_enqueue, h, hc]
    simp only [List.forM_cons, EStateM.run_bind, post_open _ _ hc]
    exact ih (by simpa using h) hc'

/-- A bench errand on an open context runs as `World.runScripted` says. -/
theorem drainOne_scripted (h : i < w.inboxes.size) (hc : (w.inboxAt i).closed = false) {x : Errand}
    (hx : x.Scripted) : (drainOne i name x).run w = .ok () (w.runScripted i name x) := by
  rw [drainOne_open hc]
  cases x with
  | script t =>
    obtain ⟨label, children, closes, failure⟩ := t
    have hf := forM_post_open (w := w.note (.ran label)) (by simpa using h) (by simpa using hc) children
    cases closes <;> cases failure <;> simp [runErrand, hf, World.runScripted, World.shut, fail, EStateM.run_throw]
  | resolve p => rfl
  | _ => cases hx

theorem forM_drainOne_scripted (h : i < w.inboxes.size) (hc : (w.inboxAt i).closed = false) (xs : List Errand)
    (hx : ∀ x ∈ xs, x.Scripted) : (forM xs (drainOne i name)).run w = .ok () (w.runBatch i name xs) := by
  induction xs generalizing w with
  | nil => rfl
  | cons x xs ih =>
    have hrun : (drainOne i name x).run w = .ok () (w.runScripted i name x) :=
      drainOne_scripted h hc (hx x List.mem_cons_self)
    obtain ⟨-, hc', -⟩ := World.runScripted_inbox name h x
    rw [hc, Bool.or_false] at hc'
    unfold World.runBatch
    cases hxc : x.closes with
    | true =>
      -- the errand closed its context: the rest of the batch is skipped
      rw [if_pos rfl]
      exact forM_drainOne_closes hrun (hc'.trans hxc) xs
    | false =>
      simp only [Bool.false_eq_true, if_false, List.forM_cons, EStateM.run_bind, hrun]
      exact ih (by simpa using h) (hc'.trans hxc) fun y hy => hx y (List.mem_cons_of_mem _ hy)

theorem flush_run_open (hc : (w.inboxAt i).closed = false) :
    (flush i).run w = .ok w.loop.cells.size ((w.setLoop w.loop.fresh.2).enqueue i (.resolve w.loop.cells.size)) := by
  simp only [flush, EStateM.run_bind, fresh_run, EStateM.run_get, World.inboxAt_setLoop, hc,
    Bool.false_eq_true, if_false, post_open _ _ (show ((w.setLoop w.loop.fresh.2).inboxAt i).closed = false from hc)]
  rfl

theorem flush_run_closed (hc : (w.inboxAt i).closed = true) :
    (flush i).run w = .ok w.loop.cells.size (w.setLoop (w.loop.fresh.2.settle w.loop.cells.size (.ok .none))) := by
  simp only [flush, EStateM.run_bind, fresh_run, EStateM.run_get, World.inboxAt_setLoop, hc, if_true,
    fulfil_run, World.setLoop_setLoop, World.setLoop_loop]
  rfl

end Act

/-! ## The context as a transition system -/

namespace Scheduling

/-- What can happen to a context on the bench: a post from outside, a flush, a close, and a
turn of the loop. -/
inductive Call where
  | post (t : ScriptTask)
  | flush
  | close
  | turn

/-- One call on context `i`. -/
def step (i : Nat) (w : World) : Call → World
  | .post t => w.exec (Act.post i (.script t))
  | .flush => w.exec (discard (Act.flush i))
  | .close => w.exec (Act.closeInbox i)
  | .turn => w.nextTurn

/-- Calls one after another. -/
def run (i : Nat) : World → List Call → World
  | w, [] => w
  | w, c :: cs => run i (step i w c) cs

/-- The errands a call posts on the context: a post's task and a flush's errand while the
context is open, and the children of the tasks a turn runs (dropped again when one of those
tasks closes the context). -/
def Call.posts (i : Nat) (w : World) : Call → List Errand
  | .post t => if (w.inboxAt i).closed then [] else [.script t]
  | .flush => if (w.inboxAt i).closed then [] else [.resolve w.loop.cells.size]
  | .close => []
  | .turn => if (w.inboxAt i).closed then [] else (Errand.upToClose (w.inboxAt i).queue).flatMap Errand.spawned

/-- The errands a call runs: a turn runs the queue of an open context, up to the first task
that closes it. -/
def Call.runs (i : Nat) (w : World) : Call → List Errand
  | .turn => if (w.inboxAt i).closed then [] else Errand.upToClose (w.inboxAt i).queue
  | _ => []

/-- What a run of calls posts, in order. -/
def posted (i : Nat) : World → List Call → List Errand
  | _, [] => []
  | w, c :: cs => c.posts i w ++ posted i (step i w c) cs

/-- What a run of calls runs, in order. -/
def ran (i : Nat) : World → List Call → List Errand
  | _, [] => []
  | w, c :: cs => c.runs i w ++ ran i (step i w c) cs

variable {i : Nat} {w : World}

/-! ### Each call as a function of the world -/

theorem step_post_open (hc : (w.inboxAt i).closed = false) (t : ScriptTask) :
    step i w (.post t) = w.enqueue i (.script t) :=
  World.exec_of_run _ (Act.post_open _ _ hc)

theorem step_post_closed (hc : (w.inboxAt i).closed = true) (t : ScriptTask) : step i w (.post t) = w := by
  simp [step, World.exec, Act.post_closed _ _ hc]

theorem step_flush_open (hc : (w.inboxAt i).closed = false) :
    step i w .flush = (w.setLoop w.loop.fresh.2).enqueue i (.resolve w.loop.cells.size) :=
  World.exec_discard_of_run _ (Act.flush_run_open hc)

theorem step_flush_closed (hc : (w.inboxAt i).closed = true) :
    step i w .flush = w.setLoop (w.loop.fresh.2.settle w.loop.cells.size (.ok .none)) :=
  World.exec_discard_of_run _ (Act.flush_run_closed hc)

theorem step_close : step i w .close = w.shut i := rfl

theorem step_turn_idle (hR : Ready i w) (hs : (w.inboxAt i).scheduled = false) : step i w .turn = w := by
  simp [step, World.nextTurn, Loop.takeTurn?, hR.turns, hs]

theorem step_turn_closed (hR : Ready i w) (hs : (w.inboxAt i).scheduled = true)
    (hc : (w.inboxAt i).closed = true) : step i w .turn = w.takeBatch i := by
  have hc' : ((w.takeBatch i).inboxAt i).closed = true := by simp [World.takeBatch_inbox hR.size, hc]
  simp only [step, World.nextTurn, Loop.takeTurn?, hR.turns, hs, if_true]
  apply World.exec_of_run
  simp only [Act.runTurn, Act.drainInbox_eq, EStateM.run_bind, EStateM.run_get, Act.change_run]
  exact Act.forM_drainOne_closed hc' _

theorem step_turn_open (hR : Ready i w) (hs : (w.inboxAt i).scheduled = true)
    (hc : (w.inboxAt i).closed = false) (hq : ∀ x ∈ (w.inboxAt i).queue, x.Scripted) :
    step i w .turn = (w.takeBatch i).runBatch i (w.inboxAt i).name (w.inboxAt i).queue := by
  have hc' : ((w.takeBatch i).inboxAt i).closed = false := by simp [World.takeBatch_inbox hR.size, hc]
  simp only [step, World.nextTurn, Loop.takeTurn?, hR.turns, hs, if_true]
  apply World.exec_of_run
  simp only [Act.runTurn, Act.drainInbox_eq, EStateM.run_bind, EStateM.run_get, Act.change_run]
  exact Act.forM_drainOne_scripted (by simpa using hR.size) hc' _ hq

/-! ### The invariant -/

/-- What holds after every run, given what it posted (`P`) and what it ran (`R`): what ran is a
prefix of what was posted, and while the context is open the rest waits in its queue; a closed
context holds nothing; a task that closed the context ran last; a flush's promise has settled
exactly when its errand has run. -/
structure Inv (i : Nat) (w : World) (P R : List Errand) : Prop extends Ready i w where
  scripted : ∀ x ∈ P, x.Scripted
  ordered : R <+: P
  waiting : (w.inboxAt i).closed = false → P = R ++ (w.inboxAt i).queue
  dropped : (w.inboxAt i).closed = true → (w.inboxAt i).queue = []
  closer : ∀ x ∈ R, x.closes = true → (w.inboxAt i).closed = true ∧ R.getLast? = some x
  promises : ∀ p ∈ P.filterMap Errand.resolves?,
    p < w.loop.cells.size ∧ ((w.loop.outcome? p).isSome ↔ p ∈ R.filterMap Errand.resolves?)
  distinct : (P.filterMap Errand.resolves?).Nodup

variable {P R : List Errand}

namespace Inv

theorem queue_scripted (h : Inv i w P R) : ∀ x ∈ (w.inboxAt i).queue, x.Scripted := by
  cases hc : (w.inboxAt i).closed with
  | false => exact fun x hx => h.scripted x (by rw [h.waiting hc]; exact List.mem_append_right _ hx)
  | true => simp [h.dropped hc]

/-- A change of the loop that keeps its turns and the outcome of every flush's promise, and
adds promises, keeps the invariant. -/
theorem setLoop (h : Inv i w P R) {l : Loop Outcome Cont Turn} (ht : l.turns = w.loop.turns)
    (hs : w.loop.cells.size ≤ l.cells.size) (ho : ∀ p ∈ P.filterMap Errand.resolves?, l.outcome? p = w.loop.outcome? p) :
    Inv i (w.setLoop l) P R := by
  refine ⟨h.toReady.frame rfl ht, h.scripted, h.ordered, h.waiting, h.dropped, h.closer, fun p hp => ?_, h.distinct⟩
  obtain ⟨hlt, hiff⟩ := h.promises p hp
  exact ⟨Nat.lt_of_lt_of_le hlt hs, by rw [World.setLoop_loop, ho p hp, hiff]⟩

/-- An errand queued on an open context is posted; a flush's promise is new and pending. -/
theorem enqueue (h : Inv i w P R) (hc : (w.inboxAt i).closed = false) {x : Errand} (hx : x.Scripted)
    (hp : ∀ p, x.resolves? = some p → p ∉ P.filterMap Errand.resolves? ∧ p < w.loop.cells.size ∧ w.loop.outcome? p = none) :
    Inv i (w.enqueue i x) (P ++ [x]) R := by
  have hb : (w.enqueue i x).inboxAt i = { w.inboxAt i with queue := (w.inboxAt i).queue ++ [x], scheduled := true } := by
    simp [World.inboxAt_enqueue, h.size]
  refine ⟨h.toReady.enqueue _, ?_, h.ordered.trans (List.prefix_append _ _), ?_, ?_,
    fun y hy hcl => absurd (h.closer y hy hcl).1 (by simp [hc]), ?_, ?_⟩
  · intro y hy
    rcases List.mem_append.1 hy with hy | hy
    · exact h.scripted y hy
    · rw [List.mem_singleton.1 hy]
      exact hx
  · intro _
    rw [hb, h.waiting hc, List.append_assoc]
  · simp [hb, hc]
  · intro p hm
    rw [List.filterMap_append, List.mem_append] at hm
    rcases hm with hm | hm
    · simpa using h.promises p hm
    · simp only [List.filterMap_cons, List.filterMap_nil] at hm
      cases hxp : x.resolves? with
      | none => simp [hxp] at hm
      | some q =>
        simp only [hxp, List.mem_singleton] at hm
        subst hm
        obtain ⟨hnew, hlt, hnone⟩ := hp p hxp
        have hR : p ∉ R.filterMap Errand.resolves? := fun hr => hnew ((h.ordered.sublist.filterMap _).subset hr)
        exact ⟨by simpa using hlt, by simpa [hnone] using hR⟩
  · rw [List.filterMap_append]
    cases hxp : x.resolves? with
    | none => simpa [List.filterMap_cons, hxp] using h.distinct
    | some q =>
      simp only [List.filterMap_cons, hxp, List.filterMap_nil]
      refine List.nodup_append.2 ⟨h.distinct, by simp, ?_⟩
      intro a ha b hb
      rw [List.mem_singleton.1 hb]
      rintro rfl
      exact (hp a hxp).1 ha

theorem post (h : Inv i w P R) (t : ScriptTask) :
    Inv i (step i w (.post t)) (P ++ (Call.post t).posts i w) (R ++ (Call.post t).runs i w) := by
  cases hc : (w.inboxAt i).closed with
  | true => simpa [step_post_closed hc, Call.posts, Call.runs, hc] using h
  | false =>
    rw [step_post_open hc]
    simpa [Call.posts, Call.runs, hc] using h.enqueue hc (x := .script t) trivial (fun p hp => by simp [Errand.resolves?] at hp)

theorem flush (h : Inv i w P R) :
    Inv i (step i w .flush) (P ++ Call.flush.posts i w) (R ++ Call.flush.runs i w) := by
  have hnone : w.loop.outcome? w.loop.cells.size = none := w.loop.outcome?_of_size_le (Nat.le_refl _)
  have hnew : ∀ p ∈ P.filterMap Errand.resolves?, p ≠ w.loop.cells.size := fun p hp => Nat.ne_of_lt (h.promises p hp).1
  cases hc : (w.inboxAt i).closed with
  | true =>
    rw [step_flush_closed hc]
    simp only [Call.posts, Call.runs, hc, if_true, List.append_nil]
    exact h.setLoop (by simp [Loop.fresh]) (by simp) fun p hp => by
      rw [w.loop.fresh.2.outcome?_settle_of_ne _ (hnew p hp), Loop.outcome?_fresh]
  | false =>
    have h' : Inv i (w.setLoop w.loop.fresh.2) P R :=
      h.setLoop (by simp [Loop.fresh]) (by simp) fun p _ => Loop.outcome?_fresh _ p
    rw [step_flush_open hc]
    simp only [Call.posts, Call.runs, hc, Bool.false_eq_true, if_false, List.append_nil]
    exact h'.enqueue hc (x := .resolve w.loop.cells.size) trivial fun p hp => by
      simp only [Errand.resolves?, Option.some.injEq] at hp
      subst hp
      exact ⟨fun hm => hnew _ hm rfl, by simp, by simp [hnone]⟩

theorem close (h : Inv i w P R) :
    Inv i (step i w .close) (P ++ Call.close.posts i w) (R ++ Call.close.runs i w) := by
  have hb := World.shut_inbox h.size
  rw [step_close]
  simp only [Call.posts, Call.runs, List.append_nil]
  exact ⟨h.toReady.shut, h.scripted, h.ordered, by simp [hb], fun _ => by simp [hb],
    fun x hx hcl => ⟨by simp [hb], (h.closer x hx hcl).2⟩, h.promises, h.distinct⟩

theorem turn (h : Inv i w P R) :
    Inv i (step i w .turn) (P ++ Call.turn.posts i w) (R ++ Call.turn.runs i w) := by
  cases hs : (w.inboxAt i).scheduled with
  | false =>
    have hq := h.queue_nil hs
    rw [step_turn_idle h.toReady hs]
    cases hc : (w.inboxAt i).closed <;> simpa [Call.posts, Call.runs, hc, hq, Errand.upToClose] using h
  | true =>
    have hb := World.takeBatch_inbox h.size
    cases hc : (w.inboxAt i).closed with
    | true =>
      rw [step_turn_closed h.toReady hs hc]
      simp only [Call.posts, Call.runs, hc, if_true, List.append_nil]
      exact ⟨World.ready_takeBatch h.size, h.scripted, h.ordered, by simp [hb, hc], fun _ => by simp [hb],
        fun x hx hcl => ⟨by simp [hb, hc], (h.closer x hx hcl).2⟩, h.promises, h.distinct⟩
    | false =>
      rw [step_turn_open h.toReady hs hc h.queue_scripted]
      simp only [Call.posts, Call.runs, hc, Bool.false_eq_true, if_false]
      obtain ⟨hq, hc', -⟩ := World.takeBatch_runBatch_inbox h.size (w.inboxAt i).name (w.inboxAt i).queue
      rw [hc, Bool.or_false] at hc'
      have hP := h.waiting hc
      have hpre := Errand.upToClose_prefix (w.inboxAt i).queue
      refine ⟨(World.ready_takeBatch h.size).runBatch _ _, ?_, ?_, ?_, ?_, ?_, ?_, ?_⟩
      · intro x hx
        rcases List.mem_append.1 hx with hx | hx
        · exact h.scripted x hx
        · obtain ⟨y, -, hy⟩ := List.mem_flatMap.1 hx
          exact Errand.Scripted.of_mem_spawned hy
      · rw [hP]
        exact ((List.prefix_append_right_inj R).2 hpre).trans (List.prefix_append _ _)
      · -- still open: no task of the batch closed it, so the whole queue ran
        intro hct
        rw [hc'] at hct
        rw [hq, hct, Errand.upToClose_of_any _ hct, hP]
        rfl
      · intro hct
        rw [hc'] at hct
        rw [hq, hct]
        rfl
      · -- a closing task of the batch ran last; none ran before, the context being open
        intro x hx hcl
        rcases List.mem_append.1 hx with hx | hx
        · exact absurd (h.closer x hx hcl).1 (by simp [hc])
        · refine ⟨by rw [hc']; exact List.any_eq_true.2 ⟨x, hpre.subset hx, hcl⟩, ?_⟩
          rw [List.getLast?_append, Errand.getLast?_upToClose hx hcl]
          rfl
      · intro p hp
        simp only [List.filterMap_append, Errand.resolves?_spawned, List.append_nil] at hp
        obtain ⟨hlt, hiff⟩ := h.promises p hp
        refine ⟨by simpa using hlt, ?_⟩
        rw [World.runBatch_settled, Loop.outcome?_of_cells World.takeBatch_cells p, hiff]
        simp [hlt]
      · simpa using h.distinct

/-- A turn on an open context runs its queue and leaves in it what the queue's tasks posted; it
closes the context exactly when one of them closes it. -/
theorem turn_inbox (h : Inv i w P R) (hc : (w.inboxAt i).closed = false) :
    ((step i w .turn).inboxAt i).queue =
        (if (w.inboxAt i).queue.any Errand.closes then [] else (w.inboxAt i).queue.flatMap Errand.spawned) ∧
      ((step i w .turn).inboxAt i).closed = (w.inboxAt i).queue.any Errand.closes := by
  cases hs : (w.inboxAt i).scheduled with
  | false =>
    have hq := h.queue_nil hs
    rw [step_turn_idle h.toReady hs]
    simp [hq, hc]
  | true =>
    obtain ⟨hq, hc', -⟩ := World.takeBatch_runBatch_inbox h.size (w.inboxAt i).name (w.inboxAt i).queue
    rw [step_turn_open h.toReady hs hc h.queue_scripted]
    rw [hc, Bool.or_false] at hc'
    exact ⟨hq, hc'⟩

/-- A call leaves the log's style and the context's name alone, and adds to the trace what the
errands it runs show, in order. -/
theorem observe (h : Inv i w P R) (c : Call) :
    (step i w c).style = w.style ∧ ((step i w c).inboxAt i).name = (w.inboxAt i).name ∧
      (step i w c).trace = ((c.runs i w).flatMap (Errand.notes w.style (w.inboxAt i).name)).reverse ++ w.trace := by
  cases c with
  | post t =>
    cases hc : (w.inboxAt i).closed with
    | true => simp [step_post_closed hc, Call.runs]
    | false => simp [step_post_open hc, Call.runs, World.inboxAt_enqueue, World.enqueue_trace, h.size]
  | flush =>
    cases hc : (w.inboxAt i).closed with
    | true => simp [step_flush_closed hc, Call.runs]
    | false => simp [step_flush_open hc, Call.runs, World.inboxAt_enqueue, World.enqueue_trace, h.size]
  | close => simp [step_close, Call.runs, World.shut_inbox h.size]
  | turn =>
    cases hs : (w.inboxAt i).scheduled with
    | false =>
      have hq := h.queue_nil hs
      simp [step_turn_idle h.toReady hs, Call.runs, hq, Errand.upToClose]
    | true =>
      cases hc : (w.inboxAt i).closed with
      | true => simp [step_turn_closed h.toReady hs hc, Call.runs, hc, World.takeBatch_inbox h.size]
      | false =>
        obtain ⟨-, -, hn⟩ := World.takeBatch_runBatch_inbox h.size (w.inboxAt i).name (w.inboxAt i).queue
        rw [step_turn_open h.toReady hs hc h.queue_scripted, hn, World.runBatch_trace]
        simp [Call.runs, hc]

/-- A closed context stays closed. -/
theorem closed_step (h : Inv i w P R) (hc : (w.inboxAt i).closed = true) (c : Call) :
    ((step i w c).inboxAt i).closed = true := by
  cases c with
  | post t => rw [step_post_closed hc]; exact hc
  | flush => rw [step_flush_closed hc]; exact hc
  | close => simp [step_close, World.shut_inbox h.size]
  | turn =>
    cases hs : (w.inboxAt i).scheduled with
    | false => rw [step_turn_idle h.toReady hs]; exact hc
    | true => simp [step_turn_closed h.toReady hs hc, World.takeBatch_inbox h.size, hc]

/-- A flush's promise settles only once every errand posted before its own has run. -/
theorem flushed_after (h : Inv i w P R) {pre post : List Errand} {p : Nat} (hP : P = pre ++ Errand.resolve p :: post)
    (hs : (w.loop.outcome? p).isSome) : pre ++ [Errand.resolve p] <+: R := by
  have hpP : p ∈ P.filterMap Errand.resolves? := by simp [hP, Errand.resolves?]
  have hpR : p ∈ R.filterMap Errand.resolves? := ((h.promises p hpP).2).1 hs
  have hpre : pre ++ [Errand.resolve p] <+: P := ⟨post, by simp [hP]⟩
  by_cases hlen : (pre ++ [Errand.resolve p]).length ≤ R.length
  · exact List.prefix_of_prefix_length_le hpre h.ordered hlen
  · -- what ran is shorter, so it ran no further than `pre`, which holds no flush of `p`
    have hR : R <+: pre := List.prefix_of_prefix_length_le h.ordered ⟨.resolve p :: post, hP.symm⟩
      (by simp at hlen; omega)
    have hnd := h.distinct
    rw [hP, List.filterMap_append, List.nodup_append] at hnd
    exact absurd rfl (hnd.2.2 p ((hR.sublist.filterMap _).subset hpR) p (by simp [Errand.resolves?]))

end Inv

/-- Every call keeps the invariant, with what it posts and runs added. -/
theorem inv_step (h : Inv i w P R) (c : Call) : Inv i (step i w c) (P ++ c.posts i w) (R ++ c.runs i w) := by
  cases c with
  | post t => exact h.post t
  | flush => exact h.flush
  | close => exact h.close
  | turn => exact h.turn

/-! ### Over a run -/

theorem inv_run (h : Inv i w P R) (cs : List Call) :
    Inv i (run i w cs) (P ++ posted i w cs) (R ++ ran i w cs) := by
  induction cs generalizing w P R with
  | nil => simpa [run, posted, ran] using h
  | cons c cs ih => simpa [run, posted, ran, List.append_assoc] using ih (inv_step h c)

theorem observe_run (h : Inv i w P R) (cs : List Call) :
    (run i w cs).style = w.style ∧ ((run i w cs).inboxAt i).name = (w.inboxAt i).name ∧
      (run i w cs).trace = ((ran i w cs).flatMap (Errand.notes w.style (w.inboxAt i).name)).reverse ++ w.trace := by
  induction cs generalizing w P R with
  | nil => simp [run, ran]
  | cons c cs ih =>
    obtain ⟨hs, hn, ht⟩ := h.observe c
    obtain ⟨hs', hn', ht'⟩ := ih (inv_step h c)
    simp only [run, ran] at hs' hn' ht' ⊢
    rw [hs', hn', ht', ht, hs, hn]
    simp

/-- Once the context is closed, nothing is posted or run any more. -/
theorem closed_run (h : Inv i w P R) (hc : (w.inboxAt i).closed = true) (cs : List Call) :
    posted i w cs = [] ∧ ran i w cs = [] := by
  induction cs generalizing w P R with
  | nil => simp [posted, ran]
  | cons c cs ih =>
    obtain ⟨hp, hr⟩ := ih (inv_step h c) (h.closed_step hc c)
    cases c <;> simp [posted, ran, Call.posts, Call.runs, hc, hp, hr]

/-- On an open context enough turns run everything posted, what the tasks post as they run
included, unless a task closes the context on the way: the children of a task weigh less than
the task, so the queue's weight falls with every turn that finds it not empty. -/
theorem drains (h : Inv i w P R) (hc : (w.inboxAt i).closed = false) :
    ∃ n, ((run i w (List.replicate n .turn)).inboxAt i).closed = true ∨
      R ++ ran i w (List.replicate n .turn) = P ++ posted i w (List.replicate n .turn) := by
  obtain ⟨m, hm⟩ : ∃ m, ((w.inboxAt i).queue.map sizeOf).sum = m := ⟨_, rfl⟩
  induction m using Nat.strongRecOn generalizing w P R with
  | ind m ih =>
    cases hq : (w.inboxAt i).queue with
    | nil => exact ⟨0, .inr (by simp [ran, posted, h.waiting hc, hq])⟩
    | cons x xs =>
      obtain ⟨hq', hc'⟩ := h.turn_inbox hc
      cases hany : (w.inboxAt i).queue.any Errand.closes with
      | true =>
        -- a task of this batch closes the context
        exact ⟨1, .inl (by rw [hany] at hc'; exact hc')⟩
      | false =>
        rw [hany] at hq' hc'
        have hlt : (((step i w .turn).inboxAt i).queue.map sizeOf).sum < m := by
          have := Errand.flatMap_spawned_weight (w.inboxAt i).queue
          rw [hq', if_neg Bool.false_ne_true, ← hm]
          rw [hq] at this ⊢
          simp only [List.length_cons] at this
          omega
        obtain ⟨n, hn⟩ := ih _ hlt (inv_step h .turn) hc' rfl
        refine ⟨n + 1, ?_⟩
        simp only [Call.runs, Call.posts, hc, Bool.false_eq_true, if_false, List.append_assoc] at hn
        simpa only [List.replicate_succ, run, ran, posted, Call.runs, Call.posts, hc, Bool.false_eq_true, if_false,
          List.append_assoc] using hn

/-! ## On the bench -/

/-- The bench: a world that logs in the given style and holds one context, of the given name. -/
def bench (host : Host) (style : LogStyle) (name : String) : World :=
  (Bench.world host style).exec (discard (Bench.openContext name))

section Bench

variable (host : Host) (style : LogStyle) (name : String)

@[simp] theorem bench_inboxes_size : (bench host style name).inboxes.size = 1 := rfl
@[simp] theorem bench_inbox : (bench host style name).inboxAt 0 = ⟨name, [], false, false⟩ := rfl
@[simp] theorem bench_style : (bench host style name).style = style := rfl
@[simp] theorem bench_trace : (bench host style name).trace = [] := rfl

end Bench

theorem inv_bench (host : Host) (style : LogStyle) (name : String) : Inv 0 (bench host style name) [] [] where
  size := by simp
  turns := rfl
  asked := fun h => absurd rfl h
  scripted := fun _ h => absurd h List.not_mem_nil
  ordered := List.prefix_refl _
  waiting := fun _ => rfl
  dropped := fun h => absurd h Bool.false_ne_true
  closer := fun _ h => absurd h List.not_mem_nil
  promises := fun _ h => absurd h List.not_mem_nil
  distinct := List.nodup_nil

/-- Over every run of calls on the bench's context: the tasks run in the order they were
posted, each at most once; the trace holds what each one that ran shows, in that order, a
failure's report included; a task that closed the context is the last one that ran; while the
context is open what has not run waits in its queue and enough turns run it all unless a task
closes the context, and once it is closed nothing more is posted or run; a flush's promise
settles only after every errand posted before it has run, and on a closed context `flush`
returns it settled. -/
theorem context_fifo (host : Host) (style : LogStyle) (name : String) (cs : List Call) :
    let w := run 0 (bench host style name) cs
    let P := posted 0 (bench host style name) cs
    let R := ran 0 (bench host style name) cs
    R <+: P ∧
      w.trace = (R.flatMap (Errand.notes style name)).reverse ∧
      (∀ x ∈ R, x.closes = true → (w.inboxAt 0).closed = true ∧ R.getLast? = some x) ∧
      ((w.inboxAt 0).closed = false → P = R ++ (w.inboxAt 0).queue ∧
        ∃ n, ((run 0 w (List.replicate n .turn)).inboxAt 0).closed = true ∨
          R ++ ran 0 w (List.replicate n .turn) = P ++ posted 0 w (List.replicate n .turn)) ∧
      ((w.inboxAt 0).closed = true → ∀ cs', posted 0 w cs' = [] ∧ ran 0 w cs' = []) ∧
      (∀ pre p post, P = pre ++ Errand.resolve p :: post → (w.loop.outcome? p).isSome →
        pre ++ [Errand.resolve p] <+: R) ∧
      ((w.inboxAt 0).closed = true →
        ∃ w', (Act.flush 0).run w = .ok w.loop.cells.size w' ∧ w'.loop.outcome? w.loop.cells.size = some (.ok .none)) := by
  dsimp only
  have h := inv_run (inv_bench host style name) cs
  simp only [List.nil_append] at h
  obtain ⟨-, -, ht⟩ := observe_run (inv_bench host style name) cs
  refine ⟨h.ordered, by simpa using ht, h.closer, fun hc => ⟨h.waiting hc, ?_⟩, fun hc cs' => closed_run h hc cs',
    fun pre p post hP hs => h.flushed_after hP hs, fun hc => ⟨_, Act.flush_run_closed hc, ?_⟩⟩
  · simpa using drains h hc
  · -- the new promise is settled by the flush itself
    let l := (run 0 (bench host style name) cs).loop
    exact l.fresh.2.outcome?_settle_self (p := l.cells.size) _ (by simp) (by simp [l.outcome?_of_size_le (Nat.le_refl _)])

-- `a` posts `c` as it runs; `c` waits for the next turn, behind `b`
example : (run 0 (bench ⟨0, fun _ => "", Path.hostTree, Validator.standard⟩ .plain "main")
    [.post (.mk "a" [.mk "c" [] false none] false none), .post (.mk "b" [] false none), .turn, .turn]).trace =
    [.ran "c", .ran "b", .ran "a"] := by rfl

-- `a` closes the context as it runs: `b`, of the same batch, never runs
example : (run 0 (bench ⟨0, fun _ => "", Path.hostTree, Validator.standard⟩ .plain "main")
    [.post (.mk "a" [] true none), .post (.mk "b" [] false none), .turn, .turn]).trace = [.ran "a"] := by rfl

end Scheduling

end DapBridge
