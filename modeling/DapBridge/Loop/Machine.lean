/-!
# A single-threaded event loop with promises

The adapter runs on one thread. Its work comes in turns: a turn runs one task, and after
it every job that work queued runs before the next turn starts. Jobs come in two queues:
ticks, which run first, and promise jobs. Tasks come from two sources: the turn queue
(in the order they were queued) and timers (due at a point of the loop's clock).

A promise is a cell, pending with the reactions waiting on it or settled with an outcome.
Settling a pending promise queues one job per reaction, in the order the reactions were
added; a reaction added to a settled promise is queued at once; settling a settled promise
does nothing. A reaction is either a continuation of the program (`κ`), resumed with the
outcome, or another promise that takes the outcome over.

Resolving a promise with another one is not immediate: a job first asks the other promise
for its outcome (adding a reaction to it), and the outcome arrives in a second job. An
`await` on a promise is one reaction, so it resumes one job after the promise settles; a
function that returns a promise settles its own promise two jobs after that.

`Loop α κ τ` is the loop's state for outcomes `α`, continuations `κ` and tasks `τ`. It only
keeps the queues; what a job or a task does is up to the program that runs the loop.
-/

namespace DapBridge

/-- Who hears a promise's outcome. -/
inductive Reaction (κ : Type) where
  /-- A continuation of the program. -/
  | resume (k : κ)
  /-- Another promise, which settles the same way. -/
  | forward (target : Nat)
  deriving Inhabited

/-- A promise: pending with the reactions waiting on it, or settled. -/
inductive Cell (α κ : Type) where
  | pending (reactions : List (Reaction κ))
  | settled (o : α)
  deriving Inhabited

/-- A queued job. -/
inductive Job (α κ : Type) where
  /-- A reaction hears an outcome. -/
  | react (r : Reaction κ) (o : α)
  /-- `target` asks `source` for its outcome. -/
  | adopt (target source : Nat)
  deriving Inhabited

/-- A task due at a point of the clock; `id` tells timers apart and orders those due at the
same time. -/
structure Timer (τ : Type) where
  id : Nat
  due : Nat
  task : τ
  deriving Inhabited

/-- The loop: promises by number, the two job queues, the turn queue, the timers and the
clock (in milliseconds). -/
structure Loop (α κ τ : Type) where
  cells : Array (Cell α κ)
  ticks : List τ
  jobs : List (Job α κ)
  turns : List τ
  timers : List (Timer τ)
  now : Nat
  nextTimer : Nat
  deriving Inhabited

namespace Loop

variable {α κ τ : Type}

def empty : Loop α κ τ := ⟨#[], [], [], [], [], 0, 1⟩

/-- A new pending promise. -/
def fresh (l : Loop α κ τ) : Nat × Loop α κ τ :=
  (l.cells.size, { l with cells := l.cells.push (.pending []) })

/-- A new promise, settled already. -/
def done (l : Loop α κ τ) (o : α) : Nat × Loop α κ τ :=
  (l.cells.size, { l with cells := l.cells.push (.settled o) })

/-- The outcome of a promise, once it has one. -/
def outcome? (l : Loop α κ τ) (p : Nat) : Option α :=
  match l.cells[p]? with
  | some (.settled o) => some o
  | _ => none

def isSettled (l : Loop α κ τ) (p : Nat) : Bool := (l.outcome? p).isSome

/-- Settle a pending promise: its reactions are queued in order. A settled promise keeps its
outcome. -/
def settle (l : Loop α κ τ) (p : Nat) (o : α) : Loop α κ τ :=
  match l.cells[p]? with
  | some (.pending rs) =>
    { l with cells := l.cells.modify p (fun _ => .settled o), jobs := l.jobs ++ rs.map (.react · o) }
  | _ => l

/-- Add a reaction to a promise; on a settled one it is queued at once. -/
def listen (l : Loop α κ τ) (p : Nat) (r : Reaction κ) : Loop α κ τ :=
  match l.cells[p]? with
  | some (.pending rs) => { l with cells := l.cells.modify p (fun _ => .pending (rs ++ [r])) }
  | some (.settled o) => { l with jobs := l.jobs ++ [.react r o] }
  | none => l

/-- Resume `k` once `p` has settled. -/
def await (l : Loop α κ τ) (p : Nat) (k : κ) : Loop α κ τ := l.listen p (.resume k)

/-- Resolve `target` with the promise `source`: two jobs after `source` settles, `target`
settles the same way. -/
def follow (l : Loop α κ τ) (target source : Nat) : Loop α κ τ :=
  { l with jobs := l.jobs ++ [.adopt target source] }

/-- Queue a task for a later turn. -/
def defer (l : Loop α κ τ) (t : τ) : Loop α κ τ := { l with turns := l.turns ++ [t] }

/-- Queue a tick: it runs before the promise jobs. -/
def soon (l : Loop α κ τ) (t : τ) : Loop α κ τ := { l with ticks := l.ticks ++ [t] }

/-- Run a task `ms` milliseconds from now (at least one); the timer's id. -/
def after (l : Loop α κ τ) (ms : Nat) (t : τ) : Nat × Loop α κ τ :=
  (l.nextTimer, { l with timers := l.timers ++ [⟨l.nextTimer, l.now + max ms 1, t⟩], nextTimer := l.nextTimer + 1 })

/-- Drop a timer that has not run. -/
def cancel (l : Loop α κ τ) (id : Nat) : Loop α κ τ := { l with timers := l.timers.filter (·.id != id) }

/-- The next job: ticks first, then promise jobs. -/
inductive Next (α κ τ : Type) where
  | tick (t : τ)
  | job (j : Job α κ)

/-- Take the next job off its queue. -/
def takeJob? (l : Loop α κ τ) : Option (Next α κ τ × Loop α κ τ) :=
  match l.ticks, l.jobs with
  | t :: ts, _ => some (.tick t, { l with ticks := ts })
  | [], j :: js => some (.job j, { l with jobs := js })
  | [], [] => none

/-- Take the next turn's task off the turn queue. -/
def takeTurn? (l : Loop α κ τ) : Option (τ × Loop α κ τ) :=
  match l.turns with
  | t :: ts => some (t, { l with turns := ts })
  | [] => none

/-- The first timer due by `limit`: the earliest, and of those due together the first set. -/
def firstDue? (l : Loop α κ τ) (limit : Nat) : Option (Timer τ) :=
  l.timers.foldl (fun best t =>
    if t.due ≤ limit then
      match best with
      | some b => if t.due < b.due then some t else best
      | none => some t
    else best) none

/-- Take the first timer due by `limit` off the list, moving the clock to it. -/
def takeDue? (l : Loop α κ τ) (limit : Nat) : Option (τ × Loop α κ τ) :=
  match l.firstDue? limit with
  | some t => some (t.task, { l with timers := l.timers.filter (·.id != t.id), now := max l.now t.due })
  | none => none

/-- Whether nothing is queued to run now (timers may still be set). -/
def idle (l : Loop α κ τ) : Bool := l.ticks.isEmpty && l.jobs.isEmpty && l.turns.isEmpty

theorem settle_settled (l : Loop α κ τ) (p : Nat) (o o' : α) (h : l.outcome? p = some o') :
    l.settle p o = l := by
  unfold outcome? at h
  unfold settle
  split at h <;> simp_all

theorem fresh_pending (l : Loop α κ τ) : (l.fresh.2).outcome? l.fresh.1 = none := by
  simp [fresh, outcome?]

end Loop

end DapBridge
