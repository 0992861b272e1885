import DapBridge.Proofs.Lifecycle

/-!
# Requests and their replies

A request on a bench's run/stop machine either is turned away at once (`refusal`: the machine
is not live, it has no sink, or its sink refuses the command) or writes its command with the
next id and waits: a new slot holds the command's outcome, a wait with the request's deadline
listens on that slot, and the request's promise follows the wait.

What a written request (a `Ticket`) is owed is decided by events: the first reply that names its
id, or the first shutdown after it, decides its slot (`Ticket.decision`); its deadline, running
out while the slot still pends, makes its wait time out (`Ticket.expired`). `ledger` follows the
tickets along a run, and `Tracked` says where each one stands in the world: its entry in the
book until something decides it, the decision queued on the machine's context until a drain
gives it to the slot, the wait on the slot until the slot settles or the deadline runs out, and
the request's promise following the wait (`Loop.Awaits`).

Main results:

* `tracked_step`, `ledger_run`: every event keeps every ticket tracked, and the book is the
  list of undecided tickets, while the ids counted out stay within `2^53`;
* `Held.promise`: a written request's promise pends, with its deadline armed or its outcome
  queued, or holds its answer: the timeout if its deadline ran out first, else the reply or
  failure its decision makes;
* `second_write_at_id_limit`: past `2^53` the count of ids stalls, and a request written then
  loses its entry to the next one;
* `requests_bench`: on a bench's machine, over any run with fewer than `2^53` requests, that
  holds of every request written, a reply is taken exactly when it names the id of an undecided
  request, the book counts the undecided requests, and a request turned away fails at once with
  its refusal;
* `request_after_shutdown_refused`: a request made after a shutdown is not decided by it but
  turned away, with the state error of a terminated machine.
-/

namespace DapBridge

namespace Loop

variable {l l' : Loop Outcome Cont Turn} {p : Nat} {c : String} {a : Option Outcome}

/-- Request promise `p`, for command `c`, follows the wait on the promise after it, whose answer
so far is `a`. While the wait pends, so does `p`, with the reaction that delivers the wait's
answer; once the wait has its answer, `p` holds the reply made of it, or a job is queued that
gives it. Nothing else delivers to `p`. -/
structure Awaits (l : Loop Outcome Cont Turn) (p : Nat) (c : String) (a : Option Outcome) : Prop where
  lt : p + 1 < l.cells.size
  answer : l.outcome? (p + 1) = a
  reactions : ∀ r rs c', l.cells[r]? = some (.pending rs) → Reaction.resume (.replied p c') ∈ rs →
    r = p + 1 ∧ c' = c
  jobs : ∀ c' o, Job.react (.resume (.replied p c')) o ∈ l.jobs → c' = c ∧ a = some o
  waits : a = none → l.outcome? p = none ∧
    ∃ rs, l.cells[p + 1]? = some (.pending rs) ∧ Reaction.resume (.replied p c) ∈ rs
  heard : ∀ o, a = some o → l.outcome? p = some (Act.repliedOutcome c o) ∨
    (l.outcome? p = none ∧ Job.react (.resume (.replied p c)) o ∈ l.jobs)

namespace Awaits

/-- Only the promises and the jobs matter. -/
theorem of_eq (h : l.Awaits p c a) (hc : l'.cells = l.cells) (hj : l'.jobs = l.jobs) : l'.Awaits p c a where
  lt := by rw [hc]; exact h.lt
  answer := (outcome?_of_cells hc _).trans h.answer
  reactions := by rw [hc]; exact h.reactions
  jobs := by rw [hj]; exact h.jobs
  waits := by rw [outcome?_of_cells hc, hc]; exact h.waits
  heard := by rw [outcome?_of_cells hc, hj]; exact h.heard

/-- A new pending promise is neither `p` nor its wait, and has no reactions. -/
theorem fresh (h : l.Awaits p c a) : l.fresh.2.Awaits p c a where
  lt := by have := h.lt; simp only [fresh_cells_size]; omega
  answer := by rw [outcome?_fresh]; exact h.answer
  reactions := by
    intro r rs c' hr hm
    simp only [Loop.fresh, Array.getElem?_push] at hr
    split at hr
    · simp only [Option.some.injEq, Cell.pending.injEq] at hr
      subst hr
      cases hm
    · exact h.reactions r rs c' hr hm
  jobs := h.jobs
  waits := fun ha => by
    obtain ⟨h1, rs, h2, h3⟩ := h.waits ha
    refine ⟨by rw [outcome?_fresh]; exact h1, rs, ?_, h3⟩
    simp only [Loop.fresh, Array.getElem?_push, if_neg (Nat.ne_of_lt h.lt)]
    exact h2
  heard := by rw [outcome?_fresh]; exact h.heard

/-- A new promise settled already is neither `p` nor its wait. -/
theorem done (h : l.Awaits p c a) (o : Outcome) : (l.done o).2.Awaits p c a where
  lt := by have := h.lt; simp only [done_cells_size]; omega
  answer := by rw [outcome?_done, if_neg (Nat.ne_of_lt h.lt)]; exact h.answer
  reactions := by
    intro r rs c' hr hm
    simp only [Loop.done, Array.getElem?_push] at hr
    split at hr
    · simp at hr
    · exact h.reactions r rs c' hr hm
  jobs := h.jobs
  waits := fun ha => by
    obtain ⟨h1, rs, h2, h3⟩ := h.waits ha
    refine ⟨by rw [outcome?_done, if_neg (by have := h.lt; omega)]; exact h1, rs, ?_, h3⟩
    simp only [Loop.done, Array.getElem?_push, if_neg (Nat.ne_of_lt h.lt)]
    exact h2
  heard := by rw [outcome?_done, if_neg (by have := h.lt; omega)]; exact h.heard

/-- Settling a promise that is neither `p` nor its wait, or one settled already, changes nothing
`p` follows: none of its reactions delivers to `p`. -/
theorem settle (h : l.Awaits p c a) {r : Nat} (hr : (r ≠ p ∧ r ≠ p + 1) ∨ l.outcome? r ≠ none) (o : Outcome) :
    (l.settle r o).Awaits p c a := by
  rcases hr with ⟨hrp, hrq⟩ | hr
  case inr =>
    obtain ⟨o', ho'⟩ := Option.ne_none_iff_exists'.1 hr
    rw [settle_settled l r o o' ho']
    exact h
  -- a job the settlement queues is one of `r`'s reactions, which deliver elsewhere
  have hjobs : ∀ c' o', Job.react (.resume (.replied p c')) o' ∈ (l.settle r o).jobs →
      Job.react (.resume (.replied p c')) o' ∈ l.jobs := by
    intro c' o' hj
    rcases (mem_settle_jobs _).1 hj with hj | ⟨rs, hrs, re, hre, he⟩
    · exact hj
    · cases he
      exact absurd (h.reactions r rs c' hrs hre).1 hrq
  refine ⟨by simpa using h.lt, by rw [outcome?_settle_of_ne _ _ (Ne.symm hrq)]; exact h.answer,
    fun r' rs c' hr' hm => h.reactions r' rs c' (pending_of_settle _ hr') hm,
    fun c' o' hj => h.jobs c' o' (hjobs c' o' hj), fun ha => ?_, fun o' ha => ?_⟩
  · obtain ⟨h1, rs, h2, h3⟩ := h.waits ha
    exact ⟨by rw [outcome?_settle_of_ne _ _ (Ne.symm hrp)]; exact h1, rs,
      by rw [cells_settle_of_ne _ _ (Ne.symm hrq)]; exact h2, h3⟩
  · rw [outcome?_settle_of_ne _ _ (Ne.symm hrp)]
    rcases h.heard o' ha with h1 | ⟨h1, h2⟩
    · exact .inl h1
    · exact .inr ⟨h1, (mem_settle_jobs _).2 (.inl h2)⟩

/-- The wait hears `o`: `p`'s reaction becomes the job that delivers the reply made of it. -/
theorem settleWait (h : l.Awaits p c none) (o : Outcome) : (l.settle (p + 1) o).Awaits p c (some o) := by
  obtain ⟨hp, rs, hrs, hm⟩ := h.waits rfl
  have hq : (l.settle (p + 1) o).outcome? (p + 1) = some o := outcome?_settle_self _ _ h.lt h.answer
  refine ⟨by simpa using h.lt, hq, fun r rs' c' hr hm' => ?_, fun c' o' hj => ?_, fun ha => absurd ha (by simp),
    fun o' ha => ?_⟩
  · -- the wait's own reactions are gone with its settlement
    obtain ⟨rfl, -⟩ := h.reactions r rs' c' (pending_of_settle _ hr) hm'
    simp [outcome?, hr] at hq
  · rcases (mem_settle_jobs _).1 hj with hj | ⟨rs', hrs', re, hre, he⟩
    · exact absurd (h.jobs c' o' hj).2 (by simp)
    · rw [hrs] at hrs'
      cases hrs'
      cases he
      exact ⟨(h.reactions (p + 1) rs c' hrs hre).2, rfl⟩
  · cases ha
    exact .inr ⟨by rw [outcome?_settle_of_ne _ _ (by omega)]; exact hp, (mem_settle_jobs _).2 (.inr ⟨rs, hrs, _, hm, rfl⟩)⟩

/-- Waiters that hold neither `p` nor its wait hear an outcome. -/
theorem release (h : l.Awaits p c a) (ws : List Waiter) (o : Outcome)
    (hws : ∀ wt ∈ ws, wt.promise ≠ p ∧ wt.promise ≠ p + 1) : (l.release ws o).Awaits p c a := by
  induction ws generalizing l with
  | nil => exact h
  | cons wt ws ih =>
    rw [release_cons]
    refine ih ?_ fun wt' hw' => hws wt' (List.mem_cons_of_mem _ hw')
    -- cancelling the waiter's timer, if it has one, leaves the cells and jobs alone
    refine Awaits.settle ?_ (.inl (hws wt List.mem_cons_self)) o
    cases wt.timer <;> exact h.of_eq rfl rfl

/-- Another request's promise `p'` waits on promise `q`. -/
theorem await (h : l.Awaits p c a) (q : Nat) {p' : Nat} (c' : String) (hp : p' ≠ p) :
    (l.await q (.replied p' c')).Awaits p c a := by
  -- the new reaction, and the job it may become at once, deliver to `p'`
  have hnew : ∀ c'', Reaction.resume (Cont.replied p c'') ≠ .resume (.replied p' c') := by
    intro c'' he
    simp only [Reaction.resume.injEq, Cont.replied.injEq] at he
    exact hp he.1.symm
  refine ⟨by simpa [Loop.await] using h.lt, by simpa [Loop.await] using h.answer, fun r rs c'' hr hm => ?_,
    fun c'' o hj => ?_, fun ha => ?_, fun o ha => ?_⟩
  · rcases pending_of_listen _ hr with hr | ⟨rfl, rs₀, hrs₀, rfl⟩
    · exact h.reactions r rs c'' hr hm
    · rcases List.mem_append.1 hm with hm | hm
      · exact h.reactions _ rs₀ c'' hrs₀ hm
      · exact absurd (List.mem_singleton.1 hm) (hnew c'')
  · rcases (mem_listen_jobs _).1 hj with hj | ⟨o', -, he⟩
    · exact h.jobs c'' o hj
    · simp only [Job.react.injEq, Reaction.resume.injEq, Cont.replied.injEq] at he
      exact absurd he.1.1.symm hp
  · obtain ⟨h1, rs, h2, h3⟩ := h.waits ha
    obtain ⟨rs', h2', h3'⟩ : ∃ rs', (l.listen q (.resume (.replied p' c'))).cells[p + 1]? = some (.pending rs') ∧
        ∀ x ∈ rs, x ∈ rs' := pending_listen _ _ h2
    exact ⟨by simpa [Loop.await] using h1, rs', h2', h3' _ h3⟩
  · simp only [Loop.await, outcome?_listen]
    rcases h.heard o ha with h1 | ⟨h1, h2⟩
    · exact .inl h1
    · exact .inr ⟨h1, (mem_listen_jobs _).2 (.inl h2)⟩

/-- A job that delivers to another promise than `p` leaves its queue. -/
theorem dropJob (h : l.Awaits p c a) {j : Job Outcome Cont} {js : List (Job Outcome Cont)} (hj : l.jobs = j :: js)
    (hne : ∀ c' o, j ≠ .react (.resume (.replied p c')) o) :
    ({ l with jobs := js } : Loop Outcome Cont Turn).Awaits p c a where
  lt := h.lt
  answer := h.answer
  reactions := h.reactions
  jobs := fun c' o hm => h.jobs c' o (by rw [hj]; exact List.mem_cons_of_mem _ hm)
  waits := h.waits
  heard := fun o ha => by
    rcases h.heard o ha with h1 | ⟨h1, h2⟩
    · exact .inl h1
    · rw [hj] at h2
      rcases List.mem_cons.1 h2 with h2 | h2
      · exact absurd h2.symm (hne c o)
      · exact .inr ⟨h1, h2⟩

/-- The next job delivers a reply. If it is `p`'s own, `p` gets the reply made of the wait's
answer; any other leaves `p` alone, unless it were for the wait while the wait pends. -/
theorem job (h : l.Awaits p c a) {p' : Nat} {c' : String} {o : Outcome} {js : List (Job Outcome Cont)}
    (hj : l.jobs = .react (.resume (.replied p' c')) o :: js) (hq : p' ≠ p + 1 ∨ a ≠ none) :
    (({ l with jobs := js } : Loop Outcome Cont Turn).settle p' (Act.repliedOutcome c' o)).Awaits p c a := by
  by_cases hp : p' = p
  case neg =>
    refine (h.dropJob hj fun c'' o' he => ?_).settle ?_ _
    · simp only [Job.react.injEq, Reaction.resume.injEq, Cont.replied.injEq] at he
      exact hp he.1.1
    · by_cases hq' : p' = p + 1
      · subst hq'
        have ha : ({ l with jobs := js } : Loop Outcome Cont Turn).outcome? (p + 1) = a := h.answer
        rw [ha]
        exact .inr (hq.resolve_left (not_not.2 rfl))
      · exact .inl ⟨hp, hq'⟩
  subst hp
  -- the job is `p`'s own: it carries the wait's answer
  obtain ⟨rfl, rfl⟩ := h.jobs c' o (by rw [hj]; exact List.mem_cons_self)
  refine ⟨by simpa using h.lt, by rw [outcome?_settle_of_ne _ _ (by omega)]; exact h.answer,
    fun r rs c'' hr hm => h.reactions r rs c'' (pending_of_settle { l with jobs := js } hr) hm, fun c'' o' hm => ?_,
    fun ha => absurd ha (by simp), fun o' ha => ?_⟩
  · rcases (mem_settle_jobs _).1 hm with hm | ⟨rs, hrs, re, hre, he⟩
    · exact h.jobs c'' o' (by rw [hj]; exact List.mem_cons_of_mem _ hm)
    · cases he
      exact absurd (h.reactions p' rs c'' hrs hre).1 (by omega)
  · cases ha
    refine .inl ?_
    rw [outcome?_settle]
    split
    · rfl
    · rename_i hn
      rcases h.heard _ rfl with h1 | ⟨h1, -⟩
      · exact h1
      · exact absurd ⟨rfl, Nat.lt_of_succ_lt h.lt, h1⟩ hn

/-- A request's promise `p` made just now and, after it, the wait it awaits, with a deadline:
older promises and jobs deliver only to older promises. -/
theorem issue (hr : l.Replies) (ms : Nat) (t : Turn) (c : String) :
    ((l.fresh.2.fresh.2.after ms t).2.await (l.cells.size + 1) (.replied l.cells.size c)).Awaits l.cells.size c none := by
  have hn : (l.fresh.2.fresh.2.after ms t).2.cells[l.cells.size]? = some (.pending []) := by
    simp only [Loop.after, Loop.fresh, Array.getElem?_push, Array.size_push]
    simp
  have hn1 : (l.fresh.2.fresh.2.after ms t).2.cells[l.cells.size + 1]? = some (.pending []) := by
    simp [Loop.after, Loop.fresh, Array.getElem_push]
  have hold : ∀ q rs, (l.fresh.2.fresh.2.after ms t).2.cells[q]? = some (.pending rs) →
      q = l.cells.size ∨ q = l.cells.size + 1 ∨ l.cells[q]? = some (.pending rs) := by
    intro q rs hq
    simp only [Loop.after, Loop.fresh, Array.getElem?_push, Array.size_push] at hq
    split_ifs at hq with h1 h2
    · exact .inr (.inl h1)
    · exact .inl h2
    · exact .inr (.inr hq)
  refine ⟨by simp [Loop.await, Loop.after], ?_, fun r rs c' hr' hm => ?_, fun c' o hj => ?_, fun _ => ⟨?_, _, listen_self _ _ hn1, by simp⟩,
    fun o ha => by cases ha⟩
  · rw [Loop.await, outcome?_listen, outcome?_after, outcome?_fresh, outcome?_fresh]
    exact outcome?_of_size_le _ (by omega)
  · rcases pending_of_listen _ hr' with hr' | ⟨rfl, rs₀, hrs₀, rfl⟩
    · rcases hold r rs hr' with rfl | rfl | hr'
      · rw [hn] at hr'
        cases hr'
        cases hm
      · rw [hn1] at hr'
        cases hr'
        cases hm
      · -- an older promise's reaction delivers to an older promise
        obtain ⟨p, c'', he, hp⟩ := hr.reactions r rs hr' _ hm
        simp only [Reaction.resume.injEq, Cont.replied.injEq] at he
        omega
    · rw [hn1] at hrs₀
      cases hrs₀
      simp only [List.nil_append, List.mem_singleton, Reaction.resume.injEq, Cont.replied.injEq, true_and] at hm
      exact ⟨rfl, hm⟩
  · rcases (mem_listen_jobs _).1 hj with hj | ⟨o', ho', -⟩
    · obtain ⟨p, c'', o'', he, hp⟩ := hr.jobs _ hj
      simp only [Job.react.injEq, Reaction.resume.injEq, Cont.replied.injEq] at he
      omega
    · rw [hn1] at ho'
      cases ho'
  · rw [Loop.await, outcome?_listen, outcome?_after, outcome?_fresh, outcome?_fresh]
    exact outcome?_of_size_le _ (Nat.le_refl _)

end Awaits

end Loop

namespace RunStop

/-- A request whose command went out, and what has been decided for it so far. -/
structure Ticket where
  /-- The id its command carries. -/
  id : Double
  command : String
  slot : Nat
  /-- The request's promise; the wait on its slot holds the next one. -/
  promise : Nat
  /-- The wait's deadline: its timer, and how long it runs. -/
  timer : Nat
  deadline : Json
  /-- What decided its slot: the first reply naming its id, or the first shutdown after it. -/
  decision : Option (Except Fault Json)
  /-- Its deadline ran out while its slot still pended. -/
  expired : Bool

namespace Ticket

variable (k : Ticket)

/-- The wait on the request's slot. -/
def wait : Waiter := ⟨k.promise + 1, some k.timer⟩

def label : String := s!"'{k.command}'"

/-- What the wait fails with when its deadline runs out. -/
def timeout : Fault := Act.slotTimeoutFault k.label k.deadline

/-- Its entry in the book of a machine whose context is `i`. -/
def entry (i : Nat) : PendingEntry := ⟨k.id, k.command, k.slot, i⟩

/-- Whether the wait still waits, given its slot's state: its deadline has not run out and the
slot has not settled. -/
def waits (st : SlotState) : Bool := !k.expired && st.outcome?.isNone

/-- What the wait hears, given its slot's state: the timeout once its deadline has run out,
else the slot's outcome once it has one. -/
def heard (st : SlotState) : Option Outcome := if k.expired then some (.error k.timeout) else st.outcome?

theorem heard_eq_none {st : SlotState} : k.heard st = none ↔ k.waits st = true := by
  unfold heard waits
  cases k.expired <;> simp [Option.isNone_iff_eq_none]

/-- The request's id is the word of a whole number below the one whose word is `next`, at most
`2^53`: up to there, whole numbers have words of their own. -/
def Below (next : Double) : Prop :=
  ∃ j n, k.id = Double.ofNat j ∧ next = Double.ofNat n ∧ j < n ∧ n ≤ 2 ^ 53

end Ticket

section Below

variable {k : Ticket} {next : Double}

theorem Ticket.Below.ne (h : k.Below next) : k.id ≠ next := by
  obtain ⟨j, n, hj, rfl, hjn, hn⟩ := h
  rw [hj]
  exact fun he => Nat.ne_of_lt hjn ((Double.ofNat_inj (by omega) hn).1 he)

/-- Counting on keeps an id below the count: past `2^53` the count stays where it is. -/
theorem Ticket.Below.succ (h : k.Below next) : k.Below (next + 1) := by
  obtain ⟨j, n, hj, rfl, hjn, hn⟩ := h
  rcases Nat.lt_or_eq_of_le hn with hn | rfl
  · exact ⟨j, n + 1, hj, Double.ofNat_add_one_of_lt hn, by omega, hn⟩
  · exact ⟨j, 2 ^ 53, hj, by decide, hjn, le_refl _⟩

end Below

/-- Where a written request stands in world `w`, the queue of its machine's context apart. -/
structure Held (x : Nat) (w : World) (k : Ticket) : Prop where
  /-- Its id was counted out before the book's next one. -/
  below : k.Below (w.execAt x).book.nextId
  slot_lt : k.slot < w.slots.size
  timer_lt : k.timer < w.loop.nextTimer
  /-- Until something decides it, its entry is in the book, and no other entry has its id or
  its slot. -/
  booked : k.decision = none → k.entry (w.execAt x).inbox ∈ (w.execAt x).book.entries
  owns : ∀ c ∈ (w.execAt x).book.entries, c.id = k.id ∨ c.slot = k.slot →
    c = k.entry (w.execAt x).inbox ∧ k.decision = none
  /-- Its slot pends, or holds the decision. -/
  state : (w.slotAt k.slot).state = .pending ∨ ∃ o, k.decision = some o ∧ (w.slotAt k.slot).state = .ofResult o
  /-- Its wait is its slot's only waiter until it hears, and its deadline is armed until then. -/
  waiters : (w.slotAt k.slot).waiters = if k.waits (w.slotAt k.slot).state then [k.wait] else []
  armed : (∃ t ∈ w.loop.timers, t.id = k.timer) ↔ k.waits (w.slotAt k.slot).state = true
  task : ∀ t ∈ w.loop.timers, t.id = k.timer → t.task = .slotTimeout k.slot (k.promise + 1) k.label k.deadline
  /-- No other waiter holds its deadline. -/
  mine : ∀ wt, (wt ∈ (w.execAt x).stopWaiters ∨ ∃ s ≠ k.slot, wt ∈ (w.slotAt s).waiters) → wt.timer ≠ some k.timer
  /-- The request's promise follows the wait. -/
  awaits : w.loop.Awaits k.promise k.command (k.heard (w.slotAt k.slot).state)

/-- The settlements a list of errands holds for a request's slot: only its decision, and that
one for as long as the slot pends. -/
structure Owed (w : World) (k : Ticket) (xs : List Errand) : Prop where
  queued : ∀ o, Errand.settleSlot k.slot o ∈ xs → k.decision = some o
  owed : ∀ o, k.decision = some o → (w.slotAt k.slot).state = .pending → Errand.settleSlot k.slot o ∈ xs

/-- A written request, tracked in world `w`: where it stands, and the settlement the machine's
context holds for it. -/
structure Tracked (x : Nat) (w : World) (k : Ticket) : Prop extends Held x w k where
  queue : Owed w k (w.inboxAt (w.execAt x).inbox).queue

section Frames

variable {x : Nat} {w w' : World} {k : Ticket}

/-- What a request's standing looks at: its entries in the book, its slot, its deadline, the
waiters that could hold that deadline, and what its promise follows. -/
theorem Held.frame (h : Held x w k) (hi : (w'.execAt x).inbox = (w.execAt x).inbox)
    (hbook : ∀ c, c.id = k.id ∨ c.slot = k.slot →
      (c ∈ (w'.execAt x).book.entries ↔ c ∈ (w.execAt x).book.entries))
    (hid : (w'.execAt x).book.nextId = (w.execAt x).book.nextId ∨
      (w'.execAt x).book.nextId = (w.execAt x).book.nextId + 1)
    (hslot : w'.slotAt k.slot = w.slotAt k.slot) (hsize : w.slots.size ≤ w'.slots.size)
    (htimers : ∀ t, t.id = k.timer → (t ∈ w'.loop.timers ↔ t ∈ w.loop.timers))
    (hnext : w.loop.nextTimer ≤ w'.loop.nextTimer)
    (hmine : ∀ wt, (wt ∈ (w'.execAt x).stopWaiters ∨ ∃ s ≠ k.slot, wt ∈ (w'.slotAt s).waiters) →
      wt.timer = some k.timer → wt ∈ (w.execAt x).stopWaiters ∨ ∃ s ≠ k.slot, wt ∈ (w.slotAt s).waiters)
    (hawaits : w'.loop.Awaits k.promise k.command (k.heard (w.slotAt k.slot).state)) : Held x w' k where
  below := by
    rcases hid with hid | hid
    · rw [hid]; exact h.below
    · rw [hid]; exact h.below.succ
  slot_lt := Nat.lt_of_lt_of_le h.slot_lt hsize
  timer_lt := Nat.lt_of_lt_of_le h.timer_lt hnext
  booked := fun hd => by
    rw [hi]
    exact (hbook _ (.inl rfl)).2 (h.booked hd)
  owns := fun c hc hr => by
    rw [hi]
    exact h.owns c ((hbook c hr).1 hc) hr
  state := by rw [hslot]; exact h.state
  waiters := by rw [hslot]; exact h.waiters
  armed := by
    rw [hslot, ← h.armed]
    constructor
    · rintro ⟨t, ht, hid⟩
      exact ⟨t, (htimers t hid).1 ht, hid⟩
    · rintro ⟨t, ht, hid⟩
      exact ⟨t, (htimers t hid).2 ht, hid⟩
  task := fun t ht hid => h.task t ((htimers t hid).1 ht) hid
  mine := fun wt hw ht => h.mine wt (hmine wt hw ht) ht
  awaits := by rw [hslot]; exact hawaits

theorem Owed.frame {xs xs' : List Errand} (h : Owed w k xs)
    (hq : ∀ o, Errand.settleSlot k.slot o ∈ xs' ↔ Errand.settleSlot k.slot o ∈ xs)
    (hstate : (w'.slotAt k.slot).state = (w.slotAt k.slot).state) : Owed w' k xs' where
  queued := fun o ho => h.queued o ((hq o).1 ho)
  owed := fun o hd hp => (hq o).2 (h.owed o hd (by rw [← hstate]; exact hp))

/-- What the machine's context holds for a request's slot, and the rest of its standing. -/
theorem Tracked.frame (h : Tracked x w k) (hheld : Held x w' k) (hi : (w'.execAt x).inbox = (w.execAt x).inbox)
    (hq : ∀ o, Errand.settleSlot k.slot o ∈ (w'.inboxAt (w.execAt x).inbox).queue ↔
      Errand.settleSlot k.slot o ∈ (w.inboxAt (w.execAt x).inbox).queue)
    (hslot : w'.slotAt k.slot = w.slotAt k.slot) : Tracked x w' k :=
  ⟨hheld, by rw [hi]; exact h.queue.frame hq (by rw [hslot])⟩

/-- While the request's promise pends, a reaction or a job will deliver to it. -/
theorem Held.targets (h : Held x w k) (hp : w.loop.outcome? k.promise = none) : w.loop.Targets k.promise := by
  cases ha : k.heard (w.slotAt k.slot).state with
  | none =>
    obtain ⟨-, rs, hrs, hm⟩ := h.awaits.waits ha
    exact .inr ⟨_, rs, k.command, hrs, hm⟩
  | some o =>
    rcases h.awaits.heard o ha with h1 | ⟨-, hj⟩
    · rw [hp] at h1
      cases h1
    · exact .inl ⟨k.command, o, hj⟩

/-- While the wait pends, it waits on its slot. -/
theorem Held.wait_mem (h : Held x w k) (hq : w.loop.outcome? (k.promise + 1) = none) :
    k.wait ∈ (w.slotAt k.slot).waiters := by
  have hw : k.waits (w.slotAt k.slot).state = true :=
    (k.heard_eq_none).1 (h.awaits.answer.symm.trans hq)
  rw [h.waiters, if_pos hw]
  exact List.mem_singleton_self _

/-- A stop waiter, or a waiter on another slot, holds neither the request's promise nor its
wait's: each holds a pending promise that no reply is for and that no waiter on the request's
slot holds. -/
theorem Held.apart (hS : Shape x w) (h : Held x w k) {wt : Waiter}
    (hw : wt ∈ (w.execAt x).stopWaiters ∨ ∃ s ≠ k.slot, wt ∈ (w.slotAt s).waiters) :
    wt.promise ≠ k.promise ∧ wt.promise ≠ k.promise + 1 := by
  have hpend : w.loop.outcome? wt.promise = none ∧ ¬w.loop.Targets wt.promise ∧
      ∀ wt' ∈ (w.slotAt k.slot).waiters, wt'.promise ≠ wt.promise := by
    rcases hw with hw | ⟨s, hs, hw⟩
    · obtain ⟨h1, -, h3, h4⟩ := hS.stopWaiters wt hw
      exact ⟨h1, h4, fun wt' hw' he => h3 ⟨k.slot, wt', hw', he⟩⟩
    · obtain ⟨-, h2, -⟩ := hS.slotWaiters s wt hw
      exact ⟨h2, fun ht => hS.free _ ht ⟨s, wt, hw, rfl⟩,
        fun wt' hw' he => hs (hS.apart _ _ _ _ hw hw' he.symm).1⟩
  obtain ⟨h1, h2, h3⟩ := hpend
  refine ⟨fun he => h2 (he ▸ h.targets (he ▸ h1)), fun he => ?_⟩
  exact h3 k.wait (h.wait_mem (he ▸ h1)) he.symm

end Frames

/-! ## What leaves a request alone -/

section Calm

variable {x : Nat} {w w' : World} {k : Ticket}

/-- An effect seen only in the trace. -/
theorem Tracked.of_trace (h : Tracked x w k) (hx : w'.execs = w.execs) (hi : w'.inboxes = w.inboxes)
    (hs : w'.slots = w.slots) (hl : w'.loop = w.loop) : Tracked x w' k := by
  have he : w'.execAt x = w.execAt x := World.execAt_execs x hx
  have hslot : ∀ j, w'.slotAt j = w.slotAt j := fun j => World.slotAt_slots j hs
  refine h.frame (h.toHeld.frame (by rw [he]) (fun c _ => by rw [he]) (.inl (by rw [he])) (hslot _)
    (Nat.le_of_eq (by rw [hs])) (fun t _ => by rw [hl]) (Nat.le_of_eq (by rw [hl]))
    (fun wt hw _ => by simpa only [he, hslot] using hw) (by rw [hl]; exact h.awaits))
    (by rw [he]) (fun o => by rw [World.inboxAt_inboxes _ hi]) (hslot _)

theorem Tracked.note (h : Tracked x w k) (n : Note) : Tracked x (w.note n) k := h.of_trace rfl rfl rfl rfl

theorem Tracked.log (h : Tracked x w k) (d : Diagnostic) : Tracked x (w.log d) k :=
  h.of_trace (by simp) (by simp) (by simp) (by simp)

/-- A new promise settled at once. -/
theorem Tracked.done (h : Tracked x w k) (o : Outcome) : Tracked x (w.done o) k :=
  h.frame (h.toHeld.frame rfl (fun _ _ => Iff.rfl) (.inl rfl) rfl (Nat.le_refl _) (fun _ _ => Iff.rfl)
    (Nat.le_refl _) (fun _ hw _ => hw) (h.awaits.done o)) rfl (fun _ => Iff.rfl) rfl

/-- A change of the machine's record that keeps its context and its book, and adds no stop
waiter that holds the request's deadline. -/
theorem Tracked.withExec (h : Tracked x w k) (hx : x < w.execs.size) (f : Execution → Execution)
    (hi : (f (w.execAt x)).inbox = (w.execAt x).inbox) (hb : (f (w.execAt x)).book = (w.execAt x).book)
    (hw : ∀ wt ∈ (f (w.execAt x)).stopWaiters, wt.timer = some k.timer → wt ∈ (w.execAt x).stopWaiters) :
    Tracked x (w.withExec x f) k := by
  have he : (w.withExec x f).execAt x = f (w.execAt x) := by simp [hx]
  refine h.frame (h.toHeld.frame (by rw [he, hi]) (fun c _ => by rw [he, hb]) (.inl (by rw [he, hb])) rfl
    (Nat.le_refl _)
    (fun _ _ => Iff.rfl) (Nat.le_refl _) (fun wt hw' hkt => ?_) h.awaits) (by rw [he, hi]) (fun _ => Iff.rfl) rfl
  rw [he] at hw'
  rcases hw' with hw' | hw'
  · exact .inl (hw wt hw' hkt)
  · exact .inr hw'

/-- Every stop waiter hears an outcome and leaves, its deadline with it, while the machine's
record keeps its context and book. -/
theorem Tracked.releaseStops (hS : Shape x w) (h : Tracked x w k) (o : Outcome)
    (hi : (w'.execAt x).inbox = (w.execAt x).inbox) (hb : (w'.execAt x).book = (w.execAt x).book)
    (hw : (w'.execAt x).stopWaiters = []) (hbox : w'.inboxes = w.inboxes) (hs : w'.slots = w.slots)
    (hl : w'.loop = w.loop.release (w.execAt x).stopWaiters o) : Tracked x w' k := by
  have hslot : ∀ j, w'.slotAt j = w.slotAt j := fun j => World.slotAt_slots j hs
  refine h.frame (h.toHeld.frame hi (fun c _ => by rw [hb]) (.inl (by rw [hb])) (hslot _)
    (Nat.le_of_eq (by rw [hs])) (fun t ht => ?_) (Nat.le_of_eq (by rw [hl, Loop.release_nextTimer]))
    (fun wt hw' _ => ?_) ?_) hi (fun _ => by rw [World.inboxAt_inboxes _ hbox]) (hslot _)
  · -- the stop waiters' deadlines are not the request's
    rw [hl, Loop.mem_release_timers]
    exact ⟨fun h' => h'.1, fun h' => ⟨h', fun wt hwt => ht ▸ h.mine wt (.inl hwt)⟩⟩
  · rw [hw] at hw'
    rcases hw' with hw' | ⟨s, hs', hw'⟩
    · cases hw'
    · exact .inr ⟨s, hs', by rwa [hslot] at hw'⟩
  · rw [hl]
    exact h.awaits.release _ o fun wt hwt => h.apart hS (.inl hwt)

theorem Tracked.acceptStop (hS : Shape x w) (h : Tracked x w k) (s : ExecState) (threadId : Json) :
    Tracked x (w.acceptStop x s threadId) k := by
  unfold World.acceptStop
  refine Tracked.note ?_ _
  exact h.releaseStops hS _ (by simp [hS.machine]) (by simp [hS.machine]) (by simp [hS.machine]) rfl rfl rfl

theorem Tracked.terminate (hS : Shape x w) (h : Tracked x w k) : Tracked x (w.terminate x) k := by
  unfold World.terminate
  split
  · exact h.releaseStops hS _ (by simp [hS.machine]) (by simp [hS.machine]) (by simp [hS.machine]) rfl rfl rfl
  · refine Tracked.note ?_ _
    exact h.releaseStops hS _ (by simp [hS.machine]) (by simp [hS.machine]) (by simp [hS.machine]) rfl rfl rfl

/-- A new pending promise. -/
theorem Tracked.fresh (h : Tracked x w k) : Tracked x (w.setLoop w.loop.fresh.2) k :=
  h.frame (h.toHeld.frame rfl (fun _ _ => Iff.rfl) (.inl rfl) rfl (Nat.le_refl _) (fun _ _ => Iff.rfl)
    (Nat.le_refl _) (fun _ hw _ => hw) h.awaits.fresh) rfl (fun _ => Iff.rfl) rfl

/-- A promise other than the request's and its wait's, or one settled already, settles. -/
theorem Tracked.settle (h : Tracked x w k) (r : Nat) (hr : (r ≠ k.promise ∧ r ≠ k.promise + 1) ∨ w.loop.outcome? r ≠ none)
    (o : Outcome) : Tracked x (w.setLoop (w.loop.settle r o)) k :=
  h.frame (h.toHeld.frame rfl (fun _ _ => Iff.rfl) (.inl rfl) rfl (Nat.le_refl _) (fun t _ => by simp)
    (by simp) (fun _ hw _ => hw) (h.awaits.settle hr o)) rfl (fun _ => Iff.rfl) rfl

/-- Another request's promise `p` waits on promise `q`. -/
theorem Tracked.await (h : Tracked x w k) (q : Nat) {p : Nat} (c : String) (hp : p ≠ k.promise) :
    Tracked x (w.setLoop (w.loop.await q (.replied p c))) k :=
  h.frame (h.toHeld.frame rfl (fun _ _ => Iff.rfl) (.inl rfl) rfl (Nat.le_refl _)
    (fun t _ => by simp [Loop.await]) (by simp [Loop.await]) (fun _ hw _ => hw) (h.awaits.await q c hp))
    rfl (fun _ => Iff.rfl) rfl

/-- Another command registered: its entry has a new id and a new slot. -/
theorem Tracked.register (h : Tracked x w k) (hx : x < w.execs.size) (command : String) :
    Tracked x (w.register x command (w.execAt x).inbox) k := by
  have he : (w.register x command (w.execAt x).inbox).execAt x = { w.execAt x with book :=
      ⟨PendingBook.put (w.nextEntry x command (w.execAt x).inbox) (w.execAt x).book.entries,
        (w.execAt x).book.nextId + 1⟩ } := by
    rw [World.execAt_register, if_pos ⟨rfl, hx⟩]
  have hslot : (w.register x command (w.execAt x).inbox).slotAt k.slot = w.slotAt k.slot := by
    rw [World.slotAt_register, if_neg (Nat.ne_of_lt h.slot_lt)]
  -- the new entry has the next id, which the request's is below, and a slot past its own
  have hnew : ∀ c, c.id = k.id ∨ c.slot = k.slot → c ≠ w.nextEntry x command (w.execAt x).inbox := by
    rintro c (hc | hc) rfl
    · exact h.below.ne hc.symm
    · exact Nat.ne_of_lt h.slot_lt hc.symm
  refine h.frame (h.toHeld.frame (by rw [he]) (fun c hc => ?_) (.inr (by rw [he])) hslot (by simp)
    (fun _ _ => Iff.rfl) (Nat.le_refl _) (fun wt hw _ => ?_) h.awaits) (by rw [he]) (fun _ => Iff.rfl) hslot
  · rw [he]
    refine ⟨fun h' => (PendingBook.mem_put _ h').resolve_left (hnew c hc), fun h' => ?_⟩
    -- an entry with the request's id or slot is its own, whose id is not the next one
    obtain ⟨rfl, -⟩ := h.owns c h' hc
    exact PendingBook.mem_put_of_ne _ h' (h.below.ne)
  · rw [he] at hw
    rcases hw with hw | ⟨s, hs, hw⟩
    · exact .inl hw
    · exact .inr ⟨s, hs, by rwa [World.slotAt_register_waiters] at hw⟩

/-- Entries leave the book, none of the request's while it is undecided. -/
theorem Tracked.withBook (h : Tracked x w k) (hx : x < w.execs.size) (f : PendingBook → PendingBook)
    (hf : ∀ c ∈ (f (w.execAt x).book).entries, c ∈ (w.execAt x).book.entries)
    (hkeep : k.decision = none → k.entry (w.execAt x).inbox ∈ (f (w.execAt x).book).entries)
    (hn : (f (w.execAt x).book).nextId = (w.execAt x).book.nextId) :
    Tracked x (w.withExec x fun e => { e with book := f e.book }) k := by
  have he : (w.withExec x fun e => { e with book := f e.book }).execAt x =
      { w.execAt x with book := f (w.execAt x).book } := by
    simp [hx]
  refine h.frame (h.toHeld.frame (by rw [he]) (fun c hc => ?_) (.inl (by rw [he]; exact hn)) rfl (Nat.le_refl _)
    (fun _ _ => Iff.rfl) (Nat.le_refl _) (fun wt hw _ => by rwa [he] at hw) h.awaits) (by rw [he]) (fun _ => Iff.rfl) rfl
  rw [he]
  refine ⟨hf c, fun hc' => ?_⟩
  -- an entry with the request's id or slot is its own, which only an undecided request has
  obtain ⟨rfl, hd⟩ := h.owns c hc' hc
  exact hkeep hd

/-- An entry leaves the book, which is not the request's while it is undecided. -/
theorem Tracked.dropEntry (h : Tracked x w k) (hx : x < w.execs.size) (n : Double) (hn : n ≠ k.id ∨ k.decision ≠ none) :
    Tracked x (w.dropEntry x n) k :=
  h.withBook hx (fun b => { b with entries := b.entries.filter (·.id != n) }) (fun _ hc => List.mem_of_mem_filter hc)
    (fun hd => List.mem_filter.2 ⟨h.booked hd, by simpa [Ticket.entry] using (hn.resolve_right (not_not.2 hd)).symm⟩)
    rfl

theorem enqueue_jobs (w : World) (i : Nat) (e : Errand) : (w.enqueue i e).loop.jobs = w.loop.jobs := by
  unfold World.enqueue
  split <;> rfl

/-- An errand queued on a context is not seen by where a request stands. -/
theorem Held.enqueue (h : Held x w k) (i : Nat) (e : Errand) : Held x (w.enqueue i e) k :=
  h.frame (by simp) (fun c _ => by simp) (by simp) (by simp) (by simp) (fun t _ => by simp) (by simp)
    (fun wt hw _ => by simpa using hw) (h.awaits.of_eq (by simp) (enqueue_jobs w i e))

/-- Another slot's settlement queued on the machine's context. -/
theorem Tracked.enqueue (h : Tracked x w k) (hi : (w.execAt x).inbox < w.inboxes.size) {s : Nat} (hs : s ≠ k.slot)
    (o : Except Fault Json) : Tracked x (w.enqueue (w.execAt x).inbox (.settleSlot s o)) k := by
  refine h.frame (h.toHeld.enqueue _ _) (by simp) (fun o' => ?_) (by simp)
  rw [World.inboxAt_enqueue, if_pos ⟨rfl, hi⟩]
  simp [Ne.symm hs]

/-- Another slot's settlement delivered to its owner, the machine's context, which is open. -/
theorem Tracked.settleEntry (hS : Shape x w) (h : Tracked x w k) {c : PendingEntry} (hc : c.owner = (w.execAt x).inbox)
    (hs : c.slot ≠ k.slot) (o : Except Fault Json) : Tracked x (w.settleEntry c o) k := by
  rw [World.settleEntry_of_open w (by rw [hc]; exact hS.opened), hc]
  exact h.enqueue hS.context hs o

/-- A wait on another slot: a new waiter, and a new deadline. -/
theorem Tracked.waitOn (h : Tracked x w k) {s : Nat} (hs : s ≠ k.slot) (t : Option Json) (label : String) :
    Tracked x (w.waitOn s t label) k := by
  have hslot : (w.waitOn s t label).slotAt k.slot = w.slotAt k.slot := by
    cases t <;> simp [World.waitOn, hs]
  have hne := Nat.ne_of_gt h.timer_lt
  -- the new waiter is on `s`, and its deadline, if any, is the next timer
  have hmine : ∀ j wt, wt ∈ ((w.waitOn s t label).slotAt j).waiters → wt.timer = some k.timer →
      wt ∈ (w.slotAt j).waiters := by
    intro j wt hwt hkt
    by_cases hj : s = j ∧ j < w.slots.size
    · cases t <;> simp [World.waitOn, hj] at hwt <;> rcases hwt with hwt | rfl
      · exact hwt
      · cases hkt
      · exact hwt
      · simp [Loop.fresh] at hkt
        exact absurd hkt hne
    · cases t <;> simpa [World.waitOn, hj] using hwt
  refine h.frame (h.toHeld.frame (by simp) (fun c _ => by simp) (by simp) hslot (by simp) (fun t' ht' => ?_) ?_
    (fun wt hw hkt => ?_) ?_) (by simp) (fun _ => by simp) hslot
  · cases t with
    | none => exact Iff.rfl
    | some ms =>
      simp only [World.waitOn, World.withSlot_loop, World.setLoop_loop, Loop.after, Loop.fresh, List.mem_append,
        List.mem_singleton]
      refine ⟨fun h' => h'.resolve_right ?_, .inl⟩
      rintro rfl
      exact hne ht'
  · cases t <;> simp [World.waitOn, Loop.after, Loop.fresh]
  · simp only [World.execAt_waitOn] at hw
    rcases hw with hw | ⟨j, hj, hw⟩
    · exact .inl hw
    · exact .inr ⟨j, hj, hmine j wt hw hkt⟩
  · cases t
    · exact h.awaits.fresh
    · exact h.awaits.fresh.of_eq rfl rfl

/-- A request that writes its command: its own new slot, entry, wait and deadline. -/
theorem Tracked.requestWritten (hS : Shape x w) (h : Tracked x w k) (command : String) (args timeout : Option Json) :
    Tracked x (w.requestWritten x command args timeout) k := by
  have hlt := h.awaits.lt
  have hslot := h.slot_lt
  unfold World.requestWritten
  refine Tracked.await ?_ _ _ (by simp; omega)
  refine Tracked.waitOn ?_ (by simp [World.nextEntry]; omega) _ _
  exact (h.fresh.register hS.machine command).note _

/-- A request whose command the sink refused: its entry leaves at once, with the settlement of
its new slot queued, and its promise fails. -/
theorem Tracked.requestRefused (hS : Shape x w) (h : Tracked x w k) (command : String) :
    Tracked x (w.requestRefused x command) k := by
  have hlt := h.awaits.lt
  have hslot := h.slot_lt
  have h₁ := (h.fresh.register hS.machine command).dropEntry (by simpa using hS.machine)
    (w.nextEntry x command (w.execAt x).inbox).id (.inl fun he => h.below.ne he.symm)
  have hS₁ := (hS.fresh.register command).dropEntry (w.nextEntry x command (w.execAt x).inbox).id
  unfold World.requestRefused
  refine Tracked.settle ?_ _ (.inl ⟨by simp; omega, by simp; omega⟩) _
  exact h₁.settleEntry hS₁ (by simp [World.execAt_dropEntry, World.execAt_register, hS.machine, World.nextEntry])
    (by simp [World.nextEntry]; omega) _

/-- A new timer: its id is the next one, not the request's deadline. -/
theorem Tracked.after (h : Tracked x w k) (ms : Nat) (task : Turn) : Tracked x (w.setLoop (w.loop.after ms task).2) k := by
  have hne := Nat.ne_of_gt h.timer_lt
  refine h.frame (h.toHeld.frame rfl (fun _ _ => Iff.rfl) (.inl rfl) rfl (Nat.le_refl _) (fun t ht => ?_)
    (by simp [Loop.after]) (fun _ hw _ => hw) (h.awaits.of_eq rfl rfl)) rfl (fun _ => Iff.rfl) rfl
  simp only [World.setLoop_loop, Loop.after, List.mem_append, List.mem_singleton]
  refine ⟨fun h' => h'.resolve_right ?_, .inl⟩
  rintro rfl
  exact hne ht

/-- A stop wait: a new promise, a new stop waiter, and perhaps a new deadline. -/
theorem Tracked.stopWait (hS : Shape x w) (h : Tracked x w k) (t : Option Json) : Tracked x (w.stopWait x t) k := by
  have hne := Nat.ne_of_gt h.timer_lt
  unfold World.stopWait
  cases t with
  | none =>
    refine h.fresh.withExec hS.machine _ rfl rfl fun wt hw hkt => ?_
    rcases List.mem_append.1 hw with hw | hw
    · exact hw
    · rw [List.mem_singleton.1 hw] at hkt
      cases hkt
  | some ms =>
    refine (h.fresh.after _ _).withExec hS.machine _ rfl rfl fun wt hw hkt => ?_
    rcases List.mem_append.1 hw with hw | hw
    · exact hw
    · rw [List.mem_singleton.1 hw] at hkt
      simp only [Loop.fresh, Option.some.injEq] at hkt
      exact absurd hkt hne

/-- A timer other than the request's deadline is cancelled. -/
theorem Tracked.cancel (h : Tracked x w k) {id : Nat} (hid : id ≠ k.timer) : Tracked x (w.setLoop (w.loop.cancel id)) k := by
  refine h.frame (h.toHeld.frame rfl (fun _ _ => Iff.rfl) (.inl rfl) rfl (Nat.le_refl _) (fun t ht => ?_)
    (Nat.le_refl _) (fun _ hw _ => hw) (h.awaits.of_eq rfl rfl)) rfl (fun _ => Iff.rfl) rfl
  simp only [World.setLoop_loop, Loop.cancel, List.mem_filter, bne_iff_ne, ne_eq]
  exact ⟨fun h' => h'.1, fun h' => ⟨h', by rw [ht]; exact Ne.symm hid⟩⟩

/-- A stop wait's deadline runs out: that timer goes, its waiter leaves and its promise fails. -/
theorem Tracked.stopExpired (hS : Shape x w) (h : Tracked x w k) {t : Timer Turn} (ht : t ∈ w.loop.timers) {p : Nat}
    {ms : Json} (htask : t.task = .stopTimeout x p ms) :
    Tracked x ((w.setLoop (w.loop.cancel t.id)).stopExpired x p ms) k := by
  -- the timer is a stop waiter's: neither the request's deadline nor one of its promises
  have hown : (⟨p, some t.id⟩ : Waiter) ∈ (w.execAt x).stopWaiters := by
    obtain ⟨-, ⟨s, q, label, ms', htask', -⟩ | ⟨q, ms', htask', hq⟩⟩ := hS.timers t ht
    · rw [htask] at htask'
      cases htask'
    · rw [htask] at htask'
      cases htask'
      exact hq
  have hid : t.id ≠ k.timer := fun he => by
    have := h.task t ht he
    rw [htask] at this
    cases this
  unfold World.stopExpired
  refine Tracked.settle ?_ p (.inl (h.apart hS (.inl hown))) _
  exact (h.cancel hid).withExec hS.machine _ rfl rfl fun wt hw _ => (List.mem_filter.1 hw).1

/-- Another wait's deadline runs out: that waiter leaves its slot, which is not the request's,
and its promise fails. -/
theorem Tracked.expireOther (hS : Shape x w) (h : Tracked x w k) {t : Timer Turn} (ht : t ∈ w.loop.timers) {s q : Nat}
    {label : String} {ms : Json} (htask : t.task = .slotTimeout s q label ms) (hid : t.id ≠ k.timer) :
    Tracked x (w.expire s q t.id label ms) k := by
  have hown : (⟨q, some t.id⟩ : Waiter) ∈ (w.slotAt s).waiters := by
    obtain ⟨-, ⟨s', q', label', ms', htask', hq⟩ | ⟨q', ms', htask', -⟩⟩ := hS.timers t ht
    · rw [htask] at htask'
      cases htask'
      exact hq
    · rw [htask] at htask'
      cases htask'
  -- the request's slot has no waiter but its own wait, whose deadline this is not
  have hs : s ≠ k.slot := by
    rintro rfl
    rw [h.waiters] at hown
    split at hown
    · simp only [List.mem_singleton, Ticket.wait, Waiter.mk.injEq, Option.some.injEq] at hown
      exact hid hown.2
    · cases hown
  have hq := h.apart hS (.inr ⟨s, hs, hown⟩)
  have hslot : (w.expire s q t.id label ms).slotAt k.slot = w.slotAt k.slot := by
    simp [World.expire, hs]
  have hC : (w.loop.cancel t.id).Awaits k.promise k.command (k.heard (w.slotAt k.slot).state) := h.awaits.of_eq rfl rfl
  refine h.frame (h.toHeld.frame rfl (fun _ _ => Iff.rfl) (.inl rfl) hslot (by simp [World.expire])
    (fun t' ht' => ?_) (by simp [World.expire, Loop.cancel]) (fun wt hw _ => ?_) (hC.settle (.inl hq) _))
    rfl (fun _ => Iff.rfl) hslot
  · simp only [World.expire, World.setLoop_loop, Loop.settle_timers, Loop.cancel, List.mem_filter, bne_iff_ne, ne_eq]
    exact ⟨fun h' => h'.1, fun h' => ⟨h', by rw [ht']; exact Ne.symm hid⟩⟩
  · rcases hw with hw | ⟨j, hj, hw⟩
    · exact .inl hw
    · refine .inr ⟨j, hj, ?_⟩
      by_cases hsj : s = j ∧ j < w.slots.size
      · simp only [World.expire, World.slotAt_setLoop, World.slotAt_withSlot, hsj, and_self, if_true,
          List.mem_filter] at hw
        exact hw.1
      · simpa [World.expire, hsj] using hw

/-- The next job delivers a reply: to the request, if it is its own, the reply made of what its
wait heard. -/
theorem Tracked.job (hS : Shape x w) (h : Tracked x w k) {p : Nat} {c : String} {o : Outcome}
    {js : List (Job Outcome Cont)} (hj : w.loop.jobs = .react (.resume (.replied p c)) o :: js) :
    Tracked x (w.setLoop ({ w.loop with jobs := js }.settle p (Act.repliedOutcome c o))) k := by
  -- a job's promise is no waiter's, so it is not the wait while the wait still waits
  have hq : p ≠ k.promise + 1 ∨ k.heard (w.slotAt k.slot).state ≠ none := by
    by_cases ha : k.heard (w.slotAt k.slot).state = none
    · refine .inl fun he => hS.free p (.inl ⟨c, o, by simp [hj]⟩) ⟨k.slot, k.wait, ?_, he.symm⟩
      rw [h.waiters, if_pos ((k.heard_eq_none).1 ha)]
      exact List.mem_singleton_self _
    · exact .inr ha
  exact h.frame (h.toHeld.frame rfl (fun _ _ => Iff.rfl) (.inl rfl) rfl (Nat.le_refl _) (fun t _ => by simp)
    (by simp) (fun _ hw _ => hw) (h.awaits.job hj hq)) rfl (fun _ => Iff.rfl) rfl

end Calm

/-! ## What decides a request, and what it hears -/

section Decide

variable {x : Nat} {w w' : World} {k : Ticket}

/-- The request is decided with `o`: the book loses its entry, and no other. -/
theorem Held.decide (h : Held x w k) (hx : x < w.execs.size) (hd : k.decision = none) (o : Except Fault Json)
    (f : PendingBook → PendingBook)
    (hf : ∀ c ∈ (f (w.execAt x).book).entries, c ∈ (w.execAt x).book.entries ∧ c.id ≠ k.id)
    (hn : (f (w.execAt x).book).nextId = (w.execAt x).book.nextId) :
    Held x (w.withExec x fun e => { e with book := f e.book }) { k with decision := some o } := by
  have he : (w.withExec x fun e => { e with book := f e.book }).execAt x = { w.execAt x with book := f (w.execAt x).book } := by
    simp [hx]
  refine ⟨by rw [he, hn]; exact h.below, h.slot_lt, h.timer_lt, (fun hd' => by cases hd'), fun c hc hr => ?_, ?_,
    h.waiters, h.armed, h.task, (fun wt hw => h.mine wt (by rwa [he] at hw)), h.awaits⟩
  · -- no entry left has the request's id, nor its slot, which only its own entry had
    rw [he] at hc
    obtain ⟨hc, hid⟩ := hf c hc
    rcases hr with hr | hr
    · exact absurd hr hid
    · exact absurd (congrArg PendingEntry.id (h.owns c hc (.inr hr)).1) hid
  · rcases h.state with hs | ⟨o', hd', -⟩
    · exact .inl hs
    · rw [hd] at hd'
      cases hd'

/-- The decision queued on the machine's context, which held no settlement of the request's slot. -/
theorem Tracked.queueDecision (hS : Shape x w) (h : Held x w k) {o : Except Fault Json} (hd : k.decision = some o)
    (hno : ∀ o', Errand.settleSlot k.slot o' ∉ (w.inboxAt (w.execAt x).inbox).queue) :
    Tracked x (w.enqueue (w.execAt x).inbox (.settleSlot k.slot o)) k := by
  have hbox : (w.enqueue (w.execAt x).inbox (.settleSlot k.slot o)).inboxAt (w.execAt x).inbox =
      { w.inboxAt (w.execAt x).inbox with
        queue := (w.inboxAt (w.execAt x).inbox).queue ++ [.settleSlot k.slot o], scheduled := true } := by
    rw [World.inboxAt_enqueue, if_pos ⟨rfl, hS.context⟩]
  refine ⟨h.enqueue _ _, fun o' ho' => ?_, fun o' hd' _ => ?_⟩
  · simp only [World.execAt_enqueue, hbox, List.mem_append, List.mem_singleton, Errand.settleSlot.injEq, true_and] at ho'
    rcases ho' with ho' | rfl
    · exact absurd ho' (hno o')
    · exact hd
  · rw [hd] at hd'
    cases hd'
    simp [hbox]

/-- A reply that names the undecided request's id decides it: its entry leaves the book and
the reply is queued for its slot. -/
theorem Tracked.replied (hS : Shape x w) (h : Tracked x w k) (hd : k.decision = none) (m : Json) :
    Tracked x ((w.dropEntry x k.id).settleEntry (k.entry (w.execAt x).inbox) (.ok m))
      { k with decision := some (.ok m) } := by
  have h₁ := h.toHeld.decide hS.machine hd (.ok m) (fun b => { b with entries := b.entries.filter (·.id != k.id) })
    (fun c hc => by simpa using hc) rfl
  have hS₁ := hS.dropEntry k.id
  have hi : ((w.dropEntry x k.id).execAt x).inbox = (w.execAt x).inbox := by simp [World.execAt_dropEntry, hS.machine]
  rw [World.settleEntry_of_open _ (by simpa [Ticket.entry] using hS.opened)]
  -- the context held no settlement for the undecided request's slot
  have hno : ∀ o', Errand.settleSlot k.slot o' ∉ (w.inboxAt (w.execAt x).inbox).queue := fun o' ho' => by
    rw [h.queue.queued o' ho'] at hd
    cases hd
  have := Tracked.queueDecision hS₁ h₁ (o := .ok m) rfl (by rw [hi]; exact hno)
  rw [hi] at this
  exact this

/-- The book emptied, and every command on it failed with `f`: an undecided request, whose own
entry is among them, is decided by the failure. -/
theorem Held.failEntries (hS : Shape x w) (h : Held x w k) {f : Fault} (hd : k.decision = some (.error f))
    (cs : List PendingEntry)
    (hc : ∀ c ∈ cs, c.owner = (w.execAt x).inbox ∧ c.slot < w.slots.size ∧
      (c.slot = k.slot → c = k.entry (w.execAt x).inbox))
    (hq : ∀ o, Errand.settleSlot k.slot o ∈ (w.inboxAt (w.execAt x).inbox).queue → o = .error f)
    (hmem : k.entry (w.execAt x).inbox ∈ cs ∨
      Errand.settleSlot k.slot (.error f) ∈ (w.inboxAt (w.execAt x).inbox).queue) :
    Tracked x (cs.foldl (fun w c => w.settleEntry c (.error f)) w) k := by
  induction cs generalizing w with
  | nil =>
    refine ⟨h, fun o ho => by rw [hd, hq o ho], fun o hd' _ => ?_⟩
    rw [hd] at hd'
    cases hd'
    exact hmem.resolve_left List.not_mem_nil
  | cons c cs ih =>
    obtain ⟨h1, h2, h3⟩ := hc c List.mem_cons_self
    rw [List.foldl_cons, World.settleEntry_of_open w (by rw [h1]; exact hS.opened), h1]
    have hbox : (w.enqueue (w.execAt x).inbox (.settleSlot c.slot (.error f))).inboxAt (w.execAt x).inbox =
        { w.inboxAt (w.execAt x).inbox with
          queue := (w.inboxAt (w.execAt x).inbox).queue ++ [.settleSlot c.slot (.error f)], scheduled := true } := by
      rw [World.inboxAt_enqueue, if_pos ⟨rfl, hS.context⟩]
    refine ih (hS.enqueue h2 _) (h.enqueue _ _) (fun c' hc' => by simpa using hc c' (List.mem_cons_of_mem _ hc'))
      (fun o ho => ?_) ?_
    · simp only [World.execAt_enqueue, hbox, List.mem_append, List.mem_singleton, Errand.settleSlot.injEq] at ho
      rcases ho with ho | ⟨-, rfl⟩
      · exact hq o ho
      · rfl
    · simp only [World.execAt_enqueue, hbox, List.mem_append, List.mem_singleton]
      rcases hmem with hmem | hmem
      · rcases List.mem_cons.1 hmem with he | hmem
        · -- the request's own entry fails now: its failure is queued for its slot
          rw [← he]
          exact .inr (.inr rfl)
        · exact .inl hmem
      · exact .inr (.inl hmem)

/-- Commands of the machine's context failed one after another, none of them the request's. -/
theorem Tracked.settleEntries (hS : Shape x w) (h : Tracked x w k) (f : Fault) (cs : List PendingEntry)
    (hc : ∀ c ∈ cs, c.owner = (w.execAt x).inbox ∧ c.slot < w.slots.size ∧ c.slot ≠ k.slot) :
    Tracked x (cs.foldl (fun w c => w.settleEntry c (.error f)) w) k := by
  induction cs generalizing w with
  | nil => exact h
  | cons c cs ih =>
    obtain ⟨h1, h2, h3⟩ := hc c List.mem_cons_self
    refine ih (hS.settleEntry h1 h2 _) (h.settleEntry hS h1 h3 _) fun c' hc' => ?_
    rw [World.execAt_execs x (World.settleEntry_execs _ _), World.settleEntry_slots_size]
    exact hc c' (List.mem_cons_of_mem _ hc')

/-- The book emptied, and every command on it failed with `f`: the request, if still
undecided, is decided by the failure. -/
theorem Tracked.failBook (hS : Shape x w) (h : Tracked x w k) (f : Fault) :
    Tracked x ((w.execAt x).book.entries.foldl (fun w e => w.settleEntry e (.error f))
      (w.withExec x fun e => { e with book := { e.book with entries := [] } }))
      (if k.decision = none then { k with decision := some (.error f) } else k) := by
  have hS₁ := hS.withBook (fun b => { b with entries := [] }) (fun _ hc => absurd hc List.not_mem_nil)
  split
  · rename_i hd
    refine (h.toHeld.decide hS.machine hd (.error f) (fun b => { b with entries := [] })
      (fun _ hc => absurd hc List.not_mem_nil) rfl).failEntries hS₁ rfl _ (fun c hc => ?_) (fun o ho => ?_) (.inl ?_)
    · obtain ⟨h2, h3⟩ := hS.entries c hc
      refine ⟨by simpa [hS.machine] using h2, by simpa using h3, fun hs => ?_⟩
      simpa [hS.machine, Ticket.entry] using (h.owns c hc (.inr hs)).1
    · -- the context held no settlement for the undecided request's slot
      rw [h.queue.queued o (by simpa [hS.machine] using ho)] at hd
      cases hd
    · simpa [hS.machine, Ticket.entry] using h.booked hd
  · rename_i hd
    refine (h.withBook hS.machine (fun b => { b with entries := [] }) (fun _ hc => absurd hc List.not_mem_nil)
      (fun hd' => absurd hd' hd) rfl).settleEntries hS₁ f _ fun c hc => ?_
    obtain ⟨h2, h3⟩ := hS.entries c hc
    exact ⟨by simpa [hS.machine] using h2, by simpa using h3, fun hs => hd (h.owns c hc (.inr hs)).2⟩

end Decide

/-! ## What a request's slot and wait hear -/

section Hear

variable {x : Nat} {w w' : World} {k : Ticket}

/-- A slot given its outcome loses its waiters, and no other slot gains one. -/
theorem mem_fillSlot_waiters {s j : Nat} {o : Except Fault Json} {wt : Waiter}
    (hw : wt ∈ ((w.fillSlot s o).slotAt j).waiters) : wt ∈ (w.slotAt j).waiters := by
  by_cases hp : (w.slotAt s).state = .pending
  case neg => rwa [Act.fillSlot_settled w o hp] at hw
  by_cases hj : s = j ∧ j < w.slots.size
  · obtain ⟨rfl, hj⟩ := hj
    simp [World.fillSlot, hp, hj] at hw
  · simpa [World.fillSlot, hp, hj] using hw

/-- Another slot is given its outcome: its waiters, none of which holds the request's promise,
its wait's or its deadline, hear it. -/
theorem Held.fillOther (hS : Shape x w) (h : Held x w k) {s : Nat} (hs : s ≠ k.slot) (o : Except Fault Json) :
    Held x (w.fillSlot s o) k := by
  by_cases hp : (w.slotAt s).state = .pending
  case neg => rwa [Act.fillSlot_settled w o hp]
  have hl := World.fillSlot_loop_of_pending s o hp
  refine h.frame (by simp) (fun _ _ => by simp) (by simp) (World.slotAt_fillSlot_of_ne s o (Ne.symm hs)) (by simp)
    (fun t ht => ?_) (by simp [hl]) (fun wt hw _ => ?_) ?_
  · rw [hl, Loop.mem_release_timers]
    exact ⟨fun h' => h'.1, fun h' => ⟨h', fun wt hwt => ht ▸ h.mine wt (.inr ⟨s, hs, hwt⟩)⟩⟩
  · simp only [World.execAt_fillSlot] at hw
    rcases hw with hw | ⟨j, hj, hw⟩
    · exact .inl hw
    · exact .inr ⟨j, hj, mem_fillSlot_waiters hw⟩
  · rw [hl]
    exact h.awaits.release _ _ fun wt hwt => h.apart hS (.inr ⟨s, hs, hwt⟩)

/-- The request's slot is given its decision: its wait, if it still waits, hears it and its
deadline goes; the promise follows. -/
theorem Held.fillOwn (h : Held x w k) {o : Except Fault Json} (hd : k.decision = some o) :
    Held x (w.fillSlot k.slot o) k := by
  by_cases hp : (w.slotAt k.slot).state = .pending
  case neg => rwa [Act.fillSlot_settled w o hp]
  have hslot : (w.fillSlot k.slot o).slotAt k.slot = ⟨SlotState.ofResult o, []⟩ :=
    World.slotAt_fillSlot_self k.slot o h.slot_lt hp
  have hw' : k.waits (SlotState.ofResult o) = false := by simp [Ticket.waits]
  -- the release is of the wait alone while it waits, and of nobody once its deadline ran out
  have hl : (w.fillSlot k.slot o).loop =
      if k.expired then w.loop else (w.loop.cancel k.timer).settle (k.promise + 1) (o.map Val.json) := by
    rw [World.fillSlot_loop_of_pending k.slot o hp, h.waiters]
    cases hk : k.expired <;> simp [Ticket.waits, Ticket.wait, hk, hp, SlotState.outcome?]
  have hgone : ∀ t ∈ (w.fillSlot k.slot o).loop.timers, t.id ≠ k.timer := by
    intro t ht hid
    rw [hl] at ht
    split at ht
    · have hw : k.waits (w.slotAt k.slot).state = false := by simp [Ticket.waits, *]
      rw [← Bool.not_eq_true, ← h.armed] at hw
      exact hw ⟨t, ht, hid⟩
    · simp [Loop.cancel, hid] at ht
  refine ⟨by simpa using h.below, by simpa using h.slot_lt, by rw [hl]; split <;> simpa [Loop.cancel] using h.timer_lt,
    (fun hd' => by rw [hd] at hd'; cases hd'), (fun c hc hr => by simpa using h.owns c (by simpa using hc) hr),
    .inr ⟨o, hd, by rw [hslot]⟩, (by rw [hslot]; simp [hw']),
    ⟨by rintro ⟨t, ht, hid⟩; exact absurd hid (hgone t ht), fun hc => by rw [hslot, hw'] at hc; cases hc⟩,
    fun t ht hid => absurd hid (hgone t ht), fun wt hw => ?_, ?_⟩
  · simp only [World.execAt_fillSlot] at hw
    rcases hw with hw | ⟨j, hj, hw⟩
    · exact h.mine wt (.inl hw)
    · exact h.mine wt (.inr ⟨j, hj, mem_fillSlot_waiters hw⟩)
  · rw [hl, hslot]
    cases hk : k.expired
    · -- the wait still waited: it hears the decision now
      rw [if_neg Bool.false_ne_true]
      have h0 : k.heard (w.slotAt k.slot).state = none := by simp [Ticket.heard, hk, hp, SlotState.outcome?]
      have hc : (w.loop.cancel k.timer).Awaits k.promise k.command none := (h0 ▸ h.awaits).of_eq rfl rfl
      have h1 : k.heard (SlotState.ofResult o) = some (o.map Val.json) := by simp [Ticket.heard, hk]
      rw [h1]
      exact hc.settleWait _
    · -- the wait heard its timeout already
      rw [if_pos rfl]
      have he : k.heard (SlotState.ofResult o) = k.heard (w.slotAt k.slot).state := by simp [Ticket.heard, hk]
      rw [he]
      exact h.awaits

/-- The settlements a drain runs, in order: another slot's leaves the request alone, and its
own is its decision. -/
theorem Held.settleQueued (hS : Shape x w) (h : Held x w k) (xs : List Errand)
    (hq : ∀ o, Errand.settleSlot k.slot o ∈ xs → k.decision = some o) : Held x (w.settleQueued xs) k := by
  induction xs generalizing w with
  | nil => exact h
  | cons e xs ih =>
    have hq' : ∀ o, Errand.settleSlot k.slot o ∈ xs → k.decision = some o :=
      fun o ho => hq o (List.mem_cons_of_mem _ ho)
    cases e with
    | settleSlot s o =>
      rcases eq_or_ne s k.slot with rfl | hs
      · exact ih (hS.fillSlot _ o) (h.fillOwn (hq o List.mem_cons_self)) hq'
      · exact ih (hS.fillSlot s o) (h.fillOther hS hs o) hq'
    | _ => exact ih hS h hq'

/-- The turn that drains the machine's context: the settlements queued there run, the request's
decision among them if it is owed, and the queue is left empty. -/
theorem Tracked.drain (hS : Shape x w) (h : Tracked x w k) {ts : List Turn}
    (ht : w.loop.turns = .drain (w.execAt x).inbox :: ts) :
    Tracked x ((w.setLoop { w.loop with turns := ts }).drained (w.execAt x).inbox) k := by
  unfold World.drained
  have h₀ : Held x ((w.setLoop { w.loop with turns := ts }).withInbox (w.execAt x).inbox fun b =>
      { b with scheduled := false, queue := [] }) k :=
    h.toHeld.frame rfl (fun _ _ => Iff.rfl) (.inl rfl) rfl (Nat.le_refl _) (fun _ _ => Iff.rfl) (Nat.le_refl _)
      (fun _ hw _ => hw) (h.awaits.of_eq rfl rfl)
  refine ⟨h₀.settleQueued (hS.cleared ht) _ h.queue.queued, fun o ho => ?_, fun o hd hp => ?_⟩
  · simp [hS.context] at ho
  · -- the decision was queued while the slot pended, or the slot had settled already
    exfalso
    by_cases hp₀ : (w.slotAt k.slot).state = .pending
    · refine World.settled_of_settleQueued _ (o := o) ?_ ?_ hp
      · exact h.queue.owed o hd hp₀
      · exact h.slot_lt
    · rw [World.slotAt_settleQueued_of_settled _ _ ?_] at hp
      · exact absurd hp hp₀
      · exact hp₀

/-- The request's deadline runs out while its wait still waits: the wait leaves its slot and
hears the timeout, which the promise follows. -/
theorem Tracked.expireOwn (h : Tracked x w k) {t : Timer Turn} (ht : t ∈ w.loop.timers) (hid : t.id = k.timer) :
    Tracked x (w.expire k.slot (k.promise + 1) t.id k.label k.deadline) { k with expired := true } := by
  have hw : k.waits (w.slotAt k.slot).state = true := h.armed.1 ⟨t, ht, hid⟩
  have hslot : (w.expire k.slot (k.promise + 1) t.id k.label k.deadline).slotAt k.slot =
      { w.slotAt k.slot with waiters := [] } := by
    simp [World.expire, h.slot_lt, h.waiters, hw, Ticket.wait]
  have hgone : ∀ t' ∈ (w.expire k.slot (k.promise + 1) t.id k.label k.deadline).loop.timers, t'.id ≠ k.timer := by
    intro t' ht' hid'
    simp [World.expire, Loop.cancel, hid, hid'] at ht'
  have hc : (w.loop.cancel t.id).Awaits k.promise k.command none := ((k.heard_eq_none).2 hw ▸ h.awaits).of_eq rfl rfl
  have hheard : ({ k with expired := true } : Ticket).heard
      ((w.expire k.slot (k.promise + 1) t.id k.label k.deadline).slotAt k.slot).state =
      some (.error (Act.slotTimeoutFault k.label k.deadline)) := by
    simp [Ticket.heard, Ticket.timeout, Ticket.label]
  refine ⟨⟨h.below, by simpa using h.slot_lt, by simpa [World.expire, Loop.cancel] using h.timer_lt, h.booked, h.owns,
    (by rw [hslot]; exact h.state), (by rw [hslot]; simp [Ticket.waits]),
    ⟨by rintro ⟨t', ht', hid'⟩; exact absurd hid' (hgone t' ht'), fun hc => by rw [hslot] at hc; simp [Ticket.waits] at hc⟩,
    fun t' ht' hid' => absurd hid' (hgone t' ht'), fun wt hw => ?_, by rw [hheard]; exact hc.settleWait _⟩,
    fun o ho => h.queue.queued o ho, fun o hd hp => h.queue.owed o hd (by rwa [hslot] at hp)⟩
  rcases hw with hw | ⟨s, hs, hw⟩
  · exact h.mine wt (.inl hw)
  · exact h.mine wt (.inr ⟨s, hs, by simpa [World.expire, Ne.symm hs] using hw⟩)

end Hear

/-! ## A request written -/

/-- The ticket of a request whose command goes out now on machine `x`: the next id, a new
slot, the loop's next promise and timer, and the request's deadline or the machine's. -/
def Ticket.issue (x : Nat) (w : World) (command : String) (timeout : Option Json) : Ticket :=
  ⟨(w.execAt x).book.nextId, command, w.slots.size, w.loop.cells.size, w.loop.nextTimer,
    (timeout.filter (!·.isNull)).getD (w.execAt x).timeout, none, false⟩

section Issue

variable {x : Nat} {w : World}

/-- A request whose command went out files its entry under the next id and counts the id on. -/
theorem execAt_requestWritten (hx : x < w.execs.size) (command : String) (args timeout : Option Json) :
    (w.requestWritten x command args timeout).execAt x = { w.execAt x with book :=
      ⟨PendingBook.put (w.nextEntry x command (w.execAt x).inbox) (w.execAt x).book.entries,
        (w.execAt x).book.nextId + 1⟩ } := by
  simp [World.requestWritten, World.execAt_register, hx, World.nextEntry]

/-- A request that writes its command, while no entry has the next id and the count is below
`2^53`, is tracked from then on: its entry is the book's last, its slot is new and pending with
its wait alone, and its deadline is armed. -/
theorem tracked_requestWritten (hS : Shape x w) (hfresh : ∀ c ∈ (w.execAt x).book.entries, c.id ≠ (w.execAt x).book.nextId)
    {n : Nat} (hn : (w.execAt x).book.nextId = Double.ofNat n) (hroom : n < 2 ^ 53) (command : String)
    (args timeout : Option Json) :
    Tracked x (w.requestWritten x command args timeout) (Ticket.issue x w command timeout) := by
  set k := Ticket.issue x w command timeout
  set w' := w.requestWritten x command args timeout
  have hk : k.id = (w.execAt x).book.nextId ∧ k.slot = w.slots.size ∧ k.promise = w.loop.cells.size ∧
      k.timer = w.loop.nextTimer ∧ k.decision = none ∧ k.expired = false := ⟨rfl, rfl, rfl, rfl, rfl, rfl⟩
  have he : w'.execAt x = { w.execAt x with book :=
      ⟨(w.execAt x).book.entries ++ [k.entry (w.execAt x).inbox], (w.execAt x).book.nextId + 1⟩ } := by
    rw [execAt_requestWritten hS.machine, PendingBook.put_of_fresh _ hfresh]
    rfl
  have hslot : w'.slotAt k.slot = ⟨.pending, [k.wait]⟩ := by
    simp [w', k, World.requestWritten, World.waitOn, World.slotAt_register, World.nextEntry, Ticket.wait, Ticket.issue,
      Loop.fresh]
  have hother : ∀ j ≠ k.slot, w'.slotAt j = w.slotAt j := by
    intro j hj
    simp [w', World.requestWritten, World.waitOn, World.slotAt_register, World.nextEntry, hk.2.1 ▸ hj,
      Ne.symm (hk.2.1 ▸ hj)]
  have htimers : w'.loop.timers = w.loop.timers ++
      [⟨k.timer, w.loop.now + max (Act.timerDelay k.deadline.toNumber) 1,
        .slotTimeout k.slot (k.promise + 1) k.label k.deadline⟩] := by
    simp [w', k, World.requestWritten, World.waitOn, Loop.after, Loop.fresh, Loop.await, Ticket.issue, Ticket.label,
      World.nextEntry]
  have hnext : w'.loop.nextTimer = w.loop.nextTimer + 1 := by
    simp [w', World.requestWritten, World.waitOn, Loop.after, Loop.fresh, Loop.await]
  have hawaits : w'.loop.Awaits k.promise k.command none := by
    have := Loop.Awaits.issue hS.replies (Act.timerDelay k.deadline.toNumber)
      (.slotTimeout k.slot (k.promise + 1) k.label k.deadline) command
    simpa [w', k, World.requestWritten, World.waitOn, World.nextEntry, Ticket.issue, Ticket.label] using this
  have hbox : w'.inboxAt (w.execAt x).inbox = w.inboxAt (w.execAt x).inbox := by
    simp [w', World.requestWritten]
  have hwaits : k.waits SlotState.pending = true := by simp [Ticket.waits, hk.2.2.2.2.2, SlotState.outcome?]
  -- every older entry, waiter and timer has an id, slot or deadline below the new ones
  have hold : ∀ c ∈ (w.execAt x).book.entries, c.id ≠ k.id ∧ c.slot ≠ k.slot := fun c hc =>
    ⟨hfresh c hc, hk.2.1 ▸ Nat.ne_of_lt (hS.entries c hc).2⟩
  have hstamp : ∀ wt, (wt ∈ (w.execAt x).stopWaiters ∨ ∃ s ≠ k.slot, wt ∈ (w.slotAt s).waiters) →
      wt.timer ≠ some k.timer := by
    rintro wt (hw | ⟨s, -, hw⟩) ht
    · exact Nat.lt_irrefl _ (hk.2.2.2.1 ▸ hS.stamps.2 wt hw k.timer ht)
    · exact Nat.lt_irrefl _ (hk.2.2.2.1 ▸ hS.stamps.1 s wt hw k.timer ht)
  -- the count moves on by one, below `2^53`
  have hbelow : k.Below (w'.execAt x).book.nextId := by
    rw [he]
    exact ⟨n, n + 1, hn, by rw [hn]; exact Double.ofNat_add_one_of_lt hroom, Nat.lt_succ_self n, hroom⟩
  refine ⟨⟨hbelow, by simp [w', k, World.requestWritten, Ticket.issue],
    by rw [hnext, hk.2.2.2.1]; exact Nat.lt_succ_self _, fun _ => by simp [he], fun c hc hr => ?_,
    by rw [hslot]; exact .inl rfl, by rw [hslot, if_pos hwaits], ?_, fun t ht hid => ?_, fun wt hw => ?_,
    by rw [hslot]; exact hawaits⟩, fun o ho => ?_, fun o hd => by rw [hk.2.2.2.2.1] at hd; cases hd⟩
  · -- only the new entry has the request's id or slot
    rw [he] at hc ⊢
    rcases List.mem_append.1 hc with hc | hc
    · exact absurd hr (not_or.2 (hold c hc))
    · exact ⟨List.mem_singleton.1 hc, hk.2.2.2.2.1⟩
  · rw [hslot, htimers]
    simp [hwaits]
  · rw [htimers] at ht
    rcases List.mem_append.1 ht with ht | ht
    · exact absurd hid (Nat.ne_of_lt (hk.2.2.2.1 ▸ (hS.timers t ht).1))
    · rw [List.mem_singleton.1 ht]
  · rw [he] at hw
    refine hstamp wt (hw.imp_right ?_)
    rintro ⟨s, hs, hw⟩
    refine ⟨s, hs, ?_⟩
    rwa [hother s hs] at hw
  · -- the context holds settlements of older slots only
    rw [he, hbox] at ho
    obtain ⟨s, o', he', hs⟩ := hS.errands _ ho
    simp only [Errand.settleSlot.injEq] at he'
    exact absurd (hk.2.1 ▸ he'.1) (Nat.ne_of_gt hs)

end Issue

/-! ## Every event -/

namespace Ticket

/-- What an event decides for a written request: a reply naming its id, or a shutdown, decides
it while it is undecided, and its deadline running out while its wait still waits makes it
expire. -/
def next (w : World) (k : Ticket) : Event → Ticket
  | .reply m => if Act.replyId m = some k.id ∧ k.decision = none then { k with decision := some (.ok m) } else k
  | .shutdown f => if k.decision = none then { k with decision := some (.error f) } else k
  | .expire id => if id = k.timer ∧ k.waits (w.slotAt k.slot).state = true then { k with expired := true } else k
  | _ => k

end Ticket

/-- Whether a request for `command` on machine `x` writes its command: the machine is live and
its sink is a recorder that keeps what it is given. -/
def writes (x : Nat) (w : World) (command : String) : Bool :=
  match Act.liveFault (w.execAt x).current command, (w.execAt x).sink with
  | none, some (.recorder none) => true
  | _, _ => false

/-- The request an event writes, if it is one that does. -/
def Event.issued (x : Nat) (w : World) : Event → List Ticket
  | .request command _ timeout => if writes x w command then [Ticket.issue x w command timeout] else []
  | _ => []

/-- A request whose command goes out. -/
theorem step_written {x : Nat} {w : World} (hS : Shape x w) {command : String} (hw : writes x w command = true)
    (args timeout : Option Json) : step x w (.request command args timeout) = w.requestWritten x command args timeout := by
  rw [step_request x w hS.machine hS.recording]
  unfold writes at hw
  split at hw
  · rename_i hl hs
    simp only [hl, hs]
  · cases hw

/-- The written requests after one event: each as the event decides it, then the one it writes. -/
def tickets (x : Nat) (w : World) (ks : List Ticket) (e : Event) : List Ticket :=
  ks.map (·.next w e) ++ e.issued x w

/-- The written requests of a run, in the order they were written, as its events decide them. -/
def ledger (x : Nat) : World → List Event → List Ticket → List Ticket
  | _, [], ks => ks
  | w, e :: es, ks => ledger x (step x w e) es (tickets x w ks e)

section Step

variable {x : Nat} {w : World} {k : Ticket}

/-- A machine that runs again keeps its context, its book and its stop waiters. -/
theorem Tracked.runAgain (hS : Shape x w) (h : Tracked x w k) : Tracked x (w.runAgain x) k :=
  h.withExec hS.machine _ rfl rfl fun _ hw _ => hw

/-- A reply: the request it names, if undecided, is decided by it; any other request is left
alone. -/
theorem tracked_reply (hS : Shape x w) (h : Tracked x w k) (m : Json) :
    Tracked x (step x w (.reply m)) (k.next w (.reply m)) := by
  rw [step_reply]
  simp only [Ticket.next]
  cases hn : Act.replyId m with
  | none => simpa using h
  | some n =>
    simp only [Option.some.injEq]
    cases hf : (w.execAt x).book.entries.find? (·.id == n) with
    | none =>
      -- no entry has the id: the request it names, if any, is decided already
      have hd : n = k.id → k.decision ≠ none := fun he hd => by
        have := List.find?_eq_none.1 hf _ (h.booked hd)
        simp [Ticket.entry, he] at this
      by_cases hk : n = k.id ∧ k.decision = none
      · exact absurd hk.2 (hd hk.1)
      · simpa [hk] using h
    | some c =>
      have hc := List.mem_of_find?_eq_some hf
      have hcn : c.id = n := by simpa using List.find?_some hf
      obtain ⟨hown, hslot⟩ := hS.entries c hc
      by_cases hk : n = k.id ∧ k.decision = none
      · -- the entry found is the request's own
        obtain ⟨rfl, hd⟩ := hk
        obtain ⟨rfl, -⟩ := h.owns c hc (.inl hcn)
        simpa [hd] using h.replied hS hd m
      · simp only [hk, if_false]
        have hne : n ≠ k.id ∨ k.decision ≠ none := by
          by_cases hn' : n = k.id
          · exact .inr fun hd => hk ⟨hn', hd⟩
          · exact .inl hn'
        have hcs : c.slot ≠ k.slot := fun he => by
          obtain ⟨rfl, hd⟩ := h.owns c hc (.inr he)
          exact hk ⟨hcn.symm, hd⟩
        exact (h.dropEntry hS.machine n hne).settleEntry (hS.dropEntry n)
          (by simpa [World.execAt_dropEntry, hS.machine] using hown) hcs _

/-- A timer runs out: the request's own deadline makes it expire while its wait still waits,
and any other leaves it alone. -/
theorem tracked_expire (hS : Shape x w) (h : Tracked x w k) (id : Nat) :
    Tracked x (step x w (.expire id)) (k.next w (.expire id)) := by
  simp only [Ticket.next]
  cases hf : w.loop.timers.find? (·.id == id) with
  | none =>
    rw [step_expire_none x w hf]
    -- no timer has the id, so the request's deadline is not armed
    have hw : id = k.timer → k.waits (w.slotAt k.slot).state = false := fun he => by
      rw [← Bool.not_eq_true, ← h.armed]
      rintro ⟨t, ht, hid⟩
      have := List.find?_eq_none.1 hf t ht
      simp [hid, he] at this
    by_cases hk : id = k.timer ∧ k.waits (w.slotAt k.slot).state = true
    · exact absurd hk.2 (by simp [hw hk.1])
    · simpa [hk] using h
  | some t =>
    have ht := List.mem_of_find?_eq_some hf
    have hid : t.id = id := by simpa using List.find?_some hf
    obtain ⟨-, ⟨s, q, label, ms, htask, -⟩ | ⟨q, ms, htask, -⟩⟩ := hS.timers t ht
    · rw [step_expire_slot x w hf htask, ← hid]
      by_cases hk : t.id = k.timer
      · -- the request's own deadline: it is armed, so its wait still waits
        have hw : k.waits (w.slotAt k.slot).state = true := h.armed.1 ⟨t, ht, hk⟩
        have htask' := h.task t ht hk
        rw [htask] at htask'
        simp only [Turn.slotTimeout.injEq] at htask'
        obtain ⟨rfl, rfl, rfl, rfl⟩ := htask'
        simpa [hk, hw] using h.expireOwn ht hk
      · simpa [hk] using h.expireOther hS ht htask hk
    · rw [step_expire_stop x w hf htask, ← hid]
      have hk : t.id ≠ k.timer := fun he => by
        have := h.task t ht he
        rw [htask] at this
        cases this
      simpa [hk] using h.stopExpired hS ht htask

/-- Every event keeps every written request tracked, as the event decides it. -/
theorem tracked_step (hS : Shape x w) (h : Tracked x w k) (e : Event) : Tracked x (step x w e) (k.next w e) := by
  cases e with
  | attach r => exact h.withExec hS.machine _ rfl rfl fun _ hw _ => hw
  | start =>
    rw [step_start]
    split
    · exact h.withExec hS.machine _ rfl rfl fun _ hw _ => hw
    · exact h
  | resume t =>
    rw [step_resume x w hS.recording]
    cases Act.liveFault (w.execAt x).current "continue" with
    | some f => exact h.done _
    | none =>
      by_cases hs : (w.execAt x).current.isStopped = true
      · simp only [hs, if_true]
        cases Act.writeFault (w.execAt x).sink with
        | some f => exact (h.runAgain hS).done _
        | none => exact ((h.runAgain hS).note _).done _
      · simp only [hs, if_false, Bool.false_eq_true]
        exact h.done _
  | step kind t extra =>
    rw [step_step x w hS.recording]
    cases Act.liveFault (w.execAt x).current kind with
    | some f => exact h.done _
    | none =>
      by_cases hs : (w.execAt x).current.isStopped = true
      · simp only [hs, if_true]
        cases Act.writeFault (w.execAt x).sink with
        | some f => exact (h.runAgain hS).done _
        | none => exact ((h.runAgain hS).note _).done _
      · simp only [hs, if_false, Bool.false_eq_true]
        exact (h.log _).done _
  | pause t =>
    rw [step_pause x w hS.recording]
    cases Act.liveFault (w.execAt x).current "pause" with
    | some f => exact h.done _
    | none =>
      by_cases hs : (w.execAt x).current.isStopped = true
      · simp only [hs, if_true]
        exact h.done _
      · simp only [hs, if_false, Bool.false_eq_true]
        cases Act.writeFault (w.execAt x).sink with
        | some f => exact h.done _
        | none => exact (h.note _).done _
  | request command args timeout =>
    rw [step_request x w hS.machine hS.recording]
    cases Act.liveFault (w.execAt x).current command with
    | some f => exact h.done _
    | none =>
      simp only
      split
      · exact h.done _
      · exact h.requestRefused hS command
      · exact h.requestWritten hS command args timeout
  | reply m => exact tracked_reply hS h m
  | stopped reason threadId description =>
    rw [step_stopped x w hS.observed]
    split
    · exact h.log _
    · exact h.acceptStop hS _ _
  | waitForStop timeout =>
    rw [step_waitForStop]
    cases (w.execAt x).current with
    | notStarted => exact h.stopWait hS timeout
    | running => exact h.stopWait hS timeout
    | stopped r t d => exact h.done _
    | terminated => exact h.done _
  | terminate =>
    rw [step_terminate x w hS.observed]
    exact h.terminate hS
  | shutdown f =>
    rw [step_shutdown x w hS.observed]
    have hS₁ := hS.terminate
    have h₁ := (h.terminate hS).withExec hS₁.machine (fun e => { e with sink := none }) rfl rfl fun _ hw _ => hw
    exact h₁.failBook hS₁.withoutSink f
  | expire id => exact tracked_expire hS h id
  | turn =>
    have ht := hS.turns
    cases hsch : (w.inboxAt (w.execAt x).inbox).scheduled
    · rw [step_turn_idle x w (by simpa [hsch] using ht)]
      exact h
    · simp only [hsch, if_true] at ht
      rw [step_turn x w ht (fun e he => by obtain ⟨s, o, rfl, -⟩ := hS.errands e he; exact ⟨s, o, rfl⟩) hS.opened]
      exact h.drain hS ht
  | job =>
    cases hj : w.loop.jobs with
    | nil =>
      rw [step_job_idle x w hS.replies.ticks hj]
      exact h
    | cons j js =>
      obtain ⟨p, c, o, rfl, -⟩ := hS.replies.jobs j (by simp [hj])
      rw [step_job x w hS.replies.ticks hj]
      exact h.job hS hj

/-- The request an event writes, while no entry has the next id and the count is below `2^53`,
is tracked from then on. -/
theorem issued_step (hS : Shape x w) (hfresh : ∀ c ∈ (w.execAt x).book.entries, c.id ≠ (w.execAt x).book.nextId)
    {n : Nat} (hn : (w.execAt x).book.nextId = Double.ofNat n) (hroom : n < 2 ^ 53) (e : Event) :
    ∀ k ∈ e.issued x w, Tracked x (step x w e) k := by
  cases e with
  | request command args timeout =>
    intro k hk
    simp only [Event.issued] at hk
    split at hk
    · rename_i hw
      rw [List.mem_singleton.1 hk, step_written hS hw]
      exact tracked_requestWritten hS hfresh hn hroom command args timeout
    · cases hk
  | _ => intro k hk; cases hk

/-- Whether an event is a request, the one kind that counts out ids. -/
def Event.isRequest : Event → Bool
  | .request .. => true
  | _ => false

/-- The book after an event: a request that writes its command files its entry under the next
id, one that its sink refuses drops the entries with that id, a reply drops the entries with the
id it names, a shutdown empties the book, and nothing else changes it. -/
def Event.bookAfter (x : Nat) (w : World) : Event → List PendingEntry
  | .request command _ _ =>
    match Act.liveFault (w.execAt x).current command, (w.execAt x).sink with
    | none, some (.recorder none) => PendingBook.put (w.nextEntry x command (w.execAt x).inbox) (w.execAt x).book.entries
    | none, some (.recorder (some _)) => (w.execAt x).book.entries.filter (·.id != (w.execAt x).book.nextId)
    | _, _ => (w.execAt x).book.entries
  | .reply m => (w.execAt x).book.entries.filter fun c => Act.replyId m != some c.id
  | .shutdown _ => []
  | _ => (w.execAt x).book.entries

/-- The machine's record after an event keeps its context, its book is `bookAfter`, and only a
request counts its next id on. -/
theorem book_step (hS : Shape x w) (e : Event) :
    ((step x w e).execAt x).inbox = (w.execAt x).inbox ∧ ((step x w e).execAt x).book.entries = e.bookAfter x w ∧
    (((step x w e).execAt x).book.nextId = (w.execAt x).book.nextId ∨
      e.isRequest = true ∧ ((step x w e).execAt x).book.nextId = (w.execAt x).book.nextId + 1) := by
  have hx := hS.machine
  cases e with
  | attach r => simp [Event.bookAfter, step_attach, hx]
  | start =>
    rw [step_start]
    split <;> simp [Event.bookAfter, hx]
  | resume t =>
    rw [step_resume x w hS.recording]
    cases Act.liveFault (w.execAt x).current "continue" with
    | some f => simp [Event.bookAfter, World.done]
    | none =>
      by_cases hs : (w.execAt x).current.isStopped = true
      · simp only [hs, if_true]
        cases Act.writeFault (w.execAt x).sink <;> simp [Event.bookAfter, World.done, World.runAgain, hx]
      · simp [Event.bookAfter, hs, World.done]
  | step kind t extra =>
    rw [step_step x w hS.recording]
    cases Act.liveFault (w.execAt x).current kind with
    | some f => simp [Event.bookAfter, World.done]
    | none =>
      by_cases hs : (w.execAt x).current.isStopped = true
      · simp only [hs, if_true]
        cases Act.writeFault (w.execAt x).sink <;> simp [Event.bookAfter, World.done, World.runAgain, hx]
      · simp [Event.bookAfter, hs, World.done]
  | pause t =>
    rw [step_pause x w hS.recording]
    cases Act.liveFault (w.execAt x).current "pause" with
    | some f => simp [Event.bookAfter, World.done]
    | none =>
      by_cases hs : (w.execAt x).current.isStopped = true
      · simp [Event.bookAfter, hs, World.done]
      · simp only [hs, if_false, Bool.false_eq_true]
        cases Act.writeFault (w.execAt x).sink <;> simp [Event.bookAfter, World.done]
  | request command args timeout =>
    rw [step_request x w hx hS.recording]
    cases hl : Act.liveFault (w.execAt x).current command with
    | some f => simp [Event.bookAfter, hl, World.done]
    | none =>
      obtain ⟨r, hr⟩ | hs : (∃ r, (w.execAt x).sink = some (.recorder r)) ∨ (w.execAt x).sink = none := by
        cases hs : (w.execAt x).sink with
        | none => exact .inr rfl
        | some s =>
          obtain ⟨r, rfl⟩ := hS.recording s hs
          exact .inl ⟨r, rfl⟩
      · cases r with
        | none =>
          simp [hr, hl, Event.bookAfter, Event.isRequest, World.requestWritten, World.execAt_register, hx,
            World.nextEntry]
        | some r =>
          -- the refused command's entry leaves at once, with any it replaced
          simp [hr, hl, Event.bookAfter, Event.isRequest, World.requestRefused,
            World.execAt_execs x (World.settleEntry_execs _ _), World.execAt_dropEntry, World.execAt_register, hx,
            World.nextEntry]
          exact PendingBook.filter_put (w.nextEntry x command (w.execAt x).inbox) _
      · simp [hs, hl, Event.bookAfter, World.done]
  | reply m =>
    rw [step_reply]
    cases hn : Act.replyId m with
    | none =>
      refine ⟨rfl, ?_, .inl rfl⟩
      simp only [Event.bookAfter, hn]
      exact (List.filter_eq_self.2 fun _ _ => rfl).symm
    | some n =>
      simp only [Event.bookAfter, hn]
      cases hf : (w.execAt x).book.entries.find? (·.id == n) with
      | none =>
        -- no entry has the id, so none is dropped
        have hkeep : ∀ c ∈ (w.execAt x).book.entries, (some n != some c.id) = true := fun c hc => by
          have := List.find?_eq_none.1 hf c hc
          simp only [beq_iff_eq] at this
          simpa using Ne.symm this
        exact ⟨rfl, (List.filter_eq_self.2 hkeep).symm, .inl rfl⟩
      | some c =>
        have hb : ((w.dropEntry x n).settleEntry c (.ok m)).execAt x = { w.execAt x with book :=
            { (w.execAt x).book with entries := (w.execAt x).book.entries.filter (·.id != n) } } := by
          rw [World.execAt_execs x (World.settleEntry_execs _ _), World.execAt_dropEntry, if_pos ⟨rfl, hx⟩]
        dsimp only
        rw [hb]
        exact ⟨rfl, List.filter_congr fun c _ => by simp [bne, Bool.beq_comm], .inl rfl⟩
  | stopped reason threadId description =>
    rw [step_stopped x w hS.observed]
    split <;> simp [Event.bookAfter, World.acceptStop, hx]
  | waitForStop timeout =>
    rw [step_waitForStop]
    cases (w.execAt x).current <;> simp [Event.bookAfter, World.done, World.stopWait, hx]
  | terminate =>
    rw [step_terminate x w hS.observed]
    unfold World.terminate
    split <;> simp [Event.bookAfter, hx]
  | shutdown f =>
    rw [step_shutdown x w hS.observed, World.execAt_execs x (Settlement.settleEntries_execs _ _)]
    unfold World.terminate
    split <;> simp [Event.bookAfter, hx]
  | expire id =>
    cases hf : w.loop.timers.find? (·.id == id) with
    | none => simp [Event.bookAfter, step_expire_none x w hf]
    | some t =>
      obtain ⟨-, ⟨s, q, label, ms, htask, -⟩ | ⟨q, ms, htask, -⟩⟩ := hS.timers t (List.mem_of_find?_eq_some hf)
      · simp [Event.bookAfter, step_expire_slot x w hf htask]
      · simp [Event.bookAfter, step_expire_stop x w hf htask, World.stopExpired, hx]
  | turn =>
    have ht := hS.turns
    cases hsch : (w.inboxAt (w.execAt x).inbox).scheduled
    · simp [Event.bookAfter, step_turn_idle x w (by simpa [hsch] using ht)]
    · simp only [hsch, if_true] at ht
      rw [step_turn x w ht (fun e he => by obtain ⟨s, o, rfl, -⟩ := hS.errands e he; exact ⟨s, o, rfl⟩) hS.opened]
      simp [Event.bookAfter, World.drained]
  | job =>
    cases hj : w.loop.jobs with
    | nil => simp [Event.bookAfter, step_job_idle x w hS.replies.ticks hj]
    | cons j js =>
      obtain ⟨p, c, o, rfl, -⟩ := hS.replies.jobs j (by simp [hj])
      simp [Event.bookAfter, step_job x w hS.replies.ticks hj]

end Step

/-! ## The ledger of a run -/

section Ledger

variable {x : Nat} {w : World} {ks : List Ticket}

/-- An event changes neither a request's id, command and slot nor so its entry. -/
@[simp] theorem Ticket.entry_next (w : World) (k : Ticket) (e : Event) (i : Nat) : (k.next w e).entry i = k.entry i := by
  cases e <;> simp only [Ticket.next] <;> split_ifs <;> rfl

/-- Whether an event leaves a request as decided as it was: a reply decides the request whose id
it names, a shutdown every request, and nothing else any. -/
def Event.spares (k : Ticket) : Event → Bool
  | .reply m => Act.replyId m != some k.id
  | .shutdown _ => false
  | _ => true

theorem Ticket.isNone_next (w : World) (k : Ticket) (e : Event) :
    (k.next w e).decision.isNone = (k.decision.isNone && e.spares k) := by
  cases e with
  | reply m =>
    simp only [Ticket.next, Event.spares]
    by_cases hr : Act.replyId m = some k.id <;> cases hd : k.decision <;> simp [hr, hd]
  | shutdown f =>
    simp only [Ticket.next, Event.spares]
    cases hd : k.decision <;> simp [hd]
  | expire id =>
    simp only [Ticket.next, Event.spares, Bool.and_true]
    split_ifs <;> rfl
  | _ => simp [Ticket.next, Event.spares]

/-- The entries of the requests an event leaves undecided. -/
theorem entries_next (w : World) (ks : List Ticket) (e : Event) (i : Nat) :
    ((ks.map (·.next w e)).filter (·.decision.isNone)).map (·.entry i) =
      ((ks.filter (·.decision.isNone)).filter e.spares).map (·.entry i) := by
  induction ks with
  | nil => rfl
  | cons k ks ih =>
    simp only [List.map_cons, List.filter_cons, Ticket.isNone_next]
    cases hd : k.decision.isNone <;> cases hs : e.spares k <;>
      simp only [hs, Bool.and_true, Bool.and_false, Bool.false_eq_true, ↓reduceIte, List.filter_cons, List.map_cons,
        Ticket.entry_next, ih]

/-- The written requests of a run as its machine holds them: each is tracked, and the book holds
exactly the undecided ones, in the order they were written. -/
structure Ledger (x : Nat) (w : World) (ks : List Ticket) : Prop where
  tracked : ∀ k ∈ ks, Tracked x w k
  book : (w.execAt x).book.entries = (ks.filter (·.decision.isNone)).map (·.entry (w.execAt x).inbox)

/-- No entry has the next id: every entry is an undecided request's, whose id is below it. -/
theorem Ledger.fresh (h : Ledger x w ks) : ∀ c ∈ (w.execAt x).book.entries, c.id ≠ (w.execAt x).book.nextId := by
  intro c hc
  rw [h.book] at hc
  obtain ⟨k, hk, rfl⟩ := List.mem_map.1 hc
  exact (h.tracked k (List.mem_filter.1 hk).1).below.ne

/-- Every event keeps the ledger, a request while the count is below `2^53`. -/
theorem ledger_step (hS : Shape x w) (h : Ledger x w ks) {n : Nat} (hn : (w.execAt x).book.nextId = Double.ofNat n)
    (e : Event) (hroom : e.isRequest = true → n < 2 ^ 53) : Ledger x (step x w e) (tickets x w ks e) := by
  obtain ⟨hi, hb, -⟩ := book_step hS e
  have hfresh := h.fresh
  refine ⟨fun k hk => ?_, ?_⟩
  · rcases List.mem_append.1 hk with hk | hk
    · obtain ⟨k', hk', rfl⟩ := List.mem_map.1 hk
      exact tracked_step hS (h.tracked k' hk') e
    · cases e with
      | request command args timeout => exact issued_step hS hfresh hn (hroom rfl) _ k hk
      | _ => cases hk
  · rw [hb, hi, tickets, List.filter_append, List.map_append, entries_next]
    cases e with
    | request command args timeout =>
      -- the next id is fresh: filed at the end, and dropped from nowhere
      have hput := PendingBook.put_of_fresh (w.nextEntry x command (w.execAt x).inbox) hfresh
      have hkeep : (w.execAt x).book.entries.filter (·.id != (w.execAt x).book.nextId) = (w.execAt x).book.entries :=
        List.filter_eq_self.2 fun c hc => by simpa using hfresh c hc
      simp only [Event.bookAfter, Event.issued, Event.spares, List.filter_true]
      split
      · rename_i hl hs
        rw [hput, h.book, if_pos (by simp [writes, hl, hs])]
        rfl
      · rename_i hl hs
        rw [hkeep, h.book, if_neg (by simp [writes, hl, hs])]
        simp
      · rename_i hnone _
        have hw : writes x w command = false := by
          unfold writes
          split
          · rename_i hl hs
            exact absurd hs (hnone hl)
          · rfl
        rw [h.book, if_neg (by simp [hw])]
        simp
    | reply m =>
      simp only [Event.bookAfter, Event.issued, Event.spares, h.book, List.filter_map, List.filter_nil, List.map_nil,
        List.append_nil]
      rfl
    | shutdown f => simp [Event.bookAfter, Event.issued, Event.spares]
    | _ => simp [Event.bookAfter, Event.issued, Event.spares, h.book]

/-- A run from a world whose ledger holds keeps it, with the run's ledger, while its requests
keep the count within `2^53`. -/
theorem ledger_run (hS : Shape x w) (h : Ledger x w ks) {n : Nat} (hn : (w.execAt x).book.nextId = Double.ofNat n)
    (es : List Event) (hroom : n + es.countP Event.isRequest ≤ 2 ^ 53) :
    Ledger x (run x w es) (ledger x w es ks) := by
  induction es generalizing w ks n with
  | nil => exact h
  | cons e es ih =>
    rw [List.countP_cons] at hroom
    have hstep : e.isRequest = true → n < 2 ^ 53 := fun hr => by
      simp only [hr, if_true] at hroom
      omega
    -- the count moves on by one at a request, and stays otherwise
    obtain ⟨n', hn', hle⟩ : ∃ n', ((step x w e).execAt x).book.nextId = Double.ofNat n' ∧
        n' + es.countP Event.isRequest ≤ 2 ^ 53 := by
      rcases (book_step hS e).2.2 with h' | ⟨hr, h'⟩
      · exact ⟨n, h'.trans hn, by split at hroom <;> omega⟩
      · exact ⟨n + 1, by rw [h', hn, Double.ofNat_add_one_of_lt (hstep hr)], by simp only [hr, if_true] at hroom; omega⟩
    exact ih (shape_step hS e) (ledger_step hS h hn e hstep) hn' hle

end Ledger

/-! ## Ids past `2^53` -/

section Limit

variable {x : Nat} {w : World}

/-- Past `2^53` the count of ids stays put: a request written then and the next one written
while it waits carry one id, and the book keeps only the later entry, which a reply naming the id
finds. The earlier request is off the book, where no reply and no shutdown reaches its slot. -/
theorem second_write_at_id_limit (hS : Shape x w) (hn : (w.execAt x).book.nextId = Double.ofNat (2 ^ 53))
    {command command' : String} (hw : writes x w command = true) (hw' : writes x w command' = true)
    (args timeout args' timeout' : Option Json) :
    let w₁ := step x w (.request command args timeout)
    let w₂ := step x w₁ (.request command' args' timeout')
    w.nextEntry x command (w.execAt x).inbox ∉ (w₂.execAt x).book.entries ∧
      (w₂.execAt x).book.entries.find? (·.id == Double.ofNat (2 ^ 53)) =
        some (w₁.nextEntry x command' (w.execAt x).inbox) := by
  intro w₁ w₂
  have he₁ : w₁.execAt x = { w.execAt x with book :=
      ⟨PendingBook.put (w.nextEntry x command (w.execAt x).inbox) (w.execAt x).book.entries,
        (w.execAt x).book.nextId + 1⟩ } := by
    show (step x w (.request command args timeout)).execAt x = _
    rw [step_written hS hw, execAt_requestWritten hS.machine]
  have hS₁ : Shape x w₁ := shape_step hS _
  -- the second request writes too: the first changed neither the state nor the sink
  have hw₁ : writes x w₁ command' = true := by
    unfold writes at hw' ⊢
    rw [he₁]
    exact hw'
  have he₂ : w₂.execAt x = { w₁.execAt x with book :=
      ⟨PendingBook.put (w₁.nextEntry x command' (w₁.execAt x).inbox) (w₁.execAt x).book.entries,
        (w₁.execAt x).book.nextId + 1⟩ } := by
    show (step x w₁ (.request command' args' timeout')).execAt x = _
    rw [step_written hS₁ hw₁, execAt_requestWritten hS₁.machine]
  -- both entries carry `2^53`, where the count stalled
  have hid₁ : (w.nextEntry x command (w.execAt x).inbox).id = Double.ofNat (2 ^ 53) := hn
  have hid₂ : (w₁.nextEntry x command' (w.execAt x).inbox).id = Double.ofNat (2 ^ 53) := by
    show (w₁.execAt x).book.nextId = _
    rw [he₁]
    show (w.execAt x).book.nextId + 1 = _
    rw [hn]
    decide
  have hbook : (w₂.execAt x).book.entries =
      PendingBook.put (w₁.nextEntry x command' (w.execAt x).inbox) (w.execAt x).book.entries := by
    rw [he₂, he₁]
    exact PendingBook.put_put _ (hid₂.trans hid₁.symm) _
  refine ⟨fun hc => ?_, ?_⟩
  · rw [hbook] at hc
    rcases PendingBook.mem_put _ hc with he | hc
    · -- the later entry's slot is past the earlier one's
      have hmem : w.nextEntry x command (w.execAt x).inbox ∈ (w₁.execAt x).book.entries := by
        rw [he₁]
        exact PendingBook.mem_put_self _ _
      exact Nat.ne_of_lt (hS₁.entries _ hmem).2 (congrArg PendingEntry.slot he)
    · exact Nat.lt_irrefl _ (hS.entries _ hc).2
  · rw [hbook, ← hid₂]
    exact PendingBook.find?_put _ _

end Limit

/-! ## What a request answers -/

section Answer

variable {x : Nat} {w : World} {k : Ticket}

/-- What a written request's promise settles with, once its fate is known: the timeout if its
deadline ran out while its slot still pended, else its decision as the request makes it: a
reply's body, the probe's failure message, or the shutdown's reason. -/
def Ticket.answer (k : Ticket) : Option Outcome :=
  if k.expired then some (.error k.timeout)
  else k.decision.map fun d => Act.repliedOutcome k.command (d.map Val.json)

/-- What a request's wait hears, made into the request's reply, is its answer. -/
theorem Held.answer_of_heard (h : Held x w k) {o : Outcome} (ho : k.heard (w.slotAt k.slot).state = some o) :
    k.answer = some (Act.repliedOutcome k.command o) := by
  unfold Ticket.heard at ho
  unfold Ticket.answer
  cases hk : k.expired
  · -- the wait heard the slot, which holds the decision
    simp only [hk, Bool.false_eq_true, if_false] at ho ⊢
    rcases h.state with hp | ⟨d, hd, hs⟩
    · rw [hp] at ho
      cases ho
    · rw [hs, SlotState.outcome?_ofResult] at ho
      rw [hd, ← Option.some.inj ho]
      rfl
  · simp only [hk, if_true, Option.some.injEq] at ho ⊢
    rw [← ho]
    rfl

/-- A written request's promise pends, with its deadline armed or its outcome queued in a job,
or holds its answer. -/
theorem Held.promise (h : Held x w k) :
    (w.loop.outcome? k.promise = none ∧ ((∃ t ∈ w.loop.timers, t.id = k.timer) ∨
      ∃ o, Job.react (.resume (.replied k.promise k.command)) o ∈ w.loop.jobs)) ∨
    ∃ o, k.answer = some o ∧ w.loop.outcome? k.promise = some o := by
  cases ha : k.heard (w.slotAt k.slot).state with
  | none =>
    -- the wait still waits, on its armed deadline
    exact .inl ⟨(h.awaits.waits ha).1, .inl (h.armed.2 ((k.heard_eq_none).1 ha))⟩
  | some o =>
    rcases h.awaits.heard o ha with hp | ⟨hp, hj⟩
    · exact .inr ⟨_, h.answer_of_heard ha, hp⟩
    · exact .inl ⟨hp, .inr ⟨o, hj⟩⟩

/-- A reply is taken exactly when it names the id of an undecided written request. -/
theorem Ledger.taken (h : Ledger x w ks) (m : Json) : ∃ b w', (Act.resolveReply x m).run w = .ok b w' ∧
    (b = true ↔ ∃ k ∈ ks, k.decision = none ∧ Act.replyId m = some k.id) := by
  rw [Act.resolveReply_run]
  cases hn : Act.replyId m with
  | none => exact ⟨false, w, rfl, by simp⟩
  | some n =>
    dsimp only
    rw [Act.resolvePending_run]
    cases hf : (w.execAt x).book.entries.find? (·.id == n) with
    | none =>
      refine ⟨false, w, rfl, ?_⟩
      simp only [Bool.false_eq_true, false_iff, not_exists, not_and]
      -- an undecided request's entry is in the book, where no entry has the id
      intro k hk hd he
      have := List.find?_eq_none.1 hf _ ((h.tracked k hk).booked hd)
      simp [Ticket.entry, Option.some.inj he] at this
    | some c =>
      refine ⟨true, _, rfl, ?_⟩
      simp only [true_iff]
      -- the entry found is an undecided request's, with the id
      have hc := List.mem_of_find?_eq_some hf
      rw [h.book] at hc
      obtain ⟨k, hk, rfl⟩ := List.mem_map.1 hc
      have hid : k.id = n := by simpa [Ticket.entry] using List.find?_some hf
      obtain ⟨hk, hd⟩ := List.mem_filter.1 hk
      exact ⟨k, hk, Option.isNone_iff_eq_none.1 hd, by rw [hid]⟩

end Answer

/-! ## Requests turned away -/

section Refusal

variable {x : Nat} {w : World}

/-- Why a request for `command` is turned away at once, if it is: the machine is not live, it has
no sink, or its sink refuses the command. -/
def refusal (x : Nat) (w : World) (command : String) : Option Fault :=
  match Act.liveFault (w.execAt x).current command, (w.execAt x).sink with
  | some f, _ => some f
  | none, none => some Act.noSinkFault
  | none, some (.recorder (some _)) => some (Act.sendFault command)
  | none, some _ => none

/-- A request whose command the sink refuses fails with the send failure. -/
theorem outcome?_requestRefused (hS : Shape x w) (command : String) :
    (w.requestRefused x command).loop.outcome? w.loop.cells.size = some (.error (Act.sendFault command)) := by
  have hS₁ := ((hS.fresh.register command).dropEntry (w.nextEntry x command (w.execAt x).inbox).id)
  set w₁ := (((w.setLoop w.loop.fresh.2).register x command (w.execAt x).inbox).dropEntry x
    (w.nextEntry x command (w.execAt x).inbox).id)
  -- the failure is queued on the machine's open context, which leaves the promises alone
  have hcells : (w₁.settleEntry (w.nextEntry x command (w.execAt x).inbox) (.error (Act.sendFault command))).loop.cells =
      w.loop.fresh.2.cells := by
    rw [World.settleEntry_of_open _ (by simpa [w₁, World.nextEntry, World.execAt_dropEntry, World.execAt_register,
      hS.machine] using hS₁.opened)]
    simp [w₁]
  unfold World.requestRefused
  apply Loop.outcome?_settle_self
  · rw [hcells]
    simp [Loop.fresh]
  · rw [Loop.outcome?_of_cells hcells]
    exact Loop.fresh_pending _

/-- A request that is turned away fails at once with its refusal and leaves the book as it was. -/
theorem refused_request (hS : Shape x w) (hfresh : ∀ c ∈ (w.execAt x).book.entries, c.id ≠ (w.execAt x).book.nextId)
    {command : String} {f : Fault} (hf : refusal x w command = some f) (args timeout : Option Json) :
    (step x w (.request command args timeout)).loop.outcome? w.loop.cells.size = some (.error f) ∧
    ((step x w (.request command args timeout)).execAt x).book.entries = (w.execAt x).book.entries := by
  refine ⟨?_, (book_step hS (.request command args timeout)).2.1.trans ?_⟩
  swap
  · -- a command the sink refuses leaves the book with its id, which no other entry has
    unfold refusal at hf
    simp only [Event.bookAfter]
    split
    · simp_all
    · exact List.filter_eq_self.2 fun c hc => by simpa using hfresh c hc
    · rfl
  rw [step_request x w hS.machine hS.recording]
  unfold refusal at hf
  cases hl : Act.liveFault (w.execAt x).current command with
  | some f' =>
    simp only [hl, Option.some.injEq] at hf
    simp [hf, World.done]
  | none =>
    obtain ⟨r, hr⟩ | hs : (∃ r, (w.execAt x).sink = some (.recorder r)) ∨ (w.execAt x).sink = none := by
      cases hs : (w.execAt x).sink with
      | none => exact .inr rfl
      | some s =>
        obtain ⟨r, rfl⟩ := hS.recording s hs
        exact .inl ⟨r, rfl⟩
    · cases r with
      | none => simp [hl, hr] at hf
      | some r =>
        simp only [hl, hr, Option.some.injEq] at hf
        simp only [hr]
        rw [← hf]
        exact outcome?_requestRefused hS command
    · simp only [hl, hs, Option.some.injEq] at hf
      simp [hs, ← hf, World.done]

end Refusal

/-! ## Requests on a bench's machine -/

/-- The requests on a bench's run/stop machine over any run of events with fewer than `2^53`
requests, so that every id counted out is a whole number of its own, with the requests written
in it as its ledger. The book holds exactly the written requests still undecided, in the order
they were written, so the machine counts them as pending whether or not their deadlines ran out.
Each written request's promise pends, with its deadline armed or its outcome on its way in a
queued job, or holds its answer for good: the timeout if its deadline ran out while its slot still
pended, else what decided it, the first reply naming its id (its body, or the probe's failure
message) or the first shutdown after it (its reason). A reply is taken exactly when it names the
id of a written request still undecided. A request that is turned away fails at once with its
refusal, for good, and leaves the book alone. -/
theorem requests_bench (host : Host) (style : LogStyle) (timeout : Json) (es : List Event)
    (hes : es.countP Event.isRequest < 2 ^ 53) :
    let w := run 0 (bench host style timeout) es
    let ks := ledger 0 (bench host style timeout) es []
    (w.execAt 0).book.entries = (ks.filter (·.decision.isNone)).map (·.entry (w.execAt 0).inbox) ∧
    (∀ k ∈ ks,
      (w.loop.outcome? k.promise = none ∧ ((∃ t ∈ w.loop.timers, t.id = k.timer) ∨
        ∃ o, Job.react (.resume (.replied k.promise k.command)) o ∈ w.loop.jobs)) ∨
      ∃ o, k.answer = some o ∧ ∀ es', (run 0 w es').loop.outcome? k.promise = some o) ∧
    (∀ m, ∃ b w', (Act.resolveReply 0 m).run w = .ok b w' ∧
      (b = true ↔ ∃ k ∈ ks, k.decision = none ∧ Act.replyId m = some k.id)) ∧
    (∀ command args t f, refusal 0 w command = some f →
      (∀ es', (run 0 (step 0 w (.request command args t)) es').loop.outcome? w.loop.cells.size = some (.error f)) ∧
      ((step 0 w (.request command args t)).execAt 0).book.entries = (w.execAt 0).book.entries) := by
  intro w ks
  have h₀ := shape_bench host style timeout
  have hS : Shape 0 w := shape_run h₀ es
  -- the book counts ids from `1`, and the run's requests keep the count within `2^53`
  have hL : Ledger 0 w ks := ledger_run h₀ ⟨fun _ hk => absurd hk List.not_mem_nil, rfl⟩ (n := 1) rfl es (by omega)
  refine ⟨hL.book, fun k hk => ?_, hL.taken, fun command args t f hf => ?_⟩
  · rcases (hL.tracked k hk).promise with hp | ⟨o, ho, hp⟩
    · exact .inl hp
    · exact .inr ⟨o, ho, fun es' => keeps_run hS es' _ _ hp⟩
  · obtain ⟨hp, hb⟩ := refused_request hS hL.fresh hf args t
    exact ⟨fun es' => keeps_run (shape_step hS _) es' _ _ hp, hb⟩

/-- After an attach, a start and one request for `evaluate`, the book holds the entries of the
requests still undecided. -/
theorem requests_bench_one_evaluate :
    [Event.attach none, .start, .request "evaluate" none none].countP Event.isRequest < 2 ^ 53 ∧
    let b := bench ⟨0, fun _ => "", Path.hostTree, Validator.standard⟩ .plain .null
    let es := [Event.attach none, .start, .request "evaluate" none none]
    ((run 0 b es).execAt 0).book.entries =
      ((ledger 0 b es []).filter (·.decision.isNone)).map (·.entry ((run 0 b es).execAt 0).inbox) :=
  ⟨by decide, (requests_bench ⟨0, fun _ => "", Path.hostTree, Validator.standard⟩ .plain .null
    [.attach none, .start, .request "evaluate" none none] (by decide)).1⟩

/-- A request made after a shutdown is not decided by the shutdown: it is turned away at once,
with the state error of a terminated machine. The machine is shut down for a lost connection,
then asked to evaluate. -/
theorem request_after_shutdown_refused :
    let w := run 0 (bench ⟨0, fun _ => "", Path.hostTree, Validator.standard⟩ .plain .null) [.attach none, .start, .shutdown (.adapter (.transport "gone"))]
    let o := (step 0 w (.request "evaluate" none none)).loop.outcome? w.loop.cells.size
    o = some (.error (.adapter (.state "Cannot evaluate: the debuggee has terminated"))) ∧
    o ≠ some (.error (.adapter (.transport "gone"))) := by
  intro w o
  have h₀ := shape_bench ⟨0, fun _ => "", Path.hostTree, Validator.standard⟩ .plain .null
  have hS := shape_run h₀ [.attach none, .start, .shutdown (.adapter (.transport "gone"))]
  have hc : (w.execAt 0).current = .terminated := (current_run h₀ _).trans rfl
  have hf : refusal 0 w "evaluate" = some (.adapter (.state "Cannot evaluate: the debuggee has terminated")) := by
    simp only [refusal, hc, Act.liveFault]
    rfl
  have hL := ledger_run h₀ ⟨fun _ hk => absurd hk List.not_mem_nil, rfl⟩ (n := 1) rfl
    [.attach none, .start, .shutdown (.adapter (.transport "gone"))] (by simp [Event.isRequest])
  have ho : o = _ := (refused_request hS hL.fresh hf none none).1
  refine ⟨ho, ?_⟩
  rw [ho]
  simp [AdapterError.state, AdapterError.transport]

end RunStop

end DapBridge
