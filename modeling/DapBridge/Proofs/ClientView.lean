import Mathlib
import DapBridge.Session.Rig
import DapBridge.Proofs.Messages
import DapBridge.Proofs.Numbering

/-!
# What the client sees, and what engine code leaves alone

The client sees the messages the front end writes to it (`clientMessages`, oldest first). Two
things about them are the front end's own business:

* their numbering: the `i`-th message carries the codec's first number moved on `i` times,
  and while the wire is open the codec holds the number the next message will carry
  (`Numbered`);
* their answers: every response answers a request, or a payload that could not be read, with
  the request's sequence number and command, whether it succeeded and the code of its error
  (`Answers`).

A request waits for its answer while the continuation that writes it is registered with the
loop: on a pending promise, or queued as a job (`Loop.inFlight`).

A `FrontFrame` fixes what only the front end may change: its wire, whether it is closing, the
answers it has written and the requests in flight, together with a count of promises that
exist. `FrontFrame.Holds` says a world agrees with the frame and numbers its messages right.
Engine code keeps every frame: each of its primitives is shown here to keep it (`note_frame`,
`log_frame`, `fresh_frame`, …), with the two that need a side condition stated with it: a note
that is no message to the client, and a wait whose continuation answers no request. The specs
of the engine's own functions, built from these by `mvcgen`, follow in `ProbeFrame` and
`EngineFrame`.
-/

open Std.Do

set_option mvcgen.warning false

namespace DapBridge

/-! ## The messages the client is written -/

/-- The message a note writes to the client, if it is one. -/
def Note.clientMessage? : Note → Option Json
  | .toClient m => some m
  | _ => none

/-- The messages written to the client along a trace, oldest first. -/
def clientMessages (t : List Note) : List Json := (t.filterMap Note.clientMessage?).reverse

def Json.isResponse (m : Json) : Bool := m.strField? "type" == some "response"

/-- The messages along a trace carry the numbers `1, 2, …` of the codec's counter, and while
the wire is open the codec holds the next one. -/
def Numbered (sv : Server) (t : List Note) : Prop :=
  (∀ i (h : i < (clientMessages t).length), ((clientMessages t)[i]).numField? "seq" = some ((· + 1)^[i] 1)) ∧
  (sv.link.isOpen = true → sv.codec.seq = (· + 1)^[(clientMessages t).length] 1)

@[simp] theorem clientMessages_nil : clientMessages [] = [] := rfl

theorem clientMessages_cons (n : Note) (t : List Note) :
    clientMessages (n :: t) = clientMessages t ++ n.clientMessage?.toList := by
  cases h : n.clientMessage? <;> simp [clientMessages, h]

/-- A message written with the codec's number, the codec moved on by one. -/
theorem Numbered.push {sv : Server} {t : List Note} {m : Json} {c : Codec} (h : Numbered sv t)
    (ho : sv.link.isOpen = true) (hm : m.numField? "seq" = some sv.codec.seq) (hc : c.seq = sv.codec.seq + 1) :
    Numbered { sv with codec := c } (.toClient m :: t) := by
  obtain ⟨hseq, hcodec⟩ := h
  have hlast : m.numField? "seq" = some ((· + 1)^[(clientMessages t).length] 1) := by rw [hm, hcodec ho]
  refine ⟨fun i hi => ?_, fun _ => ?_⟩
  · simp only [clientMessages_cons, Note.clientMessage?, Option.toList_some, List.length_append,
      List.length_singleton] at hi ⊢
    rcases Nat.lt_succ_iff_lt_or_eq.1 hi with hi | rfl
    · rw [List.getElem_append_left hi]; exact hseq i hi
    · simpa using hlast
  · simp [clientMessages_cons, Note.clientMessage?, hc, hcodec ho, Function.iterate_succ_apply']

/-- Past the wire's closing the codec may count on: nothing more is written. -/
theorem Numbered.recode {sv : Server} {t : List Note} (h : Numbered sv t) (ho : sv.link.isOpen = false)
    (c : Codec) : Numbered { sv with codec := c } t :=
  ⟨h.1, fun h' => absurd h' (by simp [ho])⟩

/-! ## Requests waiting for their answer -/

/-- The request a continuation answers, if it is a served request's. -/
def Cont.servedRef? : Cont → Option RequestRef
  | .served r => some r
  | _ => none

def Reaction.servedRef? : Reaction Cont → Option RequestRef
  | .resume k => k.servedRef?
  | .forward _ => none

def Cell.reactions : Cell Outcome Cont → List (Reaction Cont)
  | .pending rs => rs
  | .settled _ => []

def Job.reaction? : Job Outcome Cont → Option (Reaction Cont)
  | .react r _ => some r
  | .adopt .. => none

/-- The request whose answer a job carries, if any. -/
def Job.servedRef? (j : Job Outcome Cont) : Option RequestRef := j.reaction?.bind Reaction.servedRef?

/-- The requests in flight: those whose answering continuation waits on a pending promise or
is queued as a job. -/
def Loop.inFlight (l : Loop Outcome Cont Turn) : Multiset RequestRef :=
  ((l.cells.toList.flatMap Cell.reactions ++ l.jobs.filterMap Job.reaction?).filterMap Reaction.servedRef? : List _)

namespace Loop

variable (l : Loop Outcome Cont Turn)

theorem cells_split {p : Nat} {rs : List (Reaction Cont)} (h : l.cells[p]? = some (.pending rs)) :
    ∃ _ : p < l.cells.toList.length,
      l.cells.toList = l.cells.toList.take p ++ Cell.pending rs :: l.cells.toList.drop (p + 1) := by
  have hp : p < l.cells.size := by
    by_contra hc; simp [Array.getElem?_eq_none (Nat.le_of_not_lt hc)] at h
  have hcell : l.cells[p] = .pending rs := by simpa [hp] using h
  have hp' : p < l.cells.toList.length := by simpa using hp
  refine ⟨hp', ?_⟩
  conv_lhs => rw [← List.take_append_drop p l.cells.toList, List.drop_eq_getElem_cons hp']
  simp [hcell]

/-- Settling a promise moves its reactions to the job queue: nothing leaves the flight. -/
@[simp] theorem inFlight_settle (p : Nat) (o : Outcome) : (l.settle p o).inFlight = l.inFlight := by
  unfold settle
  split
  · next rs h =>
    obtain ⟨hp, hsplit⟩ := l.cells_split h
    simp only [inFlight, Array.toList_modify]
    rw [List.modify_eq_take_cons_drop hp]
    conv_rhs => rw [hsplit]
    simp only [List.flatMap_append, List.flatMap_cons, Cell.reactions, List.nil_append,
      List.filterMap_append, List.filterMap_map, Function.comp_def, Job.reaction?, List.filterMap_some,
      ← Multiset.coe_add]
    abel
  · rfl

/-- Listening on a promise that exists adds the listener's request, if it answers one. -/
theorem inFlight_listen (p : Nat) (r : Reaction Cont) :
    (l.listen p r).inFlight =
      (if p < l.cells.size then (r.servedRef?.toList : Multiset RequestRef) else 0) + l.inFlight := by
  unfold listen
  split
  · next rs h =>
    obtain ⟨hp, hsplit⟩ := l.cells_split h
    simp only [inFlight, Array.toList_modify, if_pos (by simpa using hp : p < l.cells.size)]
    rw [List.modify_eq_take_cons_drop hp]
    conv_rhs => rw [hsplit]
    simp only [List.flatMap_append, List.flatMap_cons, Cell.reactions, List.filterMap_append,
      List.filterMap_cons, List.filterMap_nil, ← Multiset.coe_add]
    cases r.servedRef? with
    | none => simp
    | some q =>
      simp only [Option.toList_some, ← Multiset.cons_coe, ← Multiset.singleton_add]
      abel
  · next o h =>
    -- a settled promise queues the listener as a job at once
    have hp : p < l.cells.size := by
      by_contra hc; simp [Array.getElem?_eq_none (Nat.le_of_not_lt hc)] at h
    simp only [inFlight, if_pos hp, List.filterMap_append, List.filterMap_cons, List.filterMap_nil,
      Job.reaction?, ← Multiset.coe_add]
    cases r.servedRef? with
    | none => simp
    | some q =>
      simp only [Option.toList_some, ← Multiset.cons_coe, ← Multiset.singleton_add]
      abel
  · next h =>
    have hp : ¬ p < l.cells.size := fun hp => by simp [hp] at h
    simp [hp]

theorem inFlight_listen_of {r : Reaction Cont} (h : r.servedRef? = none) (p : Nat) :
    (l.listen p r).inFlight = l.inFlight := by
  rw [inFlight_listen, h]; simp

@[simp] theorem size_fresh : l.fresh.2.cells.size = l.cells.size + 1 := by simp [fresh]

@[simp] theorem size_done (o : Outcome) : (l.done o).2.cells.size = l.cells.size + 1 := by simp [done]

@[simp] theorem size_settle (p : Nat) (o : Outcome) : (l.settle p o).cells.size = l.cells.size := by
  unfold settle; split <;> simp

@[simp] theorem size_listen (p : Nat) (r : Reaction Cont) : (l.listen p r).cells.size = l.cells.size := by
  unfold listen; split <;> simp

@[simp] theorem inFlight_fresh : l.fresh.2.inFlight = l.inFlight := by
  simp [fresh, inFlight, Cell.reactions]

@[simp] theorem inFlight_done (o : Outcome) : (l.done o).2.inFlight = l.inFlight := by
  simp [done, inFlight, Cell.reactions]

@[simp] theorem inFlight_follow (t s : Nat) : (l.follow t s).inFlight = l.inFlight := by
  simp [follow, inFlight, Job.reaction?, List.filterMap_cons]

variable {l} {l' : Loop Outcome Cont Turn}

theorem takeJob?_tick {t : Turn} (h : l.takeJob? = some (.tick t, l')) :
    l'.cells = l.cells ∧ l'.inFlight = l.inFlight := by
  unfold takeJob? at h
  split at h <;> simp only [Option.some.injEq, Prod.mk.injEq, reduceCtorEq, false_and] at h
  obtain ⟨-, rfl⟩ := h
  exact ⟨rfl, rfl⟩

/-- Taking a job off the queue takes its request, if it answers one, out of the flight. -/
theorem takeJob?_job {j : Job Outcome Cont} (h : l.takeJob? = some (.job j, l')) :
    l'.cells = l.cells ∧ l.inFlight = (j.servedRef?.toList : Multiset RequestRef) + l'.inFlight := by
  unfold takeJob? at h
  split at h <;> simp only [Option.some.injEq, Prod.mk.injEq, reduceCtorEq, false_and, Next.job.injEq] at h
  · rename_i j' js _ hj
    obtain ⟨rfl, rfl⟩ := h
    refine ⟨rfl, ?_⟩
    simp only [inFlight, hj, List.filterMap_cons]
    cases hr : j'.reaction? with
    | none => simp [Job.servedRef?, hr]
    | some r =>
      cases hs : r.servedRef? with
      | none => simp [Job.servedRef?, hr, hs, List.filterMap_append]
      | some q =>
        simp [Job.servedRef?, hr, hs, ← Multiset.coe_add, List.filterMap_append]
        simp only [← Multiset.cons_coe, ← Multiset.singleton_add]
        abel

theorem takeTurn?_eq {t : Turn} (h : l.takeTurn? = some (t, l')) : l'.cells = l.cells ∧ l'.inFlight = l.inFlight := by
  unfold takeTurn? at h
  split at h
  · simp only [Option.some.injEq, Prod.mk.injEq] at h
    obtain ⟨-, rfl⟩ := h
    exact ⟨rfl, rfl⟩
  · cases h

theorem takeDue?_eq {t : Turn} {limit : Nat} (h : l.takeDue? limit = some (t, l')) :
    l'.cells = l.cells ∧ l'.inFlight = l.inFlight := by
  unfold takeDue? at h
  split at h
  · simp only [Option.some.injEq, Prod.mk.injEq] at h
    obtain ⟨-, rfl⟩ := h
    exact ⟨rfl, rfl⟩
  · cases h

end Loop

/-! ## Answers -/

/-- How a request, or a payload that could not be read, was answered. -/
inductive Answer where
  /-- A request's operation settled with `o`. -/
  | served (req : RequestRef) (o : Outcome)
  /-- A payload could not be read as a message. -/
  | unreadable (payload : String)

namespace Answer

/-- The request an answer is for: a payload that could not be read is answered under the
sequence number and command that can be made out of it. -/
def ref : Answer → RequestRef
  | .served req _ => req
  | .unreadable payload => Frontend.recoverRequest payload

def success : Answer → Bool
  | .served _ (.ok _) => true
  | _ => false

/-- The error code a failed answer names. -/
def code? : Answer → Option String
  | .served _ (.ok _) => none
  | .served _ (.error f) => some f.code
  | .unreadable _ => some "ProtocolError"

end Answer

/-- A response gives an answer: it names the request's sequence number and command, says
whether it succeeded and, when it failed, carries the error's code in its body. -/
def Answers (m : Json) (a : Answer) : Prop :=
  m.field? "request_seq" = some (.num a.ref.seq) ∧ m.field? "command" = some (.str a.ref.command) ∧
    m.field? "success" = some (.bool a.success) ∧
    ∀ code, a.code? = some code → (m.field? "body").bind (·.field? "error") = some (.string code)

/-! ## The front end's frame -/

/-- What only the front end changes: its wire, whether it is closing, the requests in flight
and the answers it has written; a number of promises known to exist; and the validator it reads
payloads with, which nothing changes. -/
structure FrontFrame where
  link : Link
  closed : Bool
  promises : Nat
  inFlight : Multiset RequestRef
  answers : List Answer
  validator : Validator

/-- A server, trace and loop agree with a frame, and the messages along the trace are
numbered. -/
def FrontFrame.Sees (f : FrontFrame) (sv : Server) (t : List Note) (l : Loop Outcome Cont Turn) : Prop :=
  sv.link = f.link ∧ sv.closed = f.closed ∧ f.promises ≤ l.cells.size ∧ l.inFlight = f.inFlight ∧
    List.Forall₂ Answers ((clientMessages t).filter Json.isResponse) f.answers ∧ Numbered sv t

def FrontFrame.Holds (f : FrontFrame) (w : World) : Prop :=
  f.Sees w.server w.trace w.loop ∧ w.host.validator = f.validator

/-- The frame as an assertion. It is a definition of its own, not unfolded by `mvcgen`, so that
the frame of a spec is found by matching it against the one in hand. -/
def FrontFrame.Pre (f : FrontFrame) : Assertion (.except Fault (.arg World .pure)) := fun w => ⌜f.Holds w⌝

/-- The frame holds after the step, whether it returns or fails. -/
abbrev FrontFrame.Post {α : Type} (f : FrontFrame) : PostCond α (.except Fault (.arg World .pure)) :=
  post⟨fun _ => f.Pre, fun _ => f.Pre⟩

namespace FrontFrame

variable {f : FrontFrame} {sv : Server} {t : List Note} {l : Loop Outcome Cont Turn}

@[simp] theorem pre_down (f : FrontFrame) (w : World) : (f.Pre w).down = f.Holds w := rfl

theorem Sees.note {n : Note} (hn : n.clientMessage? = none) (h : f.Sees sv t l) : f.Sees sv (n :: t) l := by
  simpa [Sees, Numbered, clientMessages_cons, hn] using h

theorem Sees.loop {l' : Loop Outcome Cont Turn} (hc : l.cells.size ≤ l'.cells.size) (hi : l'.inFlight = l.inFlight)
    (h : f.Sees sv t l) : f.Sees sv t l' := by
  obtain ⟨h1, h2, h3, h4, h5, h6⟩ := h
  exact ⟨h1, h2, le_trans h3 hc, hi.trans h4, h5, h6⟩

end FrontFrame

/-! ## The primitives keep the frame -/

namespace Act

/-- A change of the world, for whatever comes after it. -/
@[spec] theorem change_spec (g : World → World) {Q : PostCond Unit (.except Fault (.arg World .pure))} :
    ⦃fun w => Q.1 () (g w)⦄ Act.change g ⦃Q⦄ := by
  unfold Act.change; mvcgen

variable (fr : FrontFrame)

/-- Any note but a message to the client. The precondition asks for it, so that each use leaves
a closed goal about the note's form, which `mvcgen` settles by itself. -/
@[spec] theorem note_frame (n : Note) : ⦃fun w => ⌜fr.Holds w ∧ n.clientMessage? = none⌝⦄ note n ⦃fr.Post⦄ := by
  unfold note; mvcgen; rename_i h; exact ⟨FrontFrame.Sees.note h.2 h.1.1, h.1.2⟩

@[spec] theorem log_frame (d : Diagnostic) : ⦃fr.Pre⦄ log d ⦃fr.Post⦄ := by
  unfold log; mvcgen
  rename_i s h
  unfold World.log; split
  · exact ⟨FrontFrame.Sees.note rfl h.1, h.2⟩
  · exact h

@[spec] theorem debug_frame (m : String) (d : Option Json) : ⦃fr.Pre⦄ debug m d ⦃fr.Post⦄ := by
  unfold debug; mvcgen

@[spec] theorem fresh_frame : ⦃fr.Pre⦄ fresh ⦃fr.Post⦄ := by
  unfold fresh; mvcgen; rename_i s h _; exact ⟨FrontFrame.Sees.loop (by simp +zetaDelta) (by simp +zetaDelta) h.1, h.2⟩

@[spec] theorem done_frame (o : Outcome) : ⦃fr.Pre⦄ done o ⦃fr.Post⦄ := by
  unfold done; mvcgen; rename_i s h _; exact ⟨FrontFrame.Sees.loop (by simp +zetaDelta) (by simp +zetaDelta) h.1, h.2⟩

@[spec] theorem settle_frame (p : Nat) (o : Outcome) : ⦃fr.Pre⦄ settle p o ⦃fr.Post⦄ := by
  unfold settle; mvcgen; rename_i s h; exact ⟨FrontFrame.Sees.loop (by simp) (by simp) h.1, h.2⟩

@[spec] theorem fulfil_frame (p : Nat) (v : Val) : ⦃fr.Pre⦄ fulfil p v ⦃fr.Post⦄ := by
  unfold fulfil; mvcgen

@[spec] theorem reject_frame (p : Nat) (e : Fault) : ⦃fr.Pre⦄ reject p e ⦃fr.Post⦄ := by
  unfold reject; mvcgen

/-- Waiting with any continuation but one that answers a request. -/
@[spec] theorem await_frame (p : Nat) (k : Cont) :
    ⦃fun w => ⌜fr.Holds w ∧ k.servedRef? = none⌝⦄ await p k ⦃fr.Post⦄ := by
  unfold await Loop.await; mvcgen; rename_i s h
  exact ⟨FrontFrame.Sees.loop (by simp) (Loop.inFlight_listen_of _ (r := .resume k) h.2 p) h.1.1, h.1.2⟩

@[spec] theorem follow_frame (t s : Nat) : ⦃fr.Pre⦄ follow t s ⦃fr.Post⦄ := by
  unfold follow; mvcgen; rename_i w h; exact ⟨FrontFrame.Sees.loop (by simp [Loop.follow]) (by simp) h.1, h.2⟩

@[spec] theorem defer_frame (x : Turn) : ⦃fr.Pre⦄ defer x ⦃fr.Post⦄ := by
  unfold defer; mvcgen

@[spec] theorem soon_frame (x : Turn) : ⦃fr.Pre⦄ soon x ⦃fr.Post⦄ := by
  unfold soon; mvcgen

@[spec] theorem after_frame (ms : Double) (x : Turn) : ⦃fr.Pre⦄ after ms x ⦃fr.Post⦄ := by
  unfold after; mvcgen

@[spec] theorem cancel_frame (id : Nat) : ⦃fr.Pre⦄ cancel id ⦃fr.Post⦄ := by
  unfold cancel; mvcgen

/-- Failing keeps the world: stated for any postcondition, as `throw`'s own spec is. -/
@[spec] theorem fail_spec {α : Type} (e : Fault) {Q : PostCond α (.except Fault (.arg World .pure))} :
    ⦃Q.2.1 e⦄ (fail e : Act α) ⦃Q⦄ := by
  unfold fail; mvcgen

@[spec] theorem failWith_spec {α : Type} (e : AdapterError) {Q : PostCond α (.except Fault (.arg World .pure))} :
    ⦃Q.2.1 (.adapter e)⦄ (failWith e : Act α) ⦃Q⦄ := by
  unfold failWith; mvcgen

@[spec] theorem attempt_frame {α : Type} {a : Act α} (ha : ⦃fr.Pre⦄ a ⦃fr.Post⦄) : ⦃fr.Pre⦄ attempt a ⦃fr.Post⦄ := by
  unfold attempt; mvcgen [ha]

@[spec] theorem promiseOf_frame {body : Act Val} (hb : ⦃fr.Pre⦄ body ⦃fr.Post⦄) :
    ⦃fr.Pre⦄ promiseOf body ⦃fr.Post⦄ := by
  unfold promiseOf; mvcgen [hb]

@[spec] theorem post_frame (i : Nat) (x : Errand) : ⦃fr.Pre⦄ post i x ⦃fr.Post⦄ := by
  unfold post; mvcgen

@[spec] theorem flush_frame (i : Nat) : ⦃fr.Pre⦄ flush i ⦃fr.Post⦄ := by
  unfold flush; mvcgen

@[spec] theorem closeInbox_frame (i : Nat) : ⦃fr.Pre⦄ closeInbox i ⦃fr.Post⦄ := by
  unfold closeInbox; mvcgen

/-- A message written through the codec that is not a response: numbered in turn, and the
answers stay as they were. -/
theorem numbered_frame (make : Codec → Json × Codec)
    (hm : ∀ c, (make c).1.numField? "seq" = some c.seq ∧ (make c).2.seq = c.seq + 1 ∧ (make c).1.isResponse = false) :
    ⦃fr.Pre⦄ numbered make ⦃fr.Post⦄ := by
  unfold numbered toClient Act.note World.note
  mvcgen
  · rename_i w h ho
    obtain ⟨hm1, hm2, hm3⟩ := hm w.server.codec
    obtain ⟨⟨h1, h2, h3, h4, h5, h6⟩, hv⟩ := h
    exact ⟨⟨h1, h2, h3, h4, by simpa [clientMessages_cons, Note.clientMessage?, hm3] using h5, h6.push ho hm1 hm2⟩, hv⟩
  · -- the wire is closed: nothing is written, and the codec may move on
    rename_i w h ho
    obtain ⟨⟨h1, h2, h3, h4, h5, h6⟩, hv⟩ := h
    exact ⟨⟨h1, h2, h3, h4, h5, h6.recode (by simpa using ho) _⟩, hv⟩

@[spec] theorem sendEvent_frame (event : String) (body : Option Json) : ⦃fr.Pre⦄ sendEvent event body ⦃fr.Post⦄ := by
  unfold sendEvent
  apply numbered_frame
  intro c
  have hc := Codec.call_seq c (.event (Text.ofString event) body)
  refine ⟨hc.1, congrArg Codec.seq hc.2, ?_⟩
  simp [Message.event_members, Json.isResponse, Json.strField?, Json.field?, Json.Fields.get?_cons_of_eq,
    Json.Fields.get?_cons_of_ne, Json.getString?, Json.string, Json.getStr?, Message.toString_event]

@[spec] theorem forM_frame {α : Type} (xs : List α) (g : α → Act Unit) (h : ∀ x, ⦃fr.Pre⦄ g x ⦃fr.Post⦄) :
    ⦃fr.Pre⦄ xs.forM g ⦃fr.Post⦄ := by
  induction xs with
  | nil => mvcgen [List.forM]
  | cons x xs ih => simp only [List.forM]; mvcgen [h, ih]

@[spec] theorem forIn_frame {α β : Type} (xs : List α) (b : β) (g : α → β → Act (ForInStep β))
    (h : ∀ x b, ⦃fr.Pre⦄ g x b ⦃fr.Post⦄) : ⦃fr.Pre⦄ forIn xs b g ⦃fr.Post⦄ := by
  mvcgen [h] invariants
  | inv1 => fr.Post
  rename_i r
  intro w hw
  cases r <;> exact hw

@[spec] theorem mapM_frame {α β : Type} (xs : List α) (g : α → Act β) (h : ∀ x, ⦃fr.Pre⦄ g x ⦃fr.Post⦄) :
    ⦃fr.Pre⦄ xs.mapM g ⦃fr.Post⦄ := by
  induction xs with
  | nil => mvcgen [List.mapM_nil]
  | cons x xs ih => simp only [List.mapM_cons]; mvcgen [h, ih]

@[spec] theorem discard_frame {α : Type} {a : Act α} (ha : ⦃fr.Pre⦄ a ⦃fr.Post⦄) : ⦃fr.Pre⦄ discard a ⦃fr.Post⦄ := by
  have hd : discard a = (do let _ ← a; pure ()) := rfl
  rw [hd]; mvcgen [ha]

/-! ### Slots and the book of pending commands -/

@[spec] theorem newSlot_frame : ⦃fr.Pre⦄ newSlot ⦃fr.Post⦄ := by
  unfold newSlot; mvcgen

@[spec] theorem settleWaiters_frame (ws : List Waiter) (o : Outcome) : ⦃fr.Pre⦄ settleWaiters ws o ⦃fr.Post⦄ := by
  unfold settleWaiters; mvcgen

@[spec] theorem resolveSlot_frame (s : Nat) (v : Json) : ⦃fr.Pre⦄ resolveSlot s v ⦃fr.Post⦄ := by
  unfold resolveSlot; mvcgen

@[spec] theorem rejectSlot_frame (s : Nat) (e : Fault) : ⦃fr.Pre⦄ rejectSlot s e ⦃fr.Post⦄ := by
  unfold rejectSlot; mvcgen

@[spec] theorem waitSlot_frame (s : Nat) (timeout : Option Json) (label : String) :
    ⦃fr.Pre⦄ waitSlot s timeout label ⦃fr.Post⦄ := by
  unfold waitSlot; mvcgen

@[spec] theorem slotTimedOut_frame (s p : Nat) (label : String) (ms : Json) :
    ⦃fr.Pre⦄ slotTimedOut s p label ms ⦃fr.Post⦄ := by
  unfold slotTimedOut; mvcgen

@[spec] theorem register_frame (x : Nat) (command : String) (owner : Nat) :
    ⦃fr.Pre⦄ register x command owner ⦃fr.Post⦄ := by
  unfold register; mvcgen

@[spec] theorem pendingEntry?_frame (x : Nat) (id : Double) : ⦃fr.Pre⦄ pendingEntry? x id ⦃fr.Post⦄ := by
  unfold pendingEntry?; mvcgen

@[spec] theorem dropEntry_frame (x : Nat) (id : Double) : ⦃fr.Pre⦄ dropEntry x id ⦃fr.Post⦄ := by
  unfold dropEntry; mvcgen

@[spec] theorem settleEntry_frame (entry : PendingEntry) (o : Except Fault Json) :
    ⦃fr.Pre⦄ settleEntry entry o ⦃fr.Post⦄ := by
  unfold settleEntry; mvcgen

@[spec] theorem resolvePending_frame (x : Nat) (id : Double) (v : Json) : ⦃fr.Pre⦄ resolvePending x id v ⦃fr.Post⦄ := by
  unfold resolvePending; mvcgen

@[spec] theorem failPending_frame (x : Nat) (id : Double) (e : Fault) : ⦃fr.Pre⦄ failPending x id e ⦃fr.Post⦄ := by
  unfold failPending; mvcgen

@[spec] theorem failAllPending_frame (x : Nat) (e : Fault) : ⦃fr.Pre⦄ failAllPending x e ⦃fr.Post⦄ := by
  unfold failAllPending; mvcgen

end Act

end DapBridge
