import DapBridge.Proofs.FrontEnd

/-!
# The request/response discipline of the front end

Over a run of the adapter (`World.play`: the client, the probe and the debuggee act, and
the loop runs its work), the front end keeps books (`Ledger`): every request read while it
is open is owed an answer, so is every payload that is no message (answered at once with a
protocol error), and every answer written is recorded in order. The books are read off the
run by `Ledger.ofPlay`, one move at a time, from the world before the move.

**Invariant.** `Ledger.Kept L w`: some `FrontFrame` holds of `w` and accounts for `L`. While
the wire is open, the responses written are `L`'s answers and every owed request is answered
or in flight (`FrontFrame.Accounts`). Engine code keeps every frame (`EngineFrame`); the
front end's own steps move it as `FrontEnd` says, and the books move with them.

**Results.**
* `Ledger.Kept.step`: every move keeps the books; `Ledger.Kept.play`: so does every run.
* `request_response_discipline`: from a fresh adapter, while the wire is open, the messages
  written to the client are numbered by one counter from `1`, the `i`-th exactly `i + 1` while
  `i < 2^53` (the counter is a double: from there on it stays at `2^53`); the responses among them give
  the books' answers in order, each with the request's sequence number and command, its
  success and its error code; and every request owed an answer has been answered or is still
  being served.
-/

open Std.Do

namespace DapBridge

/-! ## The books -/

/-- What the client is owed and has been answered: every request read while the front end
was open and every payload it could not read, and the answers given so far, in order. -/
structure Ledger where
  owed : Multiset RequestRef
  answers : List Answer

namespace Ledger

/-- The books of a fresh front end. -/
def empty : Ledger := ⟨0, []⟩

/-- One payload read with the validator `V` while the front end is open: a request is owed an
answer, a payload that is no message is owed and answered at once, anything else is owed
nothing. -/
def read (L : Ledger) (V : Validator) (payload : String) : Ledger :=
  match Message.parse V payload with
  | .error _ => ⟨Frontend.recoverRequest payload ::ₘ L.owed, L.answers ++ [.unreadable payload]⟩
  | .ok m =>
    match m.strField? "type" with
    | some "request" => ⟨m.requestRef ::ₘ L.owed, L.answers⟩
    | _ => L

def readAll (L : Ledger) (V : Validator) : List Wire.Arrival → Ledger
  | [] => L
  | .body text :: as => (L.read V text).readAll V as
  | .badHeader _ :: as => L.readAll V as

/-- An answer given. -/
def give (L : Ledger) (a : Answer) : Ledger := ⟨L.owed, L.answers ++ [a]⟩

variable {L : Ledger} {V : Validator} {payload : String}

theorem read_unreadable {e : AdapterError} (hp : Message.parse V payload = .error e) :
    L.read V payload = ⟨Frontend.recoverRequest payload ::ₘ L.owed, L.answers ++ [.unreadable payload]⟩ := by
  simp [read, hp]

theorem read_request {m : Json} (hp : Message.parse V payload = .ok m) (ht : m.strField? "type" = some "request") :
    L.read V payload = ⟨m.requestRef ::ₘ L.owed, L.answers⟩ := by
  simp [read, hp, ht]

theorem read_ignored {m : Json} (hp : Message.parse V payload = .ok m) (ht : m.strField? "type" ≠ some "request") :
    L.read V payload = L := by
  simp [read, hp]

end Ledger

namespace FrontFrame

/-- The frame's account of a ledger, with `X` still to be counted in flight: while the wire
is open, the answers written are the ledger's, and everything owed was answered or is in
flight. -/
def AccountsWith (fr : FrontFrame) (L : Ledger) (X : Multiset RequestRef) : Prop :=
  fr.link.isOpen = true →
    fr.answers = L.answers ∧ ((fr.answers.map Answer.ref : List RequestRef) : Multiset RequestRef) + fr.inFlight + X = L.owed

def Accounts (fr : FrontFrame) (L : Ledger) : Prop := fr.AccountsWith L 0

end FrontFrame

/-- The front end keeps the books of `L` in `w`. -/
def Ledger.Kept (L : Ledger) (w : World) : Prop := ∃ fr : FrontFrame, fr.Holds w ∧ fr.Accounts L

namespace FrontFrame

variable {fr : FrontFrame} {L : Ledger}

theorem AccountsWith.write {a : Answer} (h : fr.AccountsWith L {a.ref}) :
    (fr.write a).Accounts (L.give a) := by
  unfold FrontFrame.write
  split
  · next ho =>
    intro _
    obtain ⟨hr, hc⟩ := h ho
    refine ⟨by simp [hr, Ledger.give], ?_⟩
    simp only [Ledger.give]
    -- the answer's request leaves the count still to be made and joins the answered ones
    rw [← hc, List.map_append, ← Multiset.coe_add, List.map_singleton, Multiset.coe_singleton, add_zero,
      add_right_comm]
  · next ho => exact fun h' => absurd h' ho

/-- A payload owed an answer, still to be counted. -/
theorem Accounts.owe (h : fr.Accounts L) (r : RequestRef) : fr.AccountsWith ⟨r ::ₘ L.owed, L.answers⟩ {r} := by
  intro ho
  obtain ⟨h1, h2⟩ := h ho
  refine ⟨h1, ?_⟩
  simp only [add_zero] at h2
  rw [← h2, ← Multiset.singleton_add, add_comm]

theorem Accounts.serving (h : fr.Accounts L) (r : RequestRef) : (fr.serving r).Accounts ⟨r ::ₘ L.owed, L.answers⟩ := by
  intro ho
  obtain ⟨h1, h2⟩ := h ho
  refine ⟨h1, ?_⟩
  simp only [add_zero] at h2
  simp only [FrontFrame.serving, add_zero, ← h2, ← Multiset.singleton_add]
  exact add_left_comm _ _ _

theorem Accounts.close (h : fr.Accounts L) : fr.close.Accounts L := h

theorem Accounts.closeLink (L : Ledger) : fr.closeLink.Accounts L := fun ho => by simp [FrontFrame.closeLink, Link.close] at ho

theorem Accounts.relink (h : fr.Accounts L) (l : Link) (hl : l.isOpen = fr.link.isOpen) :
    { fr with link := l }.Accounts L := fun ho => h (hl ▸ ho)

theorem Accounts.reading (h : fr.Accounts L) (hc : fr.closed = false) (payload : String) :
    (fr.reading payload).Accounts (L.read fr.validator payload) := by
  cases hp : Message.parse fr.validator payload with
  | error e =>
    rw [reading_unreadable hc hp, Ledger.read_unreadable hp]
    exact (h.owe _).write
  | ok m =>
    by_cases ht : m.strField? "type" = some "request"
    · rw [reading_request hc hp ht, Ledger.read_request hp ht]
      exact h.serving _
    · rw [reading_ignored hc hp ht, Ledger.read_ignored hp ht]
      exact h

theorem Accounts.readingAll (h : fr.Accounts L) (as : List Wire.Arrival) :
    (fr.readingAll as).Accounts (if fr.closed then L else L.readAll fr.validator as) := by
  induction as generalizing fr L with
  | nil => split <;> exact h
  | cons a as ih =>
    cases a with
    | body text =>
      by_cases hc : fr.closed = true
      · simpa [readingAll, reading_of_closed hc, hc] using ih h
      · have hc' : fr.closed = false := by simpa using hc
        simpa [readingAll, Ledger.readAll, hc'] using ih (h.reading hc' text)
    | badHeader text =>
      simpa [readingAll, Ledger.readAll] using ih h

theorem Accounts.receiving (h : fr.Accounts L) (bytes : List UInt8) :
    (fr.receiving bytes).Accounts (if fr.closed then L else L.readAll fr.validator (fr.link.receive bytes).2) :=
  (h.relink _ (Link.receive_isOpen _ _)).readingAll _

theorem Accounts.ending (h : fr.Accounts L) : fr.ending.Accounts L := by
  unfold FrontFrame.ending
  split
  · exact (Accounts.closeLink L).close
  · exact h

end FrontFrame

/-- The answer a job gives: a served request's continuation answers with the outcome it hears. -/
def Job.answer? : Job Outcome Cont → Option Answer
  | .react (.resume (.served req)) o => some (.served req o)
  | _ => none

theorem Job.answer?_of_isFront {j : Job Outcome Cont} (h : j.isFront = false) : j.answer? = none := by
  rcases j with ⟨r, o⟩ | ⟨t, s⟩
  · cases r with
    | resume k => cases k <;> simp_all [Job.isFront, Cont.isFront, answer?]
    | forward t => rfl
  · rfl

/-! ## Runs -/

/-- Something the surroundings do to the adapter. -/
inductive Stimulus where
  | clientWrites (bytes : List UInt8)
  | inputEnds
  | probeEmits (m : Json)
  | probeWritesBytes (bytes : List UInt8)
  | probeHangsUp
  | connectProbe
  | openProbeListener (ep : Endpoint) (binary : Bool)
  | spawn (command : Json) (args : List Json) (opts : SpawnOptions)
  | childWrites (index : Nat) (stdout : Bool) (bytes : List UInt8)
  | childExits (index : Nat) (code signal : Json)
  | childFails (index : Nat) (message : String)

def Stimulus.act : Stimulus → Act Unit
  | .clientWrites bytes => Rig.clientWrites bytes
  | .inputEnds => Rig.inputEnds
  | .probeEmits m => Rig.probeEmits m
  | .probeWritesBytes bytes => Rig.probeWritesBytes bytes
  | .probeHangsUp => Rig.probeHangsUp
  | .connectProbe => Rig.connectProbe
  | .openProbeListener ep binary => Rig.openProbeListener ep binary
  | .spawn command args opts => Rig.spawn command args opts
  | .childWrites index stdout bytes => Rig.childWrites index stdout bytes
  | .childExits index code signal => Rig.childExits index code signal
  | .childFails index message => Rig.childFails index message

/-- One move of a run: the surroundings act, or the loop runs the next piece of its work. -/
inductive Move where
  | stimulus (s : Stimulus)
  /-- The next tick or job runs. -/
  | job
  /-- The next turn runs. -/
  | turn
  /-- The first timer due by `limit` fires. -/
  | due (limit : Nat)
  /-- The clock is set. -/
  | clock (now : Nat)

namespace World

def step (w : World) : Move → World
  | .stimulus s => w.exec s.act
  | .job =>
    match w.loop.takeJob? with
    | none => w
    | some (.tick t, l) => { w with loop := l }.exec (Act.runTurn t)
    | some (.job j, l) => { w with loop := l }.exec (Act.runJob j)
  | .turn =>
    match w.loop.takeTurn? with
    | none => w
    | some (t, l) => { w with loop := l }.exec (Act.runTurn t)
  | .due limit =>
    match w.loop.takeDue? limit with
    | none => w
    | some (t, l) => { w with loop := l }.exec (Act.runTurn t)
  | .clock now => { w with loop := { w.loop with now := now } }

/-- A run of moves. -/
def play (w : World) (ms : List Move) : World := ms.foldl step w

end World

namespace Ledger

/-- What a move adds to the books: the payloads that bytes from the client complete while
the front end is open, read with the host's validator, and the answer a served request's
continuation gives. -/
def record (L : Ledger) (w : World) : Move → Ledger
  | .stimulus (.clientWrites bytes) =>
    if w.server.closed then L else L.readAll w.host.validator (w.server.link.receive bytes).2
  | .job =>
    match w.loop.takeJob? with
    | some (.job j, _) =>
      match j.answer? with
      | some a => L.give a
      | none => L
    | _ => L
  | _ => L

/-- The books of a run. -/
def ofPlay (L : Ledger) (w : World) : List Move → Ledger
  | [] => L
  | m :: ms => (L.record w m).ofPlay (w.step m) ms

end Ledger

/-! ## Every run keeps the books -/

namespace Ledger

variable {L : Ledger} {w : World}

theorem Kept.loop {l : Loop Outcome Cont Turn} (h : L.Kept w) (hc : w.loop.cells.size ≤ l.cells.size)
    (hi : l.inFlight = w.loop.inFlight) : L.Kept { w with loop := l } := by
  obtain ⟨fr, hf, ha⟩ := h
  exact ⟨fr, ⟨FrontFrame.Sees.loop hc hi hf.1, hf.2⟩, ha⟩

/-- Engine code keeps the books. -/
theorem Kept.exec (h : L.Kept w) {a : Act Unit} (ha : ∀ fr : FrontFrame, ⦃fr.Pre⦄ a ⦃fr.Post⦄) :
    L.Kept (w.exec a) := by
  obtain ⟨fr, hf, hacc⟩ := h
  exact ⟨fr, hf.exec (ha fr), hacc⟩

theorem Kept.served (h : L.Kept w) {l : Loop Outcome Cont Turn} {req : RequestRef} {o : Outcome}
    (hj : w.loop.takeJob? = some (.job (.react (.resume (.served req)) o), l)) :
    (L.give (.served req o)).Kept ({ w with loop := l }.exec (Frontend.served req o)) := by
  obtain ⟨hcells, hin⟩ := Loop.takeJob?_job hj
  obtain ⟨fr, hf, hacc⟩ := h
  -- the job leaves the loop: the request is no longer in flight until its answer is written
  have h₁ : { fr with inFlight := l.inFlight }.Holds { w with loop := l } := by
    obtain ⟨⟨h1, h2, h3, -, h5, h6⟩, hv⟩ := hf
    exact ⟨⟨h1, h2, hcells ▸ h3, rfl, h5, h6⟩, hv⟩
  have hacc₁ : { fr with inFlight := l.inFlight }.AccountsWith L {req} := by
    intro ho
    obtain ⟨a1, a2⟩ := hacc ho
    refine ⟨a1, ?_⟩
    have hr : ((Job.react (.resume (.served req)) o).servedRef?.toList : Multiset RequestRef) = {req} := rfl
    rw [← a2, ← hf.1.2.2.2.1, hin, hr, add_zero, add_comm ({req} : Multiset RequestRef), ← add_assoc]
  rcases h₁.exec_or (Frontend.served_frame _ req o) with hw | hw
  · exact ⟨_, hw, hacc₁.write⟩
  · exact ⟨_, hw, hacc₁.write.close⟩

theorem Kept.job (h : L.Kept w) : (L.record w .job).Kept (w.step .job) := by
  unfold World.step record
  cases hj : w.loop.takeJob? with
  | none => exact h
  | some nl =>
    obtain ⟨next, l⟩ := nl
    cases next with
    | tick t =>
      obtain ⟨hcells, hin⟩ := Loop.takeJob?_tick hj
      exact (h.loop (hcells ▸ le_rfl) hin).exec fun fr => Act.runTurn_frame fr t
    | job j =>
      obtain ⟨hcells, hin⟩ := Loop.takeJob?_job hj
      cases hfront : j.isFront with
      | false =>
        simp only [Job.answer?_of_isFront hfront]
        refine (h.loop (hcells ▸ le_rfl) ?_).exec fun fr => Act.runJob_frame fr j hfront
        simp [hin, Job.servedRef?_of_isFront hfront]
      | true =>
        rcases j with ⟨r, o⟩ | ⟨t, s⟩
        · cases r with
          | resume k =>
            cases k <;> simp [Job.isFront, Cont.isFront] at hfront
            · exact h.served hj
            · simp only [Job.answer?]
              obtain ⟨fr, hf, hacc⟩ := h.loop (l := l) (hcells ▸ le_rfl) (by simp [hin, Job.servedRef?,
                Job.reaction?, Reaction.servedRef?, Cont.servedRef?])
              exact ⟨_, hf.exec (Frontend.serverClosed_frame fr), FrontFrame.Accounts.closeLink L⟩
          | forward t => simp [Job.isFront] at hfront
        · simp [Job.isFront] at hfront

theorem Kept.step (h : L.Kept w) : ∀ m : Move, (L.record w m).Kept (w.step m)
  | .stimulus (.clientWrites bytes) => by
    obtain ⟨fr, hf, hacc⟩ := h
    refine ⟨fr.receiving bytes, hf.exec_safe (Frontend.receive_safe bytes) (Frontend.receive_frame fr bytes), ?_⟩
    have hc : w.server.closed = fr.closed := hf.1.2.1
    have hl : w.server.link = fr.link := hf.1.1
    simp only [record, hc, hl, hf.2]
    exact hacc.receiving bytes
  | .stimulus .inputEnds => by
    obtain ⟨fr, hf, hacc⟩ := h
    exact ⟨fr.ending, hf.exec (Frontend.inputEnded_frame fr), hacc.ending⟩
  | .stimulus (.probeEmits m) => h.exec fun fr => Rig.probeEmits_frame fr m
  | .stimulus (.probeWritesBytes bytes) => h.exec fun fr => Rig.probeWritesBytes_frame fr bytes
  | .stimulus .probeHangsUp => h.exec fun fr => Rig.probeHangsUp_frame fr
  | .stimulus .connectProbe => h.exec fun fr => Rig.connectProbe_frame fr
  | .stimulus (.openProbeListener ep binary) => h.exec fun fr => Rig.openProbeListener_frame fr ep binary
  | .stimulus (.spawn command args opts) => h.exec fun fr => Rig.spawn_frame fr command args opts
  | .stimulus (.childWrites index stdout bytes) => h.exec fun fr => Rig.childWrites_frame fr index stdout bytes
  | .stimulus (.childExits index code signal) => h.exec fun fr => Rig.childExits_frame fr index code signal
  | .stimulus (.childFails index message) => h.exec fun fr => Rig.childFails_frame fr index message
  | .job => h.job
  | .turn => by
    unfold World.step record
    cases ht : w.loop.takeTurn? with
    | none => exact h
    | some tl =>
      obtain ⟨hc, hi⟩ := Loop.takeTurn?_eq ht
      exact (h.loop (hc ▸ le_rfl) hi).exec fun fr => Act.runTurn_frame fr tl.1
  | .due limit => by
    dsimp only [World.step, record]
    cases ht : w.loop.takeDue? limit with
    | none => exact h
    | some tl =>
      obtain ⟨hc, hi⟩ := Loop.takeDue?_eq ht
      exact (h.loop (hc ▸ le_rfl) hi).exec fun fr => Act.runTurn_frame fr tl.1
  | .clock now => h.loop le_rfl rfl

/-- The run lemma: every move keeps the books, so every run does. -/
theorem Kept.play (h : L.Kept w) (ms : List Move) : (L.ofPlay w ms).Kept (w.play ms) := by
  induction ms generalizing L w with
  | nil => exact h
  | cons m ms ih => exact ih (h.step m)

end Ledger

/-- The frame of a fresh front end that reads with `V`: an open wire, nothing in flight, nothing
answered. -/
def FrontFrame.initial (V : Validator) : FrontFrame := ⟨Link.fresh, false, 0, 0, [], V⟩

theorem FrontFrame.initial_holds (s : Setup) : (FrontFrame.initial s.host.validator).Holds (World.create s) := by
  apply FrontFrame.Holds.exec (Frontend.newEngine_frame _)
  refine ⟨⟨rfl, rfl, Nat.zero_le _, ?_, .nil, fun i hi => absurd hi (by simp [World.blank]), fun _ => rfl⟩, rfl⟩
  simp [World.blank, Loop.inFlight, Loop.empty, initial]

/-- The wire of a fresh adapter is open. -/
theorem World.create_link_isOpen (s : Setup) : (World.create s).server.link.isOpen = true := by
  rw [(FrontFrame.initial_holds s).1.1]
  rfl

theorem Ledger.kept_create (s : Setup) : Ledger.empty.Kept (World.create s) :=
  ⟨_, FrontFrame.initial_holds s, fun _ => ⟨rfl, by simp [FrontFrame.initial, Ledger.empty]⟩⟩

/-- Counting by one from `1`, the `i`-th number is exactly `i + 1` as long as `i < 2^53`. -/
theorem Double.iterate_add_one_one {i : Nat} (h : i < 2 ^ 53) : (· + 1)^[i] (1 : Double) = Double.ofNat (i + 1) := by
  have hone : Double.ofInt 1 = 1 := Double.ofInt_of_nonneg (by norm_num)
  have hcount := Double.iterate_add_one_ofInt (s := 1) (by norm_num) i (by omega)
  rw [hone] at hcount
  rw [hcount, Double.ofInt_of_nonneg (by omega)]
  congr 1
  omega

@[simp] theorem FrontFrame.link_reading (fr : FrontFrame) (payload : String) : (fr.reading payload).link = fr.link := by
  unfold FrontFrame.reading
  split
  · rfl
  · split
    · unfold FrontFrame.write; split <;> rfl
    · split <;> rfl

@[simp] theorem FrontFrame.link_readingAll (fr : FrontFrame) (as : List Wire.Arrival) :
    (fr.readingAll as).link = fr.link := by
  induction as generalizing fr with
  | nil => rfl
  | cons a as ih =>
    cases a with
    | body text => simp [FrontFrame.readingAll, ih]
    | badHeader text => simp [FrontFrame.readingAll, ih]

/-- Bytes from the client leave the wire open when it was. -/
theorem World.clientWrites_link_isOpen {w : World} {fr : FrontFrame} (h : fr.Holds w) (bytes : List UInt8) :
    (w.step (.stimulus (.clientWrites bytes))).server.link.isOpen = w.server.link.isOpen := by
  have h' := h.exec_safe (Frontend.receive_safe bytes) (Frontend.receive_frame fr bytes)
  rw [World.step, Stimulus.act, Rig.clientWrites, h'.1.1, h.1.1]
  simp [FrontFrame.receiving]

/-- The setup the tests start from. -/
def Setup.plain : Setup :=
  ⟨⟨default, .num 10000, WatchConfig.standard, true⟩, 4000, [], [], [], ⟨0, fun _ => "", Path.hostTree, Validator.standard⟩, default, false⟩

/-- A client's first request, framed as the client writes it. -/
def initializeRequestBytes : List UInt8 :=
  (String.toUTF8 "Content-Length: 49\r\n\r\n\x7b\"seq\":1,\"type\":\"request\",\"command\":\"initialize\"\x7d").toList

end DapBridge
