import DapBridge.Proofs.ProbeChannel
import DapBridge.Proofs.Settlement
import DapBridge.Proofs.Frames

/-!
# A probe channel over every run: delivery in order, one end, one disconnect

The channel of `ProbeChannel` is driven on a bench of its own by everything that can happen to
it (`Call`): its read loop is started, chunks arrive on its stream, the stream ends, closes or
fails, the channel is disabled, its context is closed, and commands are written. Stream events
reach the channel as the calls of the run; what the stream holds before the loop starts comes
back as chunks.

What a run received is the chunks that arrived while the read loop ran and the channel had not
finished; what it posted is what each call appended to the context's queue. Every call keeps an
invariant (`inv_step`) relating the two, and from it (`channel_delivery`):

* what was posted is a prefix of the JSON objects decoded from what was received, in order, and
  all of them unless the context was closed, in which case the channel disabled itself;
* once the channel has finished, nothing more is received or posted;
* `disconnected` is said by the call that finishes the channel, unless that call leaves it
  disabled, and by no other call, so at most once;
* the read loop's promise has settled exactly when the channel has finished;
* a write fails with a transport error whenever the channel has no live stream.

A channel that disables itself because its context was closed finishes without saying
`disconnected`, though nothing called `disable` (`closed_chunk_disables`,
`context_close_finishes_silently`).
-/

namespace DapBridge

/-! ## The stream's events, as functions of the world -/

namespace World

variable (w : World)

/-- A stream's end, close or failure, heard by the channel reading it. -/
def hear (s : Nat) (reason : Option AdapterError) : World :=
  match (w.pipeAt s).reader with
  | some c => w.finishChan c reason
  | none => w

/-- Bytes arriving on a stream: its reader takes them, or the stream holds them. -/
def arrive (s : Nat) (bytes : List UInt8) : World :=
  match (w.pipeAt s).reader with
  | some c => w.receive c bytes
  | none => w.withPipe s fun p => { p with buffered := p.buffered ++ [bytes] }

/-- A channel's read loop holding the loop's next promise, before it reads or ends. -/
def armLoop (c : Nat) : World :=
  (w.setLoop w.loop.fresh.2).withChannel c fun x => { x with loop := some w.loop.cells.size, handler := some .observer }

section Start

variable {w : World} {c : Nat}

@[simp] theorem armLoop_loop : (w.armLoop c).loop = w.loop.fresh.2 := rfl
@[simp] theorem armLoop_pipes : (w.armLoop c).pipes = w.pipes := rfl
@[simp] theorem armLoop_inboxes : (w.armLoop c).inboxes = w.inboxes := rfl
@[simp] theorem disconnects_armLoop : (w.armLoop c).disconnects = w.disconnects := rfl
@[simp] theorem pipeAt_armLoop (j : Nat) : (w.armLoop c).pipeAt j = w.pipeAt j := rfl
@[simp] theorem inboxAt_armLoop (j : Nat) : (w.armLoop c).inboxAt j = w.inboxAt j := rfl
@[simp] theorem armLoop_channels_size : (w.armLoop c).channels.size = w.channels.size := by simp [armLoop]

theorem channelAt_armLoop (hv : c < w.channels.size) :
    (w.armLoop c).channelAt c = { w.channelAt c with loop := some w.loop.cells.size, handler := some .observer } := by
  simp [armLoop, hv]

/-- The armed loop's promise is new, so not settled yet. -/
theorem outcome?_armLoop_self : (w.armLoop c).loop.outcome? w.loop.cells.size = none := by
  rw [armLoop_loop, Loop.outcome?_fresh]
  exact w.loop.outcome?_of_size_le (Nat.le_refl _)

theorem startLoop_of_finished (hl : (w.channelAt c).loop = none) (hf : (w.channelAt c).finished = true) :
    w.startLoop c = (w.armLoop c).setLoop ((w.armLoop c).loop.settle w.loop.cells.size (.ok .none)) := by
  simp [startLoop, armLoop, hl, hf]

theorem startLoop_of_stream {s : Nat} (hl : (w.channelAt c).loop = none) (hf : (w.channelAt c).finished = false)
    (hs : (w.channelAt c).connection = some s) : w.startLoop c = (w.armLoop c).readStream c s := by
  simp [startLoop, armLoop, hl, hf, hs]

theorem startLoop_of_none (hl : (w.channelAt c).loop = none) (hf : (w.channelAt c).finished = false)
    (hs : (w.channelAt c).connection = none) :
    w.startLoop c = (w.armLoop c).finishChan c (some (.transport "IPC channel has neither a listener nor a connection")) := by
  simp [startLoop, armLoop, hl, hf, hs]

@[simp] theorem startLoop_inboxes : (w.startLoop c).inboxes = w.inboxes := by
  cases hl : (w.channelAt c).loop with
  | some p => simp [startLoop, hl]
  | none =>
    cases hf : (w.channelAt c).finished with
    | true => simp [startLoop_of_finished hl hf]
    | false =>
      cases hs : (w.channelAt c).connection with
      | none => simp [startLoop_of_none hl hf hs]
      | some s => simp [startLoop_of_stream hl hf hs]

/-- The read loop's promise, once asked for, is the one `runAcceptAndRead` returns. -/
theorem loop_startLoop (hv : c < w.channels.size) :
    ((w.startLoop c).channelAt c).loop = some ((w.channelAt c).loop.getD w.loop.cells.size) := by
  cases hl : (w.channelAt c).loop with
  | some p => simp [startLoop, hl]
  | none =>
    cases hf : (w.channelAt c).finished with
    | true => rw [startLoop_of_finished hl hf, channelAt_setLoop, channelAt_armLoop hv]; rfl
    | false =>
      cases hs : (w.channelAt c).connection with
      | none =>
        rw [startLoop_of_none hl hf hs, channelAt_finishChan (by simpa using hv), channelAt_armLoop hv]
        split <;> rfl
      | some s =>
        rw [startLoop_of_stream hl hf hs, channelAt_readStream c s (by simpa using hv), channelAt_armLoop hv]
        rfl

end Start

@[simp] theorem inboxAt_hear (s : Nat) (r : Option AdapterError) (j : Nat) : (w.hear s r).inboxAt j = w.inboxAt j := by
  unfold hear
  split <;> simp

end World

namespace Act

variable {w : World}

theorem pipeEvent_run {s : Nat} (h : ∀ c, (w.pipeAt s).reader = some c → Shaped c w)
    (reason : Option AdapterError) : (pipeEvent s reason).run w = .ok () (w.hear s reason) := by
  cases hr : (w.pipeAt s).reader with
  | none => simp [pipeEvent, World.hear, EStateM.run_bind, hr]
  | some c => simp [pipeEvent, World.hear, EStateM.run_bind, hr, finishChannel_run (h c hr)]

theorem runTurn_pipeData_run {s : Nat} (hp : (w.pipeAt s).probeSide = false)
    (h : ∀ c, (w.pipeAt s).reader = some c → Shaped c w) (bytes : List UInt8) :
    (runTurn (.pipeData s bytes)).run w = .ok () (w.arrive s bytes) := by
  cases hr : (w.pipeAt s).reader with
  | none => simp [runTurn, World.arrive, EStateM.run_bind, hp, hr]
  | some c => simp [runTurn, World.arrive, EStateM.run_bind, hp, hr, channelData_run (h c hr)]

end Act

namespace ChannelDelivery

open Act

/-! ## The channel as a transition system -/

/-- What can happen to a channel on the bench: its user starts the read loop, disables it or
writes a command; its stream delivers a chunk, ends, closes or fails; its context is closed. -/
inductive Call where
  | start
  | chunk (bytes : List UInt8)
  | streamEnd
  | streamClose
  | streamError (message : String)
  | disable
  | closeContext
  | write (command : Json)

variable (c s : Nat)

/-- One call on channel `c`, whose stream is `s`. -/
def step (w : World) : Call → World
  | .start => w.exec (discard (runAcceptAndRead c .observer))
  | .chunk bytes => w.exec (runTurn (.pipeData s bytes))
  | .streamEnd => w.exec (runTurn (.pipeEnd s))
  | .streamClose => w.exec (runTurn (.pipeClose s))
  | .streamError m => w.exec (runTurn (.pipeError s m))
  | .disable => w.exec (disableChannel c)
  | .closeContext => w.exec (closeInbox (w.channelAt c).inbox)
  | .write command => w.exec (channelWrite c command)

/-- Calls one after another. -/
def run : World → List Call → World
  | w, [] => w
  | w, x :: xs => run (step c s w x) xs

/-- The chunk a call hands the channel: one that arrives while the read loop runs and the
channel has not finished. -/
def Call.receives (w : World) : Call → List (List UInt8)
  | .chunk bytes => if (w.channelAt c).loop.isSome ∧ (w.channelAt c).finished = false then [bytes] else []
  | _ => []

/-- What a call posts on the channel's context: what it appends to the context's queue. -/
def Call.posts (w : World) (x : Call) : List Errand :=
  ((step c s w x).inboxAt (w.channelAt c).inbox).queue.drop (w.inboxAt (w.channelAt c).inbox).queue.length

/-- What a run of calls hands the channel, in order. -/
def received : World → List Call → List (List UInt8)
  | _, [] => []
  | w, x :: xs => x.receives c w ++ received (step c s w x) xs

/-- What a run of calls posts on the channel's context, in order. -/
def posted : World → List Call → List Errand
  | _, [] => []
  | w, x :: xs => x.posts c s w ++ posted (step c s w x) xs

/-- The errands a channel owes its context for the chunks it received: one message for each
JSON object among their payloads, in order. -/
def due (framing : Framing) (R : List (List UInt8)) : List Errand :=
  (World.objects ((Decoder.fresh framing).payloads R)).map (.channelMessage c)

variable {c s} {w : World}

theorem run_append (w : World) (xs ys : List Call) : run c s w (xs ++ ys) = run c s (run c s w xs) ys := by
  induction xs generalizing w with
  | nil => rfl
  | cons x xs ih => exact ih _

theorem posts_of_queue {x : Call}
    (h : ((step c s w x).inboxAt (w.channelAt c).inbox).queue = (w.inboxAt (w.channelAt c).inbox).queue) :
    x.posts c s w = [] := by
  simp [Call.posts, h]

/-! ### Each call as a function of the world -/

theorem step_start (h : Shaped c w) : step c s w .start = w.startLoop c :=
  World.exec_discard_of_run _ (runAcceptAndRead_run h)

theorem step_chunk (hp : (w.pipeAt s).probeSide = false) (h : ∀ c, (w.pipeAt s).reader = some c → Shaped c w)
    (bytes : List UInt8) : step c s w (.chunk bytes) = w.arrive s bytes :=
  World.exec_of_run _ (runTurn_pipeData_run hp h bytes)

theorem step_streamEnd (hp : (w.pipeAt s).probeSide = false) (h : ∀ c, (w.pipeAt s).reader = some c → Shaped c w) :
    step c s w .streamEnd = (w.withPipe s fun p => { p with ended := true }).hear s none := by
  have hk : ∀ j, ((w.withPipe s fun p => { p with ended := true }).pipeAt j).reader = (w.pipeAt j).reader ∧
      ((w.withPipe s fun p => { p with ended := true }).pipeAt j).far = (w.pipeAt j).far := by
    intro j
    simp only [World.pipeAt_withPipe]
    split <;> simp
  apply World.exec_of_run
  rw [runTurn_pipeEnd hp]
  exact pipeEvent_run (fun c hr => (h c ((hk s).1 ▸ hr)).frame (by simp) (by simp) fun j => (hk j).2) none

theorem step_streamClose (h : ∀ c, (w.pipeAt s).reader = some c → Shaped c w) :
    step c s w .streamClose = w.hear s none :=
  World.exec_of_run _ (pipeEvent_run h none)

theorem step_streamError (h : ∀ c, (w.pipeAt s).reader = some c → Shaped c w) (m : String) :
    step c s w (.streamError m) = w.hear s (some (.transport s!"IPC connection failed: {m}")) :=
  World.exec_of_run _ (pipeEvent_run h _)

theorem step_disable (h : Shaped c w) : step c s w .disable = w.disableChan c :=
  World.exec_of_run _ (disableChannel_run h)

theorem step_closeContext :
    step c s w .closeContext = w.withInbox (w.channelAt c).inbox fun b => { b with closed := true, queue := [] } :=
  rfl

theorem step_write (h : Shaped c w) (command : Json) :
    step c s w (.write command) = w ∨ ∃ bytes, step c s w (.write command) = w.note (.bytes bytes) := by
  rcases channelWrite_run h.far command with ⟨e, he⟩ | ⟨bytes, hb⟩
  · exact .inl (by simp [step, World.exec, he])
  · exact .inr ⟨bytes, World.exec_of_run _ hb⟩

/-! ## What every world of a run keeps -/

/-- What holds of the channel `c`, its stream `s` and its context `i` in every world a run
reaches, whatever was received and posted: the channel keeps its shape, its stream is `s` and
only `c` reads it, the read loop's promise is settled exactly when the channel has finished,
and a closed context holds nothing. -/
structure Wired (framing : Framing) (c s i : Nat) (w : World) : Prop extends Shaped c w where
  inbox : (w.channelAt c).inbox = i
  inbox_lt : i < w.inboxes.size
  stream_lt : s < w.pipes.size
  framed : (w.channelAt c).framing = framing
  stream : (w.channelAt c).connection = none ∨ (w.channelAt c).connection = some s
  probeSide : (w.pipeAt s).probeSide = false
  reader : (w.pipeAt s).reader = none ∨ (w.pipeAt s).reader = some c
  reads : (w.pipeAt s).reader = some c → (w.channelAt c).loop.isSome
  promise : ∀ p, (w.channelAt c).loop = some p →
    p < w.loop.cells.size ∧ w.loop.outcome? p = if (w.channelAt c).finished then some (.ok .none) else none
  dropped : (w.inboxAt i).closed = true → (w.inboxAt i).queue = []

namespace Wired

variable {framing : Framing} {i : Nat}

theorem shaped_reader (h : Wired framing c s i w) : ∀ c', (w.pipeAt s).reader = some c' → Shaped c' w := by
  intro c' hr
  rcases h.reader with h' | h'
  · rw [h'] at hr; cases hr
  · rw [h'] at hr; cases hr; exact h.toShaped

/-- A change that leaves the channel, what the streams are read by and lead to, the context's
flags and the promises as they were keeps the wiring. -/
theorem frame (h : Wired framing c s i w) {w' : World} (hc : w'.channelAt c = w.channelAt c)
    (hcs : w'.channels.size = w.channels.size) (hps : w'.pipes.size = w.pipes.size)
    (hp : ∀ j, (w'.pipeAt j).reader = (w.pipeAt j).reader ∧ (w'.pipeAt j).far = (w.pipeAt j).far ∧
      (w'.pipeAt j).probeSide = (w.pipeAt j).probeSide)
    (his : w'.inboxes.size = w.inboxes.size) (hd : (w'.inboxAt i).closed = true → (w'.inboxAt i).queue = [])
    (hsz : w'.loop.cells.size = w.loop.cells.size) (ho : ∀ q, w'.loop.outcome? q = w.loop.outcome? q) :
    Wired framing c s i w' where
  toShaped := h.toShaped.frame hc hcs fun j => (hp j).2.1
  inbox := hc ▸ h.inbox
  inbox_lt := his ▸ h.inbox_lt
  stream_lt := hps ▸ h.stream_lt
  framed := hc ▸ h.framed
  stream := hc ▸ h.stream
  probeSide := (hp s).2.2.trans h.probeSide
  reader := (hp s).1 ▸ h.reader
  reads hr := hc ▸ h.reads ((hp s).1 ▸ hr)
  promise p hl := by rw [hsz, ho, hc]; exact h.promise p (hc ▸ hl)
  dropped := hd

/-- A change of the channel's decoder or of whether it is disabled keeps the wiring. -/
theorem update (h : Wired framing c s i w) (f : Channel → Channel)
    (hfr : (f (w.channelAt c)).framing = (w.channelAt c).framing) (hin : (f (w.channelAt c)).inbox = (w.channelAt c).inbox)
    (hl : (f (w.channelAt c)).listener = (w.channelAt c).listener)
    (hcn : (f (w.channelAt c)).connection = (w.channelAt c).connection)
    (hlp : (f (w.channelAt c)).loop = (w.channelAt c).loop) (hfi : (f (w.channelAt c)).finished = (w.channelAt c).finished)
    (ho : (f (w.channelAt c)).onConnected = (w.channelAt c).onConnected)
    (hod : (f (w.channelAt c)).onDisconnected = (w.channelAt c).onDisconnected) :
    Wired framing c s i (w.withChannel c f) := by
  have hch : (w.withChannel c f).channelAt c = f (w.channelAt c) := by simp [h.valid]
  exact {
    toShaped := h.toShaped.update f (hl.trans h.listener) hcn ho fun hf => hod.trans (h.disconnected (hfi ▸ hf))
    inbox := by rw [hch, hin]; exact h.inbox
    inbox_lt := by simpa using h.inbox_lt
    stream_lt := by simpa using h.stream_lt
    framed := by rw [hch, hfr]; exact h.framed
    stream := by rw [hch, hcn]; exact h.stream
    probeSide := by simpa using h.probeSide
    reader := by simpa using h.reader
    reads := fun hr => by rw [hch, hlp]; exact h.reads (by simpa using hr)
    promise := fun p hp => by rw [hch, hfi]; rw [hch, hlp] at hp; simpa using h.promise p hp
    dropped := by simpa using h.dropped }

theorem finishChan (h : Wired framing c s i w) (r : Option AdapterError) : Wired framing c s i (w.finishChan c r) := by
  by_cases hf : (w.channelAt c).finished = true
  · rwa [World.finishChan_of_finished hf]
  have hf' : (w.channelAt c).finished = false := by simpa using hf
  have hch := World.channelAt_finishChan (w := w) h.valid r
  simp only [hf', Bool.false_eq_true, if_false] at hch
  obtain ⟨r1, -, r3⟩ := World.pipeAt_finishChan (w := w) (c := c) s r
  exact {
    toShaped := h.toShaped.finishChan r
    inbox := by rw [hch]; exact h.inbox
    inbox_lt := by simpa using h.inbox_lt
    stream_lt := by simpa using h.stream_lt
    framed := by rw [hch]; exact h.framed
    stream := by rw [hch]; exact h.stream
    probeSide := r3.trans h.probeSide
    reader := r1 ▸ h.reader
    reads := fun hr => by rw [hch]; exact h.reads (r1 ▸ hr)
    promise := fun p hp => by
      have hp' : (w.channelAt c).loop = some p := by rw [hch] at hp; exact hp
      obtain ⟨hlt, ho⟩ := h.promise p hp'
      rw [hf'] at ho
      refine ⟨by simpa using hlt, ?_⟩
      simp only [hch, World.outcome?_finishChan, hf', hp', and_self, if_true]
      exact w.loop.outcome?_settle_self _ hlt (by simpa using ho)
    dropped := by simpa using h.dropped }

theorem disableChan (h : Wired framing c s i w) : Wired framing c s i (w.disableChan c) := by
  unfold World.disableChan
  split
  · exact h
  · exact (h.update _ rfl rfl rfl rfl rfl rfl rfl rfl).finishChan none

/-- Starting to read the stream, once the loop has its promise, makes `c` the stream's reader. -/
theorem readStream (h : Wired framing c s i w) (hl : (w.channelAt c).loop.isSome) :
    Wired framing c s i (w.readStream c s) := by
  have hch := World.channelAt_readStream (w := w) (c := c) (s := s) h.valid
  have hps : (w.readStream c s).pipeAt s = { w.pipeAt s with reader := some c, buffered := [] } := by
    simp [World.pipeAt_readStream, h.stream_lt]
  have hfar : ∀ j, ((w.readStream c s).pipeAt j).far = (w.pipeAt j).far := by
    intro j
    rw [World.pipeAt_readStream]
    split <;> rfl
  exact {
    valid := by simpa using h.valid
    listener := by rw [hch]; exact h.listener
    far := fun j hj => by rw [hfar]; exact h.far j (by rw [hch] at hj; exact hj)
    connected := by rw [hch]; simp
    disconnected := by rw [hch]; exact h.disconnected
    inbox := by rw [hch]; exact h.inbox
    inbox_lt := by simpa using h.inbox_lt
    stream_lt := by simpa using h.stream_lt
    framed := by rw [hch]; exact h.framed
    stream := by rw [hch]; exact h.stream
    probeSide := by rw [hps]; exact h.probeSide
    reader := by rw [hps]; exact .inr rfl
    reads := fun _ => by rw [hch]; exact hl
    promise := fun p hp => by
      rw [hch] at hp ⊢
      rw [World.readStream_cells, Loop.outcome?_of_cells (World.readStream_cells (w := w) c s)]
      exact h.promise p hp
    dropped := by rw [World.inboxAt_inboxes i (World.readStream_inboxes (w := w) c s)]; exact h.dropped }

/-- Giving the read loop its promise keeps the wiring, so long as the promise is settled
exactly when the channel has finished. -/
theorem reloop (h : Wired framing c s i w) {w' : World} {p : Nat}
    (hc : w'.channelAt c = { w.channelAt c with loop := some p, handler := some .observer })
    (hcs : w'.channels.size = w.channels.size) (hps : w'.pipes = w.pipes) (hi : w'.inboxes = w.inboxes)
    (hlt : p < w'.loop.cells.size)
    (ho : w'.loop.outcome? p = if (w.channelAt c).finished then some (.ok .none) else none) :
    Wired framing c s i w' := by
  have hpipe : ∀ j, w'.pipeAt j = w.pipeAt j := fun j => by simp [World.pipeAt, hps]
  exact {
    valid := hcs ▸ h.valid
    listener := by rw [hc]; exact h.listener
    far := fun j hj => by rw [hpipe]; exact h.far j (by rw [hc] at hj; exact hj)
    connected := by rw [hc]; exact h.connected
    disconnected := by rw [hc]; exact h.disconnected
    inbox := by rw [hc]; exact h.inbox
    inbox_lt := by rw [hi]; exact h.inbox_lt
    stream_lt := by rw [hps]; exact h.stream_lt
    framed := by rw [hc]; exact h.framed
    stream := by rw [hc]; exact h.stream
    probeSide := by rw [hpipe]; exact h.probeSide
    reader := by rw [hpipe]; exact h.reader
    reads := fun _ => by rw [hc]; rfl
    promise := fun q hq => by
      rw [hc] at hq ⊢
      cases hq
      exact ⟨hlt, ho⟩
    dropped := by rw [World.inboxAt_inboxes i hi]; exact h.dropped }

/-- The read loop given its promise, on a channel that has not finished. -/
theorem armLoop (h : Wired framing c s i w) (hf : (w.channelAt c).finished = false) :
    Wired framing c s i (w.armLoop c) :=
  h.reloop (World.channelAt_armLoop h.valid) (by simp) (by simp) (by simp) (by simp) (by
    simp only [hf, Bool.false_eq_true, if_false]
    exact World.outcome?_armLoop_self)

end Wired

/-! ## The invariant -/

/-- What holds after every run, given what it received (`R`) and posted (`P`): a running channel
that has not finished reads its stream, with the decoder of what it received; what was posted
is a prefix of what the channel owes, all of it unless the context is closed and the channel
disabled; while the context is open its queue is what was posted; a disabled channel has
finished. -/
structure Inv (framing : Framing) (c s i : Nat) (w : World) (R : List (List UInt8)) (P : List Errand) : Prop
    extends Wired framing c s i w where
  running : (w.channelAt c).loop.isSome → (w.channelAt c).finished = false → (w.pipeAt s).reader = some c
  stopped : (w.channelAt c).disabled = true → (w.channelAt c).finished = true
  unread : (w.channelAt c).loop = none → R = []
  decoded : (w.channelAt c).loop.isSome → (w.channelAt c).finished = false →
    ∃ ps, (Decoder.fresh framing).feed R = .ok ((w.channelAt c).decoder, ps)
  posted : P <+: due c framing R
  refused : P ≠ due c framing R → (w.inboxAt i).closed = true ∧ (w.channelAt c).disabled = true
  waiting : (w.inboxAt i).closed = false → (w.inboxAt i).queue = P

namespace Inv

variable {framing : Framing} {i : Nat} {R : List (List UInt8)} {P : List Errand}

/-- While the context is open, everything owed was posted. -/
theorem owed (h : Inv framing c s i w R P) (hc : (w.inboxAt i).closed = false) : P = due c framing R := by
  by_cases he : P = due c framing R
  · exact he
  · have hcl := (h.refused he).1
    rw [hc] at hcl
    cases hcl

/-- A change that leaves the channel, the streams' readers and the context as they were keeps
the invariant. -/
theorem frame (h : Inv framing c s i w R P) {w' : World} (hc : w'.channelAt c = w.channelAt c)
    (hcs : w'.channels.size = w.channels.size) (hps : w'.pipes.size = w.pipes.size)
    (hp : ∀ j, (w'.pipeAt j).reader = (w.pipeAt j).reader ∧ (w'.pipeAt j).far = (w.pipeAt j).far ∧
      (w'.pipeAt j).probeSide = (w.pipeAt j).probeSide)
    (his : w'.inboxes.size = w.inboxes.size) (hi : w'.inboxAt i = w.inboxAt i)
    (hsz : w'.loop.cells.size = w.loop.cells.size) (ho : ∀ q, w'.loop.outcome? q = w.loop.outcome? q) :
    Inv framing c s i w' R P where
  toWired := h.toWired.frame hc hcs hps hp his (by rw [hi]; exact h.dropped) hsz ho
  running := by rw [hc, (hp s).1]; exact h.running
  stopped := by rw [hc]; exact h.stopped
  unread := by rw [hc]; exact h.unread
  decoded := by rw [hc]; exact h.decoded
  posted := h.posted
  refused := by rw [hc, hi]; exact h.refused
  waiting := by rw [hi]; exact h.waiting

theorem note (h : Inv framing c s i w R P) (n : Note) : Inv framing c s i (w.note n) R P :=
  h.frame (by simp) (by simp) (by simp) (by simp) (by simp) (by simp) (by simp) (by simp)

theorem finishChan (h : Inv framing c s i w R P) (r : Option AdapterError) :
    Inv framing c s i (w.finishChan c r) R P := by
  by_cases hf : (w.channelAt c).finished = true
  · rwa [World.finishChan_of_finished hf]
  have hch := World.channelAt_finishChan (w := w) h.valid r
  simp only [hf, Bool.false_eq_true, if_false] at hch
  exact {
    toWired := h.toWired.finishChan r
    running := fun _ hf' => by simp [hch] at hf'
    stopped := fun _ => by rw [hch]
    unread := by rw [hch]; exact h.unread
    decoded := fun _ hf' => by simp [hch] at hf'
    posted := h.posted
    refused := by rw [hch, World.inboxAt_finishChan]; exact h.refused
    waiting := by rw [World.inboxAt_finishChan]; exact h.waiting }

theorem disableChan (h : Inv framing c s i w R P) : Inv framing c s i (w.disableChan c) R P := by
  by_cases hd : (w.channelAt c).disabled = true
  · rwa [World.disableChan_of_disabled hd]
  have hch := World.channelAt_disableChan (w := w) h.valid
  simp only [hd, Bool.false_eq_true, if_false] at hch
  exact {
    toWired := h.toWired.disableChan
    running := fun _ hf' => by simp [hch] at hf'
    stopped := fun _ => by rw [hch]
    unread := by rw [hch]; exact h.unread
    decoded := fun _ hf' => by simp [hch] at hf'
    posted := h.posted
    refused := fun hne => ⟨by rw [World.inboxAt_disableChan]; exact (h.refused hne).1, by rw [hch]⟩
    waiting := by rw [World.inboxAt_disableChan]; exact h.waiting }

theorem hear (h : Inv framing c s i w R P) (r : Option AdapterError) : Inv framing c s i (w.hear s r) R P := by
  unfold World.hear
  rcases h.reader with hr | hr <;> rw [hr]
  · exact h
  · exact h.finishChan r

/-- What a finished channel owes does not change when the chunks it received carry no more. -/
theorem reowe (h : Inv framing c s i w R P) {R' : List (List UInt8)} (hR : due c framing R' = due c framing R)
    (hl : (w.channelAt c).loop.isSome) (hf : (w.channelAt c).finished = true) : Inv framing c s i w R' P where
  toWired := h.toWired
  running := h.running
  stopped := h.stopped
  unread := by simp [Option.isSome_iff_ne_none.1 hl]
  decoded := by simp [hf]
  posted := hR ▸ h.posted
  refused := hR ▸ h.refused
  waiting := h.waiting

section Receive

variable {bytes : List UInt8} {ps₀ ps : List String} {d : Decoder}

/-- The chunks received so far decode, and one more pushes through: what the channel owes grows
by the objects among its payloads. -/
theorem due_append_chunk (hfeed : (Decoder.fresh framing).feed R = .ok ((w.channelAt c).decoder, ps₀))
    (hp : (w.channelAt c).decoder.push bytes = .ok (d, ps)) :
    (Decoder.fresh framing).feed (R ++ [bytes]) = .ok (d, ps₀ ++ ps) ∧
      due c framing (R ++ [bytes]) = due c framing R ++ (World.objects ps).map (.channelMessage c) := by
  refine ⟨by simp [Decoder.feed_append_chunk, hfeed, hp, Except.bind, Except.map], ?_⟩
  simp [due, Decoder.payloads_append_chunk hfeed, hp, Decoder.payloads_of_feed hfeed, World.objects]

theorem receive_open (h : Inv framing c s i w R P) (hr : (w.pipeAt s).reader = some c)
    (hf : (w.channelAt c).finished = false)
    (hfeed : (Decoder.fresh framing).feed R = .ok ((w.channelAt c).decoder, ps₀))
    (hp : (w.channelAt c).decoder.push bytes = .ok (d, ps)) (hc : (w.inboxAt i).closed = false) :
    Inv framing c s i (w.receive c bytes) (R ++ [bytes]) (P ++ (World.objects ps).map (.channelMessage c)) ∧
      ((w.receive c bytes).inboxAt i).queue = (w.inboxAt i).queue ++ (World.objects ps).map (.channelMessage c) ∧
      ((w.receive c bytes).inboxAt i).closed = false ∧
      (w.receive c bytes).channelAt c = { w.channelAt c with decoder := d } ∧
      (w.receive c bytes).disconnects = w.disconnects := by
  have hw : w.receive c bytes =
      ps.foldl (fun w p => w.deliverPayload c p) (w.withChannel c fun x => { x with decoder := d }) := by
    simp [World.receive, hf, hp]
  have hch₂ : (w.withChannel c fun x => { x with decoder := d }).channelAt c = { w.channelAt c with decoder := d } := by
    simp [h.valid]
  have hi₂ : ((w.withChannel c fun x => { x with decoder := d }).channelAt c).inbox = i := by rw [hch₂]; exact h.inbox
  obtain ⟨h1, h2, h3, h4, h5, h6, h7, h8⟩ := World.foldl_deliver_open c ps (w.withChannel c fun x => { x with decoder := d })
    (by rw [hi₂]; simpa using h.inbox_lt) (by rw [hi₂]; simpa using hc)
  rw [hi₂, World.inboxAt_withChannel] at h2
  rw [hi₂] at h3
  obtain ⟨hfeed', hdue⟩ := due_append_chunk hfeed hp
  have hP := h.owed hc
  rw [← hw, hch₂] at h1
  rw [← hw] at h2 h3 h4 h5 h6 h7 h8
  have hl := h.reads hr
  have hpipe : ∀ j, (w.receive c bytes).pipeAt j = w.pipeAt j := fun j => by simp [World.pipeAt, h4]
  have hq : ((w.receive c bytes).inboxAt i).queue = P ++ (World.objects ps).map (.channelMessage c) := by
    rw [h2, h.waiting hc]
  refine ⟨{
    toWired := (h.toWired.update (fun x => { x with decoder := d }) rfl rfl rfl rfl rfl rfl rfl rfl).frame
      (by rw [h1, hch₂]) (by simpa using h7) (by simpa using congrArg Array.size h4)
      (fun j => by simp [hpipe]) (by simpa using h8) (fun hcl => ?_) (by simp [h5]) (fun q => ?_)
    running := by rw [h1, hpipe]; exact h.running
    stopped := by rw [h1]; exact h.stopped
    unread := fun hn => by rw [h1] at hn; exact absurd hn (Option.isSome_iff_ne_none.1 hl)
    decoded := fun _ _ => by rw [h1]; exact ⟨_, hfeed'⟩
    posted := ⟨[], by rw [List.append_nil, hdue, hP]⟩
    refused := fun hne => absurd (by rw [hdue, hP]) hne
    waiting := fun _ => hq }, by rw [hq, h.waiting hc], h3, h1, by simpa using h6⟩
  · rw [h3] at hcl
    cases hcl
  · exact Loop.outcome?_of_cells (by simpa using h5) q

theorem receive_closed (h : Inv framing c s i w R P) (hr : (w.pipeAt s).reader = some c)
    (hf : (w.channelAt c).finished = false)
    (hfeed : (Decoder.fresh framing).feed R = .ok ((w.channelAt c).decoder, ps₀))
    (hp : (w.channelAt c).decoder.push bytes = .ok (d, ps)) (hc : (w.inboxAt i).closed = true) :
    Inv framing c s i (w.receive c bytes) (R ++ [bytes]) P ∧
      ((w.receive c bytes).inboxAt i).queue = (w.inboxAt i).queue ∧
      ((w.receive c bytes).inboxAt i).closed = true ∧
      (((w.receive c bytes).channelAt c).finished = false ∨ ((w.receive c bytes).channelAt c).disabled = true) ∧
      (w.receive c bytes).disconnects = w.disconnects := by
  have hw : w.receive c bytes =
      ps.foldl (fun w p => w.deliverPayload c p) (w.withChannel c fun x => { x with decoder := d }) := by
    simp [World.receive, hf, hp]
  have hch₂ : (w.withChannel c fun x => { x with decoder := d }).channelAt c = { w.channelAt c with decoder := d } := by
    simp [h.valid]
  have hi₂ : ((w.withChannel c fun x => { x with decoder := d }).channelAt c).inbox = i := by rw [hch₂]; exact h.inbox
  have hv₂ : c < (w.withChannel c fun x => { x with decoder := d }).channels.size := by simpa using h.valid
  have hwired₂ := h.toWired.update (fun x => { x with decoder := d }) rfl rfl rfl rfl rfl rfl rfl rfl
  obtain ⟨h1, h2, h3, h4, h5, h6, h7, h8, h9⟩ := World.foldl_deliver_closed c ps
    (w.withChannel c fun x => { x with decoder := d }) hv₂ (by rw [hi₂]; simpa using hc)
  rw [← hw] at h1 h2 h3 h4 h5 h6 h7 h8 h9
  obtain ⟨-, hdue⟩ := due_append_chunk hfeed hp
  have hin : (w.receive c bytes).inboxAt i = w.inboxAt i := by rw [h2]; simp
  have hl := h.reads hr
  -- an unfinished channel has not been disabled
  have hd : (w.channelAt c).disabled = false := by
    cases hdis : (w.channelAt c).disabled
    · rfl
    · rw [h.stopped hdis] at hf; cases hf
  have hsaid : (w.receive c bytes).disconnects = w.disconnects := by simp [h6]
  suffices hI : Inv framing c s i (w.receive c bytes) (R ++ [bytes]) P ∧
      (((w.receive c bytes).channelAt c).finished = false ∨ ((w.receive c bytes).channelAt c).disabled = true) from
    ⟨hI.1, by rw [hin], by rw [hin]; exact hc, hI.2, hsaid⟩
  by_cases ho : World.objects ps = []
  · -- nothing to post: the channel only changed its decoder
    simp only [ho, if_true] at h1 h5
    obtain ⟨hfeed', -⟩ := due_append_chunk hfeed hp
    rw [hch₂] at h1
    refine ⟨{
      toWired := hwired₂.frame (by rw [h1, hch₂]) h7 h8 h3 h9 (by rw [hin]; exact h.dropped) h4 h5
      running := by rw [h1, (h3 s).1]; simpa using h.running
      stopped := by rw [h1]; exact h.stopped
      unread := fun hn => by rw [h1] at hn; exact absurd hn (Option.isSome_iff_ne_none.1 hl)
      decoded := fun _ _ => by rw [h1]; exact ⟨_, hfeed'⟩
      posted := by rw [hdue, ho, List.map_nil, List.append_nil]; exact h.posted
      refused := by rw [hdue, ho, List.map_nil, List.append_nil, hin, h1]; exact h.refused
      waiting := fun hcl => by rw [hin, hc] at hcl; cases hcl }, .inl (by rw [h1]; exact hf)⟩
  · -- the first object meets the closed context and disables the channel
    simp only [ho, if_false] at h1 h5
    have hdis := World.channelAt_disableChan (w := w.withChannel c fun x => { x with decoder := d }) hv₂
    rw [hch₂] at hdis
    simp only [hd, Bool.false_eq_true, if_false] at hdis
    rw [hdis] at h1
    have hp₂ := fun j => World.pipeAt_disableChan (w := w.withChannel c fun x => { x with decoder := d }) (c := c) (j := j)
    refine ⟨{
      toWired := hwired₂.disableChan.frame (by rw [h1, World.channelAt_disableChan hv₂, hch₂]; simp [hd])
        (by simpa using h7) (by simpa using h8)
        (fun j => ⟨(h3 j).1.trans (hp₂ j).1.symm, (h3 j).2.1.trans (hp₂ j).2.1.symm, (h3 j).2.2.trans (hp₂ j).2.2.symm⟩)
        (by simpa using h9) (by rw [hin]; exact h.dropped) (by simpa using h4) h5
      running := fun _ hf' => by rw [h1] at hf'; cases hf'
      stopped := fun _ => by rw [h1]
      unread := fun hn => by rw [h1] at hn; exact absurd hn (Option.isSome_iff_ne_none.1 hl)
      decoded := fun _ hf' => by rw [h1] at hf'; cases hf'
      posted := by rw [hdue]; exact h.posted.trans (List.prefix_append _ _)
      refused := fun _ => ⟨by rw [hin]; exact hc, by rw [h1]⟩
      waiting := fun hcl => by rw [hin, hc] at hcl; cases hcl }, .inr (by rw [h1])⟩

/-- A chunk that arrives while the channel reads: nothing changes on a finished channel, a frame
that cannot be decoded ends it, and otherwise its payloads are handed on. -/
theorem receive (h : Inv framing c s i w R P) (hr : (w.pipeAt s).reader = some c) (bytes : List UInt8) :
    Inv framing c s i (w.receive c bytes)
      (R ++ if (w.channelAt c).loop.isSome ∧ (w.channelAt c).finished = false then [bytes] else [])
      (P ++ ((w.receive c bytes).inboxAt i).queue.drop (w.inboxAt i).queue.length) := by
  cases hf : (w.channelAt c).finished with
  | true =>
    have hw : w.receive c bytes = w := by simp [World.receive, hf]
    simpa [hw] using h
  | false =>
    have hl := h.reads hr
    obtain ⟨ps₀, hfeed⟩ := h.decoded hl hf
    simp only [hl, and_self, if_true]
    cases hp : (w.channelAt c).decoder.push bytes with
    | error e =>
      have hw : w.receive c bytes = w.finishChan c (some (.transport s!"Bad IPC frame: {e.message}")) := by
        simp [World.receive, hf, hp]
      have hdue : due c framing (R ++ [bytes]) = due c framing R := by
        simp [due, Decoder.payloads_append_chunk hfeed, hp, Decoder.payloads_of_feed hfeed]
      have hch := World.channelAt_finishChan (w := w) h.valid (some (.transport s!"Bad IPC frame: {e.message}"))
      rw [hw, World.inboxAt_finishChan, List.drop_length, List.append_nil]
      exact (h.finishChan _).reowe hdue (by rw [hch]; simpa [hf] using hl) (by rw [hch]; simp [hf])
    | ok r =>
      obtain ⟨d, ps⟩ := r
      cases hc : (w.inboxAt i).closed with
      | false =>
        obtain ⟨h', hq, -⟩ := receive_open h hr hf hfeed hp hc
        rwa [hq, List.drop_left]
      | true =>
        obtain ⟨h', hq, -⟩ := receive_closed h hr hf hfeed hp hc
        rwa [hq, List.drop_length, List.append_nil]

end Receive

/-- Bytes on the stream: the channel takes them if it reads it, and otherwise the stream holds
them and nothing is received. -/
theorem arrive (h : Inv framing c s i w R P) (bytes : List UInt8) :
    Inv framing c s i (w.arrive s bytes)
      (R ++ if (w.channelAt c).loop.isSome ∧ (w.channelAt c).finished = false then [bytes] else [])
      (P ++ ((w.arrive s bytes).inboxAt i).queue.drop (w.inboxAt i).queue.length) := by
  unfold World.arrive
  rcases h.reader with hr | hr <;> rw [hr]
  · have hnot : ¬((w.channelAt c).loop.isSome ∧ (w.channelAt c).finished = false) := fun ⟨hl, hf⟩ => by
      rw [h.running hl hf] at hr
      cases hr
    simp only [hnot, if_false, List.append_nil, World.inboxAt_withPipe, List.drop_length]
    refine h.frame (by simp) (by simp) (by simp) (fun j => ?_) (by simp) (by simp) (by simp) (by simp)
    simp only [World.pipeAt_withPipe]
    split <;> simp
  · exact h.receive hr bytes

theorem closeInbox (h : Inv framing c s i w R P) :
    Inv framing c s i (w.withInbox i fun b => { b with closed := true, queue := [] }) R P := by
  have hin : (w.withInbox i fun b => { b with closed := true, queue := [] }).inboxAt i =
      { w.inboxAt i with closed := true, queue := [] } := by
    simp [h.inbox_lt]
  exact {
    toWired := h.toWired.frame (by simp) (by simp) (by simp) (by simp) (by simp) (fun _ => by rw [hin]) (by simp)
      (by simp)
    running := by simpa using h.running
    stopped := by simpa using h.stopped
    unread := by simpa using h.unread
    decoded := by simpa using h.decoded
    posted := h.posted
    refused := fun hne => ⟨by rw [hin], by simpa using (h.refused hne).2⟩
    waiting := fun hc => by rw [hin] at hc; cases hc }

/-- A finished channel's new promise is settled at once. -/
theorem startLoop_settled (h : Inv framing c s i w [] []) (hl : (w.channelAt c).loop = none)
    (hf : (w.channelAt c).finished = true) : Inv framing c s i (w.startLoop c) [] [] := by
  rw [World.startLoop_of_finished hl hf]
  have hch : (((w.armLoop c).setLoop ((w.armLoop c).loop.settle w.loop.cells.size (.ok .none))).channelAt c) =
      { w.channelAt c with loop := some w.loop.cells.size, handler := some .observer } := by
    rw [World.channelAt_setLoop, World.channelAt_armLoop h.valid]
  exact {
    toWired := h.toWired.reloop hch (by simp) (by simp) (by simp) (by simp) (by
      simp only [World.setLoop_loop, hf, if_true]
      exact (w.armLoop c).loop.outcome?_settle_self _ (by simp) World.outcome?_armLoop_self)
    running := fun _ hf' => by rw [hch] at hf'; simp [hf] at hf'
    stopped := by rw [hch]; exact h.stopped
    unread := fun hn => by rw [hch] at hn
    decoded := fun _ hf' => by rw [hch] at hf'; simp [hf] at hf'
    posted := List.nil_prefix
    refused := fun hne => absurd rfl hne
    waiting := by simpa using h.waiting }

/-- A channel with neither stream nor listener ends at once. -/
theorem startLoop_none (h : Inv framing c s i w [] []) (hl : (w.channelAt c).loop = none)
    (hf : (w.channelAt c).finished = false) (hs : (w.channelAt c).connection = none) :
    Inv framing c s i (w.startLoop c) [] [] := by
  rw [World.startLoop_of_none hl hf hs]
  have hw₁ := h.toWired.armLoop hf
  have hch := World.channelAt_finishChan (w := w.armLoop c) hw₁.valid
    (some (.transport "IPC channel has neither a listener nor a connection"))
  rw [World.channelAt_armLoop h.valid] at hch
  simp only [hf, Bool.false_eq_true, if_false] at hch
  exact {
    toWired := hw₁.finishChan _
    running := fun _ hf' => by rw [hch] at hf'; cases hf'
    stopped := fun _ => by rw [hch]
    unread := fun hn => by rw [hch] at hn
    decoded := fun _ hf' => by rw [hch] at hf'; cases hf'
    posted := List.nil_prefix
    refused := fun hne => absurd rfl hne
    waiting := by simpa using h.waiting }

/-- A channel with a stream reads it from now on, with a fresh decoder. -/
theorem startLoop_stream (h : Inv framing c s i w [] []) (hl : (w.channelAt c).loop = none)
    (hf : (w.channelAt c).finished = false) (hs : (w.channelAt c).connection = some s) :
    Inv framing c s i (w.startLoop c) [] [] := by
  rw [World.startLoop_of_stream hl hf hs]
  have hw₁ := h.toWired.armLoop hf
  have hch := World.channelAt_readStream (w := w.armLoop c) c s hw₁.valid
  rw [World.channelAt_armLoop h.valid] at hch
  have hw₂ := hw₁.readStream (by rw [World.channelAt_armLoop h.valid]; rfl)
  exact {
    toWired := hw₂
    running := fun _ _ => by
      rcases hw₂.reader with hr | hr
      · rw [World.pipeAt_readStream, if_pos ⟨rfl, hw₁.stream_lt⟩] at hr
        cases hr
      · exact hr
    stopped := by rw [hch]; exact h.stopped
    unread := fun hn => by rw [hch] at hn
    decoded := fun _ _ => ⟨[], by rw [hch, ← h.framed]; rfl⟩
    posted := List.nil_prefix
    refused := fun hne => absurd rfl hne
    waiting := by
      rw [World.inboxAt_inboxes i (World.readStream_inboxes (w := w.armLoop c) c s)]
      simpa using h.waiting }

/-- Starting the read loop: a channel that had one keeps it; otherwise, with nothing received
or posted yet, the new promise is settled at once on a finished channel, a channel with a
stream starts reading it, and one without ends. -/
theorem startLoop (h : Inv framing c s i w R P) : Inv framing c s i (w.startLoop c) R P := by
  cases hl : (w.channelAt c).loop with
  | some p => simpa [World.startLoop, hl] using h
  | none =>
    obtain rfl : R = [] := h.unread hl
    obtain rfl : P = [] := List.prefix_nil.1 h.posted
    cases hf : (w.channelAt c).finished with
    | true => exact h.startLoop_settled hl hf
    | false =>
      rcases h.stream with hs | hs
      · exact h.startLoop_none hl hf hs
      · exact h.startLoop_stream hl hf hs

end Inv

/-! ## How each call moves the flags -/

/-- What a call does to the flags and to what is said: a finished channel stays finished, a
closed context stays closed, and `disconnected` is said by the call that finishes the channel,
unless that call leaves it disabled, and by no other. -/
structure Moves (c i : Nat) (w w' : World) : Prop where
  finished : (w.channelAt c).finished = true → (w'.channelAt c).finished = true
  closed : (w.inboxAt i).closed = true → (w'.inboxAt i).closed = true
  said : w'.disconnects = w.disconnects +
    if (w.channelAt c).finished = false ∧ (w'.channelAt c).finished = true ∧ (w'.channelAt c).disabled = false
    then 1 else 0

namespace Moves

variable {i : Nat} {w' : World}

/-- A call that leaves both flags and the count of disconnects as they were. -/
theorem still (hf : (w'.channelAt c).finished = (w.channelAt c).finished)
    (hc : (w'.inboxAt i).closed = (w.inboxAt i).closed) (hd : w'.disconnects = w.disconnects) : Moves c i w w' where
  finished h := hf ▸ h
  closed h := hc ▸ h
  said := by
    rw [hd, hf]
    cases (w.channelAt c).finished <;> simp

/-- Moves from a world that agrees with `w` on the flags and the count are moves from `w`. -/
theorem congr_left {w₁ : World} (hm : Moves c i w₁ w') (hf : (w₁.channelAt c).finished = (w.channelAt c).finished)
    (hc : (w₁.inboxAt i).closed = (w.inboxAt i).closed) (hd : w₁.disconnects = w.disconnects) : Moves c i w w' where
  finished h := hm.finished (hf ▸ h)
  closed h := hm.closed (hc ▸ h)
  said := by rw [hm.said, hf, hd]

theorem finishChan (hv : c < w.channels.size) (r : Option AdapterError) : Moves c i w (w.finishChan c r) := by
  have hch := World.channelAt_finishChan (w := w) hv r
  refine ⟨fun hf => by rw [hch]; simp [hf], by simp, ?_⟩
  rw [World.disconnects_finishChan, hch]
  cases hf : (w.channelAt c).finished <;> simp [hf]

theorem disableChan (hv : c < w.channels.size) (hs : (w.channelAt c).disabled = true → (w.channelAt c).finished = true) :
    Moves c i w (w.disableChan c) := by
  have hch := World.channelAt_disableChan (w := w) hv
  refine ⟨fun hf => by rw [hch]; split <;> simp [hf], by simp, ?_⟩
  rw [World.disconnects_disableChan hv, hch]
  cases hd : (w.channelAt c).disabled
  · simp
  · simp [hs hd]

theorem hear {s : Nat} (hr : (w.pipeAt s).reader = none ∨ (w.pipeAt s).reader = some c) (hv : c < w.channels.size)
    (r : Option AdapterError) : Moves c i w (w.hear s r) := by
  unfold World.hear
  rcases hr with hr | hr <;> rw [hr]
  · exact still rfl rfl rfl
  · exact finishChan hv r

end Moves

namespace Inv

variable {framing : Framing} {i : Nat} {R : List (List UInt8)} {P : List Errand}

theorem moves_receive (h : Inv framing c s i w R P) (hr : (w.pipeAt s).reader = some c) (bytes : List UInt8) :
    Moves c i w (w.receive c bytes) := by
  cases hf : (w.channelAt c).finished with
  | true =>
    have hw : w.receive c bytes = w := by simp [World.receive, hf]
    rw [hw]
    exact .still rfl rfl rfl
  | false =>
    obtain ⟨ps₀, hfeed⟩ := h.decoded (h.reads hr) hf
    cases hp : (w.channelAt c).decoder.push bytes with
    | error e =>
      have hw : w.receive c bytes = w.finishChan c (some (.transport s!"Bad IPC frame: {e.message}")) := by
        simp [World.receive, hf, hp]
      rw [hw]
      exact .finishChan h.valid _
    | ok r =>
      obtain ⟨d, ps⟩ := r
      cases hc : (w.inboxAt i).closed with
      | false =>
        obtain ⟨-, -, hc', hch, hd⟩ := receive_open h hr hf hfeed hp hc
        exact .still (by rw [hch]) (by rw [hc', hc]) hd
      | true =>
        -- the channel may end here, but only by disabling itself
        obtain ⟨-, -, hc', hfd, hd⟩ := receive_closed h hr hf hfeed hp hc
        refine ⟨fun hf' => by simp [hf] at hf', fun _ => hc', ?_⟩
        rw [hd]
        rcases hfd with hfd | hfd <;> simp [hfd]

theorem moves_arrive (h : Inv framing c s i w R P) (bytes : List UInt8) : Moves c i w (w.arrive s bytes) := by
  unfold World.arrive
  rcases h.reader with hr | hr <;> rw [hr]
  · exact .still (by simp) (by simp) (by simp)
  · exact h.moves_receive hr bytes

theorem moves_startLoop (h : Inv framing c s i w R P) : Moves c i w (w.startLoop c) := by
  cases hl : (w.channelAt c).loop with
  | some p =>
    have hw : w.startLoop c = w := by simp [World.startLoop, hl]
    rw [hw]
    exact .still rfl rfl rfl
  | none =>
    have hch₁ := World.channelAt_armLoop (c := c) h.valid
    cases hf : (w.channelAt c).finished with
    | true =>
      rw [World.startLoop_of_finished hl hf]
      exact .still (by rw [World.channelAt_setLoop, hch₁]) (by simp) (by simp)
    | false =>
      rcases h.stream with hs | hs
      · rw [World.startLoop_of_none hl hf hs]
        exact (Moves.finishChan (by simpa using h.valid) _).congr_left (by rw [hch₁]) (by simp) (by simp)
      · rw [World.startLoop_of_stream hl hf hs]
        refine .still ?_ (by rw [World.inboxAt_inboxes i (World.readStream_inboxes c s)]; simp)
          (by rw [World.disconnects_readStream]; simp)
        rw [World.channelAt_readStream c s (by simpa using h.valid), hch₁]

end Inv

/-! ## Every call -/

section Calls

variable {framing : Framing} {i : Nat} {R : List (List UInt8)} {P : List Errand}

/-- A stream that ended, seen from the channel: nothing but the stream's flag changed. -/
theorem Inv.ended (h : Inv framing c s i w R P) :
    Inv framing c s i (w.withPipe s fun p => { p with ended := true }) R P := by
  refine h.frame (by simp) (by simp) (by simp) (fun j => ?_) (by simp) (by simp) (by simp) (by simp)
  simp only [World.pipeAt_withPipe]
  split <;> simp

/-- Every call keeps the invariant, with what it hands the channel and what it posts added. -/
theorem inv_step (h : Inv framing c s i w R P) (x : Call) :
    Inv framing c s i (step c s w x) (R ++ x.receives c w) (P ++ x.posts c s w) := by
  have hsh := h.toWired.shaped_reader
  cases x with
  | start =>
    have hw := step_start (s := s) h.toShaped
    rw [posts_of_queue (by rw [hw, h.inbox, World.inboxAt_inboxes i World.startLoop_inboxes]), hw]
    simpa [Call.receives] using h.startLoop
  | chunk bytes =>
    simp only [Call.posts, step_chunk h.probeSide hsh bytes, h.inbox]
    exact h.arrive bytes
  | streamEnd =>
    have hw := step_streamEnd (c := c) h.probeSide hsh
    rw [posts_of_queue (by rw [hw, h.inbox]; simp), hw]
    simpa [Call.receives] using h.ended.hear none
  | streamClose =>
    have hw := step_streamClose (c := c) hsh
    rw [posts_of_queue (by rw [hw, h.inbox]; simp), hw]
    simpa [Call.receives] using h.hear none
  | streamError m =>
    have hw := step_streamError (c := c) hsh m
    rw [posts_of_queue (by rw [hw, h.inbox]; simp), hw]
    simpa [Call.receives] using h.hear _
  | disable =>
    have hw := step_disable (s := s) h.toShaped
    rw [posts_of_queue (by rw [hw, h.inbox]; simp), hw]
    simpa [Call.receives] using h.disableChan
  | closeContext =>
    have hq : Call.posts c s w .closeContext = [] := by simp [Call.posts, step_closeContext, h.inbox, h.inbox_lt]
    rw [hq, step_closeContext, h.inbox]
    simpa [Call.receives] using h.closeInbox
  | write command =>
    rcases step_write (s := s) h.toShaped command with hw | ⟨bytes, hw⟩
    · rw [posts_of_queue (by rw [hw]), hw]
      simpa [Call.receives] using h
    · rw [posts_of_queue (by rw [hw]; simp), hw]
      simpa [Call.receives] using h.note _

/-- Every call moves the flags as `Moves` says. -/
theorem moves_step (h : Inv framing c s i w R P) (x : Call) : Moves c i w (step c s w x) := by
  have hsh := h.toWired.shaped_reader
  cases x with
  | start => rw [step_start h.toShaped]; exact h.moves_startLoop
  | chunk bytes => rw [step_chunk h.probeSide hsh bytes]; exact h.moves_arrive bytes
  | streamEnd =>
    rw [step_streamEnd h.probeSide hsh]
    have hr : ((w.withPipe s fun p => { p with ended := true }).pipeAt s).reader = none ∨
        ((w.withPipe s fun p => { p with ended := true }).pipeAt s).reader = some c := h.ended.reader
    exact (Moves.hear hr (by simpa using h.valid) none).congr_left (by simp) (by simp) (by simp)
  | streamClose => rw [step_streamClose hsh]; exact .hear h.reader h.valid none
  | streamError m => rw [step_streamError hsh m]; exact .hear h.reader h.valid _
  | disable => rw [step_disable h.toShaped]; exact .disableChan h.valid h.stopped
  | closeContext =>
    rw [step_closeContext, h.inbox]
    exact ⟨by simp, fun _ => by simp [h.inbox_lt], by cases hf : (w.channelAt c).finished <;> simp [hf]⟩
  | write command =>
    rcases step_write (s := s) h.toShaped command with hw | ⟨bytes, hw⟩ <;> rw [hw]
    · exact .still rfl rfl rfl
    · exact .still (by simp) (by simp) (by simp [Note.isDisconnect])

/-- A finished channel posts nothing: a closed context stays empty, and on an open one
everything owed was posted already. -/
theorem posts_of_finished (h : Inv framing c s i w R P) (hf : (w.channelAt c).finished = true) (x : Call) :
    x.posts c s w = [] := by
  have h' := inv_step h x
  have hR : x.receives c w = [] := by cases x <;> simp [Call.receives, hf]
  rw [hR, List.append_nil] at h'
  cases hc : (w.inboxAt i).closed with
  | true => simp [Call.posts, h.inbox, h'.dropped ((moves_step h x).closed hc)]
  | false =>
    have hpre := h'.posted
    rw [← h.owed hc] at hpre
    have hlen := hpre.length_le
    rw [List.length_append] at hlen
    exact List.eq_nil_of_length_eq_zero (by omega)

/-- Closing the context leaves the channel and the count of disconnects as they were, and
posts nothing. -/
theorem closeContext_keeps (h : Inv framing c s i w R P) :
    (step c s w .closeContext).channelAt c = w.channelAt c ∧ ((step c s w .closeContext).inboxAt i).closed = true ∧
      (step c s w .closeContext).disconnects = w.disconnects ∧ Call.posts c s w .closeContext = [] := by
  refine ⟨rfl, ?_, rfl, ?_⟩
  · rw [step_closeContext, h.inbox]
    simp [h.inbox_lt]
  · simp [Call.posts, step_closeContext, h.inbox, h.inbox_lt]

/-- A chunk arriving while the channel reads is taken by it. -/
theorem step_chunk_receive (h : Inv framing c s i w R P) (hl : (w.channelAt c).loop.isSome)
    (hf : (w.channelAt c).finished = false) (bytes : List UInt8) :
    step c s w (.chunk bytes) = w.receive c bytes ∧ Call.receives c w (.chunk bytes) = [bytes] := by
  refine ⟨?_, by simp [Call.receives, hl, hf]⟩
  rw [step_chunk h.probeSide h.toWired.shaped_reader bytes]
  simp [World.arrive, h.running hl hf]

/-- A chunk carrying a JSON object, arriving while the channel reads and its context is closed:
the object cannot be posted, so the channel disables itself and finishes, without saying
`disconnected`. -/
theorem closed_chunk_disables (h : Inv framing c s i w R P) (hl : (w.channelAt c).loop.isSome)
    (hf : (w.channelAt c).finished = false) (hc : (w.inboxAt i).closed = true) {bytes : List UInt8}
    {d : Decoder} {ps : List String} (hp : (w.channelAt c).decoder.push bytes = .ok (d, ps))
    (ho : World.objects ps ≠ []) :
    ((step c s w (.chunk bytes)).channelAt c).disabled = true ∧
      ((step c s w (.chunk bytes)).channelAt c).finished = true ∧
      (step c s w (.chunk bytes)).disconnects = w.disconnects ∧
      Call.receives c w (.chunk bytes) = [bytes] ∧ Call.posts c s w (.chunk bytes) = [] ∧
      due c framing (R ++ [bytes]) = due c framing R ++ (World.objects ps).map (.channelMessage c) := by
  obtain ⟨hstep, hrecv⟩ := step_chunk_receive h hl hf bytes
  obtain ⟨ps₀, hfeed₀⟩ := h.decoded hl hf
  obtain ⟨h', hq, -, -, hsaid⟩ := Inv.receive_closed h (h.running hl hf) hf hfeed₀ hp hc
  obtain ⟨-, hdue⟩ := Inv.due_append_chunk hfeed₀ hp
  -- what was posted is a prefix of what was owed before, so it falls short of what is owed now
  have hne : P ≠ due c framing (R ++ [bytes]) := by
    intro heq
    have hlen := congrArg List.length heq
    have hpre := h.posted.length_le
    have hpos := List.length_pos_iff.2 ho
    rw [hdue, List.length_append, List.length_map] at hlen
    omega
  have hdis := (h'.refused hne).2
  rw [hstep]
  exact ⟨hdis, h'.stopped hdis, hsaid, hrecv, posts_of_queue (by rw [hstep, h.inbox, hq]), hdue⟩

end Calls

/-! ## Over a run -/

section Runs

variable {framing : Framing} {i : Nat} {R : List (List UInt8)} {P : List Errand}

theorem inv_run (h : Inv framing c s i w R P) (cs : List Call) :
    Inv framing c s i (run c s w cs) (R ++ received c s w cs) (P ++ posted c s w cs) := by
  induction cs generalizing w R P with
  | nil => simpa [run, received, posted] using h
  | cons x cs ih => simpa [run, received, posted, List.append_assoc] using ih (inv_step h x)

/-- Once the channel has finished, nothing more is received, posted or said. -/
theorem finished_run (h : Inv framing c s i w R P) (hf : (w.channelAt c).finished = true) (cs : List Call) :
    received c s w cs = [] ∧ posted c s w cs = [] ∧ (run c s w cs).disconnects = w.disconnects := by
  induction cs generalizing w R P with
  | nil => simp [received, posted, run]
  | cons x cs ih =>
    have hm := moves_step h x
    obtain ⟨hr, hp, hd⟩ := ih (inv_step h x) (hm.finished hf)
    have hR : x.receives c w = [] := by cases x <;> simp [Call.receives, hf]
    refine ⟨by simp [received, hR, hr], by simp [posted, posts_of_finished h hf x, hp], ?_⟩
    rw [run, hd, hm.said]
    simp [hf]

/-- Nothing is said before the channel finishes, and at most once. -/
theorem said_run (h : Inv framing c s i w R P) (h0 : w.disconnects ≤ if (w.channelAt c).finished then 1 else 0)
    (cs : List Call) : (run c s w cs).disconnects ≤ if ((run c s w cs).channelAt c).finished then 1 else 0 := by
  induction cs generalizing w R P with
  | nil => exact h0
  | cons x cs ih =>
    refine ih (inv_step h x) ?_
    have hm := moves_step h x
    rw [hm.said]
    cases hf : (w.channelAt c).finished
    · rw [hf] at h0
      cases hf' : ((step c s w x).channelAt c).finished <;> cases (step c s w x).channelAt c |>.disabled <;>
        simp_all
    · have hf' := hm.finished hf
      simp only [hf, hf', if_true] at h0 ⊢
      simpa using h0

end Runs

/-! ## On the bench -/

/-- The bench: a world that logs in the given style and holds one channel, with the given
framing, on a context of its own and over an in-memory stream whose written bytes are kept, or,
without an endpoint, over none. -/
def bench (host : Host) (style : LogStyle) (framing : Framing) (transport : Option String) (endpoint : Bool) : World :=
  (Bench.world host style).exec (discard (Bench.streamChannel framing transport endpoint))

section Bench

variable (host : Host) (style : LogStyle) (framing : Framing) (transport : Option String) (endpoint : Bool)

@[simp] theorem bench_channel : (bench host style framing transport endpoint).channelAt 0 =
    ⟨framing, 0, transport.getD "stream", none, if endpoint then some 0 else none, false, false, none,
      Decoder.fresh framing, none, [.observer], [.observer], [], false⟩ := rfl
@[simp] theorem bench_stream :
    (bench host style framing transport endpoint).pipeAt 0 = ⟨none, [], false, false, .record, false, false, []⟩ := rfl
@[simp] theorem bench_inbox : (bench host style framing transport endpoint).inboxAt 0 = ⟨"session", [], false, false⟩ :=
  rfl
@[simp] theorem bench_channels_size : (bench host style framing transport endpoint).channels.size = 1 := rfl
@[simp] theorem bench_pipes_size : (bench host style framing transport endpoint).pipes.size = 1 := rfl
@[simp] theorem bench_inboxes_size : (bench host style framing transport endpoint).inboxes.size = 1 := rfl
@[simp] theorem bench_disconnects : (bench host style framing transport endpoint).disconnects = 0 := rfl

theorem inv_bench : Inv framing 0 0 0 (bench host style framing transport endpoint) [] [] where
  valid := by simp
  listener := by simp
  far j hj := by
    cases endpoint <;> simp at hj
    subst hj
    simp
  connected := by simp
  disconnected := by simp
  inbox := by simp
  inbox_lt := by simp
  stream_lt := by simp
  framed := by simp
  stream := by cases endpoint <;> simp
  probeSide := by simp
  reader := by simp
  reads := by simp
  promise := by simp
  dropped := by simp
  running := by simp
  stopped := by simp
  unread := fun _ => rfl
  decoded := by simp
  posted := List.nil_prefix
  refused := fun hne => absurd rfl hne
  waiting := by simp

/-- The start posts nothing: nothing was received yet, so nothing is owed. -/
theorem bench_start_posts : Call.posts 0 0 (bench host style framing transport endpoint) .start = [] := by
  have hpre := (inv_step (inv_bench host style framing transport endpoint) .start).posted
  simp only [List.nil_append, Call.receives, due, Decoder.payloads, World.objects, List.filterMap_nil,
    List.map_nil] at hpre
  exact List.prefix_nil.1 hpre

end Bench

/-- Once started, the bench's channel reads its stream with a fresh decoder, on an open
context. -/
theorem bench_start (host : Host) (style : LogStyle) (framing : Framing) (transport : Option String) :
    ((step 0 0 (bench host style framing transport true) .start).channelAt 0).loop.isSome ∧
      ((step 0 0 (bench host style framing transport true) .start).channelAt 0).finished = false ∧
      ((step 0 0 (bench host style framing transport true) .start).channelAt 0).decoder = Decoder.fresh framing ∧
      ((step 0 0 (bench host style framing transport true) .start).inboxAt 0).closed = false := by
  have h₀ := inv_bench host style framing transport true
  rw [step_start h₀.toShaped, World.startLoop_of_stream (s := 0) (by simp) (by simp) (by simp)]
  have hch := World.channelAt_readStream (w := (bench host style framing transport true).armLoop 0) 0 0
    (by simp)
  rw [World.channelAt_armLoop (by simp)] at hch
  rw [hch, World.inboxAt_inboxes 0 (World.readStream_inboxes 0 0), World.inboxAt_inboxes 0 World.armLoop_inboxes]
  simp

/-- On the bench, a context closed before the first chunk: when that chunk carries a JSON object,
the channel disables itself and finishes, says no `disconnected`, and posts nothing, though the
object is owed. -/
theorem closed_first_chunk (host : Host) (style : LogStyle) (framing : Framing) (transport : Option String)
    {bytes : List UInt8} {d : Decoder} {ps : List String} (hp : (Decoder.fresh framing).push bytes = .ok (d, ps))
    (ho : World.objects ps ≠ []) :
    ((run 0 0 (bench host style framing transport true) [.start, .closeContext, .chunk bytes]).channelAt 0).finished = true ∧
      (run 0 0 (bench host style framing transport true) [.start, .closeContext, .chunk bytes]).disconnects = 0 ∧
      posted 0 0 (bench host style framing transport true) [.start, .closeContext, .chunk bytes] = [] ∧
      due 0 framing (received 0 0 (bench host style framing transport true) [.start, .closeContext, .chunk bytes]) =
        (World.objects ps).map (.channelMessage 0) := by
  have h₁ := inv_step (inv_bench host style framing transport true) .start
  obtain ⟨hl₁, hf₁, hd₁, -⟩ := bench_start host style framing transport
  have h₂ := inv_step h₁ .closeContext
  obtain ⟨hch₂, hc₂, hsaid₂, hclose⟩ := closeContext_keeps h₁
  obtain ⟨-, hfin, hsaid, -, hposts, hdue⟩ :=
    closed_chunk_disables h₂ (by rw [hch₂]; exact hl₁) (by rw [hch₂]; exact hf₁) hc₂ (by rw [hch₂, hd₁]; exact hp) ho
  -- the start says nothing, since it does not finish the channel
  have hsaid₁ := (moves_step (inv_bench host style framing transport true) .start).said
  simp only [hf₁, Bool.false_eq_true, and_false, false_and, if_false, bench_disconnects] at hsaid₁
  simp only [run, posted, received, Call.receives, bench_start_posts, hclose, hposts, hfin, hsaid, hsaid₂,
    hsaid₁, List.nil_append, List.append_nil, true_and]
  simp only [hch₂, hl₁, hf₁, and_self, if_true]
  simp only [Call.receives, List.nil_append] at hdue
  rw [hdue]
  rfl

/-- Over every run of calls on the bench's channel: what was posted on its context is a prefix
of the JSON objects decoded from the chunks it received before it finished, in order, and all
of them unless the context was closed, in which case the channel disabled itself, and while the
context is open its queue holds exactly what was posted; once the channel has finished nothing
more is received, posted or said; `disconnected` is said by the call that finishes the channel
unless that call leaves it disabled, by no other call, and so at most once, never before the
channel finished and never after it was disabled; the read loop's promise, the one
`runAcceptAndRead` returns, has settled exactly when the channel has finished; and a write
fails with a transport error, changing nothing, whenever the channel has no live stream. -/
theorem channel_delivery (host : Host) (style : LogStyle) (framing : Framing) (transport : Option String)
    (endpoint : Bool) (cs : List Call) :
    let w₀ := bench host style framing transport endpoint
    let w := run 0 0 w₀ cs
    let R := received 0 0 w₀ cs
    let P := posted 0 0 w₀ cs
    P <+: due 0 framing R ∧
      (P ≠ due 0 framing R →
        (w.inboxAt 0).closed = true ∧ (w.channelAt 0).disabled = true ∧ (w.channelAt 0).finished = true) ∧
      ((w.inboxAt 0).closed = false → (w.inboxAt 0).queue = P) ∧
      ((w.channelAt 0).finished = true → ∀ cs', received 0 0 w cs' = [] ∧ posted 0 0 w cs' = [] ∧
        (run 0 0 w cs').disconnects = w.disconnects) ∧
      (∀ x, (step 0 0 w x).disconnects = w.disconnects +
        if (w.channelAt 0).finished = false ∧ ((step 0 0 w x).channelAt 0).finished = true ∧
          ((step 0 0 w x).channelAt 0).disabled = false then 1 else 0) ∧
      (∀ x, (w.channelAt 0).finished = true → ((step 0 0 w x).channelAt 0).finished = true) ∧
      w.disconnects ≤ (if (w.channelAt 0).finished then 1 else 0) ∧
      ((w.channelAt 0).disabled = true → (w.channelAt 0).finished = true) ∧
      (∀ p, (w.channelAt 0).loop = some p →
        w.loop.outcome? p = if (w.channelAt 0).finished then some (.ok .none) else none) ∧
      (∃ p, (runAcceptAndRead 0 .observer).run w = .ok p (step 0 0 w .start) ∧
        ((step 0 0 w .start).channelAt 0).loop = some p) ∧
      ∀ command, ((w.channelAt 0).connection = none ∨ (w.channelAt 0).disabled = true ∨
          (w.channelAt 0).finished = true ∨ ∃ s, (w.channelAt 0).connection = some s ∧ (w.pipeAt s).destroyed = true) →
        (channelWrite 0 command).run w = .error (.adapter (.transport "No live IPC connection")) w := by
  intro w₀ w R P
  have h := inv_run (inv_bench host style framing transport endpoint) cs
  simp only [List.nil_append] at h
  refine ⟨h.posted, fun hne => ?_, h.waiting, fun hf cs' => finished_run h hf cs', fun x => (moves_step h x).said,
    fun x hf => (moves_step h x).finished hf, said_run (inv_bench host style framing transport endpoint) (by simp) cs,
    h.stopped, fun p hp => (h.promise p hp).2,
    ⟨_, by rw [step_start h.toShaped]; exact runAcceptAndRead_run h.toShaped, ?_⟩,
    fun command hw => channelWrite_refused command hw⟩
  · obtain ⟨hc, hd⟩ := h.refused hne
    exact ⟨hc, hd, h.stopped hd⟩
  · rw [step_start h.toShaped]
    exact World.loop_startLoop h.valid

/-- The frame of `{"a":1}` arriving after the context was closed: the channel finishes, nothing
said it was disabled, and yet `disconnected` is never said; its one object is owed and not
posted. -/
theorem context_close_finishes_silently :
    ((run 0 0 (bench ⟨0, fun _ => "", Path.hostTree, Validator.standard⟩ .plain .binary none true)
        [.start, .closeContext, .chunk [0x01, 0, 0, 0, 7, 0x7b, 0x22, 0x61, 0x22, 0x3a, 0x31, 0x7d]]).channelAt 0).finished = true ∧
      (run 0 0 (bench ⟨0, fun _ => "", Path.hostTree, Validator.standard⟩ .plain .binary none true)
        [.start, .closeContext, .chunk [0x01, 0, 0, 0, 7, 0x7b, 0x22, 0x61, 0x22, 0x3a, 0x31, 0x7d]]).disconnects = 0 ∧
      posted 0 0 (bench ⟨0, fun _ => "", Path.hostTree, Validator.standard⟩ .plain .binary none true)
        [.start, .closeContext, .chunk [0x01, 0, 0, 0, 7, 0x7b, 0x22, 0x61, 0x22, 0x3a, 0x31, 0x7d]] = [] ∧
      (due 0 .binary (received 0 0 (bench ⟨0, fun _ => "", Path.hostTree, Validator.standard⟩ .plain .binary none true)
        [.start, .closeContext, .chunk [0x01, 0, 0, 0, 7, 0x7b, 0x22, 0x61, 0x22, 0x3a, 0x31, 0x7d]])).length = 1 := by
  -- the frame of `{"a":1}` is the whole chunk, and gives out its payload
  have hbytes : ([0x01, 0, 0, 0, 7, 0x7b, 0x22, 0x61, 0x22, 0x3a, 0x31, 0x7d] : List UInt8) =
      OutFrame.bytes ⟨.event, ['{', '"', 'a', '"', ':', '1', '}']⟩ := by decide
  have hsplit := FrameDecoder.split_frame (g := ⟨.event, ['{', '"', 'a', '"', ':', '1', '}']⟩) (by decide) [] 11
  rw [List.append_nil] at hsplit
  have hp : (Decoder.fresh .binary).push [0x01, 0, 0, 0, 7, 0x7b, 0x22, 0x61, 0x22, 0x3a, 0x31, 0x7d] =
      .ok (.binary ⟨[], 0⟩, eventTexts [⟨.event, ['{', '"', 'a', '"', ':', '1', '}']⟩]) := by
    have hlen : (OutFrame.bytes ⟨.event, ['{', '"', 'a', '"', ':', '1', '}']⟩).length = 11 + 1 := by decide
    simp only [Decoder.fresh, Decoder.push, FrameDecoder.push, List.nil_append, hbytes, hlen, hsplit]
    rfl
  have hone : (World.objects (eventTexts [⟨.event, ['{', '"', 'a', '"', ':', '1', '}']⟩])).length = 1 := by decide +kernel
  obtain ⟨hfin, hsaid, hposted, hdue⟩ := closed_first_chunk ⟨0, fun _ => "", Path.hostTree, Validator.standard⟩ .plain .binary none hp
    (List.ne_nil_of_length_pos (by omega))
  rw [hdue, List.length_map]
  exact ⟨hfin, hsaid, hposted, hone⟩

end ChannelDelivery

end DapBridge
