import DapBridge.Session.Bench
import DapBridge.Proofs.Effects

/-!
# The probe channel, step by step

A probe channel reads frames off its stream and posts each JSON object they carry on its
scheduling context. This module gives each of the channel's steps, for a channel shaped as the
bench makes it (`Shaped`: no listener, a stream whose written bytes are kept, observers only),
one equation: the world it leaves as a function of the world it starts from
(`finishChannel_run`, `disableChannel_run`, `channelData_run`, `runAcceptAndRead_run`, ...),
and says what each of those functions changes.

Among them: the payloads of a chunk are handed on in order, each object queued on an open
context (`foldl_deliver_open`), while on a closed context the first object disables the channel
(`foldl_deliver_closed`); ending a channel says `disconnected` once, unless it was disabled, and
settles its read loop's promise (`disconnects_finishChan`, `outcome?_finishChan`); and a write
on a channel without a live stream fails and changes nothing (`channelWrite_refused`). The
channel over whole runs is in `ChannelDelivery`.
-/

namespace DapBridge

/-! ## The decoder over a sequence of chunks -/

namespace Decoder

/-- Chunks pushed one after another: the decoder after them and every payload, in order. -/
def feed (d : Decoder) : List (List UInt8) → Except FrameError (Decoder × List String)
  | [] => .ok (d, [])
  | c :: cs =>
    match d.push c with
    | .error e => .error e
    | .ok (d', ps) =>
      match d'.feed cs with
      | .error e => .error e
      | .ok (d'', qs) => .ok (d'', ps ++ qs)

theorem feed_append_chunk (d : Decoder) (cs : List (List UInt8)) (c : List UInt8) :
    d.feed (cs ++ [c]) = (d.feed cs).bind fun (d', ps) =>
      (d'.push c).map fun (d'', qs) => (d'', ps ++ qs) := by
  induction cs generalizing d with
  | nil =>
    simp only [List.nil_append, feed, Except.bind]
    cases d.push c <;> simp [Except.map]
  | cons c' cs ih =>
    simp only [List.cons_append, feed, ih]
    cases d.push c' with
    | error e => rfl
    | ok r =>
      obtain ⟨d', ps⟩ := r
      dsimp only
      cases d'.feed cs with
      | error e => rfl
      | ok r' =>
        obtain ⟨d'', qs⟩ := r'
        simp only [Except.bind]
        cases d''.push c <;> simp [Except.map]

/-- Chunks pushed one after another: every payload they complete, in order, up to the first
chunk that cannot be decoded. -/
def payloads (d : Decoder) : List (List UInt8) → List String
  | [] => []
  | c :: cs =>
    match d.push c with
    | .error _ => []
    | .ok (d', ps) => ps ++ d'.payloads cs

theorem payloads_of_feed {d d' : Decoder} {cs : List (List UInt8)} {ps : List String}
    (h : d.feed cs = .ok (d', ps)) : d.payloads cs = ps := by
  induction cs generalizing d ps with
  | nil => simp only [feed, Except.ok.injEq, Prod.mk.injEq] at h; simp [payloads, h.2]
  | cons c cs ih =>
    simp only [feed] at h
    simp only [payloads]
    split at h
    · cases h
    · next d₁ qs hp =>
      split at h
      · cases h
      · next d₂ rs hf =>
        simp only [Except.ok.injEq, Prod.mk.injEq] at h
        obtain ⟨rfl, rfl⟩ := h
        rw [ih hf]

/-- One more chunk after chunks that decoded: its payloads follow, or none if it cannot be
decoded. -/
theorem payloads_append_chunk {d d' : Decoder} {cs : List (List UInt8)} {ps : List String}
    (h : d.feed cs = .ok (d', ps)) (c : List UInt8) :
    d.payloads (cs ++ [c]) = ps ++ match d'.push c with
      | .ok (_, qs) => qs
      | .error _ => [] := by
  induction cs generalizing d ps with
  | nil =>
    simp only [feed, Except.ok.injEq, Prod.mk.injEq] at h
    obtain ⟨rfl, rfl⟩ := h
    simp only [List.nil_append, payloads]
    split <;> simp_all
  | cons c' cs ih =>
    simp only [feed] at h
    simp only [List.cons_append, payloads]
    split at h
    · cases h
    · next d₁ qs hp =>
      split at h
      · cases h
      · next d₂ rs hf =>
        simp only [Except.ok.injEq, Prod.mk.injEq] at h
        obtain ⟨rfl, rfl⟩ := h
        simp [ih hf]

end Decoder

/-! ## The channel's part of the world -/

/-- Whether a note says a channel disconnected. -/
def Note.isDisconnect : Note → Bool
  | .channelEvent j => (j.field? "disconnected").isSome
  | _ => false

namespace World

variable (w : World) (i j : Nat)

/-- How many times a channel said it disconnected. -/
def disconnects : Nat := w.trace.countP Note.isDisconnect

@[simp] theorem channelAt_withChannel (f : Channel → Channel) :
    (w.withChannel i f).channelAt j = if i = j ∧ j < w.channels.size then f (w.channelAt j) else w.channelAt j :=
  getD_modify i j w.channels f

@[simp] theorem pipeAt_withPipe (f : Pipe → Pipe) :
    (w.withPipe i f).pipeAt j = if i = j ∧ j < w.pipes.size then f (w.pipeAt j) else w.pipeAt j :=
  getD_modify i j w.pipes f

@[simp] theorem channelAt_withPipe (f : Pipe → Pipe) : (w.withPipe i f).channelAt j = w.channelAt j := rfl
@[simp] theorem channelAt_withInbox (f : Inbox → Inbox) : (w.withInbox i f).channelAt j = w.channelAt j := rfl
@[simp] theorem channelAt_setLoop (l : Loop Outcome Cont Turn) : (w.setLoop l).channelAt j = w.channelAt j := rfl
@[simp] theorem channelAt_note (n : Note) : (w.note n).channelAt j = w.channelAt j := rfl
@[simp] theorem channelAt_log (d : Diagnostic) : (w.log d).channelAt j = w.channelAt j := by
  unfold log; split <;> rfl

@[simp] theorem pipeAt_withChannel (f : Channel → Channel) : (w.withChannel i f).pipeAt j = w.pipeAt j := rfl
@[simp] theorem pipeAt_withInbox (f : Inbox → Inbox) : (w.withInbox i f).pipeAt j = w.pipeAt j := rfl
@[simp] theorem pipeAt_setLoop (l : Loop Outcome Cont Turn) : (w.setLoop l).pipeAt j = w.pipeAt j := rfl
@[simp] theorem pipeAt_note (n : Note) : (w.note n).pipeAt j = w.pipeAt j := rfl
@[simp] theorem pipeAt_log (d : Diagnostic) : (w.log d).pipeAt j = w.pipeAt j := by
  unfold log; split <;> rfl

@[simp] theorem inboxAt_withChannel (f : Channel → Channel) : (w.withChannel i f).inboxAt j = w.inboxAt j := rfl
@[simp] theorem inboxAt_withPipe (f : Pipe → Pipe) : (w.withPipe i f).inboxAt j = w.inboxAt j := rfl

@[simp] theorem withChannel_loop (f : Channel → Channel) : (w.withChannel i f).loop = w.loop := rfl
@[simp] theorem withPipe_loop (f : Pipe → Pipe) : (w.withPipe i f).loop = w.loop := rfl

@[simp] theorem withChannel_channels_size (f : Channel → Channel) :
    (w.withChannel i f).channels.size = w.channels.size := by simp [withChannel]
@[simp] theorem withPipe_pipes_size (f : Pipe → Pipe) : (w.withPipe i f).pipes.size = w.pipes.size := by
  simp [withPipe]
@[simp] theorem withInbox_inboxes_size (f : Inbox → Inbox) :
    (w.withInbox i f).inboxes.size = w.inboxes.size := by simp [withInbox]

@[simp] theorem withChannel_pipes (f : Channel → Channel) : (w.withChannel i f).pipes = w.pipes := rfl
@[simp] theorem withChannel_inboxes (f : Channel → Channel) : (w.withChannel i f).inboxes = w.inboxes := rfl
@[simp] theorem withPipe_channels (f : Pipe → Pipe) : (w.withPipe i f).channels = w.channels := rfl
@[simp] theorem withPipe_inboxes (f : Pipe → Pipe) : (w.withPipe i f).inboxes = w.inboxes := rfl
@[simp] theorem withInbox_channels (f : Inbox → Inbox) : (w.withInbox i f).channels = w.channels := rfl
@[simp] theorem withInbox_pipes (f : Inbox → Inbox) : (w.withInbox i f).pipes = w.pipes := rfl
@[simp] theorem setLoop_channels (l : Loop Outcome Cont Turn) : (w.setLoop l).channels = w.channels := rfl
@[simp] theorem setLoop_pipes (l : Loop Outcome Cont Turn) : (w.setLoop l).pipes = w.pipes := rfl
@[simp] theorem note_channels (n : Note) : (w.note n).channels = w.channels := rfl
@[simp] theorem note_pipes (n : Note) : (w.note n).pipes = w.pipes := rfl
@[simp] theorem log_channels (d : Diagnostic) : (w.log d).channels = w.channels := by unfold log; split <;> rfl
@[simp] theorem log_pipes (d : Diagnostic) : (w.log d).pipes = w.pipes := by unfold log; split <;> rfl

@[simp] theorem disconnects_withChannel (f : Channel → Channel) :
    (w.withChannel i f).disconnects = w.disconnects := rfl
@[simp] theorem disconnects_withPipe (f : Pipe → Pipe) : (w.withPipe i f).disconnects = w.disconnects := rfl
@[simp] theorem disconnects_withInbox (f : Inbox → Inbox) :
    (w.withInbox i f).disconnects = w.disconnects := rfl
@[simp] theorem disconnects_setLoop (l : Loop Outcome Cont Turn) : (w.setLoop l).disconnects = w.disconnects := rfl
@[simp] theorem disconnects_note (n : Note) :
    (w.note n).disconnects = w.disconnects + if n.isDisconnect then 1 else 0 := by
  simp [disconnects, note, List.countP_cons]
@[simp] theorem disconnects_log (d : Diagnostic) : (w.log d).disconnects = w.disconnects := by
  unfold log; split <;> simp [Note.isDisconnect]

/-! ## The channel's steps, as functions of the world -/

/-- A stream destroyed, when its far side is the trace: it fails with `error` if given, then
closes, on the next ticks. -/
def destroyStream (s : Nat) (error : Option String) : World :=
  if (w.pipeAt s).destroyed then w
  else
    let w' := w.withPipe s fun p => { p with destroyed := true }
    let l := match error with
      | some m => w'.loop.soon (.pipeError s m)
      | none => w'.loop
    w'.setLoop (l.soon (.pipeClose s))

/-- What a channel's observer hears when the channel disconnects. -/
def disconnectEvent (reason : Option AdapterError) : Json :=
  Json.object [("disconnected",
    match reason with
    | some r => Json.objectOpt [("error", some (.string r.kind.name)), ("message", some (.string r.message)),
        ("code", some (.string r.kind.name))]
    | none => .null)]

/-- A channel with no listener and one observer ended: its stream destroyed, its observer told
unless it was disabled, its read loop's promise settled. -/
def finishChan (c : Nat) (reason : Option AdapterError) : World :=
  let ch := w.channelAt c
  if ch.finished then w
  else
    let w := w.withChannel c fun x => { x with finished := true }
    let w := match ch.connection with
      | some s => w.destroyStream s none
      | none => w
    let w := if ch.disabled then w
      else ((w.log (.probeDisconnected (reason.map (·.message)))).withChannel c
        fun x => { x with onDisconnected := [] }).note (.channelEvent (disconnectEvent reason))
    match ch.loop with
    | some p => w.setLoop (w.loop.settle p (.ok .none))
    | none => w

/-- A channel stopped on purpose: it ends, and no one hears of it. -/
def disableChan (c : Nat) : World :=
  if (w.channelAt c).disabled then w
  else (w.withChannel c fun x => { x with disabled := true }).finishChan c none

/-- The JSON object a payload carries, if it carries one. -/
def objectOf? (payload : String) : Option Json :=
  match Json.read payload with
  | .ok m => if m.isObject then some m else none
  | .error _ => none

/-- One payload handed on: an object is posted on the channel's context, and a closed context
disables the channel; anything else is logged and dropped. -/
def deliverPayload (c : Nat) (payload : String) : World :=
  match Json.read payload with
  | .error _ => w.log (.debug "Dropping non-JSON IPC payload" (some (.string payload)))
  | .ok m =>
    if !m.isObject then w.log (.debug "Dropping non-object IPC payload" (some (.string payload)))
    else if (w.inboxAt (w.channelAt c).inbox).closed then w.disableChan c
    else w.enqueue (w.channelAt c).inbox (.channelMessage c m)

/-- A chunk taken by a channel that has not finished: a frame error ends it, and otherwise
every payload the chunk completes is handed on, in order. -/
def receive (c : Nat) (bytes : List UInt8) : World :=
  let ch := w.channelAt c
  if ch.finished then w
  else
    match ch.decoder.push bytes with
    | .error e => w.finishChan c (some (.transport s!"Bad IPC frame: {e.message}"))
    | .ok (d, ps) => ps.foldl (fun w p => w.deliverPayload c p) (w.withChannel c fun x => { x with decoder := d })

/-- A channel starts reading its stream: a fresh decoder, its observers told it connected, and
what the stream held and its end heard again on the next ticks. -/
def readStream (c s : Nat) : World :=
  let ch := w.channelAt c
  let w := (w.withChannel c fun x => { x with decoder := Decoder.fresh x.framing }).log
    (.probeConnected ch.transport ch.framing.name)
  let w := (w.channelAt c).onConnected.foldl (fun w _ => w.note (.channelEvent (.string "connected")))
    (w.withChannel c fun x => { x with onConnected := [] })
  let pipe := w.pipeAt s
  let w := w.withPipe s fun p => { p with reader := some c, buffered := [] }
  let w := w.setLoop (pipe.buffered.foldl (fun l bs => l.soon (.pipeData s bs)) w.loop)
  if pipe.ended then w.setLoop (w.loop.soon (.pipeEnd s)) else w

/-- The read loop started, unless it was: its promise, settled at once on a finished channel; a
channel with a stream reads it, and one with neither stream nor listener ends. -/
def startLoop (c : Nat) : World :=
  let ch := w.channelAt c
  match ch.loop with
  | some _ => w
  | none =>
    let p := w.loop.cells.size
    let w := (w.setLoop w.loop.fresh.2).withChannel c fun x => { x with loop := some p, handler := some .observer }
    if ch.finished then w.setLoop (w.loop.settle p (.ok .none))
    else match ch.connection with
      | some s => w.readStream c s
      | none => w.finishChan c (some (.transport "IPC channel has neither a listener nor a connection"))

/-! ### What each of them changes -/

section Effects

variable {w} {c : Nat}

theorem settle_cells_of_cells {l l' : Loop Outcome Cont Turn} (h : l'.cells = l.cells) (p : Nat) (o : Outcome) :
    (l'.settle p o).cells = (l.settle p o).cells := by
  unfold Loop.settle
  rw [h]
  split <;> simp [h]

@[simp] theorem channelAt_destroyStream (s : Nat) (e : Option String) :
    (w.destroyStream s e).channelAt j = w.channelAt j := by
  unfold destroyStream; split <;> simp

@[simp] theorem inboxAt_destroyStream (s : Nat) (e : Option String) :
    (w.destroyStream s e).inboxAt j = w.inboxAt j := by
  unfold destroyStream; split <;> simp

@[simp] theorem destroyStream_channels (s : Nat) (e : Option String) :
    (w.destroyStream s e).channels = w.channels := by
  unfold destroyStream; split <;> simp

@[simp] theorem destroyStream_pipes_size (s : Nat) (e : Option String) :
    (w.destroyStream s e).pipes.size = w.pipes.size := by
  unfold destroyStream; split <;> simp

@[simp] theorem destroyStream_inboxes (s : Nat) (e : Option String) :
    (w.destroyStream s e).inboxes = w.inboxes := by
  unfold destroyStream; split <;> simp

@[simp] theorem disconnects_destroyStream (s : Nat) (e : Option String) :
    (w.destroyStream s e).disconnects = w.disconnects := by
  unfold destroyStream; split <;> simp

@[simp] theorem destroyStream_cells (s : Nat) (e : Option String) :
    (w.destroyStream s e).loop.cells = w.loop.cells := by
  unfold destroyStream; split
  · rfl
  · cases e <;> rfl

@[simp] theorem outcome?_destroyStream (s : Nat) (e : Option String) (q : Nat) :
    (w.destroyStream s e).loop.outcome? q = w.loop.outcome? q :=
  Loop.outcome?_of_cells (destroyStream_cells s e) q

@[simp] theorem outcome?_settle_destroyStream (s : Nat) (e : Option String) (p : Nat) (o : Outcome) (q : Nat) :
    ((w.destroyStream s e).loop.settle p o).outcome? q = (w.loop.settle p o).outcome? q :=
  Loop.outcome?_of_cells (settle_cells_of_cells (destroyStream_cells s e) p o) q

/-- Destroying a stream changes nothing of it but `destroyed`. -/
theorem pipeAt_destroyStream (s : Nat) (e : Option String) :
    (w.destroyStream s e).pipeAt j =
      { w.pipeAt j with destroyed := (w.pipeAt j).destroyed || (s = j ∧ j < w.pipes.size) } := by
  unfold destroyStream
  by_cases hd : (w.pipeAt s).destroyed = true
  · by_cases hj : s = j
    · subst hj
      rw [if_pos hd]
      generalize w.pipeAt s = p at hd ⊢
      cases p
      simp_all
    · simp [hd, hj]
  · by_cases hj : s = j ∧ j < w.pipes.size
    · obtain ⟨rfl, hs⟩ := hj
      simp [hd, hs]
    · simp only [hd, Bool.false_eq_true, if_false, pipeAt_setLoop, pipeAt_withPipe, hj]
      simp

theorem finishChan_of_finished (h : (w.channelAt c).finished = true) (r : Option AdapterError) :
    w.finishChan c r = w := by
  simp [finishChan, h]

theorem channelAt_finishChan (hv : c < w.channels.size) (r : Option AdapterError) :
    (w.finishChan c r).channelAt c = if (w.channelAt c).finished then w.channelAt c
      else { w.channelAt c with
        finished := true
        onDisconnected := if (w.channelAt c).disabled then (w.channelAt c).onDisconnected else [] } := by
  simp only [finishChan]
  cases hf : (w.channelAt c).finished
  · cases hc : (w.channelAt c).connection <;> cases hd : (w.channelAt c).disabled <;>
      cases hl : (w.channelAt c).loop <;> simp [hv, hd, hc, hl]
  · simp

@[simp] theorem inboxAt_finishChan (r : Option AdapterError) : (w.finishChan c r).inboxAt j = w.inboxAt j := by
  simp only [finishChan]
  cases (w.channelAt c).finished
  · cases (w.channelAt c).connection <;> cases (w.channelAt c).disabled <;> cases (w.channelAt c).loop <;> simp
  · rfl

@[simp] theorem finishChan_channels_size (r : Option AdapterError) :
    (w.finishChan c r).channels.size = w.channels.size := by
  simp only [finishChan]
  cases (w.channelAt c).finished
  · cases (w.channelAt c).connection <;> cases (w.channelAt c).disabled <;> cases (w.channelAt c).loop <;> simp
  · rfl

@[simp] theorem finishChan_pipes_size (r : Option AdapterError) :
    (w.finishChan c r).pipes.size = w.pipes.size := by
  simp only [finishChan]
  cases (w.channelAt c).finished
  · cases (w.channelAt c).connection <;> cases (w.channelAt c).disabled <;> cases (w.channelAt c).loop <;> simp
  · rfl

@[simp] theorem finishChan_inboxes (r : Option AdapterError) : (w.finishChan c r).inboxes = w.inboxes := by
  simp only [finishChan]
  cases (w.channelAt c).finished
  · cases (w.channelAt c).connection <;> cases (w.channelAt c).disabled <;> cases (w.channelAt c).loop <;> simp
  · rfl

/-- Ending a channel changes nothing of a stream but whether it is destroyed. -/
theorem pipeAt_finishChan (r : Option AdapterError) :
    ((w.finishChan c r).pipeAt j).reader = (w.pipeAt j).reader ∧
      ((w.finishChan c r).pipeAt j).far = (w.pipeAt j).far ∧
      ((w.finishChan c r).pipeAt j).probeSide = (w.pipeAt j).probeSide := by
  simp only [finishChan]
  cases (w.channelAt c).finished
  · cases (w.channelAt c).connection <;> cases (w.channelAt c).disabled <;> cases (w.channelAt c).loop <;>
      simp [pipeAt_destroyStream]
  · exact ⟨rfl, rfl, rfl⟩

theorem disconnectEvent_isDisconnect (r : Option AdapterError) :
    (Note.channelEvent (disconnectEvent r)).isDisconnect = true := by
  rfl

theorem disconnects_finishChan (r : Option AdapterError) :
    (w.finishChan c r).disconnects =
      w.disconnects + if (w.channelAt c).finished = false ∧ (w.channelAt c).disabled = false then 1 else 0 := by
  simp only [finishChan]
  cases hf : (w.channelAt c).finished
  · cases (w.channelAt c).connection <;> cases hd : (w.channelAt c).disabled <;>
      cases (w.channelAt c).loop <;> simp [disconnectEvent_isDisconnect]
  · simp

@[simp] theorem finishChan_cells_size (r : Option AdapterError) :
    (w.finishChan c r).loop.cells.size = w.loop.cells.size := by
  simp only [finishChan]
  cases (w.channelAt c).finished
  · cases (w.channelAt c).connection <;> cases (w.channelAt c).disabled <;> cases (w.channelAt c).loop <;> simp
  · rfl

/-- Ending a channel settles its read loop's promise and no other. -/
theorem outcome?_finishChan (r : Option AdapterError) (q : Nat) :
    (w.finishChan c r).loop.outcome? q = if (w.channelAt c).finished = false ∧ (w.channelAt c).loop = some q
      then (w.loop.settle q (.ok .none)).outcome? q else w.loop.outcome? q := by
  simp only [finishChan]
  cases (w.channelAt c).finished
  · cases hl : (w.channelAt c).loop with
    | none => cases (w.channelAt c).connection <;> cases (w.channelAt c).disabled <;> simp
    | some p =>
      by_cases hpq : p = q
      · subst hpq
        cases (w.channelAt c).connection <;> cases (w.channelAt c).disabled <;> simp
      · have hqp : q ≠ p := Ne.symm hpq
        cases (w.channelAt c).connection <;> cases (w.channelAt c).disabled <;>
          simp [hpq, Loop.outcome?_settle_of_ne _ _ hqp]
  · simp

theorem disableChan_of_disabled (h : (w.channelAt c).disabled = true) : w.disableChan c = w := by
  simp [disableChan, h]

theorem channelAt_disableChan (hv : c < w.channels.size) :
    (w.disableChan c).channelAt c = if (w.channelAt c).disabled then w.channelAt c
      else { w.channelAt c with disabled := true, finished := true } := by
  unfold disableChan
  cases hd : (w.channelAt c).disabled
  · simp only [Bool.false_eq_true, if_false]
    rw [channelAt_finishChan (by simpa using hv)]
    cases hf : (w.channelAt c).finished <;> simp [hv, hf]
  · rfl

@[simp] theorem inboxAt_disableChan : (w.disableChan c).inboxAt j = w.inboxAt j := by
  unfold disableChan; split <;> simp

@[simp] theorem disableChan_channels_size : (w.disableChan c).channels.size = w.channels.size := by
  unfold disableChan; split <;> simp

@[simp] theorem disableChan_pipes_size : (w.disableChan c).pipes.size = w.pipes.size := by
  unfold disableChan; split <;> simp

@[simp] theorem disableChan_inboxes : (w.disableChan c).inboxes = w.inboxes := by
  unfold disableChan; split <;> simp

@[simp] theorem disableChan_cells_size : (w.disableChan c).loop.cells.size = w.loop.cells.size := by
  unfold disableChan; split <;> simp

/-- A channel stopped on purpose says nothing. -/
theorem disconnects_disableChan (hv : c < w.channels.size) : (w.disableChan c).disconnects = w.disconnects := by
  unfold disableChan
  split
  · rfl
  · simp [disconnects_finishChan, hv]

theorem pipeAt_disableChan :
    ((w.disableChan c).pipeAt j).reader = (w.pipeAt j).reader ∧
      ((w.disableChan c).pipeAt j).far = (w.pipeAt j).far ∧
      ((w.disableChan c).pipeAt j).probeSide = (w.pipeAt j).probeSide := by
  unfold disableChan
  split
  · exact ⟨rfl, rfl, rfl⟩
  · simpa using pipeAt_finishChan (w := w.withChannel c fun x => { x with disabled := true }) (c := c) (j := j) none

theorem outcome?_disableChan (hv : c < w.channels.size) (q : Nat) :
    (w.disableChan c).loop.outcome? q = if (w.channelAt c).disabled = false ∧ (w.channelAt c).finished = false ∧
      (w.channelAt c).loop = some q then (w.loop.settle q (.ok .none)).outcome? q else w.loop.outcome? q := by
  unfold disableChan
  cases hd : (w.channelAt c).disabled
  · simp [outcome?_finishChan, hv]
  · simp

/-! ### Handing on the payloads of a chunk -/

/-- The JSON objects among payloads, in order: what a channel hands on. -/
def objects (ps : List String) : List Json := ps.filterMap objectOf?

theorem deliverPayload_of_none {p : String} (h : objectOf? p = none) : ∃ d, w.deliverPayload c p = w.log d := by
  unfold objectOf? at h
  unfold deliverPayload
  split
  · exact ⟨_, rfl⟩
  · next m hm =>
    rw [hm] at h
    cases ho : m.isObject
    · exact ⟨.debug "Dropping non-object IPC payload" (some (.string p)), by simp⟩
    · simp [ho] at h

theorem deliverPayload_of_some {p : String} {m : Json} (h : objectOf? p = some m) :
    w.deliverPayload c p = if (w.inboxAt (w.channelAt c).inbox).closed then w.disableChan c
      else w.enqueue (w.channelAt c).inbox (.channelMessage c m) := by
  unfold objectOf? at h
  unfold deliverPayload
  split
  · next e he => rw [he] at h; cases h
  · next m' hm =>
    rw [hm] at h
    cases ho : m'.isObject
    · simp [ho] at h
    · simp only [ho, if_true, Option.some.injEq] at h
      subst h
      simp

variable (c)

/-- The payloads of a chunk handed to a closed context: up to the first object only logs, then
the channel disables itself, then only logs. -/
theorem foldl_deliver_closed (ps : List String) : ∀ (w : World), c < w.channels.size →
    (w.inboxAt (w.channelAt c).inbox).closed = true →
    let w' := ps.foldl (fun w p => w.deliverPayload c p) w
    w'.channelAt c = (if objects ps = [] then w else w.disableChan c).channelAt c ∧
      (∀ j, w'.inboxAt j = w.inboxAt j) ∧
      (∀ j, (w'.pipeAt j).reader = (w.pipeAt j).reader ∧ (w'.pipeAt j).far = (w.pipeAt j).far ∧
        (w'.pipeAt j).probeSide = (w.pipeAt j).probeSide) ∧
      w'.loop.cells.size = w.loop.cells.size ∧
      (∀ q, w'.loop.outcome? q = (if objects ps = [] then w else w.disableChan c).loop.outcome? q) ∧
      w'.disconnects = w.disconnects ∧ w'.channels.size = w.channels.size ∧
      w'.pipes.size = w.pipes.size ∧ w'.inboxes.size = w.inboxes.size := by
  induction ps with
  | nil => intro w _ _; simp [objects]
  | cons p ps ih =>
    intro w hv hc
    cases hp : objectOf? p with
    | none =>
      obtain ⟨d, hd⟩ := deliverPayload_of_none (w := w) (c := c) hp
      have hobj : objects (p :: ps) = objects ps := by simp [objects, hp]
      obtain ⟨h1, h2, h3, h4, h5, h6, h7, h8, h9⟩ := ih (w.log d) (by simpa using hv) (by simpa using hc)
      simp only [List.foldl_cons, hd, hobj]
      refine ⟨?_, fun j => by rw [h2]; simp, fun j => by simpa using h3 j, by simpa using h4, fun q => ?_,
        by simpa using h6, by simpa using h7, by simpa using h8, by simpa using h9⟩
      · have hv' : c < (w.log d).channels.size := by simpa using hv
        rw [h1]
        split
        · simp
        · rw [channelAt_disableChan hv', channelAt_disableChan hv]; simp
      · have hv' : c < (w.log d).channels.size := by simpa using hv
        rw [h5]
        split
        · simp
        · rw [outcome?_disableChan hv', outcome?_disableChan hv]; simp
    | some m =>
      have hw : w.deliverPayload c p = w.disableChan c := by simp [deliverPayload_of_some hp, hc]
      have hobj : objects (p :: ps) ≠ [] := by simp [objects, hp]
      have hv' : c < (w.disableChan c).channels.size := by simpa using hv
      have hdis : ((w.disableChan c).channelAt c).disabled = true := by
        rw [channelAt_disableChan hv]; split <;> simp_all
      obtain ⟨h1, h2, h3, h4, h5, h6, h7, h8, h9⟩ := ih (w.disableChan c) hv'
        (by rw [channelAt_disableChan hv]; split <;> simpa using hc)
      simp only [List.foldl_cons, hw, hobj, if_false, disableChan_of_disabled hdis, ite_self] at h1 h5 ⊢
      refine ⟨h1, fun j => by rw [h2]; simp, fun j => ?_, by simpa using h4, h5, by rw [h6, disconnects_disableChan hv],
        by simpa using h7, by simpa using h8, by simpa using h9⟩
      obtain ⟨r1, r2, r3⟩ := h3 j
      obtain ⟨s1, s2, s3⟩ := pipeAt_disableChan (w := w) (c := c) (j := j)
      exact ⟨r1.trans s1, r2.trans s2, r3.trans s3⟩

@[simp] theorem enqueue_channels (i : Nat) (x : Errand) : (w.enqueue i x).channels = w.channels := by
  unfold enqueue; split <;> rfl

@[simp] theorem enqueue_pipes (i : Nat) (x : Errand) : (w.enqueue i x).pipes = w.pipes := by
  unfold enqueue; split <;> rfl

@[simp] theorem channelAt_enqueue (i : Nat) (x : Errand) : (w.enqueue i x).channelAt j = w.channelAt j := by
  simp [channelAt]

@[simp] theorem pipeAt_enqueue (i : Nat) (x : Errand) : (w.enqueue i x).pipeAt j = w.pipeAt j := by
  simp [pipeAt]

@[simp] theorem disconnects_enqueue (i : Nat) (x : Errand) : (w.enqueue i x).disconnects = w.disconnects := by
  simp [disconnects, enqueue_trace]

@[simp] theorem log_cells (d : Diagnostic) : (w.log d).loop.cells = w.loop.cells := by simp

/-- The payloads of a chunk handed to an open context: each object is queued on it, in order,
and nothing else of the channel changes. -/
theorem foldl_deliver_open (ps : List String) : ∀ (w : World), (w.channelAt c).inbox < w.inboxes.size →
    (w.inboxAt (w.channelAt c).inbox).closed = false →
    let w' := ps.foldl (fun w p => w.deliverPayload c p) w
    w'.channelAt c = w.channelAt c ∧
      (w'.inboxAt (w.channelAt c).inbox).queue =
        (w.inboxAt (w.channelAt c).inbox).queue ++ (objects ps).map (.channelMessage c) ∧
      (w'.inboxAt (w.channelAt c).inbox).closed = false ∧
      w'.pipes = w.pipes ∧ w'.loop.cells = w.loop.cells ∧ w'.disconnects = w.disconnects ∧
      w'.channels.size = w.channels.size ∧ w'.inboxes.size = w.inboxes.size := by
  induction ps with
  | nil => intro w _ hc; simp [objects, hc]
  | cons p ps ih =>
    intro w hi hc
    cases hp : objectOf? p with
    | none =>
      obtain ⟨d, hd⟩ := deliverPayload_of_none (w := w) (c := c) hp
      have hobj : objects (p :: ps) = objects ps := by simp [objects, hp]
      obtain ⟨h1, h2, h3, h4, h5, h6, h7, h8⟩ := ih (w.log d) (by simpa using hi) (by simpa using hc)
      simp only [List.foldl_cons, hd, hobj]
      simp only [channelAt_log, inboxAt_log, log_pipes, log_cells, disconnects_log, log_channels] at h1 h2 h3 h4 h5 h6 h7
      exact ⟨h1, h2, h3, h4, h5, h6, h7, by simpa using h8⟩
    | some m =>
      have hw : w.deliverPayload c p = w.enqueue (w.channelAt c).inbox (.channelMessage c m) := by
        simp [deliverPayload_of_some hp, hc]
      have hobj : objects (p :: ps) = m :: objects ps := by simp [objects, hp]
      have hq := inboxAt_enqueue (w := w) (w.channelAt c).inbox (.channelMessage c m) (w.channelAt c).inbox
      simp only [hi, and_self, if_true] at hq
      obtain ⟨h1, h2, h3, h4, h5, h6, h7, h8⟩ :=
        ih (w.enqueue (w.channelAt c).inbox (.channelMessage c m)) (by simpa using hi) (by simp [hq, hc])
      simp only [List.foldl_cons, hw, hobj]
      simp only [channelAt_enqueue, hq, enqueue_pipes, enqueue_cells, disconnects_enqueue,
        enqueue_channels, enqueue_inboxes_size] at h1 h2 h3 h4 h5 h6 h7 h8
      exact ⟨h1, by simp [h2], h3, h4, h5, h6, h7, h8⟩

/-! ### Starting to read -/

theorem foldl_note (n : Note) (hooks : List ChannelHook) : ∀ w : World,
    hooks.foldl (fun w _ => w.note n) w = { w with trace := List.replicate hooks.length n ++ w.trace } := by
  induction hooks with
  | nil => intro w; rfl
  | cons _ hooks ih =>
    intro w
    rw [List.foldl_cons, ih]
    simp [note, List.replicate_succ']

section Notes

variable (n : Note) (hooks : List ChannelHook) (w : World)

@[simp] theorem channelAt_foldl_note : (hooks.foldl (fun w _ => w.note n) w).channelAt j = w.channelAt j := by
  rw [foldl_note]; rfl
@[simp] theorem pipeAt_foldl_note : (hooks.foldl (fun w _ => w.note n) w).pipeAt j = w.pipeAt j := by
  rw [foldl_note]; rfl
@[simp] theorem foldl_note_channels : (hooks.foldl (fun w _ => w.note n) w).channels = w.channels := by
  rw [foldl_note]
@[simp] theorem foldl_note_pipes : (hooks.foldl (fun w _ => w.note n) w).pipes = w.pipes := by
  rw [foldl_note]
@[simp] theorem foldl_note_inboxes : (hooks.foldl (fun w _ => w.note n) w).inboxes = w.inboxes := by
  rw [foldl_note]
@[simp] theorem foldl_note_loop : (hooks.foldl (fun w _ => w.note n) w).loop = w.loop := by
  rw [foldl_note]
@[simp] theorem foldl_note_trace :
    (hooks.foldl (fun w _ => w.note n) w).trace = List.replicate hooks.length n ++ w.trace := by
  rw [foldl_note]
@[simp] theorem disconnects_foldl_note :
    (hooks.foldl (fun w _ => w.note n) w).disconnects = w.disconnects + if n.isDisconnect then hooks.length else 0 := by
  simp only [disconnects, foldl_note_trace, List.countP_append, List.countP_replicate, Nat.add_comm]

end Notes

theorem foldl_soon_cells (s : Nat) (bss : List (List UInt8)) : ∀ l : Loop Outcome Cont Turn,
    (bss.foldl (fun l bs => l.soon (.pipeData s bs)) l).cells = l.cells := by
  induction bss with
  | nil => intro l; rfl
  | cons _ bss ih => intro l; rw [List.foldl_cons, ih]; rfl

variable (s : Nat)

theorem channelAt_readStream (hv : c < w.channels.size) : (w.readStream c s).channelAt c =
    { w.channelAt c with decoder := Decoder.fresh (w.channelAt c).framing, onConnected := [] } := by
  simp only [readStream]
  split <;> simp [hv]

theorem pipeAt_readStream : (w.readStream c s).pipeAt j =
    if s = j ∧ j < w.pipes.size then { w.pipeAt j with reader := some c, buffered := [] } else w.pipeAt j := by
  simp only [readStream]
  split <;> simp

@[simp] theorem readStream_inboxes : (w.readStream c s).inboxes = w.inboxes := by
  simp only [readStream]
  split <;> simp

@[simp] theorem readStream_cells : (w.readStream c s).loop.cells = w.loop.cells := by
  simp only [readStream]
  have hs : ∀ (l : Loop Outcome Cont Turn) t, (l.soon t).cells = l.cells := fun _ _ => rfl
  split <;> simp [foldl_soon_cells, hs]

@[simp] theorem readStream_channels_size : (w.readStream c s).channels.size = w.channels.size := by
  simp only [readStream]
  split <;> simp

@[simp] theorem readStream_pipes_size : (w.readStream c s).pipes.size = w.pipes.size := by
  simp only [readStream]
  split <;> simp

/-- Saying `connected` is no disconnect. -/
theorem disconnects_readStream : (w.readStream c s).disconnects = w.disconnects := by
  have hn : (Note.channelEvent (.string "connected")).isDisconnect = false := rfl
  simp only [readStream]
  split <;> simp [hn]

end Effects

end World

/-- A channel as the bench makes it: no listener, a stream whose written bytes are kept, and
only observers to hear it connect and disconnect. -/
structure Shaped (c : Nat) (w : World) : Prop where
  valid : c < w.channels.size
  listener : (w.channelAt c).listener = none
  far : ∀ s, (w.channelAt c).connection = some s → (w.pipeAt s).far = .record
  connected : ∀ h ∈ (w.channelAt c).onConnected, h = .observer
  disconnected : (w.channelAt c).finished = false → (w.channelAt c).onDisconnected = [.observer]

namespace Shaped

variable {c : Nat} {w : World}

/-- What leaves the channel and the far sides of the streams as they were keeps its shape. -/
theorem frame (h : Shaped c w) {w' : World} (hc : w'.channelAt c = w.channelAt c)
    (hs : w'.channels.size = w.channels.size) (hp : ∀ s, (w'.pipeAt s).far = (w.pipeAt s).far) : Shaped c w' where
  valid := hs ▸ h.valid
  listener := hc ▸ h.listener
  far s hcs := (hp s).trans (h.far s (hc ▸ hcs))
  connected := hc ▸ h.connected
  disconnected := hc ▸ h.disconnected

theorem log (h : Shaped c w) (d : Diagnostic) : Shaped c (w.log d) := h.frame (by simp) (by simp) (by simp)

theorem enqueue (h : Shaped c w) (i : Nat) (x : Errand) : Shaped c (w.enqueue i x) :=
  h.frame (by unfold World.enqueue; split <;> simp) (by unfold World.enqueue; split <;> rfl)
    (by unfold World.enqueue; split <;> simp)

theorem destroyStream (h : Shaped c w) (s : Nat) (error : Option String) : Shaped c (w.destroyStream s error) :=
  h.frame (by unfold World.destroyStream; split <;> simp) (by unfold World.destroyStream; split <;> simp)
    (fun s' => by unfold World.destroyStream; split <;> simp; split <;> simp)

/-- A change of the channel that keeps its listener, its stream, its hooks and whether it has
finished keeps its shape. -/
theorem update (h : Shaped c w) (f : Channel → Channel) (hl : (f (w.channelAt c)).listener = none)
    (hc : (f (w.channelAt c)).connection = (w.channelAt c).connection)
    (ho : (f (w.channelAt c)).onConnected = (w.channelAt c).onConnected)
    (hd : (f (w.channelAt c)).finished = false → (f (w.channelAt c)).onDisconnected = [.observer]) :
    Shaped c (w.withChannel c f) where
  valid := by simpa using h.valid
  listener := by simpa [h.valid] using hl
  far s hs := by simpa using h.far s (by simpa [h.valid, hc] using hs)
  connected := by simpa [h.valid, ho] using h.connected
  disconnected := by simpa [h.valid] using hd

theorem finishChan (h : Shaped c w) (r : Option AdapterError) : Shaped c (w.finishChan c r) where
  valid := by simpa using h.valid
  listener := by rw [World.channelAt_finishChan h.valid]; split <;> simp [h.listener]
  far s hs := by
    rw [(World.pipeAt_finishChan (w := w) (c := c) s r).2.1]
    apply h.far s
    rw [World.channelAt_finishChan h.valid] at hs
    split at hs <;> simpa using hs
  connected := by
    rw [World.channelAt_finishChan h.valid]
    split
    · exact h.connected
    · simpa using h.connected
  disconnected hf := by
    rw [World.channelAt_finishChan h.valid] at hf ⊢
    split at hf
    · next hfin => rw [hfin] at hf; cases hf
    · simp at hf

theorem disableChan (h : Shaped c w) : Shaped c (w.disableChan c) := by
  unfold World.disableChan
  split
  · exact h
  · exact (h.update _ (by simpa using h.listener) rfl rfl (fun hf => h.disconnected hf)).finishChan none

theorem deliverPayload (h : Shaped c w) (p : String) : Shaped c (w.deliverPayload c p) := by
  cases hp : World.objectOf? p with
  | none =>
    obtain ⟨d, hd⟩ := World.deliverPayload_of_none (w := w) (c := c) hp
    rw [hd]
    exact h.log d
  | some m =>
    rw [World.deliverPayload_of_some hp]
    split
    · exact h.disableChan
    · exact h.enqueue _ _

end Shaped

namespace Act

variable {w : World}

theorem destroyPipe_run {s : Nat} (hfar : (w.pipeAt s).far = .record) (error : Option String) :
    (destroyPipe s error).run w = .ok () (w.destroyStream s error) := by
  unfold destroyPipe World.destroyStream
  by_cases hd : (w.pipeAt s).destroyed = true
  · simp [hd]
  · cases error <;> simp [hd, hfar, EStateM.run_bind] <;> rfl

theorem finishChannel_run {c : Nat} (h : Shaped c w) (reason : Option AdapterError) :
    (finishChannel c reason).run w = .ok () (w.finishChan c reason) := by
  unfold finishChannel World.finishChan
  by_cases hf : (w.channelAt c).finished = true
  · simp [hf]
  · have hf' : (w.channelAt c).finished = false := by simpa using hf
    have hd := h.disconnected hf'
    -- the stream's far side is read after the channel is marked finished
    rcases hc : (w.channelAt c).connection with _ | s
    · cases hdis : (w.channelAt c).disabled <;> cases hloop : (w.channelAt c).loop <;> cases reason <;>
        simp [hf', hc, hdis, hloop, hd, h.listener, EStateM.run_bind, World.disconnectEvent]
    · have hfar : ((w.withChannel c fun x => { x with finished := true }).pipeAt s).far = .record := by
        simpa using h.far s hc
      cases hdis : (w.channelAt c).disabled <;> cases hloop : (w.channelAt c).loop <;> cases reason <;>
        simp [hf', hc, hdis, hloop, hd, h.listener, EStateM.run_bind, World.disconnectEvent,
          destroyPipe_run hfar]

theorem disableChannel_run {c : Nat} (h : Shaped c w) : (disableChannel c).run w = .ok () (w.disableChan c) := by
  unfold disableChannel World.disableChan
  by_cases hd : (w.channelAt c).disabled = true
  · simp [hd]
  · have h' := h.update (fun x => { x with disabled := true }) (by simpa using h.listener) rfl rfl
      (fun hf => h.disconnected hf)
    simp [hd, EStateM.run_bind, finishChannel_run h']

theorem deliver_run {c : Nat} (h : Shaped c w) (payload : String) :
    (deliver c payload).run w = .ok () (w.deliverPayload c payload) := by
  unfold deliver World.deliverPayload
  cases hr : Json.read payload with
  | error e => rfl
  | ok m =>
    cases ho : m.isObject
    · simp [ho]
    · cases hc : (w.inboxAt (w.channelAt c).inbox).closed
      · simp [ho, EStateM.run_bind, run_attempt, post_open w _ hc]
      · simp [ho, EStateM.run_bind, run_attempt, post_closed w _ hc, isClosedContext, closedContext,
          disableChannel_run h]

theorem forM_deliver_run {c : Nat} (ps : List String) : ∀ {w : World}, Shaped c w →
    (forM ps (deliver c)).run w = .ok () (ps.foldl (fun w p => w.deliverPayload c p) w) := by
  induction ps with
  | nil => intro w _; rfl
  | cons p ps ih =>
    intro w h
    simp only [List.forM_cons, EStateM.run_bind, deliver_run h, List.foldl_cons]
    exact ih (h.deliverPayload p)

theorem channelData_run {c : Nat} (h : Shaped c w) (bytes : List UInt8) :
    (channelData c bytes).run w = .ok () (w.receive c bytes) := by
  unfold channelData World.receive
  by_cases hf : (w.channelAt c).finished = true
  · simp [hf]
  · cases hp : (w.channelAt c).decoder.push bytes with
    | error e => simp [hf, hp, EStateM.run_bind, finishChannel_run h]
    | ok r =>
      obtain ⟨d, ps⟩ := r
      have h' := h.update (fun x => { x with decoder := d }) (by simpa using h.listener) rfl rfl
        (fun hf => h.disconnected hf)
      simp [hf, hp, EStateM.run_bind, forM_deliver_run ps h']

@[simp] theorem soon_run (t : Turn) : (soon t).run w = .ok () (w.setLoop (w.loop.soon t)) := rfl

theorem forM_soon_run (s : Nat) (bss : List (List UInt8)) : ∀ {w : World},
    (bss.forM fun bs => soon (.pipeData s bs)).run w =
      .ok () (w.setLoop (bss.foldl (fun l bs => l.soon (.pipeData s bs)) w.loop)) := by
  induction bss with
  | nil => intro w; rfl
  | cons bs bss ih =>
    intro w
    simp only [List.forM, EStateM.run_bind, soon_run, ih, List.foldl_cons, World.setLoop_loop,
      World.setLoop_setLoop]

theorem announceConnected_run {c : Nat} (h : ∀ hk ∈ (w.channelAt c).onConnected, hk = .observer) :
    (announceConnected c).run w = .ok () ((w.channelAt c).onConnected.foldl
      (fun w _ => w.note (.channelEvent (.string "connected"))) (w.withChannel c fun x => { x with onConnected := [] })) := by
  unfold announceConnected
  simp only [EStateM.run_bind, EStateM.run_get, change_run]
  generalize (w.withChannel c fun x => { x with onConnected := [] }) = w'
  generalize (w.channelAt c).onConnected = hooks at h ⊢
  induction hooks generalizing w' with
  | nil => rfl
  | cons hk hks ih =>
    obtain rfl := h hk List.mem_cons_self
    simp only [List.forM, EStateM.run_bind, note_run, List.foldl_cons]
    exact ih _ (fun x hx => h x (List.mem_cons_of_mem _ hx))

theorem readPipe_run {c s : Nat} (h : Shaped c w) :
    (readPipe c s).run w = .ok () (w.readStream c s) := by
  unfold readPipe World.readStream
  have hc : ∀ hk ∈ (((w.withChannel c fun x => { x with decoder := Decoder.fresh x.framing }).log
      (.probeConnected (w.channelAt c).transport (w.channelAt c).framing.name)).channelAt c).onConnected,
      hk = .observer := by
    simpa [h.valid] using h.connected
  simp only [EStateM.run_bind, EStateM.run_get, change_run, log_run, announceConnected_run hc, forM_soon_run]
  split <;> rfl

theorem runAcceptAndRead_run {c : Nat} (h : Shaped c w) :
    (runAcceptAndRead c .observer).run w =
      .ok ((w.channelAt c).loop.getD w.loop.cells.size) (w.startLoop c) := by
  unfold runAcceptAndRead World.startLoop
  cases hl : (w.channelAt c).loop with
  | some p => simp [hl]
  | none =>
    have h' : Shaped c ((w.setLoop w.loop.fresh.2).withChannel c
        fun x => { x with loop := some w.loop.cells.size, handler := some .observer }) :=
      (h.frame (by simp) (by simp) (by simp)).update _ (by simpa using h.listener) rfl rfl (fun hf => h.disconnected hf)
    cases hf : (w.channelAt c).finished
    · cases hc : (w.channelAt c).connection with
      | none =>
        simp only [bind_pure_comp, EStateM.run_bind, EStateM.run_get, hl, hf, Bool.false_eq_true, ↓reduceIte, hc,
          h.listener, fresh_run, ExceptT.stM_eq, change_run, run_map, finishChannel_run h', Option.getD_none]
      | some s =>
        simp only [bind_pure_comp, EStateM.run_bind, EStateM.run_get, hl, hf, Bool.false_eq_true, ↓reduceIte, hc,
          fresh_run, ExceptT.stM_eq, change_run, run_map, readPipe_run h', Option.getD_none]
    · simp only [bind_pure_comp, EStateM.run_bind, EStateM.run_get, hl, hf, ↓reduceIte, fresh_run, ExceptT.stM_eq,
        change_run, run_map, fulfil_run, World.withChannel_loop, World.setLoop_loop, Option.getD_none]

theorem runTurn_pipeEnd {s : Nat} (hp : (w.pipeAt s).probeSide = false) :
    (runTurn (.pipeEnd s)).run w = (pipeEvent s none).run (w.withPipe s fun p => { p with ended := true }) := by
  simp [runTurn, EStateM.run_bind, hp]

/-- A write fails with a transport error, and changes nothing, whenever the channel has no
stream, is disabled or finished, or its stream is destroyed. -/
theorem channelWrite_refused {c : Nat} (command : Json)
    (h : (w.channelAt c).connection = none ∨ (w.channelAt c).disabled = true ∨ (w.channelAt c).finished = true ∨
      ∃ s, (w.channelAt c).connection = some s ∧ (w.pipeAt s).destroyed = true) :
    (channelWrite c command).run w = .error (.adapter (.transport "No live IPC connection")) w := by
  simp only [channelWrite, EStateM.run_bind, EStateM.run_get]
  split
  · rfl
  · next s hs =>
    -- a live stream contradicts each of the cases
    exfalso
    revert hs
    rcases h with h | h | h | ⟨s', hs', hd⟩
    · simp [h]
    · cases (w.channelAt c).connection <;> simp [h]
    · cases (w.channelAt c).connection <;> simp [h]
    · simp [hs', hd]

/-- A write to a stream whose bytes are kept either fails and changes nothing, or notes the
encoded bytes. -/
theorem channelWrite_run {c : Nat} (h : ∀ s, (w.channelAt c).connection = some s → (w.pipeAt s).far = .record)
    (command : Json) : (∃ e, (channelWrite c command).run w = .error e w) ∨
      ∃ bytes, (channelWrite c command).run w = .ok () (w.note (.bytes bytes)) := by
  simp only [channelWrite, EStateM.run_bind, EStateM.run_get]
  split
  · exact .inl ⟨_, rfl⟩
  · next s hs =>
    have hfar : (w.pipeAt s).far = .record := by
      split at hs
      · next s' hc =>
        split at hs
        · contradiction
        · cases hs; exact h _ hc
      · contradiction
    split
    · exact .inl ⟨_, rfl⟩
    · next bytes _ => exact .inr ⟨bytes, by simp [pipeWrite, EStateM.run_bind, hfar, note_run]⟩

end Act

end DapBridge
