import DapBridge.Session.Core

/-!
# The probe channel

A channel carries commands to the probe and messages from it over one byte stream. It
either accepts the probe's one connection on a listener or wraps a stream that is connected
already. Its read loop decodes inbound frames and posts each message, in order, on the
channel's scheduling context, where the handler runs. A frame that cannot be decoded ends
the channel; a payload that is no JSON object is dropped.

A channel ends once (`finished`): its listener closes, its stream is destroyed and the read
loop's promise resolves. It says `disconnected`, with the reason if there is one, unless it
was stopped on purpose (`disabled`). It says `connected` when its read loop starts on a
stream.
-/

namespace DapBridge

namespace Act

def channelEnabled (c : Channel) : Bool := !c.disabled && !c.finished

/-- Whether a channel has a live stream. -/
def channelConnected (w : World) (c : Channel) : Bool :=
  match c.connection with
  | some s => !c.finished && !(w.pipeAt s).destroyed
  | none => false

/-- Write bytes to a stream: they reach its far side on a later turn. -/
def pipeWrite (s : Nat) (bytes : List UInt8) : Act Unit := do
  match ((← get).pipeAt s).far with
  | .record => note (.bytes bytes)
  | .peer q => defer (.pipeData q bytes)

/-- Destroy a stream: it fails with `error` if given, then closes; the far side of a socket
ends. -/
def destroyPipe (s : Nat) (error : Option String) : Act Unit := do
  let pipe := (← get).pipeAt s
  if pipe.destroyed then return
  change (·.withPipe s fun p => { p with destroyed := true })
  if let some m := error then soon (.pipeError s m)
  soon (.pipeClose s)
  if let .peer q := pipe.far then defer (.pipeEnd q)

/-- Close a listener; it accepts nothing more. -/
def closeListener (l : Nat) : Act Unit := change (·.withListener l fun x => { x with closed := true, acceptor := none })

/-- Send one command to the probe: a string as it is, anything else as JSON text.
Fails with a transport error when there is no live stream. -/
def channelWrite (c : Nat) (command : Json) : Act Unit := do
  let w ← get
  let ch := w.channelAt c
  let live := match ch.connection with
    | some s => if ch.disabled || ch.finished || (w.pipeAt s).destroyed then none else some s
    | none => none
  match live with
  | none => failWith (.transport "No live IPC connection")
  | some s =>
    let text := match command with
      | .str t => t.toString
      | m => Json.write m
    match ch.framing.encode text with
    | .error e => failWith (.transport s!"IPC write failed: {e.message}")
    | .ok bytes => pipeWrite s bytes

/-- Tell the channel's listeners it connected; each hears it once. -/
def announceConnected (c : Nat) : Act Unit := do
  let hooks := ((← get).channelAt c).onConnected
  change (·.withChannel c fun ch => { ch with onConnected := [] })
  hooks.forM fun
    | .engine _ => do
      let held := ((← get).channelAt c).held
      change (·.withChannel c fun ch => { ch with held := [], released := true })
      held.forM (channelWrite c)
    | .observer => note (.channelEvent (.string "connected"))

/-- Post work for a session; after it has shut down the work is dropped. -/
def postForSession (e : Nat) (x : Errand) : Act Unit := do
  match ← attempt (post ((← get).engineAt e).inbox x) with
  | .ok () => pure ()
  | .error f =>
    if !isClosedContext f then fail f
    debug "Dropped work for a closed session" (some (.string f.message))

/-- End the channel, once. -/
def finishChannel (c : Nat) (reason : Option AdapterError) : Act Unit := do
  let ch := (← get).channelAt c
  if ch.finished then return
  change (·.withChannel c fun x => { x with finished := true })
  if let some l := ch.listener then closeListener l
  if let some s := ch.connection then destroyPipe s none
  if !ch.disabled then
    log (.probeDisconnected (reason.map (·.message)))
    change (·.withChannel c fun x => { x with onDisconnected := [] })
    ch.onDisconnected.forM fun
      | .engine e => postForSession e (.probeDisconnected e (reason.map (·.message)))
      | .observer => note (.channelEvent (Json.object [("disconnected",
          match reason with
          | some r => Json.objectOpt [("error", some (.string r.kind.name)), ("message", some (.string r.message)),
              ("code", some (.string r.kind.name))]
          | none => .null)]))
  if let some p := ch.loop then fulfil p .none

/-- Stop the channel on purpose: the loop ends and no one hears of a disconnect. -/
def disableChannel (c : Nat) : Act Unit := do
  if ((← get).channelAt c).disabled then return
  change (·.withChannel c fun x => { x with disabled := true })
  finishChannel c none

/-- Hand one payload to the handler, through the context. -/
def deliver (c : Nat) (payload : String) : Act Unit := do
  match Json.read payload with
  | .error _ => debug "Dropping non-JSON IPC payload" (some (.string payload))
  | .ok m =>
    if !m.isObject then debug "Dropping non-object IPC payload" (some (.string payload))
    else
      match ← attempt (post ((← get).channelAt c).inbox (.channelMessage c m)) with
      | .ok () => pure ()
      | .error f =>
        if !isClosedContext f then fail f
        disableChannel c

/-- Bytes arrived on the channel's stream. -/
def channelData (c : Nat) (bytes : List UInt8) : Act Unit := do
  let ch := (← get).channelAt c
  if ch.finished then return
  match ch.decoder.push bytes with
  | .error e => finishChannel c (some (.transport s!"Bad IPC frame: {e.message}"))
  | .ok (d, payloads) =>
    change (·.withChannel c fun x => { x with decoder := d })
    payloads.forM (deliver c)

/-- Start reading a stream: say so, then take its bytes. -/
def readPipe (c s : Nat) : Act Unit := do
  let ch := (← get).channelAt c
  change (·.withChannel c fun x => { x with decoder := Decoder.fresh x.framing })
  log (.probeConnected ch.transport ch.framing.name)
  announceConnected c
  let pipe := (← get).pipeAt s
  change (·.withPipe s fun p => { p with reader := some c, buffered := [] })
  pipe.buffered.forM fun bs => soon (.pipeData s bs)
  if pipe.ended then soon (.pipeEnd s)

/-- Accept the probe (unless connected already), then read until the stream ends or the
channel stops. The loop's promise; asking again gives the same one. -/
def runAcceptAndRead (c : Nat) (handler : ChannelHook) : Act Nat := do
  let ch := (← get).channelAt c
  if let some p := ch.loop then return p
  let p ← fresh
  change (·.withChannel c fun x => { x with loop := some p, handler := some handler })
  if ch.finished then fulfil p .none
  else match ch.connection, ch.listener with
    | some s, _ => readPipe c s
    | none, some l => change (·.withListener l fun x => { x with acceptor := some c })
    | none, none => finishChannel c (some (.transport "IPC channel has neither a listener nor a connection"))
  return p

/-- A listener's connection arrived: its waiting channel takes it, and it stops listening. -/
def acceptConnection (l s : Nat) : Act Unit := do
  let x := (← get).listenerAt l
  match x.acceptor with
  | none => pure ()
  | some c =>
    closeListener l
    if ((← get).channelAt c).finished then destroyPipe s none
    else
      change (·.withChannel c fun ch => { ch with connection := some s })
      readPipe c s

/-- A stream's event, heard by the channel reading it. -/
def pipeEvent (s : Nat) (reason : Option AdapterError) : Act Unit := do
  match ((← get).pipeAt s).reader with
  | some c => finishChannel c reason
  | none => pure ()

end Act

end DapBridge
