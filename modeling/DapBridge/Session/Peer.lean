import DapBridge.Session.Control
import DapBridge.Path.Host
import DapBridge.Ipc.Address

/-!
# Sockets on the simulated host, and the probe at their far end

A connection joins two streams, each the far side of the other. A unix socket reaches the
listener open at its path; with none there the connect is refused when the host has
something at the path (`Path.locate`), and fails as the file is missing otherwise. TCP
reaches a listener on its port only on a host whose network routes to it: on a host without
a route every TCP connect fails as unreachable.

The socket probe is a simulated probe at one end of a connection. It reads the adapter's
commands (binary command frames, or `DBGCMD:` lines), notes each with the frame kind or the
raw line, and answers from its script at once: each scripted message goes out as a binary
event frame or a `DBGP:` line. It notes when its socket closes. A listener may hand its
connections to the socket probe; the probe then notes that it accepted one.
-/

namespace DapBridge

/-- The pieces of bytes between line feeds: the last piece is what follows the last feed. -/
def lineSegments : List UInt8 → List (List UInt8)
  | [] => [[]]
  | b :: bs =>
    if b == 10 then [] :: lineSegments bs
    else match lineSegments bs with
      | s :: ss => (b :: s) :: ss
      | [] => [[b]]

theorem lineSegments_ne_nil (bs : List UInt8) : lineSegments bs ≠ [] := by
  cases bs with
  | nil => simp [lineSegments]
  | cons b bs =>
    simp only [lineSegments]
    split
    · simp
    · split <;> simp

/-- The frames complete at the front of the bytes, each with its kind, and the rest. `fuel`
is at least the number of frames. -/
def splitFrames : Nat → List UInt8 → List (Nat × List UInt8) × List UInt8
  | 0, bs => ([], bs)
  | fuel + 1, bs =>
    match bs with
    | k :: a :: b :: c :: d :: body =>
      let n := Frame.lengthOf [a, b, c, d]
      if body.length < n then ([], bs)
      else
        let (fs, rest) := splitFrames fuel (body.drop n)
        ((k.toNat, body.take n) :: fs, rest)
    | _ => ([], bs)

/-- What a connect attempt reaches: a listener, or a refusal with the system's message. -/
inductive Reach where
  | listener (l : Nat)
  | refused (message : String)

namespace Act

/-- The open listener with the given path. -/
def listenerAtPath? (w : World) (path : String) : Option Nat :=
  w.listeners.toList.findIdx? fun l =>
    !l.closed && match l.endpoint with
      | .unix p => p == path
      | .pipe p => p == path
      | .tcp .. => false

/-- The open listener on the given TCP port. -/
def listenerAtPort? (w : World) (port : Double) : Option Nat :=
  w.listeners.toList.findIdx? fun l =>
    !l.closed && match l.endpoint with
      | .tcp _ q => Double.eq q port
      | _ => false

/-- The most bytes a socket path may have. -/
def socketPathLimit : Nat := 108

/-- Where a connection to an endpoint arrives. A socket path must be a non-empty text of at
most `socketPathLimit` bytes without a zero character; a path with no listener refuses the
connection when something is there, and is missing (or passes through a file, or loops)
otherwise. -/
def reach (ep : Endpoint) : Act Reach := do
  let w ← get
  match ep with
  | .tcp host port =>
    let place := s!"{Address.display host}:{port.render}"
    if !w.rig.tcpReachable then return .refused s!"connect ENETUNREACH {place} - Local (0.0.0.0:0)"
    match listenerAtPort? w port with
    | some l => return .listener l
    | none => return .refused s!"connect ECONNREFUSED {place}"
  | .unix path | .pipe path =>
    if path.isEmpty || path.contains (Char.ofNat 0) || (Utf8.encode path).length > socketPathLimit then
      let shown := if path.isEmpty then "undefined" else path
      return .refused s!"connect EINVAL {shown} - Local (undefined:undefined)"
    match listenerAtPath? w path with
    | some l => return .listener l
    | none =>
      let code := match Path.locate w.host.files path with
        | .ok _ => "ECONNREFUSED"
        | .error .notDirectory => "ENOTDIR"
        | .error .loop => "ELOOP"
        | .error .missing => "ENOENT"
      return .refused s!"connect {code} {path}"

/-- Two streams joined into one connection: the connecting end and the accepted end. -/
def socketPair : Act (Nat × Nat) := do
  let fresh : Pipe := ⟨none, [], false, false, .record, false, false, []⟩
  let a ← modifyGet fun w => (w.pipes.size, { w with pipes := w.pipes.push fresh })
  let b ← modifyGet fun w => (w.pipes.size, { w with pipes := w.pipes.push { fresh with far := .peer a } })
  change (·.withPipe a fun p => { p with far := .peer b })
  return (a, b)

/-- Put the socket probe at a stream's end. -/
def placeProbe (s : Nat) (binary : Bool) : Act Unit := do
  change (·.withPipe s fun p => { p with probeSide := true, probeBinary := binary })
  change fun w => { w with rig := { w.rig with socket := some s } }

/-- Connect to an endpoint: `p` settles with the connecting end once the connection is made,
or fails with the refusal. -/
def connectSocket (p : Nat) (ep : Endpoint) : Act Unit := do
  match ← reach ep with
  | .refused m => defer (.refused p m)
  | .listener l =>
    let (a, b) ← socketPair
    defer (.accept l b)
    defer (.connected p a)

/-- A listener's connection arrived: the socket probe takes it if the listener is its own,
else the channel waiting on the listener does. -/
def acceptSocket (l s : Nat) : Act Unit := do
  let rig := (← get).rig
  if rig.attachListener == some l then
    placeProbe s rig.attachBinary
    note (.probe (Json.object [("accepted", .bool true)]))
  else acceptConnection l s

/-- The socket probe sends a message: a binary event frame or a `DBGP:` line. Nothing goes
out once its socket is shut. -/
def probeSend (s : Nat) (m : Json) : Act Unit := do
  let pipe := (← get).pipeAt s
  if pipe.destroyed then return
  let text := Json.write m
  let bytes := if pipe.probeBinary then (Frame.pack (FrameKind.code .event).toUInt8 (Utf8.encode text)).toOption.getD []
    else Utf8.encode (eventLinePrefix ++ text ++ "\n")
  pipeWrite s bytes

/-- The socket probe writes raw bytes. -/
def probeSendBytes (s : Nat) (bytes : List UInt8) : Act Unit := do
  if ((← get).pipeAt s).destroyed then return
  pipeWrite s bytes

/-- The socket probe takes one command: notes it, then answers from its script. -/
def probeTake (s : Nat) (cmd : Json) (how : String × Json) : Act Unit := do
  note (.probe (Json.object [("received", cmd), how]))
  (← takeReaction cmd).forM (probeSend s)

/-- Bytes reached the socket probe: every complete command is taken, in order. -/
def probeRead (s : Nat) (bytes : List UInt8) : Act Unit := do
  let pipe := (← get).pipeAt s
  let held := pipe.probeHeld ++ bytes
  if pipe.probeBinary then
    let (frames, rest) := splitFrames held.length held
    change (·.withPipe s fun p => { p with probeHeld := rest })
    frames.forM fun (kind, payload) => do
      if let .ok cmd := Json.read (Utf8.decode payload) then probeTake s cmd ("frameKind", .ofNat kind)
  else
    let pieces := lineSegments held
    change (·.withPipe s fun p => { p with probeHeld := pieces.getLast?.getD [] })
    pieces.dropLast.forM fun piece => do
      let line := Utf8.decode piece
      if commandLinePrefix.isPrefixOf line then
        if let .ok cmd := Json.read (String.ofList (line.toList.drop commandLinePrefix.length)) then
          probeTake s cmd ("line", .string line)

/-- The socket probe's connection closed; it notes so once. -/
def probeClosed (s : Nat) : Act Unit := do
  if ((← get).pipeAt s).ended then return
  change (·.withPipe s fun p => { p with ended := true, destroyed := true })
  note (.probe (Json.object [("socketClosed", .bool true)]))

/-- The socket probe ends its side of the connection: the far side sees the end. -/
def probeHangUp (s : Nat) : Act Unit := do
  let pipe := (← get).pipeAt s
  if pipe.destroyed then return
  change (·.withPipe s fun p => { p with destroyed := true })
  if let .peer q := pipe.far then defer (.pipeEnd q)

end Act

end DapBridge
