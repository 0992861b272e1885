import DapBridge.Session.Dispatch

/-!
# The client front end

The front end serves one client. Content-Length framed messages come in; each request is
dispatched as it arrives, and a request that waits on the debuggee does not hold up the
ones behind it. Responses and events go out numbered by the codec. A message that cannot be
read is answered with a protocol error, as well as its sequence number and command can be
made out; client messages other than requests are ignored.

`restart` replaces the engine with a fresh one; `disconnect`, or the end of the client's
input, shuts the engine down and closes the front end.
-/

namespace DapBridge

namespace Frontend

open Act

/-- The sequence number and command of a message that failed to parse, as far as they can be
made out. -/
def recoverRequest (payload : String) : RequestRef :=
  match Json.read payload with
  | .ok (.obj fs) =>
    let seq := match Json.Fields.get? fs "seq" with
      | some (.num n) => n
      | _ => 0
    let command := match Json.Fields.get? fs "command" with
      | some (.str t) => t
      | _ => Text.ofString "unknown"
    ⟨seq, command⟩
  | _ => ⟨0, Text.ofString "unknown"⟩

/-- Make the engine from the front end's plan and make it current. -/
def newEngine : Act Unit := do
  let plan := (← get).server.plan
  let e ← Session.create plan.defaults plan.timeout plan.watch plan.canProbe
  change fun w => { w with server := { w.server with engine := e } }

/-- Close the front end: shut the engine down, then close the wire. -/
def close : Act Unit := do
  let server := (← get).server
  if server.closed then return
  change fun w => { w with server := { w.server with closed := true } }
  let q ← Session.shutdown server.engine
  await q .serverClosed

/-- The engine shut down: the wire closes and the front end is closed. -/
def serverClosed : Act Unit := do
  change fun w => { w with server := { w.server with link := w.server.link.close } }
  note .closed

/-- Serve a request. -/
def serve (request : Json) : Act Unit := do
  let seq := (request.numField? "seq").getD 0
  let command := (request.field? "command").bind Json.getStr? |>.getD (Text.ofString "")
  let p ← Session.dispatch (← get).server.engine command.toString (request.field? "arguments")
  await p (.served ⟨seq, command⟩)

/-- What a handler's result asks for once its response is out: the follow-up events, then a
fresh engine or the front end's closing. -/
def afterResponse (d : Dispatched) : Act Unit := do
  d.followUp.forM fun ev => sendEvent ev none
  if d.restartsSession then newEngine
  if d.endsSession then close

/-- A request's handler finished: answer, send the follow-up events, then start afresh or
close when asked. -/
def served (req : RequestRef) (o : Outcome) : Act Unit := do
  match o with
  | .ok v =>
    let d := match v with
      | .dispatched d => d
      | _ => .empty
    numbered (·.response req d.body)
    afterResponse d
  | .error f =>
    if !f.isAdapter then
      log (.error s!"Request '{req.command.toString}' failed unexpectedly" (some f.message))
    numbered (·.failureResponse req f)

/-- One message from the client. -/
def handlePayload (payload : String) : Act Unit := do
  if (← get).server.closed then return
  match Message.parse (← get).host.validator payload with
  | .error e => numbered (·.errorResponse (recoverRequest payload) e.message)
  | .ok m =>
    match m.strField? "type" with
    | some "request" => serve m
    | t =>
      let kind := t.getD ""
      debug s!"Ignoring client {kind}" (some m)

/-- Bytes from the client: every message they complete is handled in order. -/
def receive (bytes : List UInt8) : Act Unit := do
  let (link, arrivals) := (← get).server.link.receive bytes
  change fun w => { w with server := { w.server with link := link } }
  arrivals.forM fun
    | .body text => handlePayload text
    | .badHeader text => log (.warning s!"Skipping message without Content-Length: {text}")

/-- The client's input ended: the wire closes and so does the front end. -/
def inputEnded : Act Unit := do
  if !(← get).server.link.isOpen then return
  change fun w => { w with server := { w.server with link := w.server.link.close } }
  close

end Frontend

end DapBridge
