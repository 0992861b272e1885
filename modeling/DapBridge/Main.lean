import DapBridge.Cli.Command
import DapBridge.Session.Rig

/-!
# The command line

`debug-session-engine [options]` serves one debug client on standard input and output. The
client's Content-Length framed requests come in on standard input; responses and events go
out on standard output; diagnostic records go to standard error, one JSON document per line
(or indented, with `--pretty`), each stamped with the milliseconds since the adapter started.

Help and the version go to standard output. An option error goes to standard error and the
exit status is 1, as does a command timeout that is no duration.

The adapter runs in its simulated surroundings: a launched debuggee gets a process id from
the simulated launcher but does not run, and no probe connects unless one is given. Serving
clients over TCP needs a real listening socket, which these surroundings lack, so `--port`
is refused.
-/

namespace DapBridge

namespace Serve

/-- How much loop work one burst of input may cause. -/
def fuel : Nat := 1000000

/-- The simulated host the adapter runs on. -/
def host : Host := ⟨1, fun n => s!"child-session-{n + 1}", Path.hostTree, Validator.standard⟩

/-- The surroundings of a served session. -/
def setup (defaults : EngineDefaults) (style : LogStyle) : Setup :=
  let watch := { WatchConfig.standard with sessionId := some (.string "session") }
  ⟨⟨defaults, defaults.commandTimeout.getD defaultCommandTimeout, watch, false⟩, 1000, [], [], [], host, style, false⟩

/-- Write text to a stream as UTF-8. -/
def send (s : IO.FS.Stream) (text : String) : IO Unit := s.write ⟨(Utf8.encode text).toArray⟩

/-- Write what the adapter said since the trace had `n` notes: messages to the client, and
records to the log. -/
def emit (out log : IO.FS.Stream) (style : LogStyle) (started : Nat) (w : World) (n : Nat) : IO Unit := do
  let now ← IO.monoMsNow
  for note in w.notesSince n do
    match note with
    | .toClient m => send out (Wire.frame (Json.write m))
    | .logged d => send log (style.line (d.stamped (toString (now - started))))
    | _ => pure ()
  out.flush
  log.flush

/-- Feed standard input to the adapter until it ends. -/
partial def loop (inp out log : IO.FS.Stream) (style : LogStyle) (started : Nat) (w : World) : IO Unit := do
  let chunk ← inp.read 65536
  let n := w.trace.length
  if chunk.isEmpty then
    emit out log style started ((w.exec Rig.inputEnds).settle fuel) n
  else
    let w := (w.exec (Rig.clientWrites chunk.toList)).settle fuel
    emit out log style started w n
    loop inp out log style started w

/-- Run the adapter on a command line, read by `reader`. -/
def start (reader : Cli.Reader) (args : List String) : IO UInt32 := do
  let out ← IO.getStdout
  let err ← IO.getStderr
  match reader.read Cli.adapterCommand (args.map fun a => Utf8.decode a.toUTF8.toList) with
  | .error e =>
    send out e.stdout
    send err e.stderr
    match e with
    | .version _ | .help _ => return 0
    | .refused m =>
      send err s!"error: {m}\n"
      return 1
    | _ => return 1
  | .ok (values, _) =>
    let options := Cli.AdapterOptions.ofValues (.obj values)
    match options.engineDefaults with
    | .error e =>
      send err s!"Error: {e.message}\n"
      return 1
    | .ok defaults =>
      if options.port.isSome then
        err.putStrLn "Error: serving clients over TCP is not available here"
        return 1
      let style := options.logStyle
      let started ← IO.monoMsNow
      loop (← IO.getStdin) out err style started (World.create (setup defaults style))
      return 0

end Serve

end DapBridge

open DapBridge in
def main (args : List String) : IO UInt32 := Serve.start Cli.Reader.standard args
