import DapBridge.Cli.Parse
import DapBridge.Config.Values
import DapBridge.Config.Session
import DapBridge.Diagnostics

/-!
# The adapter's command line

The adapter serves one client over standard input and output, or clients over TCP with
`--port`. The other options give defaults for every session (host, transport and framing of
the probe channel, probe command timeout, probe launcher) and choose what the diagnostic log
writes.
-/

namespace DapBridge

namespace Cli

/-- A reader of command lines, as a command-line library gives one: it reads arguments against a
command's options into the option values and operands, or the reason the run ends there. -/
structure Reader where
  read : CommandSpec → List String → Except Exit (Json.Fields × List String)

/-- The reader the adapter runs with, `CommandSpec.parse`: it reads as the recorded runs of the
adapter's command line show commander reading them. -/
def Reader.standard : Reader := ⟨CommandSpec.parse⟩

/-- The adapter's command. -/
def adapterCommand : CommandSpec where
  name := "debug-session-engine"
  description := "Debug adapter that drives an instrumented debuggee over a private IPC channel"
  version := "0.1.0"
  options := [
    ⟨some "-p", "--port", .single "port", "Serve clients over TCP on this port instead of stdio", none, none,
      some fun s => match parsePort (some (.string s)) with
        | .ok x => .ok (.num x)
        | .error e => .error e.message⟩,
    ⟨none, "--host", .single "host", "Host to listen on (TCP) and the default IPC host", none,
      some (.string defaultIpcHost), none⟩,
    ⟨none, "--ipc-transport", .single "transport", "Default IPC transport to the debuggee",
      some (Transport.all.map Transport.name), none, none⟩,
    ⟨none, "--no-binary-ipc", .negated, "Use line-delimited text framing on the IPC channel", none, none, none⟩,
    ⟨none, "--command-timeout", .single "duration", "How long to wait on a probe reply (e.g. 500ms, 5s, 2m)",
      none, none, none⟩,
    ⟨none, "--launcher", .several "argv", "Probe launcher command prefix", none, none, none⟩,
    ⟨none, "--log-include", .several "types", "Only emit these diagnostic event types", none, none, none⟩,
    ⟨none, "--log-exclude", .several "types", "Suppress these diagnostic event types", none, none, none⟩,
    ⟨none, "--pretty", .switch, "Pretty print diagnostic JSON", none, some (.bool false), none⟩,
    ⟨some "-v", "--verbose", .switch, "Emit debug diagnostics", none, some (.bool false), none⟩]

/-- The adapter's options, as read from the command line. -/
structure AdapterOptions where
  port : Option Double
  host : String
  transport : Option Transport
  binaryIpc : Bool
  commandTimeout : Option String
  launcher : Option (List String)
  logInclude : Option (List String)
  logExclude : Option (List String)
  pretty : Bool
  verbose : Bool
  deriving Inhabited

namespace AdapterOptions

def ofValues (v : Json) : AdapterOptions :=
  ⟨v.numField? "port", (v.strField? "host").getD defaultIpcHost,
    (v.strField? "ipcTransport").bind Transport.ofName?, (v.boolField? "binaryIpc").getD true,
    v.strField? "commandTimeout", v.stringsField? "launcher", v.stringsField? "logInclude",
    v.stringsField? "logExclude", (v.boolField? "pretty").getD false, (v.boolField? "verbose").getD false⟩

/-- Defaults for every session; a timeout that is no duration is refused. -/
def engineDefaults (o : AdapterOptions) : Except ValueError EngineDefaults := do
  let timeout ← match o.commandTimeout with
    | some t => if t.isEmpty then pure none else (some ∘ Json.num) <$> parseDuration t
    | none => pure none
  return ⟨o.transport.map (.string ·.name), some (.string o.host), if o.binaryIpc then none else some (.bool false),
    (o.launcher.filter (!·.isEmpty)).map Json.strings, timeout⟩

/-- What the diagnostic log writes. -/
def logStyle (o : AdapterOptions) : LogStyle :=
  ⟨o.pretty, o.logInclude.map (·.map Json.string), o.logExclude.map (·.map Json.string), o.verbose⟩

end AdapterOptions

end Cli

def EngineDefaults.toJson (d : EngineDefaults) : Json :=
  Json.objectOpt [("ipcHost", d.host), ("ipcTransport", d.transport),
    ("useBinaryIpc", d.binary), ("commandTimeoutMs", d.commandTimeout),
    ("launcher", d.launcher)]

end DapBridge
