import DapBridge.Error

/-!
# Probe endpoints

The probe and the adapter talk over a TCP connection, a unix socket or a named pipe. Which
of them is used depends on the platform: Windows has no unix sockets (TCP stands in) and
only Windows has named pipes (a unix socket stands in). An endpoint is where a probe
connects, and a launched probe learns it from `--ipc` arguments.
-/

namespace DapBridge

/-- The kinds of connection to a probe. -/
inductive Transport where
  | tcp
  | unix
  | pipe
  deriving DecidableEq, Repr, Inhabited

/-- The platform the adapter runs on; only whether it is Windows matters. -/
inductive Platform where
  | windows
  | posix
  deriving DecidableEq, Repr, Inhabited

namespace Platform

/-- A platform by its name: `win32` is Windows, any other name is not. -/
def ofName (s : String) : Platform := if s = "win32" then .windows else .posix

end Platform

namespace Transport

def name : Transport → String
  | .tcp => "tcp"
  | .unix => "unix"
  | .pipe => "pipe"

def all : List Transport := [.tcp, .unix, .pipe]

def ofName? (s : String) : Option Transport := all.find? (·.name == s)

/-- The transport a setting names: a string that is one of the names. -/
def ofJson? (j : Json) : Option Transport := j.getString?.bind ofName?

/-- Named pipes on Windows, unix sockets elsewhere. -/
def default : Platform → Transport
  | .windows => .pipe
  | .posix => .unix

/-- The transport used for a requested one on a platform. -/
def effective (requested : Transport) (p : Platform) : Transport :=
  match requested, p with
  | .unix, .windows => .tcp
  | .pipe, .posix => .unix
  | t, _ => t

/-- The transport used for a requested setting; a setting that names no transport is kept as
it is. -/
def effectiveSetting (requested : Json) (p : Platform) : Json :=
  match ofJson? requested with
  | some t => .string (t.effective p).name
  | none => requested

end Transport

/-- The prefix of the names of named pipes. -/
def pipePrefix : String := "\\\\.\\pipe\\"

/-- A pipe's full name: names that lack the prefix get it. -/
def toPipePath (name : String) : String :=
  if name.startsWith pipePrefix then name else pipePrefix ++ name

/-- A pipe's full name for a name given unchecked: only a text has a prefix to look at. -/
def pipePathOf : Option Json → Except Fault String
  | none => .error (.readOfMissing "undefined" "startsWith")
  | some .null => .error (.readOfMissing "null" "startsWith")
  | some (.str t) => .ok (toPipePath t.toString)
  | some _ => .error (.other "TypeError" "name.startsWith is not a function")

/-- How to reach a probe, as settings give it. The transport, host and binary flag may come
from an engine's defaults, which are passed on as given; so they are kept as values, read by
`kind?`, `hostName` and `binaryFraming`. -/
structure IpcSettings where
  transport : Json
  host : Json
  port : Double
  path : Option String
  pipeName : Option String
  binary : Json
  deriving Inhabited

namespace IpcSettings

/-- The transport, when the setting names one. -/
def kind? (s : IpcSettings) : Option Transport := Transport.ofJson? s.transport

/-- The host as text. -/
def hostName (s : IpcSettings) : String := s.host.displayText

/-- Whether messages are framed in binary: when the flag counts as true. -/
def binaryFraming (s : IpcSettings) : Bool := s.binary.truthy

def toJson (s : IpcSettings) : Json :=
  Json.objectOpt [("transport", some s.transport), ("host", some s.host),
    ("port", some (.num s.port)), ("path", s.path.map .string), ("pipeName", s.pipeName.map .string),
    ("binary", some s.binary)]

end IpcSettings

/-- Where a probe connects. -/
inductive Endpoint where
  | tcp (host : String) (port : Double)
  | unix (path : String)
  | pipe (name : String)
  deriving Inhabited

namespace Endpoint

/-- An endpoint read from an object naming its `transport`: a host and port, a path, or a
pipe name. -/
def ofJson (j : Json) : Endpoint :=
  let s (k : String) : String := (j.strField? k).getD ""
  match s "transport" with
  | "tcp" => .tcp (s "host") ((j.numField? "port").getD 0)
  | "unix" => .unix (s "path")
  | _ => .pipe (s "pipeName")

def transport : Endpoint → Transport
  | .tcp _ _ => .tcp
  | .unix _ => .unix
  | .pipe _ => .pipe

/-- The arguments that tell a launched probe where to connect, and in which framing. -/
def launcherArgs (e : Endpoint) (binary : Bool) : List String :=
  let place := match e with
    | .tcp host port => ["--ipc", "tcp", "--ipc-host", host, "--ipc-port", port.render]
    | .unix path => ["--ipc", "unix", "--ipc-path", path]
    | .pipe name => ["--ipc", "pipe", "--ipc-pipe", name]
  if binary then place ++ ["--ipc-binary"] else place

/-- The launcher arguments for an endpoint given as a description that nobody checked, field
by field as `launcherArgs` reads them: a missing host, path or pipe name is a missing
argument (`null`), and the port is written as the text of whatever it is (`undefined` when
missing). A description of no known transport gives no list at all, and then the binary
flag cannot be added to it. A missing description has no transport to read. -/
def describedLauncherArgs (description : Option Json) (binary : Bool) : Except Fault (Option (List Json)) := do
  let ep ← match description with
    | none => throw (.readOfMissing "undefined" "transport")
    | some .null => throw (.readOfMissing "null" "transport")
    | some j => pure j
  let given (k : String) : Json := (ep.field? k).getD .null
  let word (s : String) : Json := .string s
  let place : Option (List Json) := match (ep.field? "transport").bind Json.getString? with
    | some "tcp" =>
      let port := match ep.field? "port" with
        | some p => p.displayText
        | none => "undefined"
      some [word "--ipc", word "tcp", word "--ipc-host", given "host", word "--ipc-port", word port]
    | some "unix" => some [word "--ipc", word "unix", word "--ipc-path", given "path"]
    | some "pipe" => some [word "--ipc", word "pipe", word "--ipc-pipe", given "pipeName"]
    | _ => none
  match place, binary with
  | some args, true => return some (args ++ [word "--ipc-binary"])
  | some args, false => return some args
  | none, true => throw (.readOfMissing "undefined" "push")
  | none, false => return none

end Endpoint

end DapBridge
