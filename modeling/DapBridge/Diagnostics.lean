import DapBridge.Json.Coercion

/-!
# The diagnostic log

Besides the protocol, the adapter writes a log of what happens in a session, one JSON
record per line. Every record starts with its `type` and the `timestamp` of its writing,
then its own fields; a field without a value is left out. A `LogStyle` chooses which kinds of
record are written and whether records are written on one line or indented.

The log is also written through calls by name (`Diagnostic.ofCall?`), each with its values in
the order of the record's fields. The values go into the record as they are; `emit` writes a
whole record given from outside, which must have a `type` to read.
-/

namespace DapBridge

/-- One record of the diagnostic log before it is stamped with the time: its kind and its
fields, in order; a field without a value is left out. -/
structure Diagnostic where
  kind : String
  data : List (String × Option Json)
  deriving Inhabited

namespace Diagnostic

def sessionStart (program : Option String) (args : Option (List String)) (cwd : Option String)
    (inProcess : Option Bool) : Diagnostic :=
  ⟨"session_start", [("program", program.map .string), ("args", args.map Json.strings),
    ("cwd", cwd.map .string), ("inProcess", inProcess.map .bool)]⟩

def sessionStartAttach (program : Option String) : Diagnostic :=
  ⟨"session_start", [("program", program.map .string), ("attach", some (.bool true))]⟩

def sessionEnd (summary : Json) : Diagnostic := ⟨"session_end", [("summary", some summary)]⟩

def processLaunched (command : List Json) (pid : Option Double) : Diagnostic :=
  ⟨"process_launched", [("command", some (.arr command)), ("pid", pid.map .num)]⟩

/-- A process ended, with its exit code (or `null`) and maybe the signal that ended it. -/
def processExited (exitCode : Option Json) (signal : Option Json) : Diagnostic :=
  ⟨"process_exited", [("exitCode", exitCode), ("signal", signal)]⟩

def probeConnected (transport : String) (framing : String) : Diagnostic :=
  ⟨"probe_connected", [("transport", some (.string transport)), ("framing", some (.string framing))]⟩

def probeDisconnected (reason : Option String) : Diagnostic :=
  ⟨"probe_disconnected", [("reason", reason.map .string)]⟩

def breakpointSet (file : String) (line : Option Json) (verified : Bool) (condition : Option Json)
    (message : Option String) : Diagnostic :=
  ⟨"breakpoint_set", [("file", some (.string file)), ("line", line),
    ("verified", some (.bool verified)), ("condition", condition),
    ("message", message.map .string)]⟩

/-- A breakpoint (by number) or a data watch (by its data id) was hit. -/
def breakpointHit (id : Json) (threadId hits : Double) : Diagnostic :=
  ⟨"breakpoint_hit", [("id", some id), ("threadId", some (.num threadId)), ("hits", some (.num hits))]⟩

def childProcess (pid name ipcPort : Option Json) (accepted : Bool) : Diagnostic :=
  ⟨"child_process", [("pid", pid), ("name", name), ("ipcPort", ipcPort), ("accepted", some (.bool accepted))]⟩

def programOutput (category : String) (output : Text) : Diagnostic :=
  ⟨"program_output", [("category", some (.string category)), ("output", some (.str output))]⟩

def warning (message : String) : Diagnostic := ⟨"warning", [("message", some (.string message))]⟩

def error (message : String) (details : Option String) : Diagnostic :=
  ⟨"error", [("message", some (.string message)), ("details", details.map .string)]⟩

def debug (message : String) (data : Option Json) : Diagnostic :=
  ⟨"debug", [("message", some (.string message)), ("data", data)]⟩

/-- The record as written: its kind, the time, then its fields. -/
def stamped (d : Diagnostic) (time : String) : Json :=
  Json.objectOpt ([("type", some (.string d.kind)), ("timestamp", some (.string time))] ++ d.data)

/-- The kind of record a call writes, and the names of the values it takes, in order. -/
def shapeOf? : String → Option (String × List String)
  | "sessionStart" => some ("session_start", ["program", "args", "cwd", "inProcess"])
  | "sessionStartAttach" => some ("session_start", ["program"])
  | "sessionEnd" => some ("session_end", ["summary"])
  | "processLaunched" => some ("process_launched", ["command", "pid"])
  | "processExited" => some ("process_exited", ["exitCode", "signal"])
  | "probeConnected" => some ("probe_connected", ["transport", "framing"])
  | "probeDisconnected" => some ("probe_disconnected", ["reason"])
  | "breakpointSet" => some ("breakpoint_set", ["file", "line", "verified", "condition", "message"])
  | "breakpointHit" => some ("breakpoint_hit", ["id", "threadId", "hits"])
  | "childProcess" => some ("child_process", ["pid", "name", "ipcPort", "accepted"])
  | "programOutput" => some ("program_output", ["category", "output"])
  | "warning" => some ("warning", ["message"])
  | "error" => some ("error", ["message", "details"])
  | "debug" => some ("debug", ["message", "data"])
  | _ => none

/-- The record a call writes with the values given, those not given left out. A start of an
attach is marked as one. -/
def ofCall? (name : String) (args : List Json) : Option Diagnostic :=
  (shapeOf? name).map fun (kind, fields) =>
    ⟨kind, fields.zipIdx.map (fun (f, i) => (f, args[i]?)) ++
      (if name = "sessionStartAttach" then [("attach", some (.bool true))] else [])⟩

end Diagnostic

/-- Which records the log writes, and how: indented or on one line, only the kinds named
(when some are), never the kinds skipped, and debug records only when verbose. -/
structure LogStyle where
  pretty : Bool
  onlyKinds : Option (List Json)
  skipKinds : Option (List Json)
  verbose : Bool
  deriving Inhabited

namespace LogStyle

/-- The kinds a setting names, when it counts as true: a list's items, a text's characters. -/
def kindsOf (v : Option Json) : Option (List Json) :=
  match v with
  | some (.arr xs) => some xs
  | some (.str t) => if t.isEmpty then none else some (t.characters.map .str)
  | some j => if j.truthy then some [] else none
  | none => none

/-- A style read from an object: `pretty`, `include`, `exclude` and `verbose`, each set when
it counts as true. -/
def ofJson (o : Json) : LogStyle :=
  let flag (k : String) : Bool := ((o.field? k).map Json.truthy).getD false
  ⟨flag "pretty", kindsOf (o.field? "include"), kindsOf (o.field? "exclude"), flag "verbose"⟩

/-- One-line records of every kind but debug. -/
def plain : LogStyle := ⟨false, none, none, false⟩

/-- Whether records of a kind are written: debug records only when verbose, only the kinds
named when some are, never the kinds skipped. Kinds are compared as keys are, so a record
without a kind is written only when no kinds are named. -/
def admits (s : LogStyle) (kind : Option Json) : Bool :=
  let named (ks : List Json) : Bool := ks.any (Json.sameValue kind ∘ some)
  !(Json.identical kind (some (.string "debug")) && !s.verbose) && s.onlyKinds.all named &&
    !(s.skipKinds.any named)

/-- The kind of a record. -/
def kindOf (record : Json) : Option Json := record.member? "type"

/-- The text of a record, with its line break. -/
def line (s : LogStyle) (record : Json) : String :=
  (if s.pretty then Json.writeIndented 2 "" record else Json.write record) ++ "\n"

/-- The text a record adds to the log, if it is written at all. -/
def write? (s : LogStyle) (record : Json) : Option String :=
  if s.admits (kindOf record) then some (s.line record) else none

/-- The text a call adds to the log, stamped with `time`: the record of a call by name, or for
`emit` the record given, whose `type` must be readable. A name that is no call writes nothing. -/
def call (s : LogStyle) (name : String) (args : List Json) (time : String) : Except Fault (Option String) :=
  match Diagnostic.ofCall? name args with
  | some d => .ok (s.write? (d.stamped time))
  | none =>
    if name = "emit" then do
      discard <| Json.property args[0]? "type"
      return s.write? (args[0]?.getD .null)
    else .ok none

theorem write?_debug_quiet (s : LogStyle) (record : Json) (hv : s.verbose = false)
    (hk : kindOf record = some (.string "debug")) : s.write? record = none := by
  have hd : Json.identical (some (Json.string "debug")) (some (Json.string "debug")) = true := by
    simp [Json.identical, Json.sameValue, Json.sameKey, Json.string]
  simp [write?, admits, hv, hk, hd]

end LogStyle

end DapBridge
