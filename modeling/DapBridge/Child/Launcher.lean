import DapBridge.Child.Watcher
import DapBridge.Path.Host
import DapBridge.Schema.Check

/-!
# Starting processes

The adapter starts processes through a launcher. `ProcessTable` is a launcher that stands
in for the operating system: it records every call, hands out process ids (from a list
first, where `none` is a process that got no id, then counting up), and keeps for every
process whether the watcher waits for its exit.

`ProcessTable.spawnWatched` starts a process through the child watcher: a command line the
watcher takes over is started as the launcher's command line instead, and the child is
registered once it has an id.
-/

namespace DapBridge

/-- What the adapter takes from where it runs: its own process id, fresh session ids for child
sessions (the `n`-th one handed out, from zero), the file tree that path lookups read, and the
validator that checks JSON against schemas. -/
structure Host where
  pid : Double
  childId : Nat → String
  files : List (String × Path.Node)
  validator : Validator

/-- A call the launcher received, and the process id it gave. -/
structure SpawnCall where
  command : Json
  args : List Json
  options : SpawnOptions
  pid : Option Double
  deriving Inhabited

def SpawnCall.toJson (c : SpawnCall) : Json :=
  Json.objectOpt [("command", some c.command), ("args", some (.arr c.args)),
    ("cwd", c.options.cwd), ("shell", c.options.shell), ("pid", c.pid.map .num)]

/-- A started process: the call that started it, and whether the watcher waits for its
exit. -/
structure Process where
  call : SpawnCall
  exitWatched : Bool
  deriving Inhabited

/-- The processes started so far, in order, and where the next process id comes from. -/
structure ProcessTable where
  queued : List (Option Double)
  nextPid : Double
  processes : List Process
  idsIssued : Nat
  deriving Inhabited

namespace ProcessTable

def create (firstPid : Double) (queued : List (Option Double)) : ProcessTable := ⟨queued, firstPid, [], 0⟩

/-- Start a process: it gets the next queued id, or else the next counted one. -/
def spawn (t : ProcessTable) (command : Json) (args : List Json) (opts : SpawnOptions) :
    SpawnCall × ProcessTable :=
  let (pid, t) := match t.queued with
    | p :: rest => (p, { t with queued := rest })
    | [] => (some t.nextPid, { t with nextPid := t.nextPid + 1 })
  let call : SpawnCall := ⟨command, args, opts, pid⟩
  (call, { t with processes := t.processes ++ [⟨call, false⟩] })

/-- Start a process through the watcher, as the launcher's command line if the watcher
takes it over; a taken-over child gets a fresh session id from the host. Nothing starts when
the watcher cannot read the command line. -/
def spawnWatched (t : ProcessTable) (w : ChildWatcher) (host : Host) (command : Json) (args : List Json)
    (opts : SpawnOptions) : Except Fault (SpawnCall × ProcessTable × ChildWatcher × List WatchNote) := do
  let argv := command :: args
  match ← w.takeover? argv opts (host.childId t.idsIssued) with
  | (none, w, notes) =>
    let (call, t) := t.spawn command args opts
    return (call, t, w, notes)
  | (some tk, w, notes) =>
    let t := { t with idsIssued := t.idsIssued + 1 }
    let (call, t) := t.spawn (tk.argv.headD .null) tk.argv.tail opts
    let (accepted, w, more) := w.adopt tk opts call.pid host.pid
    let t := if accepted then
        { t with processes := t.processes.dropLast ++ t.processes.getLast?.toList.map ({ · with exitWatched := true }) }
      else t
    return (call, t, w, notes ++ more)

/-- The process at `index` exited: the watcher hears of it once, if it waits for it. -/
def exit (t : ProcessTable) (w : ChildWatcher) (index : Nat) : ProcessTable × ChildWatcher × List WatchNote :=
  match t.processes[index]? with
  | some p =>
    if p.exitWatched then
      let t := { t with processes := t.processes.set index { p with exitWatched := false } }
      match p.call.pid with
      | some pid => let (w, notes) := w.childExited (some (.num pid)); (t, w, notes)
      | none => (t, w, [])
    else (t, w, [])
  | none => (t, w, [])

end ProcessTable

end DapBridge
