import DapBridge.Protocol.Objects
import DapBridge.Table
import DapBridge.Number.Index
import DapBridge.Json.Coercion

/-!
# Tasks shown as threads

The probe may report tasks: units of concurrency that are no threads. The client sees each
task as a thread named `Task: <name>`, with frames of its own. Their ids come from ranges
that real threads and frames never reach: task threads count up from `0x0f000001`, task
frames from `0x7fff0000`, afresh at every snapshot.

A report is kept as it was given. A snapshot reads it then: the report must be a list (or a
text, whose characters are read as tasks), each task must have a list of frames, and each
frame's `name`, `line`, `column` (`0` when missing or `null`) and `source` are copied as they
are. A snapshot that meets a value it cannot read fails with a type error, and keeps the
threads it numbered before it.
-/

namespace DapBridge

def taskThreadBase : Double := 0x0f000001

def taskFrameBase : Double := 0x7fff0000

/-- Whether a thread id is a task's, compared as values are. -/
def isTaskThreadId (id : Option Json) : Bool :=
  Json.atLeast id (some (.num taskThreadBase)) && Json.lessThan id (some (.num taskFrameBase)) == some true

/-- Whether a frame id is a task frame's, compared as values are. -/
def isTaskFrameId (id : Option Json) : Bool := Json.atLeast id (some (.num taskFrameBase))

/-- The last task report, as given, and the frames of the threads of the last snapshot. -/
structure TaskBoard where
  tasks : Option Json
  framesByThread : Table (Option Json) (List Json)
  deriving Inhabited

namespace TaskBoard

def empty : TaskBoard := ⟨some (.arr []), .empty⟩

/-- Keep a report for the next snapshot. -/
def report (b : TaskBoard) (tasks : Option Json) : TaskBoard := { b with tasks := tasks }

/-- The items a report lists: a list's items, a text's characters. -/
def reported (tasks : Option Json) : Except Fault (List Json) :=
  match tasks with
  | some (.arr xs) => .ok xs
  | some (.str t) => .ok (t.characters.map .str)
  | some .null | none => .error (.other "TypeError" "this.tasks is not iterable (cannot read property Symbol(Symbol.iterator))")
  | some _ => .error (.other "TypeError" "this.tasks is not iterable")

/-- A frame of a task as the client sees it, with its id. -/
def frameOf (id : Double) (f : Json) : Except Fault Json := do
  let read (k : String) : Except Fault (Option Json) := Json.property (some f) k
  let name ← read "name"
  let line ← read "line"
  let column := match ← read "column" with
    | some .null | none => Json.num 0
    | some c => c
  let source ← read "source"
  return Json.objectOpt [("id", some (.num id)), ("name", name), ("line", line), ("column", some column),
    ("source", source)]

/-- The frames of one task, numbered from `next`; the next free number. -/
def numberFrames (next : Double) : List Json → Except Fault (List Json × Double)
  | [] => .ok ([], next)
  | f :: fs => do
    let frame ← frameOf next f
    let (rest, last) ← numberFrames (next + 1) fs
    return (frame :: rest, last)

/-- A task's list of frames. -/
def framesOf (task : Json) : Except Fault (List Json) := do
  Json.itemsFor (← Json.property (some task) "frames") "task.frames" "map"

/-- Number the tasks as threads from `threadId`, their frames from `frameId`, keeping each
thread's frames on the board; the threads, or the failure after the threads before it. -/
def numberTasks (threadId frameId : Double) (b : TaskBoard) : List Json → Except Fault (List Thread) × TaskBoard
  | [] => (.ok [], b)
  | t :: ts =>
    let step : Except Fault (Thread × List Json × Double) := do
      let (frames, next) ← numberFrames frameId (← framesOf t)
      let name ← Json.property (some t) "name"
      return (⟨threadId, "Task: " ++ Json.textOf name⟩, frames, next)
    match step with
    | .error f => (.error f, b)
    | .ok (thread, frames, next) =>
      let b := { b with framesByThread := b.framesByThread.set (some (.num threadId)) frames }
      let (rest, b) := numberTasks (threadId + 1) next b ts
      (rest.map (thread :: ·), b)

/-- Number the last report afresh and list its threads. -/
def snapshot (b : TaskBoard) : Except Fault (List Thread) × TaskBoard :=
  let b := { b with framesByThread := .empty }
  match reported b.tasks with
  | .error f => (.error f, b)
  | .ok tasks => numberTasks taskThreadBase taskFrameBase b tasks

/-- A window of a task thread's frames: from `start` (`0` when absent), `levels` of them when
that is above zero (the end is then `start + levels`, as values add), else all. -/
def frames (b : TaskBoard) (threadId start levels : Option Json) : List Json :=
  let fs := (b.framesByThread.get? threadId).getD []
  let start := start.getD (.num 0)
  let levels := levels.getD (.num 0)
  let stop := if Json.lessThan (some (.num 0)) (some levels) == some true then
      some (Json.plus (some start) (some levels)).toNumber
    else none
  sliceBy fs start.toNumber stop

def frameCount (b : TaskBoard) (threadId : Option Json) : Nat := ((b.framesByThread.get? threadId).getD []).length

def has (b : TaskBoard) (threadId : Option Json) : Bool := b.framesByThread.contains threadId

/-- Forget the snapshot, keep the report. -/
def clear (b : TaskBoard) : TaskBoard := { b with framesByThread := .empty }

/-- Forget the snapshot and the report. -/
def reset (_ : TaskBoard) : TaskBoard := empty

end TaskBoard

end DapBridge
