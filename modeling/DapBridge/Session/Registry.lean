import DapBridge.Protocol.Objects
import DapBridge.Table
import DapBridge.Probe.Report
import DapBridge.Json.Coercion

/-!
# What a session knows about a stopped program

The registry holds the program's threads, the stack frames last reported for each thread,
the variables last reported for each frame, and the variable references handed to the
client. A reference names what stands behind it: an object, a frame's scope, or a list of
variables. References only grow: a new one is always one more than the last, also after
the registry is cleared. While one stop lasts, each scope of each frame keeps its reference.

When the program goes on, everything that belongs to the stop is dropped; the threads stay.

The registry keeps what it is given as it was given, keyed as values are (`Json.sameValue`):
thread `"7"` is not thread `7`, and an absent id is a key of its own. It reads into a value only
where it must: the `id` of each frame of a list it stores (a list, or a text whose
characters are its items), and the `kind`, `scope` and `frameId` of a backing when variables
are cached under its reference. Reading what is not there fails with a type error, and what
was changed before it stays changed.
-/

namespace DapBridge

/-- The reference handed out first, by default. -/
def firstReference : Double := 1000

/-- The two scopes of a frame. -/
inductive ScopeKind where
  | locals
  | globals
  deriving DecidableEq, Repr, Inhabited

def ScopeKind.name : ScopeKind → String
  | .locals => "locals"
  | .globals => "globals"

def ScopeKind.ofName? : String → Option ScopeKind
  | "locals" => some .locals
  | "globals" => some .globals
  | _ => none

/-- What a variable reference stands for. -/
inductive Backing where
  | object (value : Json)
  | scope (frameId : Double) (scope : ScopeKind)
  | list (vars : List Variable)
  deriving Inhabited

def Backing.toJson : Backing → Json
  | .object v => Json.object [("kind", .string "object"), ("value", v)]
  | .scope f s => Json.object [("kind", .string "scope"), ("frameId", .num f), ("scope", .string s.name)]
  | .list vs => Json.object [("kind", .string "list"), ("variables", .arr (vs.map Variable.toJson))]

/-- The variables of a stored list. -/
def variablesOf : Json → List Variable
  | .arr xs => xs.filterMap Report.variableOf?
  | _ => []

/-- A backing read back from its record. -/
def Backing.ofJson? (j : Json) : Option Backing :=
  match j.strField? "kind" with
  | some "object" => some (.object ((j.field? "value").getD .null))
  | some "scope" =>
    match j.numField? "frameId", (j.strField? "scope").bind ScopeKind.ofName? with
    | some f, some s => some (.scope f s)
    | _, _ => none
  | some "list" => some (.list (variablesOf ((j.field? "variables").getD .null)))
  | _ => none

/-- A thread, its name and whether it is stopped, each as given. -/
structure ThreadRecord where
  id : Option Json
  name : Json
  stopped : Option Json
  deriving Inhabited

def ThreadRecord.toJson (t : ThreadRecord) : Json :=
  Json.objectOpt [("id", t.id), ("name", some t.name), ("stopped", t.stopped)]

/-- The thread as the client sees it: its id and name. -/
def ThreadRecord.brief (t : ThreadRecord) : Json := Json.objectOpt [("id", t.id), ("name", some t.name)]

structure Registry where
  threads : Table (Option Json) ThreadRecord
  framesByThread : Table (Option Json) (Option Json)
  framesById : Table (Option Json) (Option Json)
  frameLocals : Table (Option Json) (Option Json)
  references : Table (Option Json) (Option Json)
  scopeReferences : Table String Double
  probeVariables : Table (Option Json) (Option Json)
  nextReference : Double
  deriving Inhabited

namespace Registry

def create (start : Double) : Registry := ⟨.empty, .empty, .empty, .empty, .empty, .empty, .empty, start⟩

/-- A registry whose first reference is the number of `start`, `firstReference` when absent. -/
def starting (start : Option Json) : Registry := create ((start.map Json.toNumber).getD firstReference)

/-- Add a thread, or rename it when it is known and a name that counts as true is given. A new
thread without such a name is called `Thread <id>`. -/
def addThread (r : Registry) (id : Option Json) (name : Option Json) : ThreadRecord × Registry :=
  let given := name.filter Json.truthy
  match r.threads.get? id with
  | some t =>
    let t := match given with
      | some n => { t with name := n }
      | none => t
    (t, { r with threads := r.threads.set id t })
  | none =>
    let t : ThreadRecord := ⟨id, given.getD (.string s!"Thread {Json.textOf id}"), some (.bool false)⟩
    (t, { r with threads := r.threads.set id t })

/-- The items of a stored list of frames, read under the given name. -/
def framesIn (what : String) (frames : Option Json) : Except Fault (List Json) :=
  match frames with
  | some (.arr xs) => .ok xs
  | some (.str t) => .ok (t.characters.map .str)
  | some .null | none =>
    .error (.other "TypeError" s!"{what} is not iterable (cannot read property Symbol(Symbol.iterator))")
  | some _ => .error (.other "TypeError" s!"{what} is not iterable")

/-- Forget the frames by id of a list of frames, one after the other; a frame without an id
to read stops it. -/
def forgetFrames (r : Registry) : List Json → Except Fault Registry × Registry
  | [] => (.ok r, r)
  | f :: fs =>
    match Json.property (some f) "id" with
    | .error e => (.error e, r)
    | .ok id => forgetFrames { r with framesById := r.framesById.erase id } fs

/-- The stored frames of a thread, forgotten by id when they count as true. -/
def forgetThreadFrames (r : Registry) (what : String) (threadId : Option Json) : Except Fault Registry × Registry :=
  match r.framesByThread.get? threadId with
  | some frames =>
    if (frames.map Json.truthy).getD false then
      match framesIn what frames with
      | .error e => (.error e, r)
      | .ok fs => forgetFrames r fs
    else (.ok r, r)
  | none => (.ok r, r)

/-- Forget a thread and its frames (the list of them only when it counts as true); whether
the thread was known. -/
def removeThread (r : Registry) (id : Option Json) : Except Fault Bool × Registry :=
  match r.forgetThreadFrames "frames" id with
  | (.error e, r) => (.error e, r)
  | (.ok r, _) =>
    let listed := ((r.framesByThread.get? id).join.map Json.truthy).getD false
    let r := if listed then { r with framesByThread := r.framesByThread.erase id } else r
    (.ok (r.threads.contains id), { r with threads := r.threads.erase id })

def thread? (r : Registry) (id : Option Json) : Option ThreadRecord := r.threads.get? id

/-- The threads as the client sees them, in the order they came. -/
def threadList (r : Registry) : List Json := r.threads.values.map ThreadRecord.brief

/-- Mark a thread stopped or running, adding it when unknown. -/
def markThreadStopped (r : Registry) (id : Option Json) (stopped : Option Json) : Registry :=
  let (t, r) := match r.threads.get? id with
    | some t => (t, r)
    | none => r.addThread id none
  { r with threads := r.threads.set id { t with stopped := stopped } }

/-- Record frames by id, one after the other. -/
def recordFrames (r : Registry) : List Json → Except Fault Registry × Registry
  | [] => (.ok r, r)
  | f :: fs =>
    match Json.property (some f) "id" with
    | .error e => (.error e, r)
    | .ok id => recordFrames { r with framesById := r.framesById.set id (some f) } fs

/-- The frames of a thread, replacing those it had: the old ones are forgotten by id, the
list is kept, then each new frame is recorded by its id. -/
def setStackFrames (r : Registry) (threadId : Option Json) (frames : Option Json) : Except Fault Unit × Registry :=
  match r.forgetThreadFrames "previous" threadId with
  | (.error e, r) => (.error e, r)
  | (.ok r, _) =>
    let r := { r with framesByThread := r.framesByThread.set threadId frames }
    match framesIn "frames" frames with
    | .error e => (.error e, r)
    | .ok fs =>
      match recordFrames r fs with
      | (.ok r, _) => (.ok (), r)
      | (.error e, r) => (.error e, r)

def stackFrames? (r : Registry) (threadId : Option Json) : Option (Option Json) := r.framesByThread.get? threadId

def frame? (r : Registry) (frameId : Option Json) : Option (Option Json) := r.framesById.get? frameId

def setFrameLocals (r : Registry) (frameId : Option Json) (vs : Option Json) : Registry :=
  { r with frameLocals := r.frameLocals.set frameId vs }

def frameLocals? (r : Registry) (frameId : Option Json) : Option (Option Json) := r.frameLocals.get? frameId

/-- Hand out the next reference for a backing. -/
def allocate (r : Registry) (b : Option Json) : Double × Registry :=
  let id := r.nextReference
  (id, { r with nextReference := id + 1, references := r.references.set (some (.num id)) b })

/-- What a reference stands for; reference 0 stands for nothing. -/
def resolve? (r : Registry) (id : Option Json) : Option (Option Json) :=
  if Json.identical id (some (.num 0)) then none else r.references.get? id

/-- The reference of a frame's scope, the same for as long as the stop lasts. -/
def scopeReference (r : Registry) (frameId scope : Option Json) : Double × Registry :=
  let key := s!"{Json.textOf frameId}:{Json.textOf scope}"
  match r.scopeReferences.get? key with
  | some id => (id, r)
  | none =>
    let backing := Json.objectOpt [("kind", some (.string "scope")), ("frameId", frameId), ("scope", scope)]
    let (id, r) := r.allocate (some backing)
    (id, { r with scopeReferences := r.scopeReferences.set key id })

/-- Remember variables the probe reported under a reference; for a frame's locals they are
also the frame's variables. -/
def cacheProbeVariables (r : Registry) (reference : Option Json) (vs : Option Json) : Registry :=
  let r := { r with probeVariables := r.probeVariables.set reference vs }
  match r.references.get? reference with
  | some (some b) =>
    if Json.identical (b.member? "kind") (some (.string "scope")) &&
        Json.identical (b.member? "scope") (some (.string "locals")) then
      r.setFrameLocals (b.member? "frameId") vs
    else r
  | _ => r

def probeVariables? (r : Registry) (reference : Option Json) : Option (Option Json) :=
  r.probeVariables.get? reference

def issuedReferences (r : Registry) : Nat := r.references.size

/-- Drop everything that belongs to the last stop; threads stay, running. -/
def resetStopState (r : Registry) : Registry :=
  { r with framesByThread := .empty, framesById := .empty, frameLocals := .empty, references := .empty,
           scopeReferences := .empty, probeVariables := .empty,
           threads := ⟨r.threads.entries.map fun (k, t) => (k, { t with stopped := some (.bool false) })⟩ }

/-- Drop everything but the reference counter. -/
def clearAll (r : Registry) : Registry := { r.resetStopState with threads := .empty }

end Registry

end DapBridge
