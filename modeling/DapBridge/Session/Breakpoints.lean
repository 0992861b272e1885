import DapBridge.Protocol.Objects
import DapBridge.Table
import DapBridge.Path.Host
import DapBridge.Diagnostics
import DapBridge.Number.Decimal
import DapBridge.Error
import DapBridge.Json.Coercion

/-!
# Breakpoints

The breakpoint book keeps line breakpoints per source file, function breakpoints,
exception filters and data watches. Every setter replaces the previous set of its kind and
answers with one result per requested entry, so that one bad entry never sinks the rest.
Line and function breakpoints share one counter of ids.

Source files are keyed by their absolute, normalised path: a relative path is read against
the book's working directory. A data watch names a variable of a frame by a data id of the
form `frame:<digits>:var:<name>`.
-/

namespace DapBridge

/-- Values longer than this are cut when describing a data breakpoint target. -/
def maxValueLength : Nat := 200

/-- An exception filter the client may choose. -/
structure ExceptionFilter where
  filter : String
  label : String
  isDefault : Bool
  deriving Inhabited

/-- Break on raised exceptions (off by default) and on uncaught ones (on by default). -/
def standardExceptionFilters : List ExceptionFilter :=
  [⟨"raised", "Raised Exceptions", false⟩, ⟨"uncaught", "Uncaught Exceptions", true⟩]

/-- The names of the standard exception filters. -/
def standardFilterNames : List Json := standardExceptionFilters.map fun f => Json.string f.filter

/-! Requested breakpoints carry their fields as given, absent or of any kind: requests from a
client are checked first, but the book itself takes what it is handed and reads it the way
the requests' types are read. -/

/-- A value that is kept when it counts as true. -/
def keptIfTrue (v : Option Json) : Option Json := v.filter Json.truthy

/-- A line breakpoint as requested. Only a positive integer is a line a breakpoint can be set
on; a condition, hit condition or log message is kept when it counts as true. -/
structure LineSpec where
  line : Option Json
  condition : Option Json
  hitCondition : Option Json
  logMessage : Option Json
  deriving Inhabited

/-- A requested line breakpoint read from its record; a `null` record has no fields to read. -/
def LineSpec.read (j : Json) : Except Fault LineSpec := do
  let field (k : String) := Json.property (some j) k
  return ⟨← field "line", ← field "condition", ← field "hitCondition", ← field "logMessage"⟩

structure LineBreakpoint where
  id : Double
  line : Option Json
  condition : Option Json
  hitCondition : Option Json
  logMessage : Option Json
  verified : Bool
  message : Option String
  hits : Nat
  deriving Inhabited

def LineBreakpoint.toJson (b : LineBreakpoint) : Json :=
  Json.objectOpt [("id", some (.num b.id)), ("line", b.line), ("condition", b.condition),
    ("hitCondition", b.hitCondition), ("logMessage", b.logMessage),
    ("verified", some (.bool b.verified)), ("message", b.message.map .string), ("hits", some (Json.ofNat b.hits))]

/-- A function breakpoint as requested. -/
structure FunctionSpec where
  name : Option Json
  condition : Option Json
  hitCondition : Option Json
  deriving Inhabited

/-- A requested function breakpoint read from its record. -/
def FunctionSpec.read (j : Json) : Except Fault FunctionSpec := do
  let field (k : String) := Json.property (some j) k
  return ⟨← field "name", ← field "condition", ← field "hitCondition"⟩

structure FunctionBreakpoint where
  id : Double
  name : Json
  condition : Option Json
  hitCondition : Option Json
  verified : Bool
  deriving Inhabited

def FunctionBreakpoint.toJson (b : FunctionBreakpoint) : Json :=
  Json.objectOpt [("id", some (.num b.id)), ("name", some b.name), ("condition", b.condition),
    ("hitCondition", b.hitCondition), ("verified", some (.bool b.verified))]

/-- A data breakpoint as requested. -/
structure DataSpec where
  dataId : Option Json
  accessType : Option Json
  condition : Option Json
  hitCondition : Option Json
  deriving Inhabited

/-- A requested data breakpoint read from its record. -/
def DataSpec.read (j : Json) : Except Fault DataSpec := do
  let field (k : String) := Json.property (some j) k
  return ⟨← field "dataId", ← field "accessType", ← field "condition", ← field "hitCondition"⟩

/-- A watched variable, and how often its watch was hit. -/
structure DataWatch where
  dataId : String
  accessType : Json
  condition : Option Json
  hitCondition : Option Json
  hit : Nat
  deriving Inhabited

def DataWatch.toJson (w : DataWatch) : Json :=
  Json.objectOpt [("dataId", some (.string w.dataId)), ("accessType", some w.accessType),
    ("condition", w.condition), ("hitCondition", w.hitCondition),
    ("hit", some (Json.ofNat w.hit))]

/-- The answer for one requested breakpoint. -/
structure BreakpointResult where
  id : Option Double
  verified : Bool
  message : Option String
  line : Option Json
  source : Option Source
  deriving Inhabited

def BreakpointResult.toJson (r : BreakpointResult) : Json :=
  Json.objectOpt [("id", r.id.map .num), ("verified", some (.bool r.verified)), ("message", r.message.map .string),
    ("line", r.line), ("source", r.source.map Source.toJson)]

def BreakpointResult.ok : BreakpointResult := ⟨none, true, none, none, none⟩

def BreakpointResult.refused (message : String) : BreakpointResult := ⟨none, false, some message, none, none⟩

/-- A data breakpoint target, described; type and value are the variable's, as reported. -/
structure DataTarget where
  dataId : String
  description : String
  type : Option Json
  value : Option Json
  deriving Inhabited

def DataTarget.toJson (t : DataTarget) : Json :=
  Json.objectOpt [("dataId", some (.string t.dataId)), ("description", some (.string t.description)),
    ("accessTypes", some (Json.strings ["write"])), ("canPersist", some (.bool false)),
    ("type", t.type), ("value", t.value)]

/-- How a value is named in the complaint that it is no text: a number or a truth value with
its kind and the value itself (`-0` keeps its sign), a list or a record by what it is. -/
def receivedText : Option Json → String
  | none => "undefined"
  | some .null => "null"
  | some (.arr _) => "an instance of Array"
  | some (.obj _) => "an instance of Object"
  | some (.num x) => "type number (" ++ (if Double.eq x 0 && x.signBit then "-0" else x.render) ++ ")"
  | some (.bool b) => s!"type boolean ({b})"
  | some (.str t) => s!"type string ('{t.toString}')"

/-- The text of an argument `name` that must be one. -/
def pathText (name : String) : Option Json → Except Fault String
  | some (.str t) => .ok t.toString
  | v => .error (.other "TypeError"
      s!"The \"{name}\" argument must be of type string. Received {receivedText v}")

/-- The key of a source file on a host with the file tree `files`: a relative path is read
against `cwd` (the root when there is none), an absolute one is normalised; the host's
canonical path when the file is there. The file must be a text, and so must `cwd` when it is
needed. -/
def breakpointPath (files : List (String × Path.Node)) (file cwd : Option Json) : Except Fault String := do
  let file ← pathText "path" file
  if Path.isAbsolute file then return Path.real files (Path.normalize file)
  let base ← match cwd with
    | none | some .null => pure "/"
    | c => pathText "paths[0]" c
  return Path.real files (Path.resolve base file)

/-- Characters that end a line. -/
def isLineBreak (c : Char) : Bool := c = '\n' || c = '\r' || c = '\u2028' || c = '\u2029'

/-- The frame and variable a data id names: `frame:`, decimal digits, `:var:`, and a name
of at least one character with no line break. -/
def parseDataId (dataId : String) : Option (Double × String) :=
  match dataId.toList with
  | 'f' :: 'r' :: 'a' :: 'm' :: 'e' :: ':' :: rest =>
    let digits := rest.takeWhile Char.isDigit
    match rest.dropWhile Char.isDigit with
    | ':' :: 'v' :: 'a' :: 'r' :: ':' :: name =>
      if digits.isEmpty || name.isEmpty || name.any isLineBreak then none
      else some (Double.ofDecimal false (Decimal.digitsValue digits) 0, String.ofList name)
    | _ => none
  | _ => none

/-- A value cut to `maxValueLength` units: its first units and an ellipsis. -/
def cutValue (v : Text) : Text :=
  if v.length ≤ maxValueLength then v else v.take (maxValueLength - 3) ++ Text.ofString "..."

/-- A reported value, cut as a value is: kept when its length is at most `maxValueLength`
(compared as values are, so an object's `length` field counts); otherwise a string by
`cutValue`, a list as the text of its first items and an ellipsis. A missing value and `null`
have no length; a value of another kind that is not short cannot be cut. -/
def cutReported (v : Option Json) : Except Fault Json := do
  let length ← Json.property v "length"
  let value := v.getD .null
  if Json.atMost length (some (Json.ofNat maxValueLength)) then return value
  match value with
  | .str t => return .str (cutValue t)
  | .arr xs => return .string ((Json.arr (xs.take (maxValueLength - 3))).displayText ++ "...")
  | _ => .error (.other "TypeError" "value.slice is not a function")

/-- The data id a value stands for, matched against the form of data ids: the parse of a
text; any other value has no method to match with. -/
def parseDataIdOf : Option Json → Except Fault (Option (Double × String))
  | some (.str t) => .ok (parseDataId t.toString)
  | none => .error (.readOfMissing "undefined" "match")
  | some .null => .error (.readOfMissing "null" "match")
  | some _ => .error (.other "TypeError" "dataId.match is not a function")

/-- The first variable record whose name is identical to `name` (a record without one has an
absent name); a `null` record has no name to read. -/
def findNamed (name : Option Json) : List Json → Except Fault (Option Json)
  | [] => .ok none
  | .null :: _ => .error (.readOfMissing "null" "name")
  | v :: rest => if Json.identical (v.member? "name") name then .ok (some v) else findNamed name rest

/-- Every breakpoint of a session, and the host's file tree its paths are keyed against. -/
structure BreakpointBook where
  files : List (String × Path.Node)
  cwd : Option Json
  lines : Table String (List LineBreakpoint)
  functions : List FunctionBreakpoint
  exceptionFilters : List Json
  knownFilters : List Json
  dataWatches : Table String DataWatch
  nextId : Double
  deriving Inhabited

namespace BreakpointBook

/-- An empty book that knows the given exception filters, on a host with no files. -/
def create (cwd : Option Json) (known : List Json) : BreakpointBook :=
  ⟨[], cwd, .empty, [], [], known, .empty, 1⟩

def resolvePath (b : BreakpointBook) (file : Option Json) : Except Fault String := breakpointPath b.files file b.cwd

/-- Files that have line breakpoints, in the order they got them. -/
def sourceFiles (b : BreakpointBook) : List String := b.lines.keys

/-- Whether a requested line is one a breakpoint can be set on: a positive integer. -/
def validLine : Option Json → Bool
  | some (.num x) => x.isInteger && Double.lt 0 x
  | _ => false

/-- The text of a requested line in a message; an absent one is `undefined`. -/
def lineText : Option Json → String
  | some j => j.displayText
  | none => "undefined"

/-- Number line breakpoints from `next`; a line must be a positive integer. A record that
cannot be read stops the numbering; the breakpoints before it are kept, with the next free
number. -/
def trackLines (next : Double) : List Json → Except Fault (List LineBreakpoint) × List LineBreakpoint × Double
  | [] => (.ok [], [], next)
  | j :: rest =>
    match LineSpec.read j with
    | .error f => (.error f, [], next)
    | .ok s =>
      let valid := validLine s.line
      let bp : LineBreakpoint := ⟨next, s.line, keptIfTrue s.condition,
        keptIfTrue s.hitCondition, keptIfTrue s.logMessage, valid,
        if valid then none else some s!"Invalid line number: {lineText s.line}", 0⟩
      let (more, made, last) := trackLines (next + 1) rest
      (more.map (bp :: ·), bp :: made, last)

/-- Replace the line breakpoints of a file; without a file (one that counts as false) there
is one refusal. Each breakpoint is logged as it is made; when a record cannot be read the
file keeps the breakpoints it had, and the numbers handed out are used up. -/
def setLines (b : BreakpointBook) (file specs : Option Json) :
    Except Fault (List BreakpointResult) × BreakpointBook × List Diagnostic :=
  if !Json.truthy (file.getD .null) then (.ok [.refused "Source path is required"], b, []) else
  let start : Except Fault (String × List Json) := do
    let path ← b.resolvePath file
    return (path, ← Json.itemsFor specs "specs" "map")
  match start with
  | .error f => (.error f, b, [])
  | .ok (path, specs) =>
    let (tracked, made, next) := trackLines b.nextId specs
    let notes := made.map fun bp => Diagnostic.breakpointSet path bp.line bp.verified bp.condition bp.message
    match tracked with
    | .error f => (.error f, { b with nextId := next }, notes)
    | .ok tracked =>
      let lines := if tracked.isEmpty then b.lines.erase path else b.lines.set path tracked
      let source : Source := ⟨some (Path.baseName path), some path, none⟩
      (.ok (tracked.map fun bp => ⟨some bp.id, bp.verified, bp.message, bp.line, some source⟩),
        { b with lines := lines, nextId := next }, notes)

def linesOf (b : BreakpointBook) (file : Option Json) : Except Fault (List LineBreakpoint) := do
  return (b.lines.get? (← b.resolvePath file)).getD []

def allLines (b : BreakpointBook) : List LineBreakpoint := b.lines.values.flatten

def findLine? (b : BreakpointBook) (id : Double) : Option LineBreakpoint := b.allLines.find? (Double.eq ·.id id)

/-- Count one hit on the first breakpoint with this id. -/
def hitOnce (b : BreakpointBook) (id : Double) : BreakpointBook :=
  let rec bump : List (String × List LineBreakpoint) → List (String × List LineBreakpoint)
    | [] => []
    | (k, bps) :: rest =>
      if bps.any (Double.eq ·.id id) then
        let (before, after) := bps.span (!Double.eq ·.id id)
        let after := match after with
          | bp :: tail => { bp with hits := bp.hits + 1 } :: tail
          | [] => []
        (k, before ++ after) :: rest
      else (k, bps) :: bump rest
  { b with lines := ⟨bump b.lines.entries⟩ }

/-- Count a stop against the breakpoints it reported; the breakpoints counted, as they are
after counting. -/
def recordHits (b : BreakpointBook) (ids : List Double) : List LineBreakpoint × BreakpointBook :=
  let counted := ids.filter fun id => (b.findLine? id).isSome
  let b := counted.foldl hitOnce b
  (counted.filterMap b.findLine?, b)

/-- `recordHits` for ids as they come: they must be a list, and only numbers are ids. -/
def recordHitsOf (b : BreakpointBook) (ids : Option Json) : Except Fault (List LineBreakpoint) × BreakpointBook :=
  match Json.itemsFor ids "ids" "flatMap" with
  | .ok ids => let (bps, b) := b.recordHits (ids.filterMap Json.getNum?); (.ok bps, b)
  | .error f => (.error f, b)

/-- Whether a function name has something in it: its length is above zero, compared as values
are (a text or a list that is not empty, an object whose `length` field is above zero). A
missing name has no length to read. -/
def nameFilled (name : Option Json) : Except Fault Bool := do
  return Json.lessThan (some (.num 0)) (← Json.property name "length") == some true

/-- Number function breakpoints from `next`; the first record or name that cannot be read
stops the numbering, after taking its number. -/
def trackFunctions (next : Double) : List Json → Except Fault (List FunctionBreakpoint) × Double
  | [] => (.ok [], next)
  | j :: rest =>
    let read : Except Fault (FunctionSpec × Bool) := do
      let s ← FunctionSpec.read j
      return (s, ← nameFilled s.name)
    match read with
    | .error f => (.error f, next + 1)
    | .ok (s, filled) =>
      let bp : FunctionBreakpoint := ⟨next, s.name.getD .null, keptIfTrue s.condition, keptIfTrue s.hitCondition, filled⟩
      let (more, last) := trackFunctions (next + 1) rest
      (more.map (bp :: ·), last)

/-- Replace the function breakpoints; a function needs a name. When a name cannot be read the
set stays as it was, but the numbers handed out are used up. -/
def setFunctions (b : BreakpointBook) (specs : Option Json) : Except Fault (List BreakpointResult) × BreakpointBook :=
  match Json.itemsFor specs "specs" "map" with
  | .error f => (.error f, b)
  | .ok specs =>
  match trackFunctions b.nextId specs with
  | (.ok fs, next) =>
    (.ok (fs.map fun f => ⟨some f.id, f.verified, if f.verified then none else some "Function name is required", none, none⟩),
      { b with functions := fs, nextId := next })
  | (.error f, next) => (.error f, { b with nextId := next })

/-- Whether a filter is one of the known ones, compared as keys of a set are. -/
def knowsFilter (b : BreakpointBook) (f : Json) : Bool := b.knownFilters.any (Json.sameKey f)

/-- Choose the exception filters; unknown ones are refused. -/
def setExceptions (b : BreakpointBook) (filters : List Json) : List BreakpointResult × BreakpointBook :=
  let known := filters.filter b.knowsFilter
  (filters.map fun f => if b.knowsFilter f then .ok else .refused s!"Unknown exception filter: {f.displayText}",
    { b with exceptionFilters := known.foldl (fun acc f => if acc.any (Json.sameKey f) then acc else acc ++ [f]) [] })

/-- `setExceptions` for filters as they come: they must be a list. -/
def setExceptionsOf (b : BreakpointBook) (filters : Option Json) : Except Fault (List BreakpointResult) × BreakpointBook :=
  match Json.itemsFor filters "filters" "filter" with
  | .ok fs => let (rs, b) := b.setExceptions fs; (.ok rs, b)
  | .error f => (.error f, b)

/-- A variable described as a data breakpoint target. When the frame's variable records hold
it (a record that counts as true), its type (when it counts as true) and its value (cut) are
added. Records that are not a list cannot be searched; `null` and absent ones are none. -/
def dataTarget (name frameId locals : Option Json) : Except Fault DataTarget := do
  let base : DataTarget := ⟨s!"frame:{Json.textOf frameId}:var:{Json.textOf name}",
    s!"Variable '{Json.textOf name}' in frame {Json.textOf frameId}", none, none⟩
  let records ← match locals with
    | none | some .null => pure []
    | some l => Json.itemsFor (some l) "locals?" "find"
  match ← findNamed name records with
  | some v =>
    if !v.truthy then return base
    return { base with type := (v.member? "type").filter Json.truthy, value := some (← cutReported (v.member? "value")) }
  | none => return base

/-- What one requested data breakpoint gives: the watch it sets, if any, and its answer. A
data id that counts as false is missing; one that is no text cannot be matched against the
form of data ids. A missing access type is `write`. -/
def dataWatchOf (j : Json) : Except Fault (Option DataWatch × BreakpointResult) := do
  let s ← DataSpec.read j
  match keptIfTrue s.dataId with
  | none => .ok (none, .refused "Missing dataId")
  | some d =>
    let id := d.displayText
    if (← parseDataIdOf (some d)).isNone then .ok (none, .refused s!"Malformed dataId: {id}")
    else
      let access := match s.accessType with
        | none | some .null => .string "write"
        | some a => a
      .ok (some ⟨id, access, s.condition, s.hitCondition, 0⟩, .ok)

/-- Set the watches of the requested data breakpoints in turn, stopping at the first one that
cannot be read. -/
def trackData (watches : Table String DataWatch) :
    List Json → Except Fault (List BreakpointResult) × Table String DataWatch
  | [] => (.ok [], watches)
  | s :: rest =>
    match dataWatchOf s with
    | .error f => (.error f, watches)
    | .ok (w, r) =>
      let watches := match w with
        | some w => watches.set w.dataId w
        | none => watches
      let (more, watches) := trackData watches rest
      (more.map (r :: ·), watches)

/-- Replace the data watches; a watch needs a well-formed data id. The old watches go first,
so when a request cannot be read the watches set before it are what remains. -/
def setData (b : BreakpointBook) (specs : Option Json) : Except Fault (List BreakpointResult) × BreakpointBook :=
  match Json.itemsFor specs "specs" "map" with
  | .error f => (.error f, { b with dataWatches := .empty })
  | .ok specs =>
    let (results, watches) := trackData .empty specs
    (results, { b with dataWatches := watches })

def dataWatch? (b : BreakpointBook) (dataId : String) : Option DataWatch := b.dataWatches.get? dataId

/-- Count a hit of a data watch. -/
def recordDataHit (b : BreakpointBook) (dataId : String) : Option DataWatch × BreakpointBook :=
  match b.dataWatches.get? dataId with
  | some w =>
    let w := { w with hit := w.hit + 1 }
    (some w, { b with dataWatches := b.dataWatches.set dataId w })
  | none => (none, b)

/-- Forget every breakpoint; ids keep counting. -/
def clear (b : BreakpointBook) : BreakpointBook :=
  { b with lines := .empty, functions := [], exceptionFilters := [], dataWatches := .empty }

end BreakpointBook

end DapBridge
