import DapBridge.Schema.Basic

/-!
# Checking a value against a schema

`Schema.check s path v` returns the issues of `v` (absent when `none`) against `s`, in
schema order, and the value as `s` reads it. It is the standard `Validator`; the rest of the
adapter takes its validator as a parameter. An absent value that the schema requires is
`Required`; a number runs all its checks, so one number can have several issues; an array
reports a short length before its items' issues.
-/

namespace DapBridge

namespace Schema

/-- Issues found, and the value read (meaningful when there are none). -/
abbrev Outcome := List Issue × Option Json

/-- A value of the wrong kind, or a missing one. -/
def kindIssue (path : List PathStep) (expected : String) (v : Option Json) : Outcome :=
  match v with
  | none => ([⟨path, .required⟩], none)
  | some _ => ([⟨path, .wrongKind expected (Json.kindName v)⟩], none)

def numberIssues (path : List PathStep) (x : Double) : List NumberCheck → List Issue
  | [] => []
  | c :: cs =>
    let here : List Issue := match c with
      | .int => if x.isInteger then [] else [⟨path, .notInteger⟩]
      | .atLeast n => if Double.lt x (Double.ofInt n) then [⟨path, .tooSmall n⟩] else []
      | .atMost n => if Double.lt (Double.ofInt n) x then [⟨path, .tooLarge n⟩] else []
    here ++ numberIssues path x cs

/-- The key that objects and records never take over from their input; its value is still
checked. -/
def reservedKey : String := "__proto__"

mutual

def check : Schema → List PathStep → Option Json → Outcome
  | .any, _, v => ([], v)
  | .optional s, path, v => if v.isNone then ([], none) else check s path v
  | .nullable s, path, v =>
    match v with
    | some .null => ([], some .null)
    | _ => check s path v
  | .withDefault s d, path, v => if v.isNone then check s path (some d) else check s path v
  | .string n, path, v =>
    match v with
    | some (.str t) => (if t.length < n then [⟨path, .shortString n⟩] else [], v)
    | _ => kindIssue path "string" v
  | .number cs, path, v =>
    match v with
    | some (.num x) => (numberIssues path x cs, v)
    | _ => kindIssue path "number" v
  | .boolean, path, v =>
    match v with
    | some (.bool _) => ([], v)
    | _ => kindIssue path "boolean" v
  | .literal s, path, v =>
    match v with
    | some (.str t) => if t == Text.ofString s then ([], v) else ([⟨path, .notLiteral s⟩], none)
    | none => ([⟨path, .required⟩], none)
    | _ => ([⟨path, .notLiteral s⟩], none)
  | .oneOf vs, path, v =>
    match v with
    | some (.str t) =>
      if vs.contains t.toString then ([], v) else ([⟨path, .notOneOf vs t.toString⟩], none)
    | _ => kindIssue path (quotedChoices vs) v
  | .array item n, path, v =>
    match v with
    | some (.arr xs) =>
      let short : List Issue := if xs.length < n then [⟨path, .shortArray n⟩] else []
      let (issues, items) := checkItems item path 0 xs
      (short ++ issues, some (.arr items))
    | _ => kindIssue path "array" v
  | .record s, path, v =>
    match v with
    | some (.obj fs) =>
      let (issues, pairs) := checkValues s path fs
      (issues, some (.obj (Json.Fields.erase (Json.Fields.ofList pairs) reservedKey)))
    | _ => kindIssue path "object" v
  | .object fields extra, path, v =>
    match v with
    | some (.obj fs) =>
      let (issues, pairs) := checkFields path fs fields
      let names := fields.map (·.1)
      let kept := if extra = .keep then fs.filter fun (k, _) => !names.contains k else []
      let out := Json.Fields.ofList (pairs ++ kept)
      (issues, some (.obj (Json.Fields.erase out reservedKey)))
    | _ => kindIssue path "object" v

/-- Items of an array, from index `i`. -/
def checkItems (item : Schema) (path : List PathStep) (i : Nat) : List Json → List Issue × List Json
  | [] => ([], [])
  | x :: xs =>
    let (is1, out1) := check item (path ++ [.index i]) (some x)
    let (is2, outs) := checkItems item path (i + 1) xs
    (is1 ++ is2, out1.toList ++ outs)

/-- Values of a record. -/
def checkValues (s : Schema) (path : List PathStep) : List (String × Json) → List Issue × List (String × Json)
  | [] => ([], [])
  | (k, x) :: rest =>
    let (is1, out1) := check s (path ++ [.key k]) (some x)
    let (is2, outs) := checkValues s path rest
    (is1 ++ is2, (out1.map fun o => [(k, o)]).getD [] ++ outs)

/-- The named fields of an object, in schema order; absent optional ones stay absent. -/
def checkFields (path : List PathStep) (fs : Json.Fields) : List (String × Schema) → List Issue × List (String × Json)
  | [] => ([], [])
  | (k, s) :: rest =>
    let (is1, out1) := check s (path ++ [.key k]) (Json.Fields.get? fs k)
    let (is2, outs) := checkFields path fs rest
    let here := match out1 with
      | some o => [(k, o)]
      | none => []
    (is1 ++ is2, here ++ outs)

end

end Schema

/-- What checks values against schemas: the issues of a value at a path, in the order found,
and the value as the schema reads it. The adapter runs with `Validator.standard`; what is known
of validators in general is `Validator.Laws`. -/
structure Validator where
  check : Schema → List PathStep → Option Json → Schema.Outcome

namespace Validator

/-- Check a whole value: the value read, or the issues. -/
def read (V : Validator) (s : Schema) (v : Option Json) : Except (List Issue) (Option Json) :=
  let (issues, out) := V.check s [] v
  if issues.isEmpty then .ok out else .error issues

/-- The validator of this library, `Schema.check`. -/
def standard : Validator := ⟨Schema.check⟩

end Validator

end DapBridge
