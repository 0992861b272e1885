import DapBridge.Json.Value
import DapBridge.Number.Shortest

/-!
# Shapes of JSON arguments

A `Schema` describes the JSON a request argument, a launch configuration or a wire message
must have. `Schema.check` walks a value and its schema together and returns either the
value as the schema reads it (defaults filled in, unknown object keys kept or dropped) or
every `Issue` found, in the order of the schema's keys.

An issue carries the path to the offending value and its cause; `Issue.describe` joins
them as `path.to.value: message`, and `Issue.describeAll` separates issues with `; `.
-/

namespace DapBridge

/-- A check on a number. -/
inductive NumberCheck where
  | int
  | atLeast (n : Int)
  | atMost (n : Int)
  deriving Repr

/-- What an object does with keys its schema does not name. -/
inductive ExtraKeys where
  | keep
  | drop
  deriving DecidableEq, Repr

/-- Shapes of JSON values. -/
inductive Schema where
  | any
  | string (minLength : Nat)
  | number (checks : List NumberCheck)
  | boolean
  | literal (s : String)
  | oneOf (values : List String)
  | array (item : Schema) (minLength : Nat)
  | record (value : Schema)
  | object (fields : List (String × Schema)) (extra : ExtraKeys)
  | optional (s : Schema)
  | nullable (s : Schema)
  | withDefault (s : Schema) (v : Json)
  deriving Inhabited

/-- One step of a path into a value. -/
inductive PathStep where
  | key (k : String)
  | index (i : Nat)
  deriving DecidableEq, Repr

def PathStep.render : PathStep → String
  | .key k => k
  | .index i => toString i

/-- The kind of a value, as issues name it. -/
def Json.kindName : Option Json → String
  | none => "undefined"
  | some .null => "null"
  | some (.bool _) => "boolean"
  | some (.num x) => if x.isNaN then "nan" else "number"
  | some (.str _) => "string"
  | some (.arr _) => "array"
  | some (.obj _) => "object"

/-- Why a value does not fit its schema. -/
inductive IssueCause where
  | required
  | wrongKind (expected : String) (received : String)
  | notInteger
  | tooSmall (n : Int)
  | tooLarge (n : Int)
  | shortString (n : Nat)
  | shortArray (n : Nat)
  | notLiteral (s : String)
  | notOneOf (values : List String) (received : String)
  deriving Repr

/-- The allowed values of a choice, quoted and separated by bars. -/
def quotedChoices (values : List String) : String := " | ".intercalate (values.map fun v => s!"'{v}'")

def IssueCause.message : IssueCause → String
  | .required => "Required"
  | .wrongKind e r => s!"Expected {e}, received {r}"
  | .notInteger => "Expected integer, received float"
  | .tooSmall n => s!"Number must be greater than or equal to {n}"
  | .tooLarge n => s!"Number must be less than or equal to {n}"
  | .shortString n => s!"String must contain at least {n} character(s)"
  | .shortArray n => s!"Array must contain at least {n} element(s)"
  | .notLiteral s => s!"Invalid literal value, expected \"{s}\""
  | .notOneOf vs r => s!"Invalid enum value. Expected {quotedChoices vs}, received '{r}'"

structure Issue where
  path : List PathStep
  cause : IssueCause
  deriving Repr

namespace Issue

def describe (i : Issue) : String :=
  if i.path.isEmpty then i.cause.message
  else ".".intercalate (i.path.map PathStep.render) ++ ": " ++ i.cause.message

def describeAll (is : List Issue) : String := "; ".intercalate (is.map describe)

end Issue

end DapBridge
