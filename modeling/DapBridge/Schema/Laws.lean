import DapBridge.Schema.Check

/-!
# What a validator is documented to do

The adapter checks JSON against schemas with a validator it does not define: `Validator` is a
parameter, and what is known of it is `Validator.Laws`, one law for each kind of schema the
adapter uses, read off the validator's documentation:

* a text, number, flag, literal or choice passes exactly when the value is present and of that
  kind (`Json.isStr`, `Json.isNumberWith`, `Json.isBool`, `Json.isOneOf`), and reads as given;
* `optional` lets an absent value through and checks a present one; `withDefault` checks the
  default in place of an absent value;
* an array passes when it is long enough and each item passes at its index; a record when each
  value passes under its key;
* an object reports its members' issues member by member in schema order, refuses anything that
  is no object, and reads, when it passes and keeps other members, the members its schema names
  as their schemas read them, in schema order, then the others; a key named `__proto__` is never
  set on what it reads.

Nothing is assumed about the texts of issues, about their paths, or about what a value with
issues reads as. `Schema.check` keeps these laws (`Validator.standard_laws`).
-/

namespace DapBridge

/-- Whether a number passes a check: `int` takes whole numbers, `atLeast n` numbers not below
`n`, `atMost n` numbers not above `n`. -/
def NumberCheck.holds (x : Double) : NumberCheck → Bool
  | .int => x.isInteger
  | .atLeast n => !Double.lt x (Double.ofInt n)
  | .atMost n => !Double.lt (Double.ofInt n) x

namespace Json

/-- A text of at least `n` units. -/
def isStr (n : Nat) : Json → Bool
  | .str t => n ≤ t.length
  | _ => false

/-- A number that passes each of the checks `cs`. -/
def isNumberWith (cs : List NumberCheck) : Json → Bool
  | .num x => cs.all (NumberCheck.holds x)
  | _ => false

def isBool : Json → Bool
  | .bool _ => true
  | _ => false

/-- One of the texts `vs`. -/
def isOneOf (vs : List String) : Json → Bool
  | .str t => vs.contains t.toString
  | _ => false

end Json

/-- The schemas of one value that reads as given: a text, a number, a flag, a literal, a
choice. -/
def Schema.isPlain : Schema → Bool
  | .string _ | .number _ | .boolean | .literal _ | .oneOf _ => true
  | _ => false

namespace Validator

/-- The issues of an object's members, member by member in schema order, each at its key. -/
def memberIssues (V : Validator) (fields : List (String × Schema)) (path : List PathStep)
    (fs : Json.Fields) : List Issue :=
  fields.flatMap fun kf => (V.check kf.2 (path ++ [.key kf.1]) (fs.get? kf.1)).1

/-- What an object schema that keeps other members reads from an object: the members it names
as their schemas read them, in schema order, then the others, with no `__proto__` key. -/
def keptObject (V : Validator) (fields : List (String × Schema)) (path : List PathStep)
    (fs : Json.Fields) : Json :=
  .obj (Json.Fields.erase (Json.Fields.ofList
    ((fields.filterMap fun kf => (V.check kf.2 (path ++ [.key kf.1]) (fs.get? kf.1)).2.map (kf.1, ·)) ++
      fs.filter fun kv => !(fields.map (·.1)).contains kv.1)) Schema.reservedKey)

/-- The documented behaviour of a validator on the kinds of schema the adapter uses. -/
structure Laws (V : Validator) : Prop where
  /-- Anything passes `any`, and reads as given. -/
  any : ∀ path v, V.check .any path v = ([], v)
  /-- A text passes `string n` exactly when it has at least `n` units. -/
  string : ∀ n path v, (V.check (.string n) path v).1 = [] ↔ v.any (Json.isStr n) = true
  /-- A number passes exactly when it passes each of its checks. -/
  number : ∀ cs path v, (V.check (.number cs) path v).1 = [] ↔ v.any (Json.isNumberWith cs) = true
  boolean : ∀ path v, (V.check .boolean path v).1 = [] ↔ v.any Json.isBool = true
  /-- A literal passes its own text only. -/
  literal : ∀ s path v, (V.check (.literal s) path v).1 = [] ↔ v = some (.str (Text.ofString s))
  oneOf : ∀ vs path v, (V.check (.oneOf vs) path v).1 = [] ↔ v.any (Json.isOneOf vs) = true
  /-- A value that passes a plain schema reads as given. -/
  plain : ∀ s path v, s.isPlain = true → (V.check s path v).1 = [] → (V.check s path v).2 = v
  /-- An absent value passes `optional` and stays absent; a present one is checked as it is. -/
  optional : ∀ s path v, V.check (.optional s) path v = if v.isNone then ([], none) else V.check s path v
  /-- An absent value is checked as the default. -/
  withDefault : ∀ s d path v, V.check (.withDefault s d) path v = V.check s path (some (v.getD d))
  /-- An array passes when it has at least `n` items and each passes at its index. -/
  array : ∀ item n path v, (V.check (.array item n) path v).1 = [] ↔
    ∃ xs, v = some (.arr xs) ∧ n ≤ xs.length ∧
      ∀ i x, xs[i]? = some x → (V.check item (path ++ [.index i]) (some x)).1 = []
  /-- A passing array whose items read as given reads as given. -/
  array_out : ∀ item n path xs, (V.check (.array item n) path (some (.arr xs))).1 = [] →
    (∀ i x, xs[i]? = some x → (V.check item (path ++ [.index i]) (some x)).2 = some x) →
    (V.check (.array item n) path (some (.arr xs))).2 = some (.arr xs)
  /-- A record passes when it is an object each of whose values passes under its key. -/
  record : ∀ s path v, (V.check (.record s) path v).1 = [] ↔
    ∃ fs, v = some (.obj fs) ∧ ∀ kv ∈ fs, (V.check s (path ++ [.key kv.1]) (some kv.2)).1 = []
  /-- An object's issues are its members' issues, in schema order. -/
  object : ∀ fields extra path fs,
    (V.check (.object fields extra) path (some (.obj fs))).1 = V.memberIssues fields path fs
  /-- Anything that is no object fails an object schema. -/
  object_kind : ∀ fields extra path v, (∀ fs, v ≠ some (.obj fs)) → (V.check (.object fields extra) path v).1 ≠ []
  /-- A passing object under a schema that keeps other members reads as `keptObject`. -/
  object_out : ∀ fields path fs, (V.check (.object fields .keep) path (some (.obj fs))).1 = [] →
    (V.check (.object fields .keep) path (some (.obj fs))).2 = some (V.keptObject fields path fs)

end Validator

end DapBridge
