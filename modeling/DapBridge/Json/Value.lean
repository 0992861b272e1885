import DapBridge.Number.Double
import DapBridge.Text.Units

/-!
# JSON values

Messages, arguments and probe events are JSON values. Strings are UTF-16 `Text`; numbers
are binary64 `Double`s.

An object is its list of fields in property order: keys that are array indices (`"0"`,
`"17"`, …, below `2^32 - 1`) come first in ascending numeric order, every other key after
them in the order it was first set. `Fields.set` keeps that order: setting a present key
replaces its value in place, a new index key is inserted among the index keys, any other new
key goes to the end. Reading a text and building an object both go through `set`, so a
repeated key keeps its first place and its last value.
-/

namespace DapBridge

/-- A JSON value. -/
inductive Json where
  | null
  | bool (b : Bool)
  | num (x : Double)
  | str (s : Text)
  | arr (items : List Json)
  | obj (fields : List (String × Json))
  deriving Inhabited, Repr

namespace Json

/-- The number a key denotes when it is an array index: decimal digits without a leading
zero, below `2^32 - 1`. -/
def arrayIndex (k : String) : Option Nat :=
  match k.toList with
  | [] => none
  | '0' :: [] => some 0
  | '0' :: _ => none
  | cs =>
    if cs.all Char.isDigit then
      let n := cs.foldl (fun acc c => acc * 10 + (c.toNat - '0'.toNat)) 0
      if n < Nat.pow 2 32 - 1 then some n else none
    else none

/-- Fields in property order. -/
abbrev Fields := List (String × Json)

namespace Fields

def get? (fs : Fields) (k : String) : Option Json := (List.find? (·.1 == k) fs).map (·.2)

def contains (fs : Fields) (k : String) : Bool := fs.any (·.1 == k)

/-- Insert a new index key before the first index key that is larger, or before the first
key that is no index. -/
def insertIndex (k : String) (n : Nat) (v : Json) : Fields → Fields
  | [] => [(k, v)]
  | (k', v') :: rest =>
    match arrayIndex k' with
    | some m => if n < m then (k, v) :: (k', v') :: rest else (k', v') :: insertIndex k n v rest
    | none => (k, v) :: (k', v') :: rest

/-- Set a field, keeping property order. -/
def set (fs : Fields) (k : String) (v : Json) : Fields :=
  if contains fs k then List.map (fun (k', v') => if k' == k then (k', v) else (k', v')) fs
  else
    match arrayIndex k with
    | some n => insertIndex k n v fs
    | none => fs ++ [(k, v)]

/-- Remove a field. -/
def erase (fs : Fields) (k : String) : Fields := fs.filter (·.1 != k)

/-- Build fields by setting each pair in turn. -/
def ofList (kvs : List (String × Json)) : Fields := kvs.foldl (fun acc (k, v) => acc.set k v) []

/-- Build fields from optional values, leaving out the absent ones. -/
def ofOptions (kvs : List (String × Option Json)) : Fields :=
  ofList (kvs.filterMap fun (k, v) => v.map (k, ·))

end Fields

/-- An object from pairs, set in order. -/
def object (kvs : List (String × Json)) : Json := .obj (Fields.ofList kvs)

/-- An object from optional values; absent ones are left out. -/
def objectOpt (kvs : List (String × Option Json)) : Json := .obj (Fields.ofOptions kvs)

/-- A string value from a `String`. -/
def string (s : String) : Json := .str (Text.ofString s)

def ofNat (n : Nat) : Json := .num (Double.ofNat n)

def ofInt (i : Int) : Json := .num (Double.ofInt i)

def strings (ss : List String) : Json := .arr (ss.map string)

/-- Whether a value counts as true where a condition is wanted: every value but `null`,
`false`, zero, NaN and the empty string. -/
def truthy : Json → Bool
  | .null => false
  | .bool b => b
  | .num x => !(Double.eq x Double.zero) && !x.isNaN
  | .str t => !t.isEmpty
  | _ => true

/-- Whether two values are the same key of a set: texts and numbers by value (NaN is itself,
and the two zeros are one), `true`, `false` and `null` as themselves. A list or an object is
only ever itself, so two that were given apart are never the same. -/
def sameKey : Json → Json → Bool
  | .null, .null => true
  | .bool a, .bool b => a == b
  | .num x, .num y => Double.eq x y || (x.isNaN && y.isNaN)
  | .str s, .str t => s == t
  | _, _ => false

/-- The field `k` of an object. -/
def field? : Json → String → Option Json
  | .obj fs, k => Fields.get? fs k
  | _, _ => none

def getStr? : Json → Option Text
  | .str s => some s
  | _ => none

def getString? (j : Json) : Option String := j.getStr?.map Text.toString

def getNum? : Json → Option Double
  | .num x => some x
  | _ => none

def getBool? : Json → Option Bool
  | .bool b => some b
  | _ => none

def getArr? : Json → Option (List Json)
  | .arr xs => some xs
  | _ => none

def getObj? : Json → Option Fields
  | .obj fs => some fs
  | _ => none

def isObject : Json → Bool
  | .obj _ => true
  | _ => false

def isNull : Json → Bool
  | .null => true
  | _ => false

/-- The string field `k`, when it is a string. -/
def strField? (j : Json) (k : String) : Option String := (j.field? k).bind getString?

/-- The number field `k`, when it is a number. -/
def numField? (j : Json) (k : String) : Option Double := (j.field? k).bind getNum?

/-- The boolean field `k`, when it is a boolean. -/
def boolField? (j : Json) (k : String) : Option Bool := (j.field? k).bind getBool?

/-- The items of an array of strings. -/
def getStrings? (j : Json) : Option (List String) := j.getArr?.bind fun xs => xs.mapM getString?

/-- The field `k`, when it is an array of strings. -/
def stringsField? (j : Json) (k : String) : Option (List String) := (j.field? k).bind getStrings?

/-- Set a field of an object; other values are left as they are. -/
def setField : Json → String → Json → Json
  | .obj fs, k, v => .obj (Fields.set fs k v)
  | j, _, _ => j

/-- Structural equality; numbers compare by their encoding, so `0` and `-0` differ. -/
def beq : Json → Json → Bool
  | .null, .null => true
  | .bool a, .bool b => a == b
  | .num a, .num b => a == b
  | .str a, .str b => a == b
  | .arr xs, .arr ys => beqList xs ys
  | .obj xs, .obj ys => beqFields xs ys
  | _, _ => false
where
  beqList : List Json → List Json → Bool
    | [], [] => true
    | x :: xs, y :: ys => beq x y && beqList xs ys
    | _, _ => false
  beqFields : List (String × Json) → List (String × Json) → Bool
    | [], [] => true
    | (k, x) :: xs, (k', y) :: ys => k == k' && beq x y && beqFields xs ys
    | _, _ => false

instance : BEq Json := ⟨beq⟩

example : arrayIndex "12" = some 12 := by decide
example : arrayIndex "012" = none := by decide

end Json

end DapBridge
