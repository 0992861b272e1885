import DapBridge.Error
import DapBridge.Number.Numeric
import DapBridge.Table

/-!
# Values where another kind is wanted

Settings and arguments reach the adapter unchecked, and it uses them as they come: a port
range whose ends are texts, a limit that is a list, a flag that is a number. This module says
what such a value does where a number, a text, a truth value or a comparison is wanted. A
value may also be absent (`none`), which is different from `null`.

* `toNumber`: `null` is `0`, `true` is `1`, a text is the number it denotes (`ofNumericText`),
  a list is the number its text denotes, an object and an absent value are NaN.
* `textOf`: the text of a value, `undefined` for an absent one.
* `lessThan`: two texts compare by their UTF-16 units, anything else as numbers, and the
  comparison is undecided when a side is NaN; `atLeast` and `atMost` are false then.
* `plus`: texts are joined when either side is one (after lists and objects turn into
  text), numbers are added otherwise.
* `sameValue`: the identity of a key: equal texts, numbers (NaN is itself, the two zeros
  are one), `true`, `false`, `null`, or both absent.
* `member?`: a field of an object, an item or the `length` of a list or a text; `property`
  reads one, and reading from `null` or an absent value is a type error.
* `itemsFor`: the items of a value a list method is called on, or the type error of a value
  that has no such method.
-/

namespace DapBridge

namespace Json

/-- The number a value stands for in arithmetic and comparisons. -/
def toNumber : Json → Double
  | .null => 0
  | .bool b => if b then 1 else 0
  | .num x => x
  | .str t => Double.ofNumericText t.toString
  | .arr xs => Double.ofNumericText (displayText (.arr xs))
  | .obj _ => Double.nan

/-- The number of a value that may be absent: an absent one is NaN. -/
def numberOf : Option Json → Double
  | some j => j.toNumber
  | none => Double.nan

/-- The text of a value that may be absent: an absent one is `undefined`. -/
def textOf : Option Json → String
  | some j => displayText j
  | none => "undefined"

/-- A value as a plain one: lists and objects become their text. -/
def primitive : Option Json → Option Json
  | some (.arr xs) => some (.str (Text.ofString (displayText (.arr xs))))
  | some (.obj fs) => some (.str (Text.ofString (displayText (.obj fs))))
  | v => v

/-- Whether a value is a text. -/
def isText : Option Json → Bool
  | some (.str _) => true
  | _ => false

/-- Whether `a` is below `b`: texts by their units, anything else as numbers; `none` when a
side is NaN. -/
def lessThan (a b : Option Json) : Option Bool :=
  match primitive a, primitive b with
  | some (.str s), some (.str t) => some (compare s t == .lt)
  | pa, pb => (Double.compareNum (numberOf pa) (numberOf pb)).map (· == .lt)

/-- `a ≥ b`: `b` is not above `a`, and the comparison is decided. -/
def atLeast (a b : Option Json) : Bool := lessThan a b == some false

/-- `a ≤ b`: `a` is not above `b`, and the comparison is decided. -/
def atMost (a b : Option Json) : Bool := lessThan b a == some false

/-- The sum of two values: their texts joined when either is a text once lists and objects
are texts, the sum of their numbers otherwise. -/
def plus (a b : Option Json) : Json :=
  let pa := primitive a
  let pb := primitive b
  if isText pa || isText pb then .str (Text.ofString (textOf pa ++ textOf pb))
  else .num (numberOf pa + numberOf pb)

/-- Whether two values are one key: see `sameKey`; two absent values are one too. -/
def sameValue : Option Json → Option Json → Bool
  | some a, some b => sameKey a b
  | none, none => true
  | _, _ => false

/-- Values, and absence, as keys of a table. -/
instance : KeyEq (Option Json) := ⟨sameValue⟩

/-- Whether two values are identical: as `sameValue`, except that NaN is nothing. -/
def identical : Option Json → Option Json → Bool
  | some (.num x), some (.num y) => Double.eq x y
  | a, b => sameValue a b

/-- A member of a value: a field of an object; an item of a list or a text (as a text of one
unit) at an index key, or its length at `length`. -/
def member? : Json → String → Option Json
  | .obj fs, k => Fields.get? fs k
  | .arr xs, k =>
    if k = "length" then some (ofNat xs.length) else (arrayIndex k).bind fun i => xs[i]?
  | .str t, k =>
    if k = "length" then some (ofNat t.length)
    else (arrayIndex k).bind fun i => (t.units[i]?).map fun u => .str ⟨[u]⟩
  | _, _ => none

/-- A member of a value that may be absent; `null` and absent values have none to read. -/
def property (v : Option Json) (k : String) : Except Fault (Option Json) :=
  match v with
  | none => .error (Fault.readOfMissing "undefined" k)
  | some .null => .error (Fault.readOfMissing "null" k)
  | some j => .ok (j.member? k)

/-- The items of a value a list method `method` is called on, the value named `name` in the
complaint: a list has them; `null` and an absent value have no method to read, and any other
value has no such method. -/
def itemsFor (v : Option Json) (name method : String) : Except Fault (List Json) :=
  match v with
  | some (.arr xs) => .ok xs
  | none => .error (Fault.readOfMissing "undefined" method)
  | some .null => .error (Fault.readOfMissing "null" method)
  | some _ => .error (.other "TypeError" s!"{name}.{method} is not a function")

end Json

end DapBridge
