import DapBridge.Json.Coercion

/-!
# Option values: durations and ports

A duration is decimal digits with an optional unit, `ms` (the default), `s` or `m`:
`"30s"`, `"5000ms"`, `"2m"`, `"250"`. Its value is in milliseconds.

A port is any value whose number (`Json.toNumber`) is an integer from 0 to 65535; so
`"1e3"`, `"0x50"`, `" 80 "`, the empty text, `true` and `[80]` are ports too.
-/

namespace DapBridge

/-- Why an option value is refused. -/
inductive ValueError where
  | duration (text : String)
  | port (text : String)
  deriving DecidableEq, Repr

def ValueError.message : ValueError → String
  | .duration s => s!"Invalid duration format: {s}. Use format like \"30s\", \"5000ms\", or \"2m\""
  | .port s => s!"Invalid port: {s}"

/-- Units of a duration. -/
inductive DurationUnit where
  | milliseconds
  | seconds
  | minutes
  deriving DecidableEq, Repr

namespace DurationUnit

def ofSuffix : List Char → Option DurationUnit
  | [] => some .milliseconds
  | ['m', 's'] => some .milliseconds
  | ['s'] => some .seconds
  | ['m'] => some .minutes
  | _ => none

/-- The factors that take a count of the unit to milliseconds, applied one after the other with
rounding after each: a count of minutes is times 60, then times 1000, so a count near the top
of the exact integers can end on a different double than one product by 60000 would give. -/
def factors : DurationUnit → List Nat
  | .milliseconds => []
  | .seconds => [1000]
  | .minutes => [60, 1000]

end DurationUnit

/-- Milliseconds of a duration text. -/
def parseDuration (s : String) : Except ValueError Double :=
  let (ds, rest) := Decimal.spanDigits s.toList
  if ds.isEmpty then .error (.duration s)
  else
    match DurationUnit.ofSuffix rest with
    | none => .error (.duration s)
    | some unit =>
      .ok (unit.factors.foldl (fun x k => x * Double.ofNat k) (Double.ofDecimal false (Decimal.digitsValue ds) 0))

/-- The port a value names; the error quotes the value's text. -/
def parsePort (v : Option Json) : Except ValueError Double :=
  let x := Json.numberOf v
  if x.isInteger ∧ Double.le 0 x ∧ Double.le x 65535 then .ok x else .error (.port (Json.textOf v))

example : (parseDuration "2m").toOption = some (Double.ofNat 120000) := by decide

end DapBridge
