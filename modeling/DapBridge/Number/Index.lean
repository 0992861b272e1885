import DapBridge.Number.Double

/-!
# Windows of lists

A window of a list is given by two numbers, a start and an optional end. Each is read as a
position in the list: truncated towards zero, counted from the end when negative, and
clamped to the list; not-a-number reads as the front. The window holds the items from the
start up to (not including) the end.
-/

namespace DapBridge

/-- A number read as a position in a list of `len` items. -/
def Double.clampIndex (x : Double) (len : Nat) : Nat :=
  match x.decode with
  | .nan => 0
  | .infinite neg => if neg then 0 else len
  | .finite .. =>
    match x.truncInt with
    | some i => if i < 0 then (len + i).toNat else min i.toNat len
    | none => 0

/-- The items from position `start` up to position `stop` (the end when absent). -/
def sliceBy {α : Type} (xs : List α) (start : Double) (stop : Option Double) : List α :=
  let k := start.clampIndex xs.length
  let e := (stop.map (·.clampIndex xs.length)).getD xs.length
  (xs.drop k).take (e - k)

end DapBridge
