import DapBridge.Number.Decimal
import DapBridge.Text.Blank

/-!
# The number a text denotes

`Double.ofNumericText` reads a whole text as a number the lenient way option values are
read: blanks around it are ignored and an empty text is `0`; otherwise it is a signed decimal
literal (`.5`, `5.`, `1e3`), a signed `Infinity`, or an unsigned `0x`, `0o`, `0b` integer.
Anything else is NaN.
-/

namespace DapBridge

namespace Double

/-- Value of digits in a base, when all are digits of it. -/
def radixValue (base : Nat) (cs : List Char) : Option Nat :=
  cs.foldlM (fun acc c =>
    let d := if c.isDigit then c.toNat - '0'.toNat
      else if 'a' ≤ c ∧ c ≤ 'z' then c.toNat - 'a'.toNat + 10
      else if 'A' ≤ c ∧ c ≤ 'Z' then c.toNat - 'A'.toNat + 10
      else base
    if d < base then some (acc * base + d) else none) 0

/-- An unsigned decimal literal: digits with an optional point (digits on at least one side)
and an optional exponent. -/
def unsignedDecimal (cs : List Char) (neg : Bool) : Option Double :=
  let (whole, r) := Decimal.spanDigits cs
  let (fraction, r) := match r with
    | '.' :: r' => Decimal.spanDigits r'
    | r' => ([], r')
  if whole.isEmpty ∧ fraction.isEmpty then none
  else
    let expo : Option Int := match r with
      | [] => some 0
      | c :: r' =>
        if c = 'e' ∨ c = 'E' then
          match Decimal.scanExponent r' with
          | some (x, []) => some x
          | _ => none
        else none
    expo.map fun x => Decimal.toDouble ⟨whole, fraction, x⟩ neg

/-- The number a whole text denotes, NaN when it denotes none. -/
def ofNumericText (s : String) : Double :=
  let cs := Blank.trimList s.toList
  let radix (base : Nat) (ds : List Char) : Double :=
    if ds.isEmpty then nan else
    match radixValue base ds with
    | some n => round false n 1
    | none => nan
  match cs with
  | [] => 0
  | '0' :: 'x' :: ds | '0' :: 'X' :: ds => radix 16 ds
  | '0' :: 'o' :: ds | '0' :: 'O' :: ds => radix 8 ds
  | '0' :: 'b' :: ds | '0' :: 'B' :: ds => radix 2 ds
  | _ =>
    let (neg, body) := match cs with
      | '-' :: r => (true, r)
      | '+' :: r => (false, r)
      | r => (false, r)
    if body = "Infinity".toList then (if neg then negInfinity else infinity)
    else (unsignedDecimal body neg).getD nan

end Double

end DapBridge
