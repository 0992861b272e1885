import DapBridge.Number.Double

/-!
# Reading decimal numbers

`Double.ofDecimal neg digits exp` is the word nearest to `±digits * 10^exp`, ties to even,
the one rounding of a decimal literal. Exponents far outside the range of the format are
cut short before any power is computed: such a literal is an infinity or a zero whatever
its digits (`1e400` is `Infinity`).

`Decimal.scan` reads the digits, fraction and exponent of a literal from characters; the
message and configuration readers build their number grammars from it.
-/

namespace DapBridge

namespace Double

/-- Number of decimal digits of a positive natural number. -/
def decimalWidth (n : Nat) : Nat := (toString n).length

/-- The word nearest to `(-1)^neg * digits * 10^exp`. -/
def ofDecimal (neg : Bool) (digits : Nat) (exp : Int) : Double :=
  if digits = 0 then round neg 0 1
  -- the value is at least 10^(width - 1 + exp) and below 10^(width + exp)
  else if (decimalWidth digits : Int) - 1 + exp ≥ 310 then (if neg then negInfinity else infinity)
  else if (decimalWidth digits : Int) + exp ≤ -330 then round neg 0 1
  else if exp ≥ 0 then round neg (digits * Nat.pow 10 exp.toNat) 1
  else round neg digits (Nat.pow 10 (-exp).toNat)

end Double

/-- The parts of a decimal literal: integer digits, fraction digits and exponent. -/
structure Decimal where
  whole : List Char
  fraction : List Char
  exponent : Int
  deriving Repr

namespace Decimal

/-- The value of a digit string. -/
def digitsValue (ds : List Char) : Nat :=
  ds.foldl (fun acc c => acc * 10 + (c.toNat - '0'.toNat)) 0

/-- The word a literal denotes, with the given sign. -/
def toDouble (d : Decimal) (neg : Bool) : Double :=
  Double.ofDecimal neg (digitsValue (d.whole ++ d.fraction)) (d.exponent - d.fraction.length)

/-- Split off the longest prefix of decimal digits. -/
def spanDigits (cs : List Char) : List Char × List Char :=
  (cs.takeWhile Char.isDigit, cs.dropWhile Char.isDigit)

/-- An optionally signed exponent after `e`/`E`: its value and the rest, or `none` when no
digit follows. -/
def scanExponent (cs : List Char) : Option (Int × List Char) :=
  let (neg, cs) := match cs with
    | '+' :: r => (false, r)
    | '-' :: r => (true, r)
    | r => (false, r)
  let (ds, rest) := spanDigits cs
  if ds.isEmpty then none
  else
    let v : Int := digitsValue ds
    some (if neg then -v else v, rest)

end Decimal

end DapBridge
