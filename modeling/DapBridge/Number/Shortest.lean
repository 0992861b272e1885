import DapBridge.Number.Double

/-!
# Shortest decimal text of a binary64 value

A finite non-zero value is written with the fewest significant digits whose decimal value
rounds back to it; of two such decimals with that many digits the nearer is taken, and an
exact tie goes to the even last digit.

`Double.shortest` finds the digits by trying 1, 2, … 17 digits: on each decimal grid only the
two neighbours of the value can be the answer, and they are tested against the rounding
interval of the value in exact integer arithmetic (`Scaled.compare`).

`Double.render` then lays the digits out (`DecimalStyle.standard`): positionally while the
decimal point stays within 21 places left or 6 places right of the first digit, otherwise
as `d.ddde±x`.
-/

namespace DapBridge

/-- A non-negative number `mant * 2^two * 10^ten`, compared exactly. -/
structure Scaled where
  mant : Nat
  two : Int
  ten : Int

namespace Scaled

/-- Move every negative exponent to the other side and compare the resulting integers. -/
def compare (a b : Scaled) : Ordering :=
  let lhs := a.mant * Nat.pow 2 a.two.toNat * Nat.pow 10 a.ten.toNat * Nat.pow 2 (-b.two).toNat * Nat.pow 10 (-b.ten).toNat
  let rhs := b.mant * Nat.pow 2 b.two.toNat * Nat.pow 10 b.ten.toNat * Nat.pow 2 (-a.two).toNat * Nat.pow 10 (-a.ten).toNat
  Ord.compare lhs rhs

/-- `floor (a / 10^k)` for `a = mant * 2^two`. -/
def floorDivTen (mant : Nat) (two : Int) (k : Int) : Nat :=
  (mant * Nat.pow 2 two.toNat * Nat.pow 10 (-k).toNat) / (Nat.pow 2 (-two).toNat * Nat.pow 10 k.toNat)

end Scaled

namespace Double

/-- The decimal exponent of the leading digit of `m * 2^e` (`m > 0`): the `K` with
`10^K ≤ m * 2^e < 10^(K+1)`. -/
def leadingExponent (m : Nat) (e : Int) : Int :=
  let v : Scaled := ⟨m, e, 0⟩
  -- log10 2 is just above 0.30103; the estimate is off by at most one either way
  let guess : Int := (((Nat.log2 m : Int) + e) * 30103).fdiv 100000
  let below (k : Int) : Bool := Scaled.compare ⟨1, 0, k⟩ v != .gt
  let k := if below guess then guess else guess - 1
  let k := if below k then k else k - 1
  if below (k + 1) then (if below (k + 2) then k + 2 else k + 1) else k

/-- Whether `n * 10^t` rounds to the finite positive word with significand `m` and exponent
`e`: it lies within half a gap of the value, the ends included iff `m` is even. -/
def readsBackAs (m : Nat) (e : Int) (n : Nat) (t : Int) : Bool :=
  -- the gap below halves at a power of two, except for the least normal exponent
  let lowGap : Nat := if m = Nat.pow 2 52 ∧ e > minExponent then 1 else 2
  let c : Scaled := ⟨n, 0, t⟩
  let lo : Scaled := ⟨4 * m - lowGap, e - 2, 0⟩
  let hi : Scaled := ⟨4 * m + 2, e - 2, 0⟩
  let inside (o : Ordering) (strictOk : Bool) : Bool := o == .lt || (o == .eq && strictOk)
  inside (Scaled.compare lo c) (m % 2 == 0) && inside (Scaled.compare c hi) (m % 2 == 0)

/-- The candidate with `p` significant digits for `m * 2^e`, if one reads back:
`(n, t)` standing for `n * 10^t`. -/
def candidate (m : Nat) (e : Int) (p : Nat) : Option (Nat × Int) :=
  let t := leadingExponent m e - p + 1
  let lo := Scaled.floorDivTen m e t
  let hi := lo + 1
  let okLo := readsBackAs m e lo t
  let okHi := readsBackAs m e hi t
  if okLo && okHi then
    -- the nearer one; a tie goes to the even digit
    let v : Scaled := ⟨m, e + 1, 0⟩
    let twice : Scaled := ⟨lo + hi, 0, t⟩
    match Scaled.compare twice v with
    | .gt => some (lo, t)
    | .lt => some (hi, t)
    | .eq => some (if lo % 2 = 0 then lo else hi, t)
  else if okLo then some (lo, t)
  else if okHi then some (hi, t)
  else none

/-- Try 1, 2, … digits in turn; `fuel` bounds the count of grids still to try. -/
def firstCandidate (m : Nat) (e : Int) : Nat → Nat → Option (Nat × Int)
  | 0, _ => none
  | fuel + 1, p =>
    match candidate m e p with
    | some c => some c
    | none => firstCandidate m e fuel (p + 1)

/-- Drop trailing zero digits, raising the exponent. -/
def trimZeros : Nat → Nat → Int → Nat × Int
  | 0, n, t => (n, t)
  | fuel + 1, n, t => if n ≠ 0 ∧ n % 10 = 0 then trimZeros fuel (n / 10) (t + 1) else (n, t)

/-- Shortest digits of a positive finite value `m * 2^e`: the digit string without trailing
zeros and the position of the decimal point counted from its first digit. -/
def shortest (m : Nat) (e : Int) : String × Int :=
  -- seventeen digits always read back
  let (n, t) := (firstCandidate m e 18 1).getD (Scaled.floorDivTen m e (leadingExponent m e - 16), leadingExponent m e - 16)
  let (n, t) := trimZeros 20 n t
  let digits := toString n
  (digits, t + digits.length)

end Double

/-- Where positional notation ends and how the exponent is written. -/
structure DecimalStyle where
  /-- Largest point position (digits before the point) still written positionally. -/
  maxPoint : Int
  /-- Smallest point position still written positionally (`0.000001` has point `-5`). -/
  minPoint : Int
  expMark : String
  /-- Text of a non-negative exponent's sign. -/
  plusSign : String

/-- Positional from `1e-6` up to below `1e21`; otherwise `1.5e+300` and `5e-324`. -/
def DecimalStyle.standard : DecimalStyle := ⟨21, -5, "e", "+"⟩

namespace Double

/-- Lay out digits with the point at position `k` (value `0.digits * 10^k`). -/
def layout (style : DecimalStyle) (digits : String) (k : Int) : String :=
  let p : Int := digits.length
  if p ≤ k ∧ k ≤ style.maxPoint then digits ++ String.ofList (List.replicate (k - p).toNat '0')
  else if 0 < k ∧ k ≤ style.maxPoint then
    String.ofList (digits.toList.take k.toNat) ++ "." ++ String.ofList (digits.toList.drop k.toNat)
  else if style.minPoint ≤ k ∧ k ≤ 0 then
    "0." ++ String.ofList (List.replicate (-k).toNat '0') ++ digits
  else
    let x := k - 1
    let sign := if x ≥ 0 then style.plusSign else "-"
    let mant := match digits.toList with
      | [d] => String.singleton d
      | d :: rest => String.singleton d ++ "." ++ String.ofList rest
      | [] => "0"
    mant ++ style.expMark ++ sign ++ toString x.natAbs

/-- The text of a number: shortest round-trip digits, `NaN`, `Infinity`, `-Infinity`;
both zeros are `0`. -/
def render (x : Double) : String :=
  match x.decode with
  | .nan => "NaN"
  | .infinite neg => if neg then "-Infinity" else "Infinity"
  | .finite neg m e =>
    if m = 0 then "0"
    else
      let (digits, k) := shortest m e
      (if neg then "-" else "") ++ layout DecimalStyle.standard digits k

instance : ToString Double := ⟨render⟩

end Double

end DapBridge
