/-!
# Binary64 numbers

Every number the adapter reads or writes is an IEEE 754 binary64 value: message sequence
numbers, thread and frame ids, line numbers, ports, timeouts. `Double` is the 64-bit word
itself, so two values are equal exactly when their encodings are, and `-0`, the
infinities and NaN are values like any other.

All arithmetic is done exactly on `Nat`/`Int` and then rounded once, to the nearest word with
ties to an even significand (`Double.round`). Nothing here uses the runtime's floating
point, so every operation can be evaluated and reasoned about in the logic.

* `Double.decode` splits a word into sign, integral significand and binary exponent.
* `Double.round` is the single rounding step; `add`, `mul` and `ofInt` go through it.
* `Double.eq`, `lt`, `le` compare numerically (`0 = -0`, NaN is unordered).
-/

namespace DapBridge

/-- An IEEE 754 binary64 value, given by its 64-bit encoding. -/
structure Double where
  bits : UInt64
  deriving DecidableEq, Hashable, Inhabited, Repr

namespace Double

/-- Number of fraction bits of the encoding. -/
def fractionWidth : Nat := 52

/-- The smallest binary exponent of a significand unit (subnormals and the least normals). -/
def minExponent : Int := -1074

/-- The largest binary exponent of a significand unit. -/
def maxExponent : Int := 971

/-- The sign bit. -/
def signBit (x : Double) : Bool := x.bits.toNat / Nat.pow 2 63 % 2 = 1

/-- The biased exponent field, eleven bits. -/
def exponentField (x : Double) : Nat := x.bits.toNat / Nat.pow 2 52 % Nat.pow 2 11

/-- The fraction field, fifty-two bits. -/
def fractionField (x : Double) : Nat := x.bits.toNat % Nat.pow 2 52

/-- What a word denotes. A finite value is `(-1)^neg * mant * 2^exp`. -/
inductive Shape where
  | finite (neg : Bool) (mant : Nat) (exp : Int)
  | infinite (neg : Bool)
  | nan
  deriving DecidableEq, Repr

/-- Split a word into its sign, integral significand and binary exponent. -/
def decode (x : Double) : Shape :=
  let e := x.exponentField
  let f := x.fractionField
  if e = 2047 then
    if f = 0 then .infinite x.signBit else .nan
  else if e = 0 then .finite x.signBit f minExponent
  else .finite x.signBit (f + Nat.pow 2 52) ((e : Int) - 1075)

/-- The word with the given sign bit, biased exponent and fraction. -/
def pack (neg : Bool) (e f : Nat) : Double :=
  ⟨UInt64.ofNat ((if neg then Nat.pow 2 63 else 0) + e * Nat.pow 2 52 + f)⟩

def zero : Double := pack false 0 0
def negZero : Double := pack true 0 0
def infinity : Double := pack false 2047 0
def negInfinity : Double := pack true 2047 0
/-- The quiet NaN that every invalid operation produces. -/
def nan : Double := pack false 2047 (Nat.pow 2 51)

/-- The same magnitude with the other sign. -/
def neg (x : Double) : Double := ⟨x.bits ^^^ (UInt64.ofNat (Nat.pow 2 63))⟩

instance : Neg Double := ⟨neg⟩

def isNaN (x : Double) : Bool := x.decode = .nan

def isFinite (x : Double) : Bool :=
  match x.decode with
  | .finite .. => true
  | _ => false

/-- Round half to even of `n / d` (`d > 0`). -/
def divRound (n d : Nat) : Nat :=
  let q := n / d
  let r := n % d
  if 2 * r > d ∨ (2 * r = d ∧ q % 2 = 1) then q + 1 else q

/-- Exact quotient `n / 2^k` rounded half to even, for a binary exponent of either sign. -/
def scaleRound (n : Nat) (k : Int) (d : Nat) : Nat :=
  -- the rational `n / d` divided by `2^k`
  if k ≥ 0 then divRound n (d * Nat.pow 2 k.toNat) else divRound (n * Nat.pow 2 (-k).toNat) d

/-- The binary exponent of the significand unit for a positive rational `n / d`:
the least exponent, not below `minExponent`, at which the significand fits 53 bits. -/
def unitExponent (n d : Nat) : Int :=
  let guess : Int := (Nat.log2 n : Int) - (Nat.log2 d : Int) - 52
  -- `n / d` lies in `[2^(g+51), 2^(g+54))`; pick the exponent whose quotient is below 2^53
  let fits (e : Int) : Bool := (if e ≥ 0 then n / (d * Nat.pow 2 e.toNat) else n * Nat.pow 2 (-e).toNat / d) < Nat.pow 2 53
  let e := if fits (guess - 1) then guess - 1 else if fits guess then guess else guess + 1
  max e minExponent

/-- The word nearest to `(-1)^neg * n / d`, ties to an even significand; magnitudes past the
largest finite value become an infinity, and a zero keeps its sign. -/
def round (neg : Bool) (n d : Nat) : Double :=
  if n = 0 ∨ d = 0 then pack neg 0 0
  else
    let e := unitExponent n d
    let m := scaleRound n e d
    -- rounding up may carry into a 54th bit
    let (m, e) := if m = Nat.pow 2 53 then (Nat.pow 2 52, e + 1) else (m, e)
    if e > maxExponent then pack neg 2047 0
    else if m < Nat.pow 2 52 then pack neg 0 m
    else pack neg (e + 1075).toNat (m - Nat.pow 2 52)

/-- The exact value of a finite shape as a signed numerator over a power-of-two denominator:
`(num, k)` stands for `num * 2^k`. -/
def exactOf (neg : Bool) (m : Nat) (e : Int) : Int × Int :=
  ((if neg then -(m : Int) else m), e)

/-- The word nearest to the integer `i * 2^k`. A zero is positive. -/
def ofScaled (i : Int) (k : Int) : Double :=
  if k ≥ 0 then round (i < 0) (i.natAbs * Nat.pow 2 k.toNat) 1
  else round (i < 0) i.natAbs (Nat.pow 2 (-k).toNat)

def ofNat (n : Nat) : Double := round false n 1

def ofInt (i : Int) : Double := round (i < 0) i.natAbs 1

instance : OfNat Double n := ⟨ofNat n⟩

/-- Sum, rounded once. Opposite infinities give NaN; an exact zero sum is `+0` unless both
terms are `-0`. -/
def add (x y : Double) : Double :=
  match x.decode, y.decode with
  | .nan, _ => nan
  | _, .nan => nan
  | .infinite a, .infinite b => if a = b then x else nan
  | .infinite _, _ => x
  | _, .infinite _ => y
  | .finite a m e, .finite b n f =>
    let k := min e f
    let s : Int := (exactOf a m e).1 * Nat.pow 2 (e - k).toNat + (exactOf b n f).1 * Nat.pow 2 (f - k).toNat
    if s = 0 then (if a ∧ b then negZero else zero) else ofScaled s k

instance : Add Double := ⟨add⟩

def sub (x y : Double) : Double := add x (neg y)

instance : Sub Double := ⟨sub⟩

/-- Product, rounded once. Zero times infinity is NaN. -/
def mul (x y : Double) : Double :=
  match x.decode, y.decode with
  | .nan, _ => nan
  | _, .nan => nan
  | .infinite a, .infinite b => if a = b then infinity else negInfinity
  | .infinite a, .finite b n _ =>
    if n = 0 then nan else if a = b then infinity else negInfinity
  | .finite a m _, .infinite b =>
    if m = 0 then nan else if a = b then infinity else negInfinity
  | .finite a m e, .finite b n f =>
    let neg := a != b
    let k := e + f
    if k ≥ 0 then round neg (m * n * Nat.pow 2 k.toNat) 1 else round neg (m * n) (Nat.pow 2 (-k).toNat)

instance : Mul Double := ⟨mul⟩

/-- Three-way comparison of the exact values of two finite shapes. -/
def compareFinite (a : Bool) (m : Nat) (e : Int) (b : Bool) (n : Nat) (f : Int) : Ordering :=
  let k := min e f
  let s : Int := (exactOf a m e).1 * Nat.pow 2 (e - k).toNat
  let t : Int := (exactOf b n f).1 * Nat.pow 2 (f - k).toNat
  compare s t

/-- Numeric comparison; `none` when either side is NaN. -/
def compareNum (x y : Double) : Option Ordering :=
  match x.decode, y.decode with
  | .nan, _ => none
  | _, .nan => none
  | .infinite a, .infinite b => some (if a = b then .eq else if a then .lt else .gt)
  | .infinite a, _ => some (if a then .lt else .gt)
  | _, .infinite b => some (if b then .gt else .lt)
  | .finite a m e, .finite b n f => some (compareFinite a m e b n f)

/-- Numeric equality: `0 = -0`, and NaN equals nothing. -/
def eq (x y : Double) : Bool := x.compareNum y = some .eq

def lt (x y : Double) : Bool := x.compareNum y = some .lt

def le (x y : Double) : Bool := x.compareNum y = some .lt ∨ x.compareNum y = some .eq

/-- Whether the value is finite and has no fractional part. -/
def isInteger (x : Double) : Bool :=
  match x.decode with
  | .finite _ m e => e ≥ 0 ∨ m % Nat.pow 2 (-e).toNat = 0
  | _ => false

/-- The integer a finite value truncates to (towards zero). -/
def truncInt (x : Double) : Option Int :=
  match x.decode with
  | .finite neg m e =>
    let t : Nat := if e ≥ 0 then m * Nat.pow 2 e.toNat else m / Nat.pow 2 (-e).toNat
    some (if neg then -(t : Int) else t)
  | _ => none

/-- The natural number of an integral, non-negative value. -/
def toNat? (x : Double) : Option Nat :=
  if x.isInteger then
    match x.truncInt with
    | some i => if i ≥ 0 then some i.toNat else none
    | none => none
  else none

/-- The integer of an integral value. -/
def toInt? (x : Double) : Option Int := if x.isInteger then x.truncInt else none

example : (ofNat 1 + ofNat 1) = ofNat 2 := by decide
example : (ofNat 3).isInteger = true := by decide
example : (ofNat 0).neg = negZero := by decide

end Double

end DapBridge
