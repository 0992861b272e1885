/-!
# Numeric IPv4 host names

A host name may spell an IPv4 address in the classic numeric forms the system's resolver
reads: one to four parts separated by dots, each a decimal, octal (leading `0`) or
hexadecimal (leading `0x`) number. Every part but the last is one byte; the last fills the
bytes that remain, so `127.1` is `127.0.0.1` and `2130706433` is the same address. Sockets
report the address, not the name, so `Address.display` writes such a name as a dotted quad
and leaves every other name as it is.
-/

namespace DapBridge

namespace Address

/-- Value of digits in a base; every character must be a digit of it. -/
def digitsValue (base : Nat) (ds : List Char) : Nat :=
  ds.foldl (fun acc c =>
    let d := if c.isDigit then c.toNat - '0'.toNat
      else if 'a' ≤ c ∧ c ≤ 'f' then c.toNat - 'a'.toNat + 10
      else c.toNat - 'A'.toNat + 10
    acc * base + d) 0

def isHexDigit (c : Char) : Bool := c.isDigit || ('a' ≤ c ∧ c ≤ 'f') || ('A' ≤ c ∧ c ≤ 'F')

def isOctalDigit (c : Char) : Bool := '0' ≤ c ∧ c ≤ '7'

/-- The number at the front of the characters, in C's notation, and what follows it. A
`0x` without hexadecimal digits after it is the number `0`, followed by the `x`. -/
def leadingNumber (cs : List Char) : Nat × List Char :=
  match cs with
  | '0' :: x :: rest =>
    if (x = 'x' ∨ x = 'X') ∧ (rest.head?.map isHexDigit).getD false then
      let ds := rest.takeWhile isHexDigit
      (digitsValue 16 ds, rest.drop ds.length)
    else
      let ds := cs.takeWhile isOctalDigit
      (digitsValue 8 ds, cs.drop ds.length)
  | '0' :: [] => (0, [])
  | _ =>
    let ds := cs.takeWhile Char.isDigit
    (digitsValue 10 ds, cs.drop ds.length)

/-- The largest value of the last part after `n` one-byte parts. -/
def lastPartLimit (n : Nat) : Nat := Nat.pow 2 (8 * (4 - n)) - 1

/-- The address of one-byte parts followed by a last part. -/
def combine (parts : List Nat) (last : Nat) : Nat :=
  parts.zipIdx.foldl (fun acc (b, i) => acc + b * Nat.pow 2 (8 * (3 - i))) last

/-- The address the characters spell, with the one-byte parts read so far; `fuel` bounds the
parts still to read. -/
def parse : Nat → List Nat → List Char → Option Nat
  | 0, _, _ => none
  | fuel + 1, parts, cs =>
    match cs with
    | c :: _ =>
      if !c.isDigit then none
      else
        let (v, rest) := leadingNumber cs
        match rest with
        | '.' :: more => if 3 ≤ parts.length ∨ 255 < v then none else parse fuel (parts ++ [v]) more
        | [] => if lastPartLimit parts.length < v then none else some (combine parts v)
        | _ => none
    | [] => none

/-- The IPv4 address a whole name spells, as a number below `2^32`. -/
def ipv4? (name : String) : Option Nat := parse 4 [] name.toList

/-- An address as a dotted quad. -/
def dotted (a : Nat) : String :=
  ".".intercalate ([3, 2, 1, 0].map fun i => toString (a / Nat.pow 2 (8 * i) % 256))

/-- The name a socket reports for a host: the dotted quad of a numeric name, any other name
as it is. -/
def display (host : String) : String := ((ipv4? host).map dotted).getD host

example : display "2130706433" = "127.0.0.1" := by decide +kernel
example : display "127.1" = "127.0.0.1" := by decide +kernel
example : display "0x7f.0.0.01" = "127.0.0.1" := by decide +kernel
example : display "08.1" = "08.1" := by decide +kernel

end Address

end DapBridge
