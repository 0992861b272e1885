/-!
# Hex notation of bytes

Bytes are written as two lower-case hex digits each. Reading is lenient in the usual way of
byte buffers: it stops at the first pair that is not two hex digits (either case), and a
single digit left at the end is dropped.
-/

namespace DapBridge

namespace Hex

def digitValue (c : Char) : Option Nat :=
  if '0' ≤ c ∧ c ≤ '9' then some (c.toNat - '0'.toNat)
  else if 'a' ≤ c ∧ c ≤ 'f' then some (c.toNat - 'a'.toNat + 10)
  else if 'A' ≤ c ∧ c ≤ 'F' then some (c.toNat - 'A'.toNat + 10)
  else none

/-- Bytes of the leading well-formed pairs. -/
def decodeChars : List Char → List UInt8
  | a :: b :: rest =>
    match digitValue a, digitValue b with
    | some x, some y => (x * 16 + y).toUInt8 :: decodeChars rest
    | _, _ => []
  | _ => []

def decode (s : String) : List UInt8 := decodeChars s.toList

def digit (n : Nat) : Char := "0123456789abcdef".toList.getD n '0'

def encode (bs : List UInt8) : String :=
  String.ofList (bs.flatMap fun b => [digit (b.toNat / 16), digit (b.toNat % 16)])

example : decode "0a0g" = [10] := by decide
example : decode "010" = [1] := by decide
example : encode [1, 255] = "01ff" := by decide

end Hex

end DapBridge
