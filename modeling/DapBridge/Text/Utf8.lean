import DapBridge.Text.Units

/-!
# UTF-8

Bytes on the wire are UTF-8. Encoding reads a string as its code units: a surrogate pair is
written as its character, an unpaired surrogate as U+FFFD. Decoding follows the WHATWG
decoder: a byte sequence that cannot start or continue a character becomes one U+FFFD per
maximal invalid subpart, so every byte string decodes; its characters become code units.

`Utf8.Stream` decodes a byte stream that arrives in chunks. A character cut by a chunk
boundary is held back until the bytes it lacks arrive; if the next chunk starts with a byte
that cannot continue it, the held bytes are decoded on their own.
-/

namespace DapBridge

namespace Utf8

/-- The UTF-8 bytes of one code point. -/
def encodePoint (n : Nat) : List UInt8 :=
  if n < 0x80 then [n.toUInt8]
  else if n < 0x800 then [(0xC0 + n / 64).toUInt8, (0x80 + n % 64).toUInt8]
  else if n < 0x10000 then
    [(0xE0 + n / 4096).toUInt8, (0x80 + n / 64 % 64).toUInt8, (0x80 + n % 64).toUInt8]
  else
    [(0xF0 + n / 262144).toUInt8, (0x80 + n / 4096 % 64).toUInt8,
     (0x80 + n / 64 % 64).toUInt8, (0x80 + n % 64).toUInt8]

/-- The code point of a unit standing alone: an unpaired surrogate is U+FFFD. -/
def unitPoint (u : UInt16) : Nat := if Text.isHigh u || Text.isLow u then 0xFFFD else u.toNat

/-- The UTF-8 bytes of code units: a pair is one character. -/
def encodeUnits : List UInt16 → List UInt8
  | [] => []
  | [u] => encodePoint (unitPoint u)
  | u :: v :: rest =>
    if Text.isHigh u && Text.isLow v then encodePoint (Text.pairCode u v) ++ encodeUnits rest
    else encodePoint (unitPoint u) ++ encodeUnits (v :: rest)

def encode (s : String) : List UInt8 := encodeUnits (Text.ofString s).units

/-- Number of UTF-8 bytes of a string. -/
def byteLength (s : String) : Nat := (encode s).length

/-- A character begun but not finished: continuation bytes still needed, the bits so far,
and the range the next byte must fall in. -/
structure Partial where
  needed : Nat
  bits : Nat
  lower : Nat
  upper : Nat

/-- What a byte does when no character is in progress. -/
inductive Start where
  | char (c : Char)
  | begin (p : Partial)
  | invalid

def start (b : UInt8) : Start :=
  let n := b.toNat
  if n < 0x80 then .char (Char.ofNat n)
  else if 0xC2 ≤ n ∧ n ≤ 0xDF then .begin ⟨1, n % 32, 0x80, 0xBF⟩
  else if 0xE0 ≤ n ∧ n ≤ 0xEF then
    .begin ⟨2, n % 16, if n = 0xE0 then 0xA0 else 0x80, if n = 0xED then 0x9F else 0xBF⟩
  else if 0xF0 ≤ n ∧ n ≤ 0xF4 then
    .begin ⟨3, n % 8, if n = 0xF0 then 0x90 else 0x80, if n = 0xF4 then 0x8F else 0xBF⟩
  else .invalid

/-- Decode with replacement, carrying the character in progress. -/
def decodeFrom (st : Option Partial) (bs : List UInt8) : List Char :=
  match bs, st with
  | [], none => []
  | [], some _ => ['�']
  | b :: rest, none =>
    match start b with
    | .char c => c :: decodeFrom none rest
    | .begin p => decodeFrom (some p) rest
    | .invalid => '�' :: decodeFrom none rest
  | b :: rest, some p =>
    if p.lower ≤ b.toNat ∧ b.toNat ≤ p.upper then
      let bits := p.bits * 64 + b.toNat % 64
      if p.needed = 1 then Char.ofNat bits :: decodeFrom none rest
      else decodeFrom (some ⟨p.needed - 1, bits, 0x80, 0xBF⟩) rest
    else
      -- the sequence ends here; the byte starts afresh
      '�' :: decodeFrom none (b :: rest)
termination_by (bs.length, if st.isSome then 1 else 0)

/-- The text of a byte string, each invalid subpart read as U+FFFD. -/
def decode (bs : List UInt8) : String := Text.ofChars (decodeFrom none bs)

/-- Whether a byte continues a character (`10xxxxxx`). -/
def isContinuation (b : UInt8) : Bool := b.toNat / 64 = 2

/-- Length of the character a lead byte announces, by its high bits alone: `110` two,
`1110` three, `11110` four; anything else announces nothing to wait for. -/
def announcedLength (b : UInt8) : Option Nat :=
  let n := b.toNat
  if n / 32 = 6 then some 2 else if n / 16 = 14 then some 3 else if n / 8 = 30 then some 4 else none

/-- How many trailing bytes of a chunk form a character still lacking bytes, and how many it
lacks. Only the last four bytes are looked at. -/
def cutTail (chunk : List UInt8) : Nat × Nat :=
  match chunk.getLast? with
  | none => (0, 0)
  | some last =>
    if last.toNat < 0x80 then (0, 0)
    else
      -- walk back over continuation bytes to the lead byte
      let rev := chunk.reverse
      let conts := (rev.takeWhile isContinuation).length
      if conts ≥ 4 then (0, 0)
      else
        match rev[conts]? with
        | none => (0, 0)
        | some lead =>
          match announcedLength lead with
          | none => (0, 0)
          | some len => if conts + 1 ≥ len then (0, 0) else (conts + 1, len - (conts + 1))

/-- A chunked decoder: the bytes of a cut character, and how many more it needs. -/
structure Stream where
  held : List UInt8 := []
  missing : Nat := 0
  deriving Repr, Inhabited

namespace Stream

/-- Decode one chunk, finishing a held character first. -/
def push (s : Stream) (chunk : List UInt8) : Stream × String :=
  -- finish the held character with continuation bytes from the chunk
  let (prefixText, held, missing, data) :=
    if s.missing > 0 then
      let window := chunk.take s.missing
      let fill := window.takeWhile isContinuation
      let rest := chunk.drop fill.length
      let stopped := fill.length < window.length
      let missing := if stopped then 0 else s.missing - fill.length
      let held := s.held ++ fill
      if missing = 0 then (decode held, [], 0, rest) else ("", held, missing, rest)
    else ("", s.held, 0, chunk)
  if data.isEmpty then (⟨held, missing⟩, prefixText)
  else
    let (cut, lacking) := cutTail data
    let body := data.take (data.length - cut)
    (⟨data.drop (data.length - cut), lacking⟩, prefixText ++ decode body)

end Stream

end Utf8

namespace Text

/-- UTF-8 bytes of a unit sequence; an unpaired surrogate is written as U+FFFD. -/
def toUtf8 (t : Text) : List UInt8 := Utf8.encodeUnits t.units

end Text

end DapBridge
