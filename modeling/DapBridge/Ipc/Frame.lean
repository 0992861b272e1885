import DapBridge.Number.Shortest
import DapBridge.Text.Utf8

/-!
# Binary frames

A binary frame is a kind byte, the payload length as a 32-bit big-endian number, and the
payload: `[kind][length:4][payload]`. Kind 1 is an event from the probe, kind 2 a command
to it. A payload may be at most 64 MiB.

`FrameDecoder.push` takes the bytes of one chunk, appends them to what is held, and returns
the payloads of every event frame the held bytes now complete; command frames are counted
in `skipped`. A header with an unknown kind or an oversized length is refused, and such a
refusal ends the stream.
-/

namespace DapBridge

/-- The largest payload a frame may carry. -/
def maxFrameLength : Nat := 64 * 1024 * 1024

/-- Bytes of a frame header. -/
def frameHeaderSize : Nat := 5

/-- The kinds of frames. -/
inductive FrameKind where
  | event
  | command
  deriving DecidableEq, Repr

namespace FrameKind

def code : FrameKind → Nat
  | .event => 1
  | .command => 2

def ofCode? (n : Nat) : Option FrameKind :=
  if n = 1 then some .event else if n = 2 then some .command else none

end FrameKind

/-- Why bytes are no frame. -/
inductive FrameError where
  | shortHeader (length : Nat)
  | unknownKind (kind : Nat)
  | lengthTooLarge (length : Nat)
  | payloadTooLarge (length : Nat)
  deriving DecidableEq, Repr

def FrameError.message : FrameError → String
  | .shortHeader n => s!"Short frame header: {n} bytes"
  | .unknownKind k => s!"Unknown frame kind: {k}"
  | .lengthTooLarge n => s!"Frame length {n} exceeds {maxFrameLength}"
  | .payloadTooLarge n => s!"Frame payload of {n} bytes exceeds {maxFrameLength}"

/-- A kind byte refused because the number does not fit a byte. -/
structure ByteRangeError where
  value : Double
  deriving Repr

namespace ByteRangeError

/-- Digits grouped by threes from the right with `_`, after an optional minus sign. -/
def groupDigits (s : String) : String :=
  let cs := s.toList
  let (sign, body) := match cs with
    | '-' :: r => (['-'], r)
    | r => ([], r)
  -- groups of three from the right, the first group may be shorter, at least one digit
  let rec groups : Nat → List Char → List (List Char)
    | 0, _ => []
    | fuel + 1, xs => if xs.length ≥ 4 then groups fuel (xs.take (xs.length - 3)) ++ [xs.drop (xs.length - 3)] else [xs]
  String.ofList (sign ++ "_".toList.intercalate (groups body.length body))

def message (e : ByteRangeError) : String :=
  let x := e.value
  let big := x.isInteger ∧ Double.lt (Double.ofNat (Nat.pow 2 32)) (if x.signBit then x.neg else x)
  let received := if big then groupDigits x.render else x.render
  s!"The value of \"value\" is out of range. It must be >= 0 and <= 255. Received {received}"

end ByteRangeError

namespace Frame

/-- The byte written for a number: integers and fractions in `[0, 255]` lose their fraction,
NaN is written as 0, anything else is out of range. -/
def byteOf (x : Double) : Except ByteRangeError UInt8 :=
  if Double.lt x 0 ∨ Double.lt 255 x then .error ⟨x⟩
  else .ok ((x.truncInt.getD 0).toNat.toUInt8)

/-- Four big-endian bytes of a length. -/
def lengthBytes (n : Nat) : List UInt8 :=
  [(n / Nat.pow 2 24 % 256).toUInt8, (n / Nat.pow 2 16 % 256).toUInt8, (n / Nat.pow 2 8 % 256).toUInt8, (n % 256).toUInt8]

/-- The number four big-endian bytes denote. -/
def lengthOf (bs : List UInt8) : Nat := bs.foldl (fun acc b => acc * 256 + b.toNat) 0

/-- A frame around a payload. -/
def pack (kind : UInt8) (payload : List UInt8) : Except FrameError (List UInt8) :=
  if payload.length > maxFrameLength then .error (.payloadTooLarge payload.length)
  else .ok (kind :: lengthBytes payload.length ++ payload)

/-- Kind and length from the first five bytes. -/
def unpackHeader (header : List UInt8) : Except FrameError (FrameKind × Nat) :=
  match header with
  | k :: a :: b :: c :: d :: _ =>
    match FrameKind.ofCode? k.toNat with
    | none => .error (.unknownKind k.toNat)
    | some kind =>
      let n := lengthOf [a, b, c, d]
      if n > maxFrameLength then .error (.lengthTooLarge n) else .ok (kind, n)
  | _ => .error (.shortHeader header.length)

example : (pack 1 [0x7b, 0x7d]).toOption = some [1, 0, 0, 0, 2, 0x7b, 0x7d] := by decide

end Frame

/-- Bytes held for an incomplete frame, and how many command frames were passed over. -/
structure FrameDecoder where
  held : List UInt8 := []
  skipped : Nat := 0
  deriving Repr

namespace FrameDecoder

/-- Split off every complete frame at the front of `bs`; `fuel` is at least the number of
frames. Returns event payloads, skipped commands, and the rest. -/
def split : Nat → List UInt8 → Except FrameError (List String × Nat × List UInt8)
  | 0, bs => .ok ([], 0, bs)
  | fuel + 1, bs =>
    if bs.length < frameHeaderSize then .ok ([], 0, bs)
    else
      match Frame.unpackHeader bs with
      | .error e => .error e
      | .ok (kind, n) =>
        if bs.length < frameHeaderSize + n then .ok ([], 0, bs)
        else
          let payload := (bs.drop frameHeaderSize).take n
          match split fuel (bs.drop (frameHeaderSize + n)) with
          | .error e => .error e
          | .ok (ps, k, rest) =>
            match kind with
            | .event => .ok (Utf8.decode payload :: ps, k, rest)
            | .command => .ok (ps, k + 1, rest)

/-- Feed one chunk. -/
def push (d : FrameDecoder) (chunk : List UInt8) : Except FrameError (FrameDecoder × List String) :=
  let bs := d.held ++ chunk
  match split bs.length bs with
  | .error e => .error e
  | .ok (ps, k, rest) => .ok (⟨rest, d.skipped + k⟩, ps)

/-- Bytes held for an incomplete frame. -/
def pending (d : FrameDecoder) : Nat := d.held.length

end FrameDecoder

end DapBridge
