import DapBridge.Ipc.Frame
import DapBridge.Ipc.Line

/-!
# Framings of the probe channel

The channel to the probe is framed either in binary frames or in lines. `Framing.encode`
gives the bytes of an outbound command, `Decoder` is the inbound decoder of either framing.
-/

namespace DapBridge

inductive Framing where
  | text
  | binary
  deriving DecidableEq, Repr, Inhabited

namespace Framing

def name : Framing → String
  | .text => "text"
  | .binary => "binary"

/-- `binary` names binary framing; any other name is text. -/
def ofName (s : String) : Framing := if s = "binary" then .binary else .text

def ofBinary (b : Bool) : Framing := if b then .binary else .text

/-- The bytes of a command: a command frame, or a `DBGCMD:` line. -/
def encode (f : Framing) (command : String) : Except FrameError (List UInt8) :=
  match f with
  | .binary => Frame.pack (FrameKind.code .command).toUInt8 (Utf8.encode command)
  | .text => .ok (commandLine command)

end Framing

/-- An inbound decoder of either framing. -/
inductive Decoder where
  | binary (d : FrameDecoder)
  | text (d : LineDecoder)

namespace Decoder

def fresh : Framing → Decoder
  | .binary => .binary {}
  | .text => .text {}

instance : Inhabited Decoder := ⟨fresh .text⟩

def push : Decoder → List UInt8 → Except FrameError (Decoder × List String)
  | .binary d, chunk => (d.push chunk).map fun (d', ps) => (.binary d', ps)
  | .text d, chunk => let (d', ps) := d.push chunk; .ok (.text d', ps)

def pending : Decoder → Nat
  | .binary d => d.pending
  | .text d => d.pending

/-- Command frames passed over, for binary framing. -/
def skipped? : Decoder → Option Nat
  | .binary d => some d.skipped
  | .text _ => none

end Decoder

end DapBridge
