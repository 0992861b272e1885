import DapBridge.Text.Utf8
import DapBridge.Text.Blank

/-!
# Line frames

In text framing every message is one line. The probe may put `DBGP:` before a message;
commands to it carry `DBGCMD:`. A received line loses one trailing carriage return, then
one `DBGP:` prefix, then the blanks around it; an empty result is no message.

`LineDecoder.push` decodes a chunk as UTF-8 (a character cut by the chunk boundary waits
for the next chunk) and returns the messages of the lines it completes. `pending` is the
UTF-8 size of the text received since the last line feed.
-/

namespace DapBridge

/-- Prefix of a message line from the probe. -/
def eventLinePrefix : String := "DBGP:"

/-- Prefix of a command line to the probe. -/
def commandLinePrefix : String := "DBGCMD:"

/-- The message of one received line, if any. -/
def lineMessage (line : String) : Option String :=
  let cs := line.toList
  let cs := if cs.getLast? = some '\r' then cs.dropLast else cs
  let cs := if eventLinePrefix.toList.isPrefixOf cs then cs.drop eventLinePrefix.length else cs
  let t := Blank.trimList cs
  if t.isEmpty then none else some (String.ofList t)

/-- The bytes of a command line. -/
def commandLine (command : String) : List UInt8 := Utf8.encode (commandLinePrefix ++ command ++ "\n")

/-- Text received after the last line feed, and the chunked UTF-8 decoder. -/
structure LineDecoder where
  partialLine : String := ""
  stream : Utf8.Stream := {}

namespace LineDecoder

/-- Split text at line feeds: the complete lines and the unfinished rest. -/
def splitLines (text : String) : List String × String :=
  let parts := (text.toList.splitOn '\n').map String.ofList
  (parts.dropLast, parts.getLast?.getD "")

def push (d : LineDecoder) (chunk : List UInt8) : LineDecoder × List String :=
  let (stream, decoded) := d.stream.push chunk
  let (lines, rest) := splitLines (d.partialLine ++ decoded)
  (⟨rest, stream⟩, lines.filterMap lineMessage)

def pending (d : LineDecoder) : Nat := Utf8.byteLength d.partialLine

end LineDecoder

end DapBridge
