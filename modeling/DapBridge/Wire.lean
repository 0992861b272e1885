import DapBridge.Text.Utf8
import DapBridge.Text.Blank
import DapBridge.Json.Write

/-!
# The client wire

Messages between a client and the adapter travel as a header block and a body. The header
block ends at the first blank line (`CR LF CR LF`) and gives the body's length in bytes in a
`Content-Length:` field: the name is matched without regard to ASCII case, blanks may stand
before the digits, and the first such field in the block counts. The body is that many bytes,
read as UTF-8.

A header block with no length is reported and skipped; a body that has not fully arrived
waits for more bytes, with its header. `cutAtBlankLine_eq` says that cutting at the blank
line loses nothing, which is also why reading arrivals ends.

A `Link` is the adapter's end of the wire: it reads what the client sends until it is
closed, and frames what the adapter sends while it is open.
-/

namespace DapBridge

namespace Wire

/-- The line break that ends a header block, twice. -/
def blankLine : List UInt8 := [13, 10, 13, 10]

/-- The bytes before the first blank line, and those after it. -/
def cutAtBlankLine : List UInt8 → Option (List UInt8 × List UInt8)
  | [] => none
  | b :: rest =>
    if (b :: rest).take 4 = blankLine then some ([], rest.drop 3)
    else (cutAtBlankLine rest).map fun (h, r) => (b :: h, r)

theorem cutAtBlankLine_eq {bs h r : List UInt8} (hc : cutAtBlankLine bs = some (h, r)) :
    bs = h ++ blankLine ++ r := by
  induction bs generalizing h r with
  | nil => simp [cutAtBlankLine] at hc
  | cons b rest ih =>
    unfold cutAtBlankLine at hc
    split at hc
    · next hb =>
      simp only [Option.some.injEq, Prod.mk.injEq] at hc
      obtain ⟨rfl, rfl⟩ := hc
      have := List.take_append_drop 4 (b :: rest)
      rw [hb] at this
      simpa using this.symm
    · obtain ⟨⟨h', r'⟩, hrec, he⟩ := Option.map_eq_some_iff.1 hc
      simp only [Prod.mk.injEq] at he
      obtain ⟨rfl, rfl⟩ := he
      simp [ih hrec]

theorem cutAtBlankLine_shorter {bs h r : List UInt8} (hc : cutAtBlankLine bs = some (h, r)) :
    r.length < bs.length := by
  rw [cutAtBlankLine_eq hc]
  simp [blankLine]
  omega

/-- The field name, in lower case. -/
def lengthName : List Char := "content-length:".toList

/-- `cs` with the lower-case name `p` cut from its front, letters compared without regard
to ASCII case. -/
def dropName : List Char → List Char → Option (List Char)
  | [], cs => some cs
  | _ :: _, [] => none
  | p :: ps, c :: cs => if c.toLower = p then dropName ps cs else none

/-- The value of a run of decimal digits. -/
def digitsValue (ds : List Char) : Nat :=
  ds.foldl (fun n d => 10 * n + (d.toNat - '0'.toNat)) 0

/-- The length given by a field that starts exactly at the front of `cs`. -/
def lengthHere (cs : List Char) : Option Nat := do
  let rest ← dropName lengthName cs
  let ds := (rest.dropWhile Blank.isBlank).takeWhile Char.isDigit
  if ds.isEmpty then none else some (digitsValue ds)

/-- The length given by the first field of a header block that gives one. -/
def contentLength? : List Char → Option Nat
  | [] => none
  | c :: cs => (lengthHere (c :: cs)).or (contentLength? cs)

/-- What the client's stream yields: a body, or a header block without a length. -/
inductive Arrival where
  | body (text : String)
  | badHeader (text : String)
  deriving Repr

/-- Every complete arrival at the front of `bs`, and the bytes left waiting. -/
def arrivals (bs : List UInt8) : List Arrival × List UInt8 :=
  match hc : cutAtBlankLine bs with
  | none => ([], bs)
  | some (header, rest) =>
    let text := Utf8.decode header
    match contentLength? text.toList with
    | none =>
      let (more, left) := arrivals rest
      (.badHeader text :: more, left)
    | some n =>
      if n ≤ rest.length then
        let (more, left) := arrivals (rest.drop n)
        (.body (Utf8.decode (rest.take n)) :: more, left)
      else ([], bs)
termination_by bs.length
decreasing_by
  all_goals have := cutAtBlankLine_shorter hc
  · exact this
  · simp only [List.length_drop]; omega

/-- The text that carries a message's text to the client. -/
def frame (text : String) : String :=
  s!"Content-Length: {Utf8.byteLength text}\r\n\r\n" ++ text

end Wire

/-- The adapter's end of a client wire: bytes still waiting for the rest of their message,
and whether it is open. -/
structure Link where
  waiting : List UInt8
  isOpen : Bool
  deriving Inhabited

namespace Link

def fresh : Link := ⟨[], true⟩

/-- Bytes from the client, and what they complete; a closed link reads nothing. -/
def receive (l : Link) (bs : List UInt8) : Link × List Wire.Arrival :=
  if l.isOpen then
    let (as, left) := Wire.arrivals (l.waiting ++ bs)
    (⟨left, true⟩, as)
  else (l, [])

def close (l : Link) : Link := { l with isOpen := false }

/-- How many times the link has announced its closing: once at most, however often it is
closed. -/
def closeEvents (l : Link) : Nat := if l.isOpen then 0 else 1

/-- The text written for a message; a closed link writes nothing. -/
def send (l : Link) (m : Json) : Option String :=
  if l.isOpen then some (Wire.frame (Json.write m)) else none

end Link

end DapBridge
