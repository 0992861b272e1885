import DapBridge.Json.Value
import DapBridge.Number.Decimal

/-!
# Reading JSON text

The strict JSON grammar: whitespace is space, tab, line feed and carriage return only; a
number has no leading zeros, no leading `+` and digits on both sides of a point; a string
holds no raw control character, and `\u` escapes give single UTF-16 code units, so an
unpaired surrogate can be written. Objects are built with `Fields.set`, so a repeated key
keeps its first place and its last value.

`Json.read` reads one value surrounded by optional whitespace. A refusal is a `ReadError`:
what was expected or unexpected, at which UTF-16 position of the text. `ReadError.message`
words it, quoting up to ten code units of context on each side of an unexpected token.
-/

namespace DapBridge

namespace Json

/-- Why a text is not JSON, with the UTF-16 position where reading stopped. -/
inductive ReadError where
  | endOfInput
  | unexpectedNumber (pos : Nat)
  | unexpectedString (pos : Nat)
  | unexpectedToken (pos : Nat)
  | expectedPropertyNameOrBrace (pos : Nat)
  | expectedPropertyName (pos : Nat)
  | expectedColon (pos : Nat)
  | expectedCommaOrBrace (pos : Nat)
  | expectedCommaOrBracket (pos : Nat)
  | unterminatedString (pos : Nat)
  | badControlCharacter (pos : Nat)
  | badUnicodeEscape (pos : Nat)
  | badEscapedCharacter (pos : Nat)
  | noNumberAfterMinus (pos : Nat)
  | unterminatedFraction (pos : Nat)
  | missingExponent (pos : Nat)
  | trailingCharacter (pos : Nat)
  deriving Repr, DecidableEq

namespace ReadError

/-- Line and column (from 1) of a UTF-16 position; `\r\n`, `\r` and `\n` end a line. -/
def lineColumn (src : List UInt16) (pos : Nat) : Nat × Nat :=
  let (line, start) := go (src.take pos) 0 1 0
  (line, pos - start + 1)
where
  /-- Lines seen and the position where the last one starts. -/
  go : List UInt16 → Nat → Nat → Nat → Nat × Nat
    | [], _, line, start => (line, start)
    | [u], i, line, start => if u = 13 ∨ u = 10 then (line + 1, i + 1) else (line, start)
    | u :: v :: rest, i, line, start =>
      if u = 13 ∧ v = 10 then go rest (i + 2) (line + 1) (i + 2)
      else if u = 13 ∨ u = 10 then go (v :: rest) (i + 1) (line + 1) (i + 1)
      else go (v :: rest) (i + 1) line start

/-- Sources that are the text of a non-JSON value. -/
def specialSources : List String := ["[object Object]", "undefined", "Infinity", "NaN"]

/-- `at position p (line l column c)`. -/
def place (src : Text) (pos : Nat) : String :=
  let (line, col) := lineColumn src.units pos
  s!"in JSON at position {pos} (line {line} column {col})"

/-- The words for an unexpected token: the token, and the source or a window of it. -/
def tokenMessage (src : Text) (pos : Nat) : String :=
  let s := src.toString
  if specialSources.contains s then s!"\"{s}\" is not valid JSON"
  else
    let tok := (Text.mk ((src.units.drop pos).take 1)).toString
    let slice (a b : Nat) : String := (Text.mk ((src.units.drop a).take (b - a))).toString
    let n := src.length
    if n ≤ 21 then s!"Unexpected token '{tok}', \"{s}\" is not valid JSON"
    else if pos < 10 then s!"Unexpected token '{tok}', \"{slice 0 (pos + 10)}\"... is not valid JSON"
    else if pos + 10 < n then
      s!"Unexpected token '{tok}', ...\"{slice (pos - 10) (pos + 10)}\"... is not valid JSON"
    else s!"Unexpected token '{tok}', ...\"{slice (pos - 10) n}\" is not valid JSON"

/-- The message for a refusal of the text `src`. -/
def message (src : String) : ReadError → String
  | endOfInput => "Unexpected end of JSON input"
  | unexpectedNumber p => s!"Unexpected number {place src p}"
  | unexpectedString p => s!"Unexpected string {place src p}"
  | unexpectedToken p => tokenMessage src p
  | expectedPropertyNameOrBrace p => s!"Expected property name or '\x7d' {place src p}"
  | expectedPropertyName p => s!"Expected double-quoted property name {place src p}"
  | expectedColon p => s!"Expected ':' after property name {place src p}"
  | expectedCommaOrBrace p => s!"Expected ',' or '\x7d' after property value {place src p}"
  | expectedCommaOrBracket p => s!"Expected ',' or ']' after array element {place src p}"
  | unterminatedString p => s!"Unterminated string {place src p}"
  | badControlCharacter p => s!"Bad control character in string literal {place src p}"
  | badUnicodeEscape p => s!"Bad Unicode escape {place src p}"
  | badEscapedCharacter p => s!"Bad escaped character {place src p}"
  | noNumberAfterMinus p => s!"No number after minus sign {place src p}"
  | unterminatedFraction p => s!"Unterminated fractional number {place src p}"
  | missingExponent p => s!"Exponent part is missing a number {place src p}"
  | trailingCharacter p => s!"Unexpected non-whitespace character after JSON {place src p}"

end ReadError

namespace Reader

/-- The characters still to read and the UTF-16 position of the first of them. -/
structure Cursor where
  rest : List Char
  pos : Nat

/-- Code units a character takes. -/
def width (c : Char) : Nat := if c.toNat < 0x10000 then 1 else 2

def Cursor.next (cur : Cursor) : Cursor :=
  match cur.rest with
  | [] => cur
  | c :: r => ⟨r, cur.pos + width c⟩

def Cursor.peek (cur : Cursor) : Option Char := cur.rest.head?

def isBlank (c : Char) : Bool := c = ' ' ∨ c = '\t' ∨ c = '\n' ∨ c = '\r'

def skipBlank (cur : Cursor) : Cursor :=
  let blanks := cur.rest.takeWhile isBlank
  ⟨cur.rest.drop blanks.length, cur.pos + blanks.length⟩

/-- The refusal for a character met where a value or a literal's letter was due. -/
def unexpectedChar (cur : Cursor) : ReadError :=
  match cur.peek with
  | none => .endOfInput
  | some c =>
    if c = '"' then .unexpectedString cur.pos
    else if c = '-' ∨ c.isDigit then .unexpectedNumber cur.pos
    else .unexpectedToken cur.pos

def hexValue (c : Char) : Option Nat :=
  if '0' ≤ c ∧ c ≤ '9' then some (c.toNat - '0'.toNat)
  else if 'a' ≤ c ∧ c ≤ 'f' then some (c.toNat - 'a'.toNat + 10)
  else if 'A' ≤ c ∧ c ≤ 'F' then some (c.toNat - 'A'.toNat + 10)
  else none

/-- The unit a one-letter escape stands for. -/
def escapeUnit (c : Char) : Option UInt16 :=
  match c with
  | '"' => some 34
  | '\\' => some 92
  | '/' => some 47
  | 'b' => some 8
  | 'f' => some 12
  | 'n' => some 10
  | 'r' => some 13
  | 't' => some 9
  | _ => none

/-- The value of up to four hex digits, or how many lead before one is missing. -/
def hexRun (cs : List Char) : Except Nat UInt16 :=
  let ds := (cs.take 4).map hexValue
  match ds with
  | [some a, some b, some c, some d] => .ok (a * 4096 + b * 256 + c * 16 + d).toUInt16
  | _ => .error (ds.takeWhile Option.isSome).length

/-- A string body after its opening quote, from UTF-16 position `pos`; units are collected
in reverse. -/
def stringBody : List Char → Nat → List UInt16 → Except ReadError (Text × Cursor)
  | [], pos, _ => .error (.unterminatedString pos)
  | '"' :: r, pos, acc => .ok (⟨acc.reverse⟩, ⟨r, pos + 1⟩)
  | ['\\'], _, _ => .error .endOfInput
  | '\\' :: 'u' :: a :: b :: c :: d :: r, pos, acc =>
    match hexRun [a, b, c, d] with
    | .ok u => stringBody r (pos + 6) (u :: acc)
    | .error k => .error (.badUnicodeEscape (pos + 2 + k))
  | '\\' :: 'u' :: r, pos, _ =>
    .error (.badUnicodeEscape (pos + 2 + ((r.map hexValue).takeWhile Option.isSome).length))
  | '\\' :: e :: r, pos, acc =>
    if e.toNat > 255 then .error (.unexpectedToken (pos + 1))
    else
      match escapeUnit e with
      | some u => stringBody r (pos + 2) (u :: acc)
      | none => .error (.badEscapedCharacter (pos + 1))
  | c :: r, pos, acc =>
    if c.toNat < 0x20 then .error (.badControlCharacter pos)
    else stringBody r (pos + width c) ((Text.unitsOfChar c).reverse ++ acc)

/-- Digits from the cursor on. -/
def digits (cur : Cursor) : List Char × Cursor :=
  let ds := cur.rest.takeWhile Char.isDigit
  (ds, ⟨cur.rest.drop ds.length, cur.pos + ds.length⟩)

/-- The fraction after the integer digits: nothing, or a point and at least one digit. -/
def fractionPart (c2 : Cursor) : Except ReadError (List Char × Cursor) :=
  if c2.peek = some '.' then
    let (ds, c3) := digits c2.next
    if ds.isEmpty then .error (.unterminatedFraction c2.next.pos) else .ok (ds, c3)
  else .ok ([], c2)

/-- The exponent after the fraction: nothing, or `e` or `E`, an optional sign and at least one
digit. -/
def exponentPart (c3 : Cursor) : Except ReadError (Int × Cursor) :=
  if c3.peek = some 'e' ∨ c3.peek = some 'E' then
    let c4 := c3.next
    let (neg, c5) :=
      if c4.peek = some '-' then (true, c4.next)
      else if c4.peek = some '+' then (false, c4.next) else (false, c4)
    let (ds, c6) := digits c5
    if ds.isEmpty then .error (.missingExponent c5.pos)
    else
      let v : Int := Decimal.digitsValue ds
      .ok (if neg then -v else v, c6)
  else .ok (0, c3)

/-- A number: `-`, integer part without leading zeros, optional fraction and exponent. -/
def number (cur : Cursor) : Except ReadError (Json × Cursor) :=
  let (neg, c1) := if cur.peek = some '-' then (true, cur.next) else (false, cur)
  let (whole, c2) := digits c1
  if whole.isEmpty then .error (.noNumberAfterMinus c1.pos)
  else if whole.head? = some '0' ∧ whole.length > 1 then .error (.unexpectedNumber (c1.pos + 1))
  else
    match fractionPart c2 with
    | .error e => .error e
    | .ok (fraction, c3) =>
      match exponentPart c3 with
      | .error e => .error e
      | .ok (x, c7) => .ok (.num (Decimal.toDouble ⟨whole, fraction, x⟩ neg), c7)

/-- A literal word whose first letter is under the cursor. -/
def word (w : List Char) (v : Json) (cur : Cursor) : Except ReadError (Json × Cursor) :=
  if w.isPrefixOf cur.rest then .ok (v, ⟨cur.rest.drop w.length, cur.pos + w.length⟩)
  else
    let same := ((List.zip w cur.rest).takeWhile (fun (a, b) => a = b)).length
    .error (unexpectedChar ⟨cur.rest.drop same, cur.pos + same⟩)

mutual

/-- A value after optional whitespace. `fuel` bounds the nesting and is never the limit when
it exceeds the input length. -/
def value : Nat → Cursor → Except ReadError (Json × Cursor)
  | 0, cur => .error (unexpectedChar cur)
  | fuel + 1, cur =>
    let cur := skipBlank cur
    match cur.peek with
    | some '{' => object fuel (skipBlank cur.next) []
    | some '[' =>
      let inner := skipBlank cur.next
      if inner.peek = some ']' then .ok (.arr [], inner.next) else array fuel inner []
    | some '"' => (stringBody cur.next.rest cur.next.pos []).map fun (t, r) => (.str t, r)
    | some 't' => word "true".toList (.bool true) cur
    | some 'f' => word "false".toList (.bool false) cur
    | some 'n' => word "null".toList .null cur
    | some c => if c = '-' ∨ c.isDigit then number cur else .error (unexpectedChar cur)
    | none => .error .endOfInput

/-- The items of a non-empty array, collected in reverse. -/
def array : Nat → Cursor → List Json → Except ReadError (Json × Cursor)
  | 0, cur, _ => .error (unexpectedChar cur)
  | fuel + 1, cur, acc =>
    match value fuel cur with
    | .error e => .error e
    | .ok (v, rest) =>
      let rest := skipBlank rest
      match rest.peek with
      | some ',' => array fuel rest.next (v :: acc)
      | some ']' => .ok (.arr (v :: acc).reverse, rest.next)
      | _ => .error (.expectedCommaOrBracket rest.pos)

/-- The members of an object after `{` and blanks; `first` tells which refusal a missing key
gets. -/
def object : Nat → Cursor → Fields → Except ReadError (Json × Cursor)
  | 0, cur, _ => .error (unexpectedChar cur)
  | fuel + 1, cur, acc =>
    match cur.peek, acc with
    | some '}', [] => .ok (.obj [], cur.next)
    | some '"', _ =>
      match stringBody cur.next.rest cur.next.pos [] with
      | .error e => .error e
      | .ok (key, rest) =>
        let rest := skipBlank rest
        if rest.peek = some ':' then
          match value fuel rest.next with
          | .error e => .error e
          | .ok (v, rest') =>
            let acc := Fields.set acc key.toString v
            let rest' := skipBlank rest'
            match rest'.peek with
            | some ',' =>
              let after := skipBlank rest'.next
              if after.peek = some '"' then object fuel after acc
              else .error (.expectedPropertyName after.pos)
            | some '}' => .ok (.obj acc, rest'.next)
            | _ => .error (.expectedCommaOrBrace rest'.pos)
        else .error (.expectedColon rest.pos)
    | _, [] => .error (.expectedPropertyNameOrBrace cur.pos)
    | _, _ => .error (.expectedPropertyName cur.pos)

end

end Reader

/-- Read a JSON text: one value, with only whitespace around it. -/
def readText (s : String) : Except ReadError Json :=
  let cs := s.toList
  match Reader.value (cs.length + 1) ⟨cs, 0⟩ with
  | .error e => .error e
  | .ok (v, rest) =>
    let rest := Reader.skipBlank rest
    if rest.rest.isEmpty then .ok v else .error (.trailingCharacter rest.pos)

/-- Read a JSON text, refusals worded. -/
def read (s : String) : Except String Json :=
  match readText s with
  | .ok v => .ok v
  | .error e => .error (e.message s)

end Json

end DapBridge
