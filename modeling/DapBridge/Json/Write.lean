import DapBridge.Json.Value
import DapBridge.Number.Shortest

/-!
# Writing JSON text

`Json.write` gives the compact text: no whitespace, fields in property order, numbers in
their shortest form (`Double.render`) and non-finite numbers as `null`. In strings only the
quote, the backslash, control characters and unpaired surrogates are escaped; control
characters other than `\b \f \n \r \t` and the surrogates as lower-case `\u` escapes.

`Json.writeIndented n` lays arrays and objects out one item per line, indented by `n` spaces
per level, with `": "` after keys; empty ones stay `[]` and `{}`.
-/

namespace DapBridge

namespace Json

/-- Four lower-case hex digits. -/
def hex4 (n : Nat) : String :=
  let d (k : Nat) : Char := "0123456789abcdef".toList.getD (n / Nat.pow 16 k % 16) '0'
  String.ofList [d 3, d 2, d 1, d 0]

/-- The escaped text of one character. -/
def escapeChar (c : Char) : String :=
  match c with
  | '"' => "\\\""
  | '\\' => "\\\\"
  | '\n' => "\\n"
  | '\r' => "\\r"
  | '\t' => "\\t"
  | '\x08' => "\\b"
  | '\x0c' => "\\f"
  | c => if c.toNat < 0x20 then "\\u" ++ hex4 c.toNat else String.singleton c

/-- Quoted text of code units: a pair stays as it is, a lone surrogate is an escape. -/
def quoteUnits : List UInt16 → List String
  | [] => []
  | [u] =>
    [if Text.isHigh u || Text.isLow u then "\\u" ++ hex4 u.toNat else escapeChar (Char.ofNat u.toNat)]
  | u :: v :: rest =>
    if Text.isHigh u && Text.isLow v then
      String.ofList [Text.charOfUnit u, Text.charOfUnit v] :: quoteUnits rest
    else
      (if Text.isHigh u || Text.isLow u then "\\u" ++ hex4 u.toNat
       else escapeChar (Char.ofNat u.toNat)) :: quoteUnits (v :: rest)

/-- A string literal. -/
def quote (t : Text) : String := "\"" ++ String.join (quoteUnits t.units) ++ "\""

/-- A string literal of a `String`, read as the text it carries. -/
def quoteString (s : String) : String := quote (Text.ofString s)

/-- A number's text; infinities and NaN are written `null`. -/
def numberText (x : Double) : String := if x.isFinite then x.render else "null"

/-- The text of a value where text is wanted: strings as they are, numbers in their shortest
form, arrays as their items' texts joined by commas, objects as `[object Object]`. -/
def displayText : Json → String
  | .null => "null"
  | .bool b => if b then "true" else "false"
  | .num x => x.render
  | .str t => t.toString
  | .arr xs => ",".intercalate (items xs)
  | .obj _ => "[object Object]"
where
  items : List Json → List String
    | [] => []
    | .null :: rest => "" :: items rest
    | x :: rest => displayText x :: items rest

/-- Compact text. -/
def write : Json → String
  | .null => "null"
  | .bool b => if b then "true" else "false"
  | .num x => numberText x
  | .str t => quote t
  | .arr xs => "[" ++ ",".intercalate (writeList xs) ++ "]"
  | .obj fs => "\x7b" ++ ",".intercalate (writeFields fs) ++ "\x7d"
where
  writeList : List Json → List String
    | [] => []
    | x :: xs => write x :: writeList xs
  writeFields : List (String × Json) → List String
    | [] => []
    | (k, v) :: rest => (quoteString k ++ ":" ++ write v) :: writeFields rest

/-- Text with one item per line, `step` spaces deeper per level; `pad` is the current
indentation. -/
def writeIndented (step : Nat) (pad : String) : Json → String
  | .arr [] => "[]"
  | .obj [] => "\x7b\x7d"
  | .arr xs =>
    let inner := pad ++ String.ofList (List.replicate step ' ')
    "[\n" ++ (",\n").intercalate ((itemsList step inner xs).map (inner ++ ·)) ++ "\n" ++ pad ++ "]"
  | .obj fs =>
    let inner := pad ++ String.ofList (List.replicate step ' ')
    "\x7b\n" ++ (",\n").intercalate ((itemsFields step inner fs).map (inner ++ ·)) ++ "\n" ++ pad ++ "\x7d"
  | j => write j
where
  itemsList (step : Nat) (inner : String) : List Json → List String
    | [] => []
    | x :: xs => writeIndented step inner x :: itemsList step inner xs
  itemsFields (step : Nat) (inner : String) : List (String × Json) → List String
    | [] => []
    | (k, v) :: rest => (quoteString k ++ ": " ++ writeIndented step inner v) :: itemsFields step inner rest

example : write (.arr [.num 1, .str "a", .null]) = "[1,\"a\",null]" := by decide

end Json

end DapBridge
