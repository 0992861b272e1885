import DapBridge.Cli.Spec
import DapBridge.Text.Blank

/-!
# Help text

Help lists a command's usage, its description and its options, one option per item: the
flags, padded to a common width, then the description. Text is wrapped to the help width:
a line takes as many characters as fit before a break (a blank or a zero-width space),
continuation lines are indented under the description, and trailing blanks are dropped.
-/

namespace DapBridge

namespace Cli

/-- Help is wrapped to this many columns. -/
def helpWidth : Nat := 80

/-- Characters a wrapped line may end after. -/
def isBreak (c : Char) : Bool := Blank.isBlank c || c = '\u200B'

/-- Characters that end a line of text. -/
def isLineEnd (c : Char) : Bool := c = '\n' || c = '\r' || c = '\u2028' || c = '\u2029'

/-- The next piece of text from the front of `cs`, and the rest: a line break on its own,
else the longest run of up to `room` characters within the line that a break (taken along)
or the end follows, else a word and the break after it. `none` when no piece starts here. -/
def nextPiece (room : Nat) (cs : List Char) : Option (List Char × List Char) :=
  match cs with
  | [] => none
  | '\n' :: rest => some (['\n'], rest)
  | _ =>
    let line := (cs.takeWhile (!isLineEnd ·)).take room
    let fits (k : Nat) : Bool :=
      match cs.drop k with
      | [] => true
      | c :: _ => isBreak c
    match ((List.range line.length).reverse.map (· + 1)).find? fits with
    | some k => some (cs.take (k + 1), cs.drop (k + 1))
    | none =>
      let word := cs.takeWhile (!isBreak ·)
      if word.isEmpty then none
      else some (cs.take (word.length + 1), cs.drop (word.length + 1))

/-- The pieces of a text, skipping characters where no piece starts. -/
def pieces (room : Nat) : Nat → List Char → List (List Char)
  | 0, _ => []
  | _ + 1, [] => []
  | fuel + 1, c :: cs =>
    match nextPiece room (c :: cs) with
    | some (p, rest) => p :: pieces room fuel rest
    | none => pieces room fuel cs

/-- Whether a text already holds its own indented lines. -/
def isIndentedByHand : List Char → Bool
  | '\n' :: c :: rest => (c != '\n' && c != '\r' && Blank.isBlank c) || isIndentedByHand (c :: rest)
  | _ :: rest => isIndentedByHand rest
  | [] => false

/-- Replace the first `CR LF` by `LF`. -/
def firstCrLf : List Char → List Char
  | '\r' :: '\n' :: rest => '\n' :: rest
  | c :: rest => c :: firstCrLf rest
  | [] => []

/-- Wrap a text to `width` columns; its first `indent` characters stay as they are and
continuation lines are indented as far. Narrow columns (under 40) are not wrapped. -/
def wrap (text : String) (width indent : Nat) : String :=
  let cs := text.toList
  if isIndentedByHand cs || width < indent + 40 then text
  else
    let body := firstCrLf (cs.drop indent)
    let ps := pieces (width - indent - 1) (body.length + 1) body
    let pad := List.replicate indent ' '
    let lines := ps.zipIdx.map fun (p, i) =>
      if p = ['\n'] then []
      else (if i > 0 then pad else []) ++ (p.reverse.dropWhile Blank.isBlank).reverse
    String.ofList (cs.take indent) ++ "\n".intercalate (lines.map String.ofList)

/-- A command as its help describes it. -/
structure CommandSpec where
  name : String
  description : String
  version : String
  options : List OptionSpec
  deriving Inhabited

def versionOption : OptionSpec := ⟨some "-V", "--version", .switch, "output the version number", none, none, none⟩

def helpOption : OptionSpec := ⟨some "-h", "--help", .switch, "display help for command", none, none, none⟩

namespace CommandSpec

/-- The options help lists: version, the command's own, help. -/
def visibleOptions (c : CommandSpec) : List OptionSpec := versionOption :: c.options ++ [helpOption]

/-- The whole help text. -/
def helpText (c : CommandSpec) : String :=
  let opts := c.visibleOptions
  let termWidth := (opts.map (·.flags.length)).foldl max 0
  let item (o : OptionSpec) : String :=
    let term := o.flags
    let padded := term ++ String.ofList (List.replicate (termWidth + 2 - term.length) ' ')
    wrap (padded ++ o.helpText) (helpWidth - 2) (termWidth + 2)
  let listed := "\n".intercalate (opts.map item)
  let indented := "  " ++ String.ofList (listed.toList.flatMap fun ch => if ch = '\n' then ['\n', ' ', ' '] else [ch])
  "\n".intercalate [s!"Usage: {c.name} [options]", "", wrap c.description helpWidth 0, "", "Options:", indented, ""]

end CommandSpec

end Cli

end DapBridge
