import DapBridge.Path

/-!
# Interpreter command lines

A child process is worth debugging when it runs the Python interpreter on something: a
program file, a module (`-m`) or a piece of code (`-c`). `isInterpreter` recognises the
interpreter by the last component of the command's path, and `Invocation.ofArgv?` finds what
it runs: the first argument that is no option, or the value after `-m`, `-c` or `--`, with the
arguments after it. Options before it are skipped; a lone `-` (a program read from standard
input) or a missing value means there is nothing to debug.
-/

namespace DapBridge

/-- Names of the interpreter's executable, in lower case. -/
def interpreterNames : List String := ["python", "python3", "python.exe", "python3.exe"]

/-- Whether a command line runs the interpreter: its command's last path component, with
either slash as separator and letters in lower case, is an interpreter name or starts with
`python3.`. Lowering ASCII letters suffices: no other letter lowers to a letter of these
names. -/
def isInterpreter (argv : List String) : Bool :=
  match argv with
  | [] => false
  | cmd :: _ =>
    let name := (Path.baseName (cmd.map fun c => if c = '\\' then '/' else c)).map Char.toLower
    interpreterNames.contains name || name.startsWith "python3."

/-- What an interpreter runs. -/
inductive RunMode where
  | program
  | module
  | code
  deriving DecidableEq, Repr, Inhabited

def RunMode.name : RunMode → String
  | .program => "program"
  | .module => "module"
  | .code => "code"

/-- An interpreter run: what it runs, and the arguments that follow. -/
structure Invocation where
  mode : RunMode
  value : String
  trailing : List String
  deriving Inhabited

namespace Invocation

/-- The mode an option that takes the entry as its value selects. -/
def modeOfOption? : String → Option RunMode
  | "--" => some .program
  | "-m" => some .module
  | "-c" => some .code
  | _ => none

/-- The run described by the arguments after the command. -/
def ofArgs? : List String → Option Invocation
  | [] => none
  | cur :: rest =>
    match modeOfOption? cur with
    | some mode =>
      match rest with
      | [] => none
      | value :: trailing => some ⟨mode, value, trailing⟩
    | none =>
      if cur = "-" then none
      else if cur.startsWith "-" then ofArgs? rest
      else some ⟨.program, cur, rest⟩

/-- The run described by a whole command line. -/
def ofArgv? (argv : List String) : Option Invocation := ofArgs? argv.tail

def toJson (i : Invocation) : Json :=
  Json.object [("mode", .string i.mode.name), ("value", .string i.value), ("trailing", Json.strings i.trailing)]

example : (ofArgv? ["python", "-u", "s.py", "a"]).map (·.value) = some "s.py" := by decide +kernel
example : (ofArgv? ["python", "-c"]).isNone := by decide +kernel

end Invocation

end DapBridge
