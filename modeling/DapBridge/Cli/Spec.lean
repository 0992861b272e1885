import DapBridge.Json.Write

/-!
# Command-line options

An option has a long flag, maybe a short one, and takes its value in one of four ways: none
(a switch), none but it turns something off (`--no-…`), exactly one value, or every value up
to the next option. Options with a value name it in angle brackets in their help. A value
may be restricted to choices, or read by a parser of its own that may refuse it.

Option values are kept in a JSON object under the option's attribute name: the long flag
without its dashes (and without `no-` for a negated option), in camel case.
-/

namespace DapBridge

namespace Cli

/-- How an option takes values. -/
inductive Arity where
  | switch
  | negated
  | single (valueName : String)
  | several (valueName : String)
  deriving DecidableEq, Repr, Inhabited

/-- One option of a command line. -/
structure OptionSpec where
  short : Option String
  long : String
  arity : Arity
  description : String
  choices : Option (List String)
  defaultValue : Option Json
  /-- A reader of the option's value; its refusals are plain errors. -/
  parse : Option (String → Except String Json)
  deriving Inhabited

namespace OptionSpec

/-- The flags as help shows them, e.g. `-p, --port <port>`. -/
def flags (o : OptionSpec) : String :=
  let names := match o.short with
    | some s => s ++ ", " ++ o.long
    | none => o.long
  match o.arity with
  | .single v => names ++ " <" ++ v ++ ">"
  | .several v => names ++ " <" ++ v ++ "...>"
  | _ => names

def takesValue (o : OptionSpec) : Bool :=
  match o.arity with
  | .single _ | .several _ => true
  | _ => false

def isSeveral (o : OptionSpec) : Bool :=
  match o.arity with
  | .several _ => true
  | _ => false

/-- Whether a flag names this option. -/
def names (o : OptionSpec) (flag : String) : Bool := o.long == flag || o.short == some flag

/-- `ipc-transport` becomes `ipcTransport`. -/
def camelCase : List Char → List Char
  | '-' :: c :: rest => c.toUpper :: camelCase rest
  | c :: rest => c :: camelCase rest
  | [] => []

/-- The name the option's value is kept under. -/
def valueKey (o : OptionSpec) : String :=
  let bare := o.long.toList.drop 2
  let bare := if o.arity = .negated then bare.drop 3 else bare
  String.ofList (camelCase bare)

/-- The default help shows: for options with a value, and for switches with a boolean one. -/
def shownDefault (o : OptionSpec) : Option Json :=
  match o.arity, o.defaultValue with
  | .single _, some d | .several _, some d => some d
  | .switch, some (.bool b) => some (.bool b)
  | _, _ => none

/-- The description with its choices and default, as help shows it. -/
def helpText (o : OptionSpec) : String :=
  let extra := (o.choices.map fun cs => "choices: " ++ ", ".intercalate (cs.map fun c => "\"" ++ c ++ "\"")).toList
    ++ (o.shownDefault.map fun d => "default: " ++ Json.write d).toList
  if extra.isEmpty then o.description else o.description ++ " (" ++ ", ".intercalate extra ++ ")"

end OptionSpec

end Cli

end DapBridge
