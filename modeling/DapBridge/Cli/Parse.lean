import DapBridge.Cli.Help
import DapBridge.Cli.Suggest

/-!
# Reading a command line

Arguments are read from left to right. A known flag takes its value from the next argument
(or, for an option with several values, every following argument up to the next option);
`-xVALUE` and `--flag=VALUE` carry the value in the same argument, and `-ab` is `-a -b` for
switches. `--` ends the options. The first unknown option ends the known arguments: it and
everything after it that is no known option are kept as unknown.

A reading stops early at the version flag and at a flag whose value is missing. Values are
then applied in order; the first refused value ends the run. Afterwards a help flag among
the unknown arguments asks for help, and otherwise the first unknown option is an error.
-/

namespace DapBridge

namespace Cli

/-- Why a command line ends the run before the command does its work. -/
inductive Exit where
  | version (v : String)
  | help (text : String)
  | missingArgument (flags : String)
  | invalidChoice (flags value : String) (choices : List String)
  | unknownOption (flag : String) (hint : String)
  /-- A value the option's own reader refused. -/
  | refused (message : String)
  deriving Inhabited

namespace Exit

/-- The error code reported for an exit. -/
def code : Exit → String
  | .version _ => "commander.version"
  | .help _ => "commander.helpDisplayed"
  | .missingArgument _ => "commander.optionMissingArgument"
  | .invalidChoice .. => "commander.invalidArgument"
  | .unknownOption .. => "commander.unknownOption"
  | .refused _ => "Error"

def message : Exit → String
  | .version v => v
  | .help _ => "(outputHelp)"
  | .missingArgument f => s!"error: option '{f}' argument missing"
  | .invalidChoice f v cs =>
    let allowed := ", ".intercalate cs
    s!"error: option '{f}' argument '{v}' is invalid. Allowed choices are {allowed}."
  | .unknownOption f hint => s!"error: unknown option '{f}'" ++ hint
  | .refused m => m

/-- What is written to standard output. -/
def stdout : Exit → String
  | .version v => v ++ "\n"
  | .help text => text
  | _ => ""

/-- What is written to standard error. -/
def stderr (e : Exit) : String :=
  match e with
  | .missingArgument .. | .invalidChoice .. | .unknownOption .. => e.message ++ "\n"
  | _ => ""

end Exit

/-- How reading the arguments went. -/
structure Reading where
  /-- Options met, with their values, in order. -/
  occurrences : List (OptionSpec × Option String)
  operands : List String
  unknown : List String
  stop : Option Exit
  deriving Inhabited

/-- Whether an argument looks like an option. -/
def looksLikeOption (arg : String) : Bool := arg.length > 1 && arg.startsWith "-"

namespace CommandSpec

/-- The known option a flag names (help is not one). -/
def find? (c : CommandSpec) (flag : String) : Option OptionSpec :=
  (versionOption :: c.options).find? (·.names flag)

/-- Read arguments; `active` is an option still taking values, `unknownSeen` whether
arguments now go to the unknown ones. -/
def readArgs (c : CommandSpec) : Nat → List String → Option OptionSpec → Bool → Reading → Reading
  | 0, _, _, _, r => r
  | _ + 1, [], _, _, r => r
  | fuel + 1, arg :: args, active, unknownSeen, r =>
    let put (arg : String) (toUnknown : Bool) (r : Reading) : Reading :=
      if toUnknown then { r with unknown := r.unknown ++ [arg] } else { r with operands := r.operands ++ [arg] }
    let met (o : OptionSpec) (v : Option String) (r : Reading) : Reading :=
      { r with occurrences := r.occurrences ++ [(o, v)] }
    if arg = "--" then
      let r := if unknownSeen then put "--" true r else r
      args.foldl (fun r a => put a unknownSeen r) r
    else match active with
    | some o =>
      if !looksLikeOption arg then readArgs c fuel args active unknownSeen (met o (some arg) r)
      else readArgs c fuel (arg :: args) none unknownSeen r
    | none =>
      let known := if looksLikeOption arg then c.find? arg else none
      match known with
      | some o =>
        if o.long = versionOption.long then { r with stop := some (.version c.version) }
        else if o.takesValue then
          match args with
          | [] => { r with stop := some (.missingArgument o.flags) }
          | v :: rest => readArgs c fuel rest (if o.isSeveral then some o else none) unknownSeen (met o (some v) r)
        else readArgs c fuel args none unknownSeen (met o none r)
      | none =>
        let cs := arg.toList
        let combined := match cs with
          | '-' :: x :: _ :: _ => if x = '-' then none else c.find? (String.ofList ['-', x])
          | _ => none
        match combined with
        | some o =>
          if o.long = versionOption.long then { r with stop := some (.version c.version) }
          else if o.takesValue then readArgs c fuel args none unknownSeen (met o (some (String.ofList (cs.drop 2))) r)
          else readArgs c fuel (String.ofList ('-' :: cs.drop 2) :: args) none unknownSeen (met o none r)
        | none =>
          let withValue := match cs with
            | '-' :: '-' :: rest =>
              let name := rest.takeWhile (· != '=')
              if !name.isEmpty && name.length < rest.length then
                (c.find? (String.ofList ('-' :: '-' :: name))).bind fun o =>
                  if o.takesValue then some (o, String.ofList (rest.drop (name.length + 1))) else none
              else none
            | _ => none
          match withValue with
          | some (o, v) => readArgs c fuel args none unknownSeen (met o (some v) r)
          | none =>
            let unknownSeen := unknownSeen || looksLikeOption arg
            readArgs c fuel args none unknownSeen (put arg unknownSeen r)

/-- Read a whole command line. -/
def read (c : CommandSpec) (args : List String) : Reading :=
  let fuel := args.foldl (fun n a => n + a.length + 1) 1
  c.readArgs fuel args none false ⟨[], [], [], none⟩

/-- The option values before any argument is read: the defaults, and `true` for negated
options. -/
def initialValues (c : CommandSpec) : Json.Fields :=
  c.options.foldl (fun fs o =>
    match o.arity, o.defaultValue with
    | .negated, _ => Json.Fields.set fs o.valueKey (o.defaultValue.getD (.bool true))
    | _, some d => Json.Fields.set fs o.valueKey d
    | _, none => fs) []

/-- Apply one value of an option. -/
def applyValue (fs : Json.Fields) (o : OptionSpec) (v : Option String) : Except Exit Json.Fields :=
  let key := o.valueKey
  match o.arity, v with
  | .switch, _ => .ok (Json.Fields.set fs key (.bool true))
  | .negated, _ => .ok (Json.Fields.set fs key (.bool false))
  | _, none => .ok (Json.Fields.set fs key (.string ""))
  | arity, some v =>
    match o.choices with
    | some cs =>
      if cs.contains v then .ok (Json.Fields.set fs key (.string v))
      else .error (.invalidChoice o.flags v cs)
    | none =>
      match o.parse with
      | some p =>
        match p v with
        | .ok x => .ok (Json.Fields.set fs key x)
        | .error m => .error (.refused m)
      | none =>
        if arity matches .several _ then
          let previous := match Json.Fields.get? fs key with
            | some (.arr xs) => if (o.defaultValue.map (·.beq (.arr xs))).getD false then [] else xs
            | _ => []
          .ok (Json.Fields.set fs key (.arr (previous ++ [.string v])))
        else .ok (Json.Fields.set fs key (.string v))

/-- Parse a command line into option values and operands, or the reason the run ends. -/
def parse (c : CommandSpec) (args : List String) : Except Exit (Json.Fields × List String) := do
  let r := c.read args
  let fs ← r.occurrences.foldlM (fun fs (o, v) => applyValue fs o v) c.initialValues
  if let some stop := r.stop then throw stop
  if r.unknown.any helpOption.names then throw (.help c.helpText)
  match r.unknown.head? with
  | some flag =>
    let candidates := (c.visibleOptions.map (·.long))
    let hint := if flag.startsWith "--" then suggestion flag candidates else ""
    throw (.unknownOption flag hint)
  | none => return (fs, r.operands ++ r.unknown)

end CommandSpec

end Cli

end DapBridge
