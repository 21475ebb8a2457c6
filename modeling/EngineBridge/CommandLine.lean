import EngineBridge.Number.FloatText

/-! The command line: options, each of which takes one value, and two flags that ask for something
else than a run. Arguments are read in order, and the first that is decisive settles the outcome. -/
namespace EngineBridge

structure Options where
  config : Option String := none
  logLevel : Option String := none
  scaleFactor : Option Float := none
  framesDir : Option String := none
  deriving Repr

namespace CommandLine

inductive Stop where
  | help
  | version
  | unknownArgument (argument : String)
  | missingValue (name : String)
  | repeated (name : String)
  | notANumber (name value : String)
  | flagWithValue (name : String)
  deriving DecidableEq, Repr

inductive OptionName where
  | config
  | logLevel
  | scaleFactor
  | framesDir
  deriving DecidableEq, Repr

def OptionName.text : OptionName → String
  | .config => "config"
  | .logLevel => "log-level"
  | .scaleFactor => "scale-factor"
  | .framesDir => "frames-dir"

def OptionName.all : List OptionName := [.config, .logLevel, .scaleFactor, .framesDir]

def OptionName.ofText? (text : String) : Option OptionName := all.find? (·.text = text)

def Stop.message : Stop → String
  | .help => "help"
  | .version => "version"
  | .unknownArgument argument => s!"unexpected argument '{argument}'"
  | .missingValue name => s!"--{name} needs a value"
  | .repeated name => s!"--{name} cannot be used more than once"
  | .notANumber name value => s!"--{name}: '{value}' is not a number"
  | .flagWithValue name => s!"--{name} takes no value"

def isSet (o : Options) : OptionName → Bool
  | .config => o.config.isSome
  | .logLevel => o.logLevel.isSome
  | .scaleFactor => o.scaleFactor.isSome
  | .framesDir => o.framesDir.isSome

def path (name : OptionName) (value : String) : Except Stop (Option String) :=
  if value = "" then .error (.missingValue name.text) else .ok (some value)

def set (o : Options) (name : OptionName) (value : String) : Except Stop Options :=
  if isSet o name then .error (.repeated name.text)
  else
    match name with
    | .config => do return { o with config := ← path name value }
    | .logLevel => .ok { o with logLevel := some value }
    | .scaleFactor =>
      match float? value.toList with
      | some x => .ok { o with scaleFactor := some x }
      | none => .error (.notANumber name.text value)
    | .framesDir => do return { o with framesDir := ← path name value }

structure Reading where
  options : Options := {}
  /-- an option that stood alone, with the argument after it that may be its value -/
  waiting : Option (OptionName × Option String) := none
  closed : Bool := false

def Reading.settle (r : Reading) : Except Stop Reading :=
  match r.waiting with
  | none => .ok r
  | some (name, none) => .error (.missingValue name.text)
  | some (name, some value) => do
    return { r with options := ← set r.options name value, waiting := none }

/-- A flag. What was asked for before it must be in order. -/
def Reading.flag (r : Reading) (stop : Stop) : Except Stop Reading := do
  let _ ← r.settle
  throw stop

def Reading.long (r : Reading) (name : String) (value : Option String) : Except Stop Reading :=
  if name = "help" || name = "version" then
    match value with
    | some _ => .error (.flagWithValue name)
    | none => r.flag (if name = "help" then .help else .version)
  else
    match OptionName.ofText? name with
    | none => .error (.unknownArgument s!"--{name}")
    | some name => do
      let r ← r.settle
      match value with
      | some value => return { r with options := ← set r.options name value }
      | none => return { r with waiting := some (name, none) }

def Reading.plain (r : Reading) (argument : String) : Except Stop Reading :=
  match r.waiting with
  | some (name, none) => .ok { r with waiting := some (name, some argument) }
  | _ => .error (.unknownArgument argument)

def Reading.step (r : Reading) (argument : String) : Except Stop Reading :=
  if r.closed then .error (.unknownArgument argument)
  else
    match argument.toList with
    | ['-', '-'] => .ok { r with closed := true }
    | '-' :: '-' :: rest =>
      let name := String.ofList (rest.takeWhile (· ≠ '='))
      match rest.dropWhile (· ≠ '=') with
      | [] => r.long name none
      | _ :: value => r.long name (some (.ofList value))
    | ['-'] => r.plain argument
    | '-' :: 'h' :: _ => r.flag .help
    | '-' :: 'V' :: _ => r.flag .version
    | '-' :: _ => .error (.unknownArgument argument)
    | _ => r.plain argument

def parse (arguments : List String) : Except Stop Options := do
  let r ← arguments.foldlM Reading.step {}
  return (← r.settle).options

end CommandLine

end EngineBridge
