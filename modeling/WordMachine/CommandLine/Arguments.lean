import WordMachine.Text.Numeral

/-!
# Command-line arguments

Reading of arguments by a description of the options that a command has. An option has a long name
and perhaps a letter, and its value follows it in the same argument or in the next. A bare `--`
ends the options. No option may be given twice, and faults are found from the left.
-/

namespace WordMachine

/-! ## Arguments -/

inductive Argument where
  | separator
  | long (name : String) (value : Option String)
  | short (letter : Char) (value : Option String)
  | plain
  deriving DecidableEq, Repr

/-- The kind of an argument. A value stands behind an equals sign, which a letter can do
without. -/
def Argument.ofString (arg : String) : Argument :=
  match arg.toList with
  | ['-', '-'] => .separator
  | '-' :: '-' :: rest =>
    let value := match rest.dropWhile (· != '=') with
      | [] => none
      | _ :: value => some (String.ofList value)
    .long (String.ofList (rest.takeWhile (· != '='))) value
  | '-' :: letter :: rest =>
    let value := match rest with
      | [] => none
      | '=' :: value => some (String.ofList value)
      | value => some (String.ofList value)
    .short letter value
  | _ => .plain

/-! ## Descriptions of commands -/

inductive OptionKind where
  | flag
  /-- It takes a value that passes a test. -/
  | value (accepts : String → Bool)
  /-- It asks for the version and ends the reading of arguments. -/
  | version

structure OptionSpec where
  name : String
  letter : Option Char := none
  kind : OptionKind

structure CommandSpec where
  options : List OptionSpec
  /-- Whether there can be one argument that belongs to no option. -/
  positional : Bool := false
  /-- The commands that can follow its options. -/
  subcommands : List String := []

structure Given where
  /-- The options with their values, which are empty for flags. -/
  options : List (String × String) := []
  positional : Option String := none
  /-- The subcommand and the arguments behind it. -/
  subcommand : Option (String × List String) := none

/-- Why arguments are not carried out. -/
inductive ArgumentFault where
  /-- They are not as described. -/
  | usage
  /-- They ask for the version. -/
  | version
  deriving DecidableEq, Repr

/-- Whether a text can be the path of a file. -/
def isPath (s : String) : Bool :=
  s != ""

namespace Given

def value? (g : Given) (name : String) : Option String :=
  g.options.lookup name

def addOption (g : Given) (name value : String) : Except ArgumentFault Given :=
  if (g.value? name).isSome then .error .usage
  else .ok { g with options := (name, value) :: g.options }

/-- Adds the argument that belongs to no option, if the command can have one. -/
def addPositional (g : Given) (spec : CommandSpec) (arg : String) : Except ArgumentFault Given :=
  if spec.positional && g.positional.isNone && isPath arg then
    .ok { g with positional := some arg }
  else .error .usage

end Given

namespace CommandSpec

/-- The option that an argument names, and the value in the same argument. What follows the letter
that asks for the version is not looked at. -/
def option? (spec : CommandSpec) : Argument → Option (OptionSpec × Option String)
  | .long name value => (spec.options.find? (·.name == name)).map (·, value)
  | .short letter value =>
    (spec.options.find? (·.letter == some letter)).map fun option =>
      match option.kind with
      | .version => (option, none)
      | _ => (option, value)
  | .separator | .plain => none

def readFrom (spec : CommandSpec) (given : Given) : List String → Except ArgumentFault Given
  | [] => .ok given
  | arg :: rest =>
    if spec.subcommands.contains arg then .ok { given with subcommand := some (arg, rest) }
    else
      match Argument.ofString arg with
      | .separator => rest.foldlM (fun given arg => given.addPositional spec arg) given
      | .plain => do spec.readFrom (← given.addPositional spec arg) rest
      | argument =>
        match spec.option? argument with
        | none => .error .usage
        | some (option, attached) =>
          match option.kind, attached with
          | .version, none => .error .version
          | .flag, none => do spec.readFrom (← given.addOption option.name "") rest
          | .version, some _ | .flag, some _ => .error .usage
          | .value accepts, some value =>
            if accepts value then do spec.readFrom (← given.addOption option.name value) rest
            else .error .usage
          | .value accepts, none =>
            match rest with
            | value :: rest =>
              if Argument.ofString value = .plain && accepts value then do
                spec.readFrom (← given.addOption option.name value) rest
              else .error .usage
            | [] => .error .usage

def read (spec : CommandSpec) (args : List String) : Except ArgumentFault Given :=
  spec.readFrom {} args

end CommandSpec

def versionOption : OptionSpec where
  name := "version"
  letter := some 'V'
  kind := .version

def readUInt64? (s : String) : Option UInt64 :=
  (Text.unsigned? 10 (UInt64.size - 1) s.toList).map UInt64.ofNat

end WordMachine
