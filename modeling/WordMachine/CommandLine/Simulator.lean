import WordMachine.CommandLine.Outcome
import WordMachine.Json.Basic
import WordMachine.Machine.Run
import WordMachine.Settings.Json

/-!
# The simulator tool

Runs a source file and shows the state that it ends in: the registers and the words of memory as
signed numbers, and the flags. A run that traps shows nothing but the trap.
-/

namespace WordMachine

/-! ## Reports -/

def registerLine (w : Word) (number : Nat) : List Char :=
  "register ".toList ++ Text.decimal number ++ ": ".toList ++ Text.integer (Word.signed w)

def memoryLine (address w : Word) : List Char :=
  "memory at #".toList ++ Text.decimal address.toNat ++ ": ".toList ++
    Text.integer (Word.signed w)

namespace Machine

/-- The state of a machine as lines: sixteen registers, the flags and the words that are not
zero. -/
def reportLines (m : Machine) : List (List Char) :=
  m.cpu.regs.toList.zipIdx.map (fun (w, number) => registerLine w number) ++
  ("flags: " ++ m.cpu.flags.describe).toList ::
  m.memory.nonzero.map fun (address, w) => memoryLine address w

/-- The state of a machine after some steps as JSON. -/
def reportJson (m : Machine) (steps : Nat) : Json :=
  let number (w : Word) := Json.number w.toNat
  .object [
    ("cpu", .object [
      ("regs", .array (m.cpu.regs.toList.map number)),
      ("flags", .string m.cpu.flags.names),
      ("state", .string (if m.cpu.halted then "Halted" else "Running"))]),
    ("steps", .number steps),
    ("memory", .array (m.memory.nonzero.map fun (address, w) =>
      .array [number address, number w]))]

end Machine

/-! ## The tool -/

namespace Simulator

def version : String :=
  "moncky-rs 0.1.0"

/-- The number of steps after which a run is given up if nothing else is said. -/
def defaultMaxSteps : UInt64 :=
  10000000

structure Request where
  maxSteps : Option UInt64 := none
  config : Option String := none
  json : Bool := false
  source : String := defaultSource
  deriving DecidableEq, Repr

def spec : CommandSpec where
  options := [
    versionOption,
    { name := "max-steps", kind := .value fun s => (readUInt64? s).isSome },
    { name := "config", kind := .value isPath },
    { name := "json", kind := .flag }]
  positional := true

def Request.ofArguments (args : List String) : Except ArgumentFault Request := do
  let given ← spec.read args
  return {
    maxSteps := given.value? "max-steps" >>= readUInt64?
    config := given.value? "config"
    json := (given.value? "json").isSome
    source := given.positional.getD defaultSource }

/-- The settings of the run: a limit that is asked for comes before that of the settings file. -/
def Request.complete (r : Request) (settings : Settings) : Settings where
  maxSteps := some ((r.maxSteps <|> settings.maxSteps).getD defaultMaxSteps)

/-- Runs a source text, and shows the state in which it ends. -/
def Request.simulate (r : Request) (settings : Settings) (source : String) :
    Except String String :=
  match (Machine.new Word.count).run (Program.ofSource source) (r.complete settings) with
  | (.ok trace, machine) =>
    if r.json then .ok ((machine.reportJson trace.steps).pretty ++ "\n")
    else .ok (joinLines machine.reportLines)
  | (.error trap, _) => .error trap.message

section

variable {m : Type → Type} [Monad m] [FileAccess m]

def Request.readSettings (r : Request) : ExceptT String m Settings := do
  match r.config with
  | none => return {}
  | some path =>
    let text ← readOr s!"reading config {path}" path
    match Settings.ofJson? text.toList with
    | some settings => return settings
    | none => throw s!"parsing config {path}"

/-- Does what is asked for. The settings are read before the source. -/
def Request.perform (r : Request) : m Outcome := do
  let result ← ExceptT.run (m := m) do
    let settings ← r.readSettings
    let source ← readSource r.source
    r.simulate settings source
  return .ofResult result

def run (args : List String) : m Outcome :=
  match Request.ofArguments args with
  | .ok request => request.perform
  | .error fault => return .ofFault version fault

end

end Simulator

end WordMachine
