import WordMachine.CommandLine.Outcome
import WordMachine.Image.HexRecord
import WordMachine.Image.Listing
import WordMachine.Json.Basic
import WordMachine.Lint

/-!
# The assembler tool

Assembles a source file into a hex record, checks a source file, or lists the instructions of a
record.
-/

namespace WordMachine

/-! ## Reports -/

/-- The problems of a program as lines, with a count at the end. -/
def lintLines (diagnostics : List Diagnostic) : List (List Char) :=
  let errors := (diagnostics.filter Diagnostic.isError).length
  let warnings := diagnostics.length - errors
  diagnostics.map (fun d => d.text.toList) ++
    [s!"{errors} error(s), {warnings} warning(s)".toList]

def Diagnostic.json (d : Diagnostic) : Json :=
  .object [("line", .number d.line), ("kind", .string d.kind.name),
    ("message", .string d.problem.message)]

def ListingRow.json (row : ListingRow) : Json :=
  .object [("addr", .number row.address), ("word", .number row.word.toNat),
    ("text", match row.text with
      | some text => .string text
      | none => .null)]

/-! ## The tool -/

namespace Assembler

def version : String :=
  "moncky-asm 0.1.0"

/-- The record that is written if no other is named. -/
def defaultRecord : String :=
  "moncky2out/compiledCode.hex"

inductive OutputFormat where
  | text | json
  deriving DecidableEq, Repr

def OutputFormat.ofName? : String → Option OutputFormat
  | "text" => some .text
  | "json" => some .json
  | _ => none

inductive Request where
  | build (source record : String)
  | lint (source : String) (format : OutputFormat)
  | disasm (record : String) (format : OutputFormat)
  deriving DecidableEq, Repr

/-- The options of the tool, which stand before its commands. -/
def spec : CommandSpec where
  options := [versionOption, { name := "input", letter := some 'i', kind := .value isPath }]
  subcommands := ["build", "lint", "disasm"]

def formatOption : OptionSpec where
  name := "format"
  kind := .value fun s => (OutputFormat.ofName? s).isSome

/-- The form that the arguments of a command ask for. -/
def formatOf (given : Given) : OutputFormat :=
  (given.value? "format" >>= OutputFormat.ofName?).getD .text

def Request.ofArguments (args : List String) : Except ArgumentFault Request := do
  let given ← spec.read args
  let source := (given.value? "input").getD defaultSource
  match given.subcommand with
  | some ("build", args) =>
    let options := [{ name := "output", letter := some 'o', kind := .value isPath }]
    let given ← CommandSpec.read { options } args
    return .build source ((given.value? "output").getD defaultRecord)
  | some ("lint", args) =>
    let given ← CommandSpec.read { options := [formatOption] } args
    return .lint source (formatOf given)
  | some (_, args) =>
    let given ← CommandSpec.read { options := [formatOption], positional := true } args
    match given.positional with
    | some record => return .disasm record (formatOf given)
    | none => throw .usage
  | none => throw .usage

def lintReport (diagnostics : List Diagnostic) : OutputFormat → String
  | .text => joinLines (lintLines diagnostics)
  | .json => (Json.array (diagnostics.map Diagnostic.json)).pretty ++ "\n"

def listingReport (image : Image) : OutputFormat → String
  | .text => joinLines ((listing image).map fun row => row.render.toList)
  | .json => (Json.array ((listing image).map ListingRow.json)).pretty ++ "\n"

section

variable {m : Type → Type} [Monad m] [FileAccess m]

/-- Writes the record of an image, in a directory that is made if it is not there. -/
def writeRecord (path : String) (image : Image) : ExceptT String m Unit := do
  let directory := Path.parent path
  if directory ≠ "" then
    if !(← FileAccess.makeDirectory (m := m) directory) then
      throw s!"creating output directory {directory}"
  if !(← FileAccess.write (m := m) path (String.ofList (HexRecord.render image))) then
    throw s!"writing {path}"

def readRecord (path : String) : ExceptT String m Image := do
  let text ← readOr s!"reading hex record {path}" path
  match HexRecord.parse text.toList with
  | .ok image => return image
  | .error _ => throw s!"parsing hex record {path}"

/-- Does what is asked for and returns what is to be printed. Nothing is written before all of the
program is assembled. -/
def Request.result : Request → ExceptT String m String
  | .build source record => do
    let text ← readSource source
    match (Program.ofSource text).assemble with
    | .error trap => throw trap.message
    | .ok image =>
      writeRecord record image
      let size := image.size
      return s!"Successfully wrote {size} words to {record}\n"
  | .lint source format => do
    let text ← readSource source
    return lintReport (Program.ofSource text).lint format
  | .disasm record format => do
    let image ← readRecord record
    return listingReport image format

def Request.perform (r : Request) : m Outcome := do
  let result ← r.result.run
  return .ofResult result

def run (args : List String) : m Outcome :=
  match Request.ofArguments args with
  | .ok request => request.perform
  | .error fault => return .ofFault version fault

end

end Assembler

end WordMachine
