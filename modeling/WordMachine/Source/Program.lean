import WordMachine.Instruction.Encoding
import WordMachine.Source.Labels
import WordMachine.Source.Instruction
import WordMachine.Text.Lines

/-!
# Programs

A source text as its numbered lines, its executable lines and its labels. The address of an
instruction is its position among the executable lines.
-/

namespace WordMachine

/-- A source text, taken apart. -/
structure Program where
  /-- Every line, trimmed. -/
  lines : List Line
  /-- The lines that hold an instruction. -/
  executable : Array Line
  /-- The labels that the lines declare. -/
  labels : Labels

namespace Program

/-- The trimmed lines of a text, numbered from one. -/
def numberedLines (source : List Char) : List Line :=
  (Text.lines source).zipIdx 1 |>.map fun (text, number) => ⟨number, Text.trim text⟩

def ofLines (lines : List Line) : Program where
  lines := lines
  executable := (lines.filter fun line => line.kind == .instruction).toArray
  labels := Labels.ofLines lines

def ofSource (source : String) : Program :=
  ofLines (numberedLines source.toList)

def size (p : Program) : Nat :=
  p.executable.size

def fetch? (p : Program) (pc : Word) : Option Line :=
  p.executable[pc.toNat]?

/-! ## Resolving labels -/

/-- Replaces a reference to a label by its address, which has to fit into eight bits. -/
def resolveOperand (p : Program) : Operand → Except LineError Operand
  | .label name => do
    let address ← p.labels.resolve name
    if address.toNat ≤ 255 then .ok (.imm address.toUInt8)
    else .error (.outOfRange .labelAddress address.toNat 255)
  | operand => .ok operand

def resolve (p : Program) (i : Instruction) : Except LineError Instruction := do
  let operands ← i.operands.mapM p.resolveOperand
  return { i with operands }

def assembleLine (p : Program) (line : Line) :
    Except LineError (Instruction × Word) := do
  let parsed ← Instruction.read line.text line.number
  let resolved ← p.resolve parsed
  let word ← resolved.encode
  return (resolved, word)

end Program

end WordMachine
