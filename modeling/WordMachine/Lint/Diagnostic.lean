import WordMachine.Instruction.Mnemonic
import WordMachine.Text.Quoted
import WordMachine.Word

/-!
# Diagnostics

The problems that a line of source can have, the kinds of them, and their wording. Problems that
are errors stand on the lines that cannot be assembled.
-/

namespace WordMachine

/-! ## Kinds of problems -/

inductive ProblemKind where
  | syntaxFault | value | argument | unknownInstruction | missingLabel | duplicateLabel | warning
  deriving DecidableEq, Repr

namespace ProblemKind

/-- Whether a problem of the kind keeps its line from being assembled. -/
def isError : ProblemKind → Bool
  | duplicateLabel | warning => false
  | _ => true

def label : ProblemKind → String
  | syntaxFault => "SYNTAX"
  | value => "VALUE"
  | argument => "ARGUMENT"
  | unknownInstruction => "UNKNOWN INSTRUCTION"
  | missingLabel => "MISSING LABEL"
  | duplicateLabel => "DUPLICATE LABEL"
  | warning => "WARNING"

def name : ProblemKind → String
  | syntaxFault => "Syntax"
  | value => "Value"
  | argument => "Argument"
  | unknownInstruction => "UnknownInstruction"
  | missingLabel => "MissingLabel"
  | duplicateLabel => "DuplicateLabel"
  | warning => "Warning"

end ProblemKind

/-! ## Problems -/

def Slot.describe : Slot → String
  | register => "register"
  | memory => "memory reference"
  | immediate => "immediate value"

/-- The name of a position among the operands, counted from zero. -/
def ordinal : Nat → String
  | 0 => "first"
  | 1 => "second"
  | _ => "third"

/-- What is wrong or doubtful about a line. -/
inductive Problem where
  /-- The line has no token. -/
  | noInstruction (text : String)
  /-- A mnemonic that starts like a jump belongs to no operation. -/
  | unknownJump (mnemonic : String)
  /-- Another mnemonic belongs to no operation. -/
  | unknownMnemonic (mnemonic : String)
  | missingArgument (position : Nat) (slot : Slot) (op : Op)
  | extraArgument (token : String) (op : Op)
  /-- No comma follows the first of two operands. -/
  | missingComma (token : String) (op : Op)
  /-- A memory reference is written without parentheses. -/
  | bareMemory (position : Nat) (token : String) (op : Op)
  /-- A register is written in parentheses. -/
  | parenthesizedRegister (position : Nat) (token : String) (op : Op)
  /-- A register has a number that does not exist. -/
  | unknownRegister (token : String) (op : Op) (number : Int)
  | notRegister (position : Nat) (token : String) (op : Op)
  /-- A reference to a label has no name. -/
  | emptyLabel (op : Op)
  | labelNotFound (label : String)
  /-- The address of a label does not fit into eight bits. -/
  | labelTooFar (label : String) (address : Word)
  /-- The label referred to is declared again on a later line. -/
  | duplicateLabel (label : String) (line firstLine : Nat)
  | valueTooLarge (token : String) (op : Op)
  | notNumber (token : String) (op : Op)
  /-- A jump goes through the program counter. -/
  | jumpThroughPc
  /-- An operation other than a jump writes the program counter. -/
  | writesPc
  deriving DecidableEq, Repr

namespace Problem

def kind : Problem → ProblemKind
  | noInstruction _ | notRegister .. | emptyLabel _ => .syntaxFault
  | unknownJump _ | unknownMnemonic _ => .unknownInstruction
  | missingArgument .. | extraArgument .. => .argument
  | unknownRegister .. | labelTooFar .. | valueTooLarge .. | notNumber .. => .value
  | labelNotFound _ => .missingLabel
  | duplicateLabel .. => .duplicateLabel
  | missingComma .. | bareMemory .. | parenthesizedRegister .. | jumpThroughPc | writesPc =>
    .warning

def message : Problem → String
  | noInstruction text => s!"no instruction in {Text.quoted text}"
  | unknownJump mnemonic => s!"conditional jump \"{mnemonic}\" does not exist"
  | unknownMnemonic mnemonic => s!"unknown command \"{mnemonic}\""
  | missingArgument position slot op =>
    s!"missing {ordinal position} argument in {op.mnemonic} instruction ({slot.describe})"
  | extraArgument token op => s!"unknown argument \"{token}\" after {op.mnemonic} instruction"
  | missingComma token op => s!"missing comma after \"{token}\" in {op.mnemonic} instruction"
  | bareMemory position token op =>
    s!"{ordinal position} argument \"{token}\" in {op.mnemonic} instruction " ++
      "should be written \"(rN)\""
  | parenthesizedRegister position token op =>
    s!"{ordinal position} argument \"{token}\" in {op.mnemonic} instruction " ++
      "should be written \"rN\""
  | unknownRegister token op number =>
    s!"register number \"{token}\" in {op.mnemonic} instruction is too high (0-15), " ++
      s!"no register with number {number}"
  | notRegister position token op =>
    s!"{ordinal position} argument \"{token}\" in {op.mnemonic} instruction " ++
      "is not a register \"rN\""
  | emptyLabel op => s!"empty label reference in {op.mnemonic} instruction"
  | labelNotFound label => s!"label {label} not found in code"
  | labelTooFar label address =>
    s!"label {label} resolves to {address}, which does not fit in 8 bits"
  | duplicateLabel label line firstLine =>
    s!"duplicate label \"{label}\" at line {line}, " ++
      s!"the declaration at line {firstLine} is used"
  | valueTooLarge token op =>
    s!"value \"{token}\" in {op.mnemonic} instruction does not fit in 8 bits (0-255)"
  | notNumber token op => s!"value \"{token}\" in {op.mnemonic} instruction is not a valid number"
  | jumpThroughPc => "jumping through r15 repeats the current instruction forever"
  | writesPc => "writing r15 changes the next instruction fetched, use jp to jump"

end Problem

/-! ## Diagnostics -/

structure Diagnostic where
  line : Nat
  problem : Problem
  deriving DecidableEq, Repr

namespace Diagnostic

def kind (d : Diagnostic) : ProblemKind :=
  d.problem.kind

/-- Whether the problem keeps its line from being assembled. -/
def isError (d : Diagnostic) : Bool :=
  d.kind.isError

def text (d : Diagnostic) : String :=
  s!"{d.line}: [{d.kind.label}] {d.problem.message}"

end Diagnostic

end WordMachine
