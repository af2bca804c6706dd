import WordMachine.Word

/-!
# Instructions

Operations, operands and instructions of the machine. An instruction may be ill-formed: its
operand list can have any length and kinds, and an operand can name a register that does not
exist. Encoding and execution say which instructions they accept.
-/

namespace WordMachine

/-- A condition on the flags, as tested by a conditional jump. -/
inductive Condition where
  | carry | noCarry | zero | notZero | sign | notSign | overflow | noOverflow
  deriving DecidableEq, Repr

namespace Condition

/-- The conditions in the order of their codes. -/
def all : List Condition :=
  [carry, noCarry, zero, notZero, sign, notSign, overflow, noOverflow]

def code : Condition → Nat
  | carry => 0
  | noCarry => 1
  | zero => 2
  | notZero => 3
  | sign => 4
  | notSign => 5
  | overflow => 6
  | noOverflow => 7

def ofCode? (n : Nat) : Option Condition :=
  all[n]?

/-- The letters that follow `jp` in the mnemonic of a conditional jump. -/
def suffix : Condition → String
  | carry => "c"
  | noCarry => "nc"
  | zero => "z"
  | notZero => "nz"
  | sign => "s"
  | notSign => "ns"
  | overflow => "o"
  | noOverflow => "no"

theorem ofCode?_code (c : Condition) : ofCode? c.code = some c := by
  cases c <;> rfl

theorem code_lt (c : Condition) : c.code < 8 := by
  cases c <;> decide

end Condition

/-- The operations on two registers. -/
inductive AluOp where
  | nop | or | and | xor | add | sub | shl | shr | ashr | not | neg
  deriving DecidableEq, Repr

namespace AluOp

/-- The operations in the order of their indexes. -/
def all : List AluOp :=
  [nop, or, and, xor, add, sub, shl, shr, ashr, not, neg]

/-- The position of an operation among the encodings of its kind. -/
def index : AluOp → Nat
  | nop => 0
  | or => 1
  | and => 2
  | xor => 3
  | add => 4
  | sub => 5
  | shl => 6
  | shr => 7
  | ashr => 8
  | not => 9
  | neg => 10

def ofIndex? (n : Nat) : Option AluOp :=
  all[n]?

theorem ofIndex?_index (a : AluOp) : ofIndex? a.index = some a := by
  cases a <;> rfl

theorem index_lt (a : AluOp) : a.index < 11 := by
  cases a <;> decide

end AluOp

inductive Op where
  | halt
  /-- Load an immediate value. -/
  | li
  /-- Load from memory. -/
  | ld
  /-- Store to memory. -/
  | st
  /-- Jump. -/
  | jp
  /-- Jump if a condition holds. -/
  | jpIf (c : Condition)
  | alu (a : AluOp)
  deriving DecidableEq, Repr

inductive Operand where
  /-- A register, `r1`. -/
  | reg (n : UInt8)
  /-- The memory word that a register addresses, `(r1)`. -/
  | mem (n : UInt8)
  /-- An eight-bit literal. -/
  | imm (v : UInt8)
  /-- A reference to a label, with its colon. -/
  | label (name : String)
  deriving DecidableEq, Repr

namespace Operand

def isLabel : Operand → Bool
  | label _ => true
  | _ => false

end Operand

/-- An instruction and the number of the source line it stands on. -/
structure Instruction where
  op : Op
  operands : List Operand
  line : Nat := 0
  deriving DecidableEq, Repr

namespace Instruction

/-- Equality of instructions, wherever they stand. -/
def same (a b : Instruction) : Bool :=
  a.op == b.op && a.operands == b.operands

def isResolved (i : Instruction) : Bool :=
  !i.operands.any Operand.isLabel

end Instruction

end WordMachine
