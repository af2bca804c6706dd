import WordMachine.Instruction.Basic

/-!
# Mnemonics and operand positions

How each operation is written: its mnemonic, which is read in either letter case, and what stands
at each of its operand positions.
-/

namespace WordMachine

/-- What stands at an operand position. -/
inductive Slot where
  | register | memory | immediate
  deriving DecidableEq, Repr

namespace Op

def all : List Op :=
  [halt, li, ld, st, jp] ++ Condition.all.map jpIf ++ AluOp.all.map alu

/-- The mnemonic, in lower case. -/
def mnemonic : Op → String
  | halt => "halt"
  | li => "li"
  | ld => "ld"
  | st => "st"
  | jp => "jp"
  | jpIf .carry => "jpc"
  | jpIf .noCarry => "jpnc"
  | jpIf .zero => "jpz"
  | jpIf .notZero => "jpnz"
  | jpIf .sign => "jps"
  | jpIf .notSign => "jpns"
  | jpIf .overflow => "jpo"
  | jpIf .noOverflow => "jpno"
  | alu .nop => "nop"
  | alu .or => "or"
  | alu .and => "and"
  | alu .xor => "xor"
  | alu .add => "add"
  | alu .sub => "sub"
  | alu .shl => "shl"
  | alu .shr => "shr"
  | alu .ashr => "ashr"
  | alu .not => "not"
  | alu .neg => "neg"

def slots : Op → List Slot
  | halt => []
  | li => [.register, .immediate]
  | ld | st => [.register, .memory]
  | jp | jpIf _ => [.register]
  | alu _ => [.register, .register]

def arity (op : Op) : Nat :=
  op.slots.length

/-- The operation with a mnemonic, in any letter case. -/
def ofMnemonic? (word : List Char) : Option Op :=
  all.find? fun op => op.mnemonic.toList == word.map Char.toLower

/-- A conditional jump has the suffix of its condition in its mnemonic. -/
theorem mnemonic_jpIf (c : Condition) : (jpIf c).mnemonic = "jp" ++ c.suffix := by
  cases c <;> rfl

theorem mem_all (op : Op) : op ∈ all := by
  rcases op with _ | _ | _ | _ | _ | c | a
  case jpIf => cases c <;> decide
  case alu => cases a <;> decide
  all_goals decide

theorem ofMnemonic?_mnemonic (op : Op) : ofMnemonic? op.mnemonic.toList = some op := by
  rcases op with _ | _ | _ | _ | _ | c | a
  case jpIf => cases c <;> decide
  case alu => cases a <;> decide
  all_goals decide

end Op

end WordMachine
