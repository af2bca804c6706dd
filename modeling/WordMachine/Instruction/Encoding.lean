import WordMachine.Instruction.Basic
import WordMachine.Instruction.LineError

/-!
# The encoding of instructions

The word of an instruction and the instruction of a word. From the most significant bit a word
holds a tag and then its operands:

* `halt` is the word zero;
* `li` has the tag `0001`, eight bits of value and four bits of register;
* `ld`, `st` and the operations on two registers have a tag of eight bits and two registers;
* `jp` has a tag of twelve bits, a conditional jump one of nine bits and three bits of condition,
  and both end in one register.
-/

namespace WordMachine

namespace Instruction

/-! ## Fields -/

def registerOf : Option Operand → Except LineError UInt8
  | some (.reg n) | some (.mem n) => .ok n
  | some (.imm v) => .error (.malformed .register (String.ofList (Text.decimal v.toNat)))
  | some (.label name) => .error (.malformed .register name)
  | none => .error (.malformed .register "")

def immediateOf : Option Operand → Except LineError UInt8
  | some (.imm v) => .ok v
  | some (.label name) => .error (.labelNotFound name)
  | some (.reg n) | some (.mem n) =>
    .error (.malformed .immediate (String.ofList ('r' :: Text.decimal n.toNat)))
  | none => .error (.malformed .immediate "")

/-- A register as a field of four bits. -/
def registerField (n : UInt8) : Except LineError Nat :=
  if n.toNat ≤ 15 then .ok n.toNat else .error (.outOfRange .field n.toNat 15)

/-- A word of a tag and two registers. Both operands have to be registers before the range of
either counts. -/
def encodePair (tag : Nat) (operands : List Operand) : Except LineError Word := do
  let first ← registerOf operands[0]?
  let second ← registerOf operands[1]?
  let a ← registerField first
  let b ← registerField second
  return UInt16.ofNat (tag * 256 + a * 16 + b)

def encodeSingle (tag : Nat) (operands : List Operand) : Except LineError Word := do
  let first ← registerOf operands[0]?
  let a ← registerField first
  return UInt16.ofNat (tag * 16 + a)

/-! ## Encoding -/

def tagLi : Nat := 0x1

def tagLd : Nat := 0x80

def tagSt : Nat := 0xa0

def tagJp : Nat := 0xc00

/-- The tag of the conditional jumps, which their condition follows. -/
def tagJpIf : Nat := 0x1e0

/-- The tag of the first operation on two registers; the others follow in order. -/
def tagAlu : Nat := 0x40

/-- The word of an instruction. Operands beyond those of the operation are ignored. -/
def encode (i : Instruction) : Except LineError Word :=
  match i.op with
  | .halt => .ok 0
  | .li => do
    let value ← immediateOf i.operands[1]?
    let first ← registerOf i.operands[0]?
    let a ← registerField first
    return UInt16.ofNat (tagLi * 4096 + value.toNat * 16 + a)
  | .ld => encodePair tagLd i.operands
  | .st => encodePair tagSt i.operands
  | .jp => encodeSingle tagJp i.operands
  | .jpIf c => encodeSingle (tagJpIf * 8 + c.code) i.operands
  | .alu a => encodePair (tagAlu + a.index) i.operands

/-! ## Decoding -/

/-- The instruction of a word, if it is the word of one. -/
def decode? (w : Word) : Option Instruction :=
  let n := w.toNat
  let low := UInt8.ofNat (n % 16)
  let mid := UInt8.ofNat (n / 16 % 16)
  if n = 0 then some { op := .halt, operands := [] }
  else if n / 4096 = tagLi then
    some { op := .li, operands := [.reg low, .imm (UInt8.ofNat (n / 16 % 256))] }
  else if n / 16 = tagJp then some { op := .jp, operands := [.reg low] }
  else if n / 128 = tagJpIf then
    (Condition.ofCode? (n / 16 % 8)).map fun c => { op := .jpIf c, operands := [.reg low] }
  else if n / 256 = tagLd then some { op := .ld, operands := [.reg mid, .mem low] }
  else if n / 256 = tagSt then some { op := .st, operands := [.reg mid, .mem low] }
  else if tagAlu ≤ n / 256 then
    (AluOp.ofIndex? (n / 256 - tagAlu)).map fun a =>
      { op := .alu a, operands := [.reg mid, .reg low] }
  else none

end Instruction

end WordMachine
