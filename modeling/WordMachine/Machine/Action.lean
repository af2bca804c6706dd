import WordMachine.Instruction.LineError
import WordMachine.Instruction.Printer
import WordMachine.Machine.Alu
import WordMachine.Machine.Basic
import WordMachine.Machine.Trap

/-!
# Actions

What a well-formed instruction makes the machine do. An instruction is well-formed if every
register it names exists and its operands have the kinds that its operation takes.
-/

namespace WordMachine

/-- An operation with operands that fit it. -/
inductive Action where
  | halt
  | li (dst : Reg) (value : UInt8)
  | ld (dst address : Reg)
  | st (address src : Reg)
  | jp (target : Reg)
  | jpIf (c : Condition) (target : Reg)
  | alu (op : AluOp) (dst src : Reg)
  deriving DecidableEq, Repr

/-- Where the machine goes after an action. -/
inductive Flow where
  /-- To the next address. -/
  | next
  /-- Where the action put the program counter. -/
  | jump
  /-- Nowhere. -/
  | halt
  deriving DecidableEq, Repr

/-! ## The action of an instruction -/

/-- The register number of an operand that names no register of the machine. -/
def Operand.unknownRegister? : Operand → Option UInt8
  | reg n | mem n => if 16 ≤ n.toNat then some n else none
  | imm _ | label _ => none

def Reg.ofByte (n : UInt8) : Reg :=
  ⟨n.toNat % 16, Nat.mod_lt _ (by decide)⟩

namespace Action

/-- The action of an operation on operands of the right number and kinds. -/
def ofOperands? : Op → List Operand → Option Action
  | .halt, [] => some .halt
  | .li, [.reg d, .imm v] => some (.li (.ofByte d) v)
  | .ld, [.reg d, .mem a] => some (.ld (.ofByte d) (.ofByte a))
  | .st, [.reg a, .mem s] => some (.st (.ofByte a) (.ofByte s))
  | .jp, [.reg r] => some (.jp (.ofByte r))
  | .jpIf c, [.reg r] => some (.jpIf c (.ofByte r))
  | .alu op, [.reg d, .reg s] => some (.alu op (.ofByte d) (.ofByte s))
  | _, _ => none

/-- The action of an instruction. A register that does not exist counts before the kinds. -/
def ofInstruction (i : Instruction) : Except LineError Action :=
  match i.operands.findSome? Operand.unknownRegister? with
  | some n => .error (.outOfRange .register n.toNat 15)
  | none =>
    match ofOperands? i.op i.operands with
    | some action => .ok action
    | none => .error (.malformed .operands i.text)

end Action

/-! ## Performing actions -/

namespace Machine

/-- Performs the action of the instruction on a line. A refused access to memory is the only
failure. -/
def perform (action : Action) (line : Nat) (m : Machine) : Except Trap Flow × Machine :=
  match action with
  | .halt => (.ok .halt, m)
  | .li d v => (.ok .next, { m with cpu := m.cpu.set d v.toUInt16 })
  | .ld d a =>
    let address := m.cpu.get a
    match m.memory.read address with
    | .ok w => (.ok .next, { m with cpu := m.cpu.set d w })
    | .error fault => (.error (.bus line address fault), m)
  | .st a s =>
    let cpu := m.cpu
    let address := cpu.get a
    match m.memory.write address (cpu.get s) with
    | (.ok (), memory) => (.ok .next, ⟨cpu, memory⟩)
    | (.error fault, memory) => (.error (.bus line address fault), ⟨cpu, memory⟩)
  | .jp r => (.ok .jump, { m with cpu := m.cpu.setPc (m.cpu.get r) })
  | .jpIf c r =>
    if m.cpu.flags.holds c then (.ok .jump, { m with cpu := m.cpu.setPc (m.cpu.get r) })
    else (.ok .next, m)
  | .alu op d s =>
    let a := m.cpu.get d
    let b := m.cpu.get s
    let flags := op.flags a b m.cpu.flags
    (.ok .next, { m with cpu := { m.cpu.set d (op.result a b) with flags } })

/-- Executes an instruction, without moving the program counter on to the next one. -/
@[inline] def execute (i : Instruction) (m : Machine) : Except Trap Flow × Machine :=
  match Action.ofInstruction i with
  | .ok action => m.perform action i.line
  | .error e => (.error (.decode i.line e), m)

end Machine

end WordMachine
