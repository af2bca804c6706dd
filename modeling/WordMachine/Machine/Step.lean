import WordMachine.Machine.Action
import WordMachine.Source.Program

/-!
# Steps

One step of the machine: it fetches the instruction at the program counter, executes it and moves
the program counter. A step does so whether or not the machine has halted.
-/

namespace WordMachine

/-- Reads, resolves and encodes one line; a failure is a trap on that line. -/
def Program.decodeLine (p : Program) (line : Line) : Except Trap (Instruction × Word) :=
  match p.assembleLine line with
  | .ok decoded => .ok decoded
  | .error e => .error (.decode line.number e)

def Program.decodeAt (p : Program) (pc : Word) : Except Trap (Instruction × Word) :=
  match p.fetch? pc with
  | some line => p.decodeLine line
  | none => .error (.pcOutOfRange pc p.size)

structure Step where
  pc : Word
  instruction : Instruction
  word : Word
  flow : Flow
  deriving DecidableEq, Repr

namespace Cpu

/-- The processor after an instruction with a flow. -/
def advance (c : Cpu) : Flow → Cpu
  | .next => c.setPc (c.pc + 1)
  | .jump => c
  | .halt => { c with halted := true }

end Cpu

namespace Machine

/-- Executes a fetched instruction and moves the program counter. -/
@[inline] def stepWith (fetched : Except Trap (Instruction × Word)) (m : Machine) :
    Except Trap Step × Machine :=
  match fetched with
  | .error trap => (.error trap, m)
  | .ok (instruction, word) =>
    let pc := m.cpu.pc
    match m.execute instruction with
    | (.ok flow, m) =>
      (.ok { pc, instruction, word, flow }, { m with cpu := m.cpu.advance flow })
    | (.error trap, m) => (.error trap, m)

def step (p : Program) (m : Machine) : Except Trap Step × Machine :=
  m.stepWith (p.decodeAt m.cpu.pc)

end Machine

end WordMachine
