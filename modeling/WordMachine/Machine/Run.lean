import WordMachine.Machine.Step
import WordMachine.Settings

/-!
# Runs

A run executes a program from its first instruction until a `halt`, on a machine that is reset.
The number of its steps can be limited. A program is decoded once, before its run.
-/

namespace WordMachine

/-- What a completed run executed. -/
structure Trace where
  /-- The words of the executed instructions, in the order of execution. -/
  words : Array Word := #[]
  /-- The number of steps. -/
  steps : Nat := 0
  deriving DecidableEq, Repr

/-! ## Decoded programs -/

/-- The decoded lines of a program, by address. -/
abbrev Code := Array (Except Trap (Instruction × Word))

def Program.code (p : Program) : Code :=
  p.executable.map p.decodeLine

def Code.decodeAt (code : Code) (pc : Word) : Except Trap (Instruction × Word) :=
  match code[pc.toNat]? with
  | some decoded => decoded
  | none => .error (.pcOutOfRange pc code.size)

theorem Program.decodeAt_code (p : Program) (pc : Word) :
    p.code.decodeAt pc = p.decodeAt pc := by
  simp only [Code.decodeAt, Program.code, Program.decodeAt, Program.fetch?, Program.size,
    Array.getElem?_map, Array.size_map]
  cases p.executable[pc.toNat]? <;> rfl

/-! ## Running -/

namespace Machine

/-- Continues a run of which `trace` is done and that may take `fuel` more steps. -/
def runFrom (code : Code) (limit : Nat) :
    Nat → Trace → Machine → Except Trap Trace × Machine
  | fuel, trace, m =>
    if m.cpu.halted then (.ok trace, m)
    else
      match fuel with
      | 0 => (.error (.stepLimit limit), m)
      | fuel + 1 =>
        match m.stepWith (code.decodeAt m.cpu.pc) with
        | (.ok s, m) =>
          runFrom code limit fuel
            { words := trace.words.push s.word, steps := trace.steps + 1 } m
        | (.error trap, m) => (.error trap, m)

/-- Resets the machine and runs a program. -/
def run (p : Program) (settings : Settings) (m : Machine) : Except Trap Trace × Machine :=
  runFrom p.code settings.budget settings.budget {} m.reset

end Machine

end WordMachine
