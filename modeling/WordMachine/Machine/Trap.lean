import WordMachine.Instruction.LineError
import WordMachine.Machine.Memory

/-!
# Traps

The reasons for which the machine stops without a `halt`, and the wording of each.
-/

namespace WordMachine

/-- Why a step or a run fails. -/
inductive Trap where
  /-- The line at the program counter holds no valid instruction. -/
  | decode (line : Nat) (source : LineError)
  /-- No line stands at the program counter. -/
  | pcOutOfRange (pc : Word) (size : Nat)
  /-- The instruction on a line accesses an address outside memory. -/
  | bus (line : Nat) (address : Word) (fault : MemoryFault)
  /-- The run was not over after as many steps as it may take. -/
  | stepLimit (limit : Nat)
  deriving DecidableEq, Repr

namespace Trap

def line? : Trap → Option Nat
  | decode line _ | bus line _ _ => some line
  | pcOutOfRange _ _ | stepLimit _ => none

def source? : Trap → Option LineError
  | decode _ source => some source
  | bus _ _ _ | pcOutOfRange _ _ | stepLimit _ => none

def message : Trap → String
  | decode line source => s!"line {line}: {source.message}"
  | pcOutOfRange pc size =>
    s!"program counter {pc} runs past the end of the program ({size} instructions)"
  | bus line address fault =>
    let hex := String.ofList (Word.hex address)
    s!"line {line}: bus error at 0x{hex}: {fault.message}"
  | stepLimit limit => s!"step limit of {limit} reached without halting"

end Trap

end WordMachine
