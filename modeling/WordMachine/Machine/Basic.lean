import WordMachine.Machine.Flags
import WordMachine.Machine.Memory

/-!
# The state of the machine

Sixteen registers, of which the last is the program counter, the flags, whether the machine has
halted, and the memory.
-/

namespace WordMachine

/-- The number of a register. -/
abbrev Reg := Fin 16

/-- The register that holds the program counter. -/
def Reg.pc : Reg := 15

structure Cpu where
  regs : Vector Word 16 := Vector.replicate 16 0
  flags : Flags := {}
  /-- Whether a `halt` was executed. -/
  halted : Bool := false
  deriving DecidableEq, Repr

namespace Cpu

def get (c : Cpu) (r : Reg) : Word :=
  c.regs[r]

def set (c : Cpu) (r : Reg) (w : Word) : Cpu :=
  { c with regs := c.regs.set r w }

def pc (c : Cpu) : Word :=
  c.get .pc

def setPc (c : Cpu) (w : Word) : Cpu :=
  c.set .pc w

theorem get_set (c : Cpu) (r s : Reg) (w : Word) :
    (c.set r w).get s = if r = s then w else c.get s := by
  simp [get, set, Vector.getElem_set, Fin.ext_iff]

end Cpu

structure Machine where
  cpu : Cpu := {}
  memory : Memory

namespace Machine

/-- A machine with a memory of `n` zeros, if addresses reach that far. -/
def new (n : Nat) : Machine where
  memory := Memory.zeros n

/-- The processor at its start and a memory of zeros, of the size it had. -/
def reset (m : Machine) : Machine where
  memory := m.memory.clear

end Machine

end WordMachine
