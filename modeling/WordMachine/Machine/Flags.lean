import WordMachine.Instruction.Basic

/-!
# Flags

The four flags of the machine, the conditions on them, and the ways in which they are shown.
-/

namespace WordMachine

/-- The flags. No operation sets the carry flag. -/
structure Flags where
  carry : Bool := false
  zero : Bool := false
  sign : Bool := false
  overflow : Bool := false
  deriving DecidableEq, Repr

namespace Flags

/-- The flags that the four low bits of a number stand for. -/
def ofBits (n : Nat) : Flags where
  carry := n.testBit 0
  zero := n.testBit 1
  sign := n.testBit 2
  overflow := n.testBit 3

def holds (f : Flags) : Condition → Bool
  | .carry => f.carry
  | .noCarry => !f.carry
  | .zero => f.zero
  | .notZero => !f.zero
  | .sign => f.sign
  | .notSign => !f.sign
  | .overflow => f.overflow
  | .noOverflow => !f.overflow

/-- The letters of the flags that are set, with a bar between them. -/
def names (f : Flags) : String :=
  let letters := [(f.carry, "C"), (f.zero, "Z"), (f.sign, "S"), (f.overflow, "V")]
  " | ".intercalate ((letters.filter (·.1)).map (·.2))

/-- The flags as a line of a report shows them. -/
def describe (f : Flags) : String :=
  if f = {} then "Flags(0x0)" else s!"Flags({f.names})"

end Flags

end WordMachine
