import WordMachine.Machine.Flags

/-!
# Arithmetic and logic

The operations on two registers: their results, and what they make of the flags. Shifts take their
count from a register, read in two's complement; a negative count does not shift.
-/

namespace WordMachine

/-! ## Shifts -/

/-- The number of positions that a count shifts by. -/
def shiftCount (count : Word) : Nat :=
  (Word.signed count).toNat

/-- Shifts to the left; sixteen positions or more leave nothing. -/
def shiftLeft (v count : Word) : Word :=
  let n := shiftCount count
  if n < 16 then v <<< UInt16.ofNat n else 0

/-- Shifts to the right, filling with zeros; sixteen positions or more leave nothing. -/
def shiftRight (v count : Word) : Word :=
  let n := shiftCount count
  if n < 16 then v >>> UInt16.ofNat n else 0

/-- Shifts to the right, filling with the sign; from fifteen positions on only the sign is left. -/
def shiftRightSigned (v count : Word) : Word :=
  UInt16.ofBitVec (v.toBitVec.sshiftRight (min (shiftCount count) 15))

/-! ## Results and flags -/

namespace AluOp

/-- The result of an operation on the words of its destination and its source. -/
def result (op : AluOp) (a b : Word) : Word :=
  match op with
  | nop => b
  | or => a ||| b
  | and => a &&& b
  | xor => a ^^^ b
  | add => a + b
  | sub => a - b
  | shl => shiftLeft a b
  | shr => shiftRight a b
  | ashr => shiftRightSigned a b
  | not => ~~~b
  | neg => ~~~b + 1

/-- The flags after an operation. Addition overflows where the signed sum is too large and not
where it is too small, and a difference of zero leaves the sign flag as it was. -/
def flags (op : AluOp) (a b : Word) (f : Flags) : Flags :=
  match op with
  | nop => {}
  | or | and | xor => { zero := op.result a b == 0 }
  | add =>
    { zero := op.result a b == 0
      overflow := decide (32767 < Word.signed a + Word.signed b) }
  | sub =>
    if op.result a b = 0 then { zero := true, sign := f.sign }
    else { sign := decide (Word.signed (op.result a b) < 0) }
  | shl | shr | ashr | not | neg => f

end AluOp

end WordMachine
