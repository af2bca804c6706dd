import WordMachine.Instruction.Mnemonic
import WordMachine.Source.Operand

/-!
# Instructions in source

Reading of the text of a line as an instruction. Operands are read from the left, and the first
fault on the line is the one that is reported. References to labels stay as they are written.
-/

namespace WordMachine

def Slot.read (slot : Slot) (token : List Char) : Except LineError Operand :=
  match slot with
  | register => (readRegister token).map Operand.reg
  | memory => (readRegister token).map Operand.mem
  | immediate => readImmediate token

/-- Reads one operand for each position. -/
def readOperands : List Slot → List (List Char) → Except LineError (List Operand)
  | slot :: slots, token :: tokens => do
    let operand ← slot.read token
    let rest ← readOperands slots tokens
    return operand :: rest
  | _, _ => .ok []

/-- Reads the instruction on the line with a text and a number. -/
def Instruction.read (text : List Char) (line : Nat) : Except LineError Instruction :=
  match Line.tokens text with
  | [] => .error .emptyLine
  | mnemonic :: args =>
    match Op.ofMnemonic? mnemonic with
    | none => .error (.unknownInstruction (String.ofList mnemonic))
    | some op =>
      if args.length ≠ op.arity then .error (.arity op.mnemonic op.arity args.length)
      else do
        let operands ← readOperands op.slots args
        return { op, operands, line }

end WordMachine
