import WordMachine.Instruction.Mnemonic

/-!
# The text of an instruction

The canonical way to write an instruction: its mnemonic, a space, and its operands with a comma
and a space between them.
-/

namespace WordMachine

def Operand.render : Operand → List Char
  | reg n => 'r' :: Text.decimal n.toNat
  | mem n => '(' :: 'r' :: Text.decimal n.toNat ++ [')']
  | imm v => Text.decimal v.toNat
  | label name => name.toList

namespace Instruction

def render (i : Instruction) : List Char :=
  match i.operands with
  | [] => i.op.mnemonic.toList
  | operands =>
    i.op.mnemonic.toList ++ ' ' :: [',', ' '].intercalate (operands.map Operand.render)

def text (i : Instruction) : String :=
  String.ofList i.render

end Instruction

end WordMachine
