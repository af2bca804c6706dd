import WordMachine.Text.Quoted

/-!
# What can be wrong with a line

The reasons for which a line of source, or the instruction on it, has no encoding, and the wording
of each.
-/

namespace WordMachine

/-- The part of a line that is not written as it has to be. -/
inductive Part where
  | register | number | label | immediate | operands
  deriving DecidableEq, Repr

def Part.name : Part → String
  | register => "register"
  | number => "number"
  | label => "label"
  | immediate => "immediate"
  | operands => "operands"

inductive Quantity where
  | register | immediate | labelAddress | field
  deriving DecidableEq, Repr

def Quantity.name : Quantity → String
  | register => "register"
  | immediate => "immediate"
  | labelAddress => "label address"
  | field => "field"

/-- Why a line has no encoding. -/
inductive LineError where
  /-- The line holds no token. -/
  | emptyLine
  /-- A part of the line is not written as it has to be. -/
  | malformed (part : Part) (token : String)
  /-- An operation got the wrong number of operands. -/
  | arity (mnemonic : String) (expected found : Nat)
  /-- A number is negative or above its maximum. -/
  | outOfRange (what : Quantity) (value : Int) (max : Nat)
  /-- No line declares the label. -/
  | labelNotFound (name : String)
  /-- No operation has the mnemonic. -/
  | unknownInstruction (token : String)
  deriving DecidableEq, Repr

def LineError.message : LineError → String
  | emptyLine => "empty line"
  | malformed part token => s!"malformed {part.name} {Text.quoted token}"
  | arity mnemonic expected found => s!"{mnemonic} takes {expected} operand(s), found {found}"
  | outOfRange what value max => s!"{what.name} {value} out of range (0-{max})"
  | labelNotFound name => s!"label {name} not found"
  | unknownInstruction token => s!"unknown instruction {Text.quoted token}"

end WordMachine
