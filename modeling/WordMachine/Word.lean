import WordMachine.Text.Numeral

/-!
# Machine words

The sixteen-bit words that registers, memory and images hold, and the ways in which a word is
written.
-/

namespace WordMachine

/-- A machine word; its arithmetic is modulo 2 ^ 16. -/
abbrev Word := UInt16

namespace Word

def count : Nat := 65536

def hex (w : Word) : List Char :=
  Text.padded 16 4 w.toNat

/-- A word as sixteen binary digits, the most significant first. -/
def bits (w : Word) : List Char :=
  Text.padded 2 16 w.toNat

def signed (w : Word) : Int :=
  w.toInt16.toInt

end Word

end WordMachine
