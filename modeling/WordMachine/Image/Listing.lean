import WordMachine.Image
import WordMachine.Instruction.Printer

/-!
# Listings

The words of an image with their addresses and the instructions they stand for. A word that is no
instruction is shown as data.
-/

namespace WordMachine

structure ListingRow where
  address : Nat
  word : Word
  /-- The instruction that the word encodes. -/
  text : Option String
  deriving DecidableEq, Repr

/-- The rows of an image, by address. -/
def listing (image : Image) : List ListingRow :=
  image.toList.zipIdx.map fun (word, address) =>
    { address, word, text := (Instruction.decode? word).map Instruction.text }

/-- A row in columns: the address, the word in hexadecimal and in binary, and the instruction. -/
def ListingRow.render (row : ListingRow) : String :=
  let address := String.ofList (Text.padded 16 4 row.address)
  let hex := String.ofList (Word.hex row.word)
  let bits := String.ofList (Word.bits row.word)
  let text := row.text.getD ".word"
  s!"{address}:  {hex}  {bits}  {text}"

end WordMachine
