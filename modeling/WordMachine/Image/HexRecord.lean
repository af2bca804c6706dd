import WordMachine.Image
import WordMachine.Text.Blank
import WordMachine.Text.Lines
import WordMachine.Text.Quoted

/-!
# Hex records

The text form of an image: a header line, then the words in hexadecimal. Eight words stand on a
line when a record is written. Any layout is accepted when it is read, as are comments after `#`
and runs `n*word`.
-/

namespace WordMachine

inductive RecordError where
  | missingHeader
  /-- A token that is no word and no run of words, or that takes the record beyond memory. -/
  | value (line : Nat) (token : String)
  deriving DecidableEq, Repr

def RecordError.message : RecordError → String
  | missingHeader => "missing `v2.0 raw` header"
  | value line token => s!"line {line}: malformed value {Text.quoted token}"

namespace HexRecord

def header : String :=
  "v2.0 raw"

/-! ## Writing -/

/-- A word and what separates it from the next; every eighth word ends its line. -/
def renderWord (w : Word) (index : Nat) : List Char :=
  w.hex ++ if index % 8 = 7 then [' ', '\n'] else [' ']

def render (image : Image) : List Char :=
  header.toList ++ '\n' :: image.toList.zipIdx.flatMap fun (w, index) => renderWord w index

/-! ## Reading -/

/-- The tokens of a line, up to its comment. -/
def lineTokens (line : List Char) : List (List Char) :=
  ((line.takeWhile (· != '#')).splitOnP Text.isBlank).filter fun token => !token.isEmpty

/-- The tokens of lines with the numbers of their lines. -/
def tokens (lines : List (List Char)) (firstNumber : Nat) : List (Nat × List Char) :=
  (lines.zipIdx firstNumber).flatMap fun (line, number) => (lineTokens line).map (number, ·)

def readWord? (cs : List Char) : Option Word :=
  (Text.unsigned? 16 65535 cs).map UInt16.ofNat

/-- Reads a token as a number of equal words. -/
def readRun? (token : List Char) : Option (Nat × Word) :=
  match token.dropWhile (· != '*') with
  | [] => (readWord? token).map (1, ·)
  | _ :: value => do
    let count ← Text.unsigned? 10 (UInt64.size - 1) (token.takeWhile (· != '*'))
    let w ← readWord? value
    return (count, w)

/-- Appends the words of further tokens. The first token at fault is the one that is reported. -/
def readFrom (image : Image) : List (Nat × List Char) → Except RecordError Image
  | [] => .ok image
  | (line, token) :: rest =>
    match readRun? token with
    | none => .error (.value line (String.ofList token))
    | some (count, w) =>
      if count ≤ Word.count - image.size then
        readFrom (image ++ Array.replicate count w) rest
      else .error (.value line (String.ofList token))

def parse (text : List Char) : Except RecordError Image :=
  match Text.lines text with
  | [] => .error .missingHeader
  | first :: rest =>
    if Text.trim first = header.toList then readFrom #[] (tokens rest 2)
    else .error .missingHeader

end HexRecord

end WordMachine
