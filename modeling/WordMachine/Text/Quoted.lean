import WordMachine.Text.Numeral
import WordMachine.Text.Printable

/-!
# Quoted text

How a piece of the input is shown inside a message: between double quotes, on one line, with
everything that is hard to see written as an escape.
-/

namespace WordMachine.Text

def escape (c : Char) : List Char :=
  match c with
  | '"' => ['\\', '"']
  | '\\' => ['\\', '\\']
  | '\x00' => ['\\', '0']
  | '\t' => ['\\', 't']
  | '\n' => ['\\', 'n']
  | '\r' => ['\\', 'r']
  | _ =>
    if isPrintable c then [c]
    else ['\\', 'u', '\x7b'] ++ Nat.toDigits 16 c.toNat ++ ['\x7d']

def quoted (s : String) : String :=
  String.ofList ('"' :: s.toList.flatMap escape ++ ['"'])

end WordMachine.Text
