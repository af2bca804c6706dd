import WordMachine.Text.Numeral

/-!
# JSON output

The values that reports consist of, and their layout: every element stands on a line of its own,
indented by two spaces for each level, and an empty array or object on one line.
-/

namespace WordMachine

inductive Json where
  | null
  | number (n : Nat)
  | string (s : String)
  | array (items : List Json)
  | object (members : List (String × Json))

namespace Json

/-- A character as it stands inside a string: quotes, backslashes and controls are escaped. -/
def escape (c : Char) : List Char :=
  match c with
  | '"' => ['\\', '"']
  | '\\' => ['\\', '\\']
  | '\x08' => ['\\', 'b']
  | '\x0c' => ['\\', 'f']
  | '\n' => ['\\', 'n']
  | '\r' => ['\\', 'r']
  | '\t' => ['\\', 't']
  | _ => if c.toNat < 0x20 then '\\' :: 'u' :: Text.padded 16 4 c.toNat else [c]

def quoted (s : String) : String :=
  String.ofList ('"' :: s.toList.flatMap escape ++ ['"'])

/-- The end of a line and the indentation of the next. -/
def newline (depth : Nat) : String :=
  String.ofList ('\n' :: List.replicate (2 * depth) ' ')

mutual

/-- Appends the text of a value that stands at a depth. -/
def appendTo (out : String) (depth : Nat) : Json → String
  | null => out ++ "null"
  | number n => out ++ String.ofList (Text.decimal n)
  | string s => out ++ quoted s
  | array [] => out ++ "[]"
  | array (item :: items) =>
    let first := item.appendTo (out ++ "[" ++ newline (depth + 1)) (depth + 1)
    appendItems first (depth + 1) items ++ newline depth ++ "]"
  | object [] => out ++ "\x7b\x7d"
  | object ((key, value) :: members) =>
    let start := out ++ "\x7b" ++ newline (depth + 1) ++ quoted key ++ ": "
    let first := value.appendTo start (depth + 1)
    appendMembers first (depth + 1) members ++ newline depth ++ "\x7d"

def appendItems (out : String) (depth : Nat) : List Json → String
  | [] => out
  | item :: items =>
    appendItems (item.appendTo (out ++ "," ++ newline depth) depth) depth items

def appendMembers (out : String) (depth : Nat) : List (String × Json) → String
  | [] => out
  | (key, value) :: members =>
    let start := out ++ "," ++ newline depth ++ quoted key ++ ": "
    appendMembers (value.appendTo start depth) depth members

end

def pretty (j : Json) : String :=
  j.appendTo "" 0

end Json

end WordMachine
