import WordMachine.Text.Blank

/-!
# Lines of source

What kind of line a text is, and the tokens on it. Blanks and commas separate tokens, and a token
that starts with a semicolon begins a comment.
-/

namespace WordMachine

structure Line where
  number : Nat
  text : List Char
  deriving DecidableEq, Repr

namespace Line

/-! ## Kinds -/

inductive Kind where
  | blank | comment | label | instruction
  deriving DecidableEq, Repr

/-- The kind of a line with a text, told by the first character that is not blank. -/
def Kind.ofText (text : List Char) : Kind :=
  match Text.trim text with
  | [] => .blank
  | ';' :: _ => .comment
  | ':' :: _ => .label
  | _ => .instruction

def kind (line : Line) : Kind :=
  .ofText line.text

/-! ## Tokens -/

def isSeparator (c : Char) : Bool :=
  Text.isBlank c || c == ','

def startsComment (token : List Char) : Bool :=
  token.head? == some ';'

def tokens (text : List Char) : List (List Char) :=
  ((text.splitOnP isSeparator).filter fun token => !token.isEmpty).takeWhile
    fun token => !startsComment token

end Line

end WordMachine
