import WordMachine.Text.Numeral

/-!
# JSON tokens

The tokens of a JSON text. Of numbers only the naturals keep their value. Strings are kept as
units, since an escape can name half of a surrogate pair.
-/

namespace WordMachine

inductive Bracket where
  | square | curly
  deriving DecidableEq, Repr

inductive JsonToken where
  | opening (b : Bracket)
  | closing (b : Bracket)
  | comma
  | colon
  | null
  | boolean (b : Bool)
  /-- A number, and its value if it is written as a natural number. -/
  | number (natural : Option Nat)
  /-- A string as the code points and escaped units between its quotes. -/
  | string (units : List Nat)
  deriving DecidableEq, Repr

namespace JsonToken

/-- The character that a single letter behind a backslash stands for. -/
def escape? : Char → Option Char
  | '"' => some '"'
  | '\\' => some '\\'
  | '/' => some '/'
  | 'b' => some '\x08'
  | 'f' => some '\x0c'
  | 'n' => some '\n'
  | 'r' => some '\r'
  | 't' => some '\t'
  | _ => none

/-- Reads a string behind its opening quote; `units` holds what was read, in reverse. -/
def readString (units : List Nat) : List Char → Option (List Nat × List Char)
  | [] => none
  | '"' :: rest => some (units.reverse, rest)
  | '\\' :: 'u' :: a :: b :: c :: d :: rest =>
    match Text.natural? 16 [a, b, c, d] with
    | some unit => readString (unit :: units) rest
    | none => none
  | '\\' :: letter :: rest =>
    match escape? letter with
    | some c => readString (c.toNat :: units) rest
    | none => none
  | c :: rest => if c.toNat < 0x20 then none else readString (c.toNat :: units) rest

def readDigits (cs : List Char) : Option (List Char × List Char) :=
  match cs.takeWhile Char.isDigit with
  | [] => none
  | digits => some (digits, cs.dropWhile Char.isDigit)

/-- Skips the fraction of a number; says whether there is one. -/
def skipFraction : List Char → Option (Bool × List Char)
  | '.' :: cs => (readDigits cs).map fun (_, rest) => (true, rest)
  | cs => some (false, cs)

/-- Skips the exponent of a number; says whether there is one. -/
def skipExponent : List Char → Option (Bool × List Char)
  | 'e' :: '+' :: cs | 'e' :: '-' :: cs | 'E' :: '+' :: cs | 'E' :: '-' :: cs
  | 'e' :: cs | 'E' :: cs => (readDigits cs).map fun (_, rest) => (true, rest)
  | cs => some (false, cs)

/-- Reads a number. Its first digit is zero only if it has no other before the point. -/
def readNumber (cs : List Char) : Option (JsonToken × List Char) := do
  let (negative, cs) := match cs with
    | '-' :: rest => (true, rest)
    | _ => (false, cs)
  let (digits, cs) ← readDigits cs
  if digits.head? = some '0' ∧ digits.length ≠ 1 then none
  let (fraction, cs) ← skipFraction cs
  let (exponent, cs) ← skipExponent cs
  let value := if negative || fraction || exponent then none else Text.natural? 10 digits
  return (.number value, cs)

def read : List Char → Option (JsonToken × List Char)
  | '[' :: rest => some (.opening .square, rest)
  | ']' :: rest => some (.closing .square, rest)
  | '\x7b' :: rest => some (.opening .curly, rest)
  | '\x7d' :: rest => some (.closing .curly, rest)
  | ',' :: rest => some (.comma, rest)
  | ':' :: rest => some (.colon, rest)
  | '"' :: rest => (readString [] rest).map fun (units, rest) => (.string units, rest)
  | 'n' :: 'u' :: 'l' :: 'l' :: rest => some (.null, rest)
  | 't' :: 'r' :: 'u' :: 'e' :: rest => some (.boolean true, rest)
  | 'f' :: 'a' :: 'l' :: 's' :: 'e' :: rest => some (.boolean false, rest)
  | cs => readNumber cs

def isSpace (c : Char) : Bool :=
  c == ' ' || c == '\n' || c == '\t' || c == '\r'

/-- Reads at most `fuel` tokens up to the end of a text; `tokens` holds those before them, in
reverse. -/
def readAll : Nat → List JsonToken → List Char → Option (List JsonToken)
  | 0, tokens, cs => if (cs.dropWhile isSpace).isEmpty then some tokens.reverse else none
  | fuel + 1, tokens, cs =>
    match cs.dropWhile isSpace with
    | [] => some tokens.reverse
    | cs =>
      match read cs with
      | some (token, rest) => readAll fuel (token :: tokens) rest
      | none => none

/-- The tokens of a text, each of which has a character. -/
def ofText? (cs : List Char) : Option (List JsonToken) :=
  readAll cs.length [] cs

end JsonToken

end WordMachine
