import WordMachine.Instruction.LineError
import WordMachine.Instruction.Basic
import WordMachine.Source.Line

/-!
# Operands in source

Reading of the tokens that follow a mnemonic: registers `r1` and `(r1)`, eight-bit numbers in
four radixes, and references to labels.
-/

namespace WordMachine

/-- The largest number that is told apart from the ones above it. -/
def int64Max : Nat :=
  9223372036854775807

def dropCommas (token : List Char) : List Char :=
  Text.dropWhileEnd (· == ',') token

def isParenthesized (token : List Char) : Bool :=
  let t := dropCommas token
  t.head? == some '(' && t.getLast? == some ')'

def isLabelReference (token : List Char) : Bool :=
  token.head? == some ':'

/-! ## Registers -/

/-- Takes away one pair of enclosing parentheses, if there is one. -/
def unparen (token : List Char) : List Char :=
  match token with
  | '(' :: rest => if rest.getLast? = some ')' then rest.dropLast else token
  | _ => token

/-- The number of a register written `r1`, whatever its size. -/
def registerNumber? (token : List Char) : Option Nat :=
  match token with
  | 'r' :: digits | 'R' :: digits => Text.natural? 10 digits
  | _ => none

def readRegister (token : List Char) : Except LineError UInt8 :=
  match registerNumber? (unparen (dropCommas token)) with
  | none => .error (.malformed .register (String.ofList token))
  | some n =>
    if n ≤ 15 then .ok (UInt8.ofNat n)
    else .error (.outOfRange .register (min n int64Max : Nat) 15)

/-! ## Numbers -/

/-- Splits a numeral into its radix and what follows the mark of the radix. -/
def splitRadix : List Char → Nat × List Char
  | '0' :: 'x' :: rest | '0' :: 'X' :: rest => (16, rest)
  | '0' :: 'b' :: rest | '0' :: 'B' :: rest => (2, rest)
  | '0' :: 'o' :: rest | '0' :: 'O' :: rest => (8, rest)
  | cs => (10, cs)

/-- Splits a numeral into whether it is negative and what follows the sign. -/
def splitSign : List Char → Bool × List Char
  | '-' :: rest => (true, rest)
  | '+' :: rest => (false, rest)
  | cs => (false, cs)

/-- The error for a number that is no eight-bit value. -/
def immediateRange (value : Int) : LineError :=
  .outOfRange .immediate value 255

/-- Reads an eight-bit number with an optional mark of its radix and an optional sign. A number
beyond the range of 64-bit integers is reported as the end of that range. -/
def readByte (token : List Char) : Except LineError UInt8 :=
  let (radix, signed) := splitRadix (Text.trim token)
  let (negative, digits) := splitSign signed
  match Text.bounded radix (if negative then int64Max + 1 else int64Max) digits with
  | .ok n =>
    if negative && n != 0 then .error (immediateRange (-n))
    else if n ≤ 255 then .ok (UInt8.ofNat n)
    else .error (immediateRange n)
  | .error .overflow =>
    .error (immediateRange (if negative then -(int64Max + 1 : Nat) else int64Max))
  | .error .malformed => .error (.malformed .number (String.ofList token))

/-! ## Immediate operands -/

/-- Reads a number or a reference to a label, which needs a name behind its colon. -/
def readImmediate (token : List Char) : Except LineError Operand :=
  match token with
  | [':'] => .error (.malformed .label ":")
  | ':' :: _ => .ok (.label (String.ofList token))
  | _ => (readByte token).map Operand.imm

end WordMachine
