/-!
# Numerals

Digits in a radix of at most sixteen, the value of a run of digits, and numerals padded with zeros
to a fixed width. Letters count as digits in either case and are written in lower case.
-/

namespace WordMachine.Text

/-! ## Reading -/

/-- The value of a character as a digit of the radix, which is at most sixteen. -/
def digit? (radix : Nat) (c : Char) : Option Nat :=
  let value :=
    if '0' ≤ c ∧ c ≤ '9' then c.toNat - '0'.toNat
    else if 'a' ≤ c ∧ c ≤ 'f' then c.toNat - 'a'.toNat + 10
    else if 'A' ≤ c ∧ c ≤ 'F' then c.toNat - 'A'.toNat + 10
    else radix
  if value < radix then some value else none

/-- The number that a list of digit values denotes, the most significant first. -/
def ofDigits (radix : Nat) (ds : List Nat) : Nat :=
  ds.foldl (fun value d => value * radix + d) 0

def natural? (radix : Nat) (cs : List Char) : Option Nat :=
  if cs.isEmpty then none else (cs.mapM (digit? radix)).map (ofDigits radix)

/-- Reads an optional plus sign and one or more digits, as a number of at most `max`. -/
def unsigned? (radix max : Nat) (cs : List Char) : Option Nat :=
  let digits := match cs with
    | '+' :: rest => rest
    | _ => cs
  (natural? radix digits).filter (· ≤ max)

/-! ## Bounded reading -/

/-- Why a run of characters is not a bounded number. -/
inductive NumeralFault where
  /-- There is no digit, or a character that is none. -/
  | malformed
  /-- The digits up to some point denote a number above the bound. -/
  | overflow
  deriving DecidableEq, Repr

/-- Continues a number with further digits, stopping at the first fault: a character that is no
digit, or a digit that takes the number above `max`. -/
def extend (radix max value : Nat) : List Char → Except NumeralFault Nat
  | [] => .ok value
  | c :: cs =>
    match digit? radix c with
    | none => .error .malformed
    | some d =>
      if value * radix + d ≤ max then extend radix max (value * radix + d) cs
      else .error .overflow

/-- Reads one or more digits as a number of at most `max`. -/
def bounded (radix max : Nat) (cs : List Char) : Except NumeralFault Nat :=
  if cs.isEmpty then .error .malformed else extend radix max 0 cs

/-! ## Writing -/

def decimal (n : Nat) : List Char :=
  Nat.toDigits 10 n

/-- A number in decimal, with a minus sign if it is negative. -/
def integer (z : Int) : List Char :=
  if z < 0 then '-' :: decimal z.natAbs else decimal z.natAbs

/-- The digits of a number, with zeros in front up to a width. -/
def padded (radix width n : Nat) : List Char :=
  let digits := Nat.toDigits radix n
  List.replicate (width - digits.length) '0' ++ digits

end WordMachine.Text
