import WordMachine.Json.Token
import WordMachine.Settings

/-!
# Settings of a run as JSON

The settings are an object with the optional member `max_steps`, or an array that holds its value.
Other members are skipped, but have to be JSON.
-/

namespace WordMachine

namespace Settings

/-! ## Skipping a value -/

inductive Expect where
  | value
  | valueOrClose
  | key
  | keyOrClose
  | colon
  | commaOrClose
  deriving DecidableEq, Repr

/-- Skips the rest of a value, inside the brackets that are still open, the innermost first. -/
def skipValue (enclosing : List Bracket) (expect : Expect) :
    List JsonToken → Option (List JsonToken)
  | [] => none
  | token :: rest =>
    match expect, token, enclosing with
    | .value, .opening b, _ | .valueOrClose, .opening b, _ =>
      skipValue (b :: enclosing) (if b = .square then .valueOrClose else .keyOrClose) rest
    | .valueOrClose, .closing .square, .square :: outer
    | .commaOrClose, .closing .square, .square :: outer
    | .keyOrClose, .closing .curly, .curly :: outer
    | .commaOrClose, .closing .curly, .curly :: outer =>
      if outer.isEmpty then some rest else skipValue outer .commaOrClose rest
    | .commaOrClose, .comma, .square :: _ => skipValue enclosing .value rest
    | .commaOrClose, .comma, .curly :: _ => skipValue enclosing .key rest
    | .key, .string _, _ | .keyOrClose, .string _, _ => skipValue enclosing .colon rest
    | .colon, .colon, _ => skipValue enclosing .value rest
    | .value, .null, _ | .value, .boolean _, _ | .value, .number _, _ | .value, .string _, _
    | .valueOrClose, .null, _ | .valueOrClose, .boolean _, _ | .valueOrClose, .number _, _
    | .valueOrClose, .string _, _ =>
      if enclosing.isEmpty then some rest else skipValue enclosing .commaOrClose rest
    | _, _, _ => none

/-! ## Reading -/

/-- The units of the name `max_steps`. -/
def maxStepsKey : List Nat :=
  "max_steps".toList.map Char.toNat

/-- Whether surrogates stand in pairs only, a high one before a low one. -/
def isPaired : List Nat → Bool
  | [] => true
  | high :: low :: rest =>
    if 0xd800 ≤ high ∧ high < 0xdc00 then
      decide (0xdc00 ≤ low ∧ low < 0xe000) && isPaired rest
    else !decide (0xdc00 ≤ high ∧ high < 0xe000) && isPaired (low :: rest)
  | [last] => !decide (0xd800 ≤ last ∧ last < 0xe000)

def maxSteps? : JsonToken → Option (Option UInt64)
  | .null => some none
  | .number (some n) => if n < UInt64.size then some (some (UInt64.ofNat n)) else none
  | _ => none

/-- Reads at most `fuel` members up to the end of the object and the text. The limit may be given
once. -/
def readMembers : Nat → Option (Option UInt64) → List JsonToken → Option Settings
  | 0, _, _ => none
  | fuel + 1, given, .string key :: .colon :: tokens => do
    if !isPaired key then none
    let (given, rest) ←
      if key = maxStepsKey then
        match given, tokens with
        | none, token :: rest => (maxSteps? token).map fun limit => (some limit, rest)
        | _, _ => none
      else (skipValue [] .value tokens).map (given, ·)
    match rest with
    | .comma :: rest => readMembers fuel given rest
    | [.closing .curly] => some { maxSteps := given.getD none }
    | _ => none
  | _, _, _ => none

def read : List JsonToken → Option Settings
  | [.opening .square, .closing .square] | [.opening .curly, .closing .curly] => some {}
  | [.opening .square, token, .closing .square] =>
    (maxSteps? token).map fun maxSteps => { maxSteps }
  | .opening .curly :: tokens => readMembers tokens.length none tokens
  | _ => none

end Settings

/-- Reads the settings of a run from a JSON text. -/
def Settings.ofJson? (text : List Char) : Option Settings :=
  JsonToken.ofText? text >>= Settings.read

end WordMachine
