import WordMachine.Lint.Diagnostic
import WordMachine.Source.Program

/-!
# Lint

A pass over every line of a program that reports all the problems it finds: faults that keep a
line from being assembled, matters of style, labels that are declared again, and uses of the
program counter.
-/

namespace WordMachine

/-! ## Checks of one line -/

namespace Lint

def checkCount (op : Op) (args : List (List Char)) : List Problem :=
  let slots := op.slots
  (slots.zipIdx.drop args.length).map (fun (slot, position) =>
    .missingArgument position slot op) ++
  (args.drop slots.length).map fun token => .extraArgument (String.ofList token) op

/-- What is left of a text behind its first `n` bytes in UTF-8, if a character ends there. -/
def dropBytes? : Nat → List Char → Option (List Char)
  | 0, cs => some cs
  | _ + 1, [] => none
  | n + 1, c :: cs => if c.utf8Size ≤ n + 1 then dropBytes? (n + 1 - c.utf8Size) cs else none

/-- Whether the first operand lacks a comma behind it. It is looked for behind as many bytes at the
front of the line as the mnemonic has, which is ASCII, and lacks nothing where it is not found. -/
def lacksComma (line mnemonic first : List Char) : Bool :=
  match dropBytes? mnemonic.length (Text.trimStart line) with
  | none => false
  | some rest =>
    let rest := Text.trimStart rest
    first.isPrefixOf rest && (Text.trimStart (rest.drop first.length)).head? != some ','

def checkComma (op : Op) (line mnemonic : List Char) (args : List (List Char)) : List Problem :=
  match args with
  | first :: _ :: _ =>
    if op.arity = 2 && lacksComma line mnemonic first then
      [.missingComma (String.ofList first) op]
    else []
  | _ => []

/-- The problem of parentheses that are missing or superfluous. -/
def checkParens (op : Op) (position : Nat) (slot : Slot) (token : List Char) : List Problem :=
  match slot, isParenthesized token with
  | .memory, false => [.bareMemory position (String.ofList token) op]
  | .register, true => [.parenthesizedRegister position (String.ofList token) op]
  | _, _ => []

/-- The problem of an operation that has the program counter as its first operand. -/
def checkPc : Op → List Problem
  | .jp | .jpIf _ => [.jumpThroughPc]
  | .li | .ld | .alu _ => [.writesPc]
  | .halt | .st => []

/-- The problem of a token that names no register, or the program counter at the front. -/
def checkRegister (op : Op) (position : Nat) (token : List Char) : List Problem :=
  match readRegister token with
  | .ok n => if position = 0 ∧ n = 15 then checkPc op else []
  | .error (.outOfRange _ value _) => [.unknownRegister (String.ofList token) op value]
  | .error _ => [.notRegister position (String.ofList token) op]

def checkLabel (labels : Labels) (label : String) : List Problem :=
  match labels.find? label with
  | none => [.labelNotFound label]
  | some declaration =>
    (if 255 < declaration.address.toNat then [.labelTooFar label declaration.address] else []) ++
    (labels.redeclarations.toList.filter (·.name == label)).map fun d =>
      .duplicateLabel label d.line declaration.line

def checkImmediate (labels : Labels) (op : Op) (token : List Char) : List Problem :=
  match readImmediate token with
  | .ok (.label name) => checkLabel labels name
  | .ok _ => []
  | .error (.malformed .label _) => [.emptyLabel op]
  | .error (.outOfRange ..) => [.valueTooLarge (String.ofList token) op]
  | .error _ => [.notNumber (String.ofList token) op]

def checkOperand (labels : Labels) (op : Op) (position : Nat) (slot : Slot)
    (token : List Char) : List Problem :=
  match slot with
  | .immediate => checkImmediate labels op token
  | .register | .memory => checkParens op position slot token ++ checkRegister op position token

def checkOperands (labels : Labels) (op : Op) (args : List (List Char)) : List Problem :=
  (op.slots.zip args).zipIdx.flatMap fun ((slot, token), position) =>
    checkOperand labels op position slot token

/-- The problem of a mnemonic that belongs to no operation. -/
def checkMnemonic (mnemonic : List Char) : Problem :=
  if ['j', 'p'].isPrefixOf (mnemonic.map Char.toLower) then
    .unknownJump (String.ofList mnemonic)
  else .unknownMnemonic (String.ofList mnemonic)

def checkLine (labels : Labels) (line : List Char) : List Problem :=
  match Line.tokens line with
  | [] => [.noInstruction (String.ofList line)]
  | mnemonic :: args =>
    match Op.ofMnemonic? mnemonic with
    | none => [checkMnemonic mnemonic]
    | some op =>
      checkCount op args ++ checkComma op line mnemonic args ++ checkOperands labels op args

end Lint

/-! ## Programs -/

/-- The problems of a program, line by line. -/
def Program.lint (p : Program) : List Diagnostic :=
  p.executable.toList.flatMap fun line =>
    (Lint.checkLine p.labels line.text).map fun problem => ⟨line.number, problem⟩

end WordMachine
