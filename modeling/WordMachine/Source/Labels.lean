import WordMachine.Instruction.LineError
import WordMachine.Source.Line
import WordMachine.Word
import Std.Data.HashMap

/-!
# Labels

A line that starts with a colon declares a label, named by the whole trimmed line. Its address is
the number of executable lines before it, counted as a word. The first declaration of a name
holds, and the later ones are kept apart.
-/

namespace WordMachine

/-- Where a label is declared and what it stands for. -/
structure Declaration where
  address : Word
  line : Nat
  deriving DecidableEq, Repr

/-- A declaration of a label that is already declared. -/
structure Redeclaration where
  name : String
  firstLine : Nat
  line : Nat
  deriving DecidableEq, Repr

/-- The labels that a source declares. -/
structure Labels where
  entries : Std.HashMap String Declaration := ∅
  /-- The later declarations of a name, in the order of their lines. -/
  redeclarations : Array Redeclaration := #[]

namespace Labels

/-- The declaration that holds for a name. -/
def find? (labels : Labels) (name : String) : Option Declaration :=
  labels.entries[name]?

def address? (labels : Labels) (name : String) : Option Word :=
  (labels.find? name).map (·.address)

def line? (labels : Labels) (name : String) : Option Nat :=
  (labels.find? name).map (·.line)

/-- The address of a label that has to be declared. -/
def resolve (labels : Labels) (name : String) : Except LineError Word :=
  match labels.address? name with
  | some address => .ok address
  | none => .error (.labelNotFound name)

def size (labels : Labels) : Nat :=
  labels.entries.size

/-- Adds a declaration, which only holds if the name is new. -/
def declare (labels : Labels) (name : String) (d : Declaration) : Labels :=
  match labels.find? name with
  | some first =>
    { labels with redeclarations := labels.redeclarations.push ⟨name, first.line, d.line⟩ }
  | none => { labels with entries := labels.entries.insert name d }

end Labels

/-! ## Collecting labels -/

/-- The labels of the lines read so far, and the number of executable lines among them. -/
structure LabelScan where
  labels : Labels := {}
  executable : Word := 0

def LabelScan.next (s : LabelScan) (line : Line) : LabelScan :=
  match line.kind with
  | .instruction => { s with executable := s.executable + 1 }
  | .label =>
    let name := String.ofList (Text.trim line.text)
    { s with labels := s.labels.declare name ⟨s.executable, line.number⟩ }
  | .blank | .comment => s

def Labels.ofLines (lines : List Line) : Labels :=
  (lines.foldl LabelScan.next {}).labels

end WordMachine
