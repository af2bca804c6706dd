import WordMachine.CommandLine.Arguments
import WordMachine.CommandLine.Files

/-!
# Outcomes of tools

What a tool leaves behind apart from files: its exit code and what it prints.
-/

namespace WordMachine

structure Outcome where
  exit : UInt32
  stdout : String := ""
  /-- The standard error output as far as the end of its first line. What has caused an error may be
  told on further lines. -/
  stderr : String := ""
  deriving DecidableEq, Repr

namespace Outcome

def success (stdout : String) : Outcome where
  exit := 0
  stdout := stdout

def failure (message : String) : Outcome where
  exit := 1
  stderr := s!"Error: {message}\n"

/-- A tool that was not started, for the version or for arguments it does not understand. -/
def ofFault (version : String) : ArgumentFault → Outcome
  | .version => success s!"{version}\n"
  | .usage => { exit := 2, stderr := "error: the arguments are not understood\n" }

/-- The end of a tool that prints its result or says why it has none. -/
def ofResult : Except String String → Outcome
  | .ok stdout => success stdout
  | .error message => failure message

end Outcome

def joinLines (lines : List (List Char)) : String :=
  String.ofList (lines.flatMap (· ++ ['\n']))

/-- The source file that is used if no other is named. -/
def defaultSource : String :=
  "moncky2in/code.txt"

section

variable {m : Type → Type} [Monad m] [FileAccess m]

def readOr (message path : String) : ExceptT String m String := do
  match ← FileAccess.read? (m := m) path with
  | some content => return content
  | none => throw message

def readSource (path : String) : ExceptT String m String :=
  readOr s!"no code file at {path}" path

end

end WordMachine
