import WordMachine.CommandLine.Assembler
import WordMachine.CommandLine.Simulator

/-!
# The program

Both tools on the files of the system. The first argument names the tool.
-/

namespace WordMachine

def succeeds (action : IO Unit) : IO Bool :=
  try
    action
    return true
  catch _ => return false

instance : FileAccess IO where
  read? path :=
    try
      return some (← IO.FS.readFile path)
    catch _ => return none
  makeDirectory path := succeeds (IO.FS.createDirAll path)
  write path content := succeeds (IO.FS.writeFile path content)

end WordMachine

open WordMachine

def main (args : List String) : IO UInt32 := do
  let outcome ←
    match args with
    | "run" :: args => Simulator.run args
    | "asm" :: args => Assembler.run args
    | _ => pure (Outcome.ofFault "" .usage)
  IO.print outcome.stdout
  IO.eprint outcome.stderr
  return outcome.exit
