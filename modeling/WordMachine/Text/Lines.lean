/-!
# The lines of a text

A newline ends a line, so a text that ends in one has no empty line behind it. A carriage return
before a newline stays on its line: it is blank, and every reader of lines trims or splits at
blanks.
-/

namespace WordMachine.Text

def lines (cs : List Char) : List (List Char) :=
  let pieces := cs.splitOn '\n'
  if pieces.getLast? = some [] then pieces.dropLast else pieces

end WordMachine.Text
