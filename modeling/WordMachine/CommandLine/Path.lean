/-!
# Paths

Names of files as they are given on a command line: components separated by slashes. An empty
component and a single dot stand for the directory they are in.
-/

namespace WordMachine.Path

def components (path : String) : List (List Char) :=
  path.toList.splitOn '/'

/-- Whether a component stands for the directory it is in. -/
def isTrivial (component : List Char) : Bool :=
  component == [] || component == ['.']

/-- Drops the components at the end that lead nowhere. A dot at the front of a path is kept. -/
def dropTrivial (cs : List (List Char)) : List (List Char) :=
  cs.take 1 ++ ((cs.drop 1).reverse.dropWhile isTrivial).reverse

/-- The path of the directory that a path stands in, empty if it is a single component. -/
def parent (path : String) : String :=
  let kept := dropTrivial (dropTrivial (components path)).dropLast
  if kept = [[]] then "/" else String.ofList (['/'].intercalate kept)

end WordMachine.Path
