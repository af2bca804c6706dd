import WordMachine.Machine.Step

/-!
# Images

The words that a program assembles to: one for each executable line in order, up to and including
the first `halt`. An instruction's position in the image is its address.
-/

namespace WordMachine

/-- The words of an image, by address. -/
abbrev Image := Array Word

namespace Program

def assembleFrom (p : Program) (image : Image) : List Line → Except Trap Image
  | [] => .ok image
  | line :: lines =>
    match p.decodeLine line with
    | .error trap => .error trap
    | .ok (instruction, word) =>
      if instruction.op = .halt then .ok (image.push word)
      else p.assembleFrom (image.push word) lines

/-- The image of a program. -/
def assemble (p : Program) : Except Trap Image :=
  p.assembleFrom #[] p.executable.toList

end Program

end WordMachine
