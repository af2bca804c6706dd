import WordMachine.Proofs.Text.Lines
import WordMachine.Source.Program

/-!
# Sources that are joined from lines

The lines of a program whose source is joined from texts, none of which is empty
(`Program.lines_intercalate`). Where all of them are instructions, they are the executable lines.
-/

namespace WordMachine

/-- Whether a line holds an instruction. -/
def Line.isExecutable (line : Line) : Bool :=
  line.kind == .instruction

theorem Program.toList_executable (lines : List Line) :
    (ofLines lines).executable.toList = lines.filter Line.isExecutable :=
  rfl

/-- A line of a source is known from its number. -/
theorem Program.eq_of_number_eq {source : String} {line line' : Line}
    (h : line ∈ (ofSource source).lines) (h' : line' ∈ (ofSource source).lines)
    (hnumber : line.number = line'.number) : line = line' := by
  obtain ⟨⟨text, number⟩, htext, rfl⟩ := List.mem_map.1 h
  obtain ⟨⟨text', number'⟩, htext', rfl⟩ := List.mem_map.1 h'
  obtain rfl : number = number' := hnumber
  have hget := (List.mk_mem_zipIdx_iff_le_and_getElem?_sub.1 htext).2
  have hget' := (List.mk_mem_zipIdx_iff_le_and_getElem?_sub.1 htext').2
  obtain rfl : text = text' := Option.some.inj (hget.symm.trans hget')
  rfl

/-- A text as the line with a number. -/
def Line.ofText (text : List Char) (number : Nat) : Line :=
  ⟨number, Text.trim text⟩

section Joined

variable {texts : List String} (hne : ∀ t ∈ texts, t.toList ≠ [])
  (hline : ∀ t ∈ texts, '\n' ∉ t.toList)

include hne hline

/-- The lines of texts that are joined. -/
theorem Program.lines_intercalate :
    (ofSource ("\n".intercalate texts)).lines =
      (texts.zipIdx 1).map fun x => .ofText x.1.toList x.2 := by
  have hlines : Text.lines ("\n".intercalate texts).toList = texts.map String.toList := by
    rw [String.toList_intercalate]
    apply Text.lines_intercalate
    · intro t ht
      obtain ⟨s, hs, rfl⟩ := List.mem_map.1 ht
      exact hne s hs
    · intro t ht
      obtain ⟨s, hs, rfl⟩ := List.mem_map.1 ht
      exact hline s hs
  have hsource : (ofSource ("\n".intercalate texts)).lines =
      numberedLines ("\n".intercalate texts).toList := rfl
  rw [hsource, numberedLines, hlines, List.zipIdx_map, List.map_map]
  rfl

/-- Where all texts are instructions, they are the executable lines. -/
theorem Program.executable_intercalate
    (hkind : ∀ t ∈ texts, Line.Kind.ofText (Text.trim t.toList) = .instruction) :
    (ofSource ("\n".intercalate texts)).executable.toList =
      (texts.zipIdx 1).map fun x => .ofText x.1.toList x.2 := by
  have hexecutable : (ofSource ("\n".intercalate texts)).executable.toList =
      (ofSource ("\n".intercalate texts)).lines.filter Line.isExecutable := toList_executable _
  rw [hexecutable, lines_intercalate hne hline, List.filter_eq_self]
  intro line hmem
  obtain ⟨⟨t, number⟩, hzip, rfl⟩ := List.mem_map.1 hmem
  rw [Line.isExecutable, beq_iff_eq]
  exact hkind t (List.fst_mem_of_mem_zipIdx hzip)

end Joined

end WordMachine
