import Mathlib.Data.List.Basic
import WordMachine.Proofs.Source.Lines

/-!
# What the labels of lines are

The labels that are collected from lines, told from the lines alone. A name belongs to the first
line that declares it (`Line.IsFirst`), and the later declarations are told by their positions
(`Line.redeclarations`). A scan keeps this of the lines that it has read so far, whatever stands on
the next one (`LabelScan.Describes.next`), and so it holds of all of them (`labels_of_lines`).
-/

namespace WordMachine

/-! ## Declarations among lines -/

namespace Line

/-- The name that a line has if it declares a label. -/
def name (line : Line) : String :=
  String.ofList (Text.trim line.text)

def isLabel (line : Line) : Bool :=
  line.kind == .label

/-- Whether a line declares a label with a name. -/
def declares (name : String) (line : Line) : Bool :=
  line.isLabel && line.name == name

/-- Whether a line is the first one to declare a name, and other lines are all those before it. -/
structure IsFirst (name : String) (lines before : List Line) (line : Line) : Prop where
  split : ∃ after, lines = before ++ line :: after
  declares : line.declares name = true
  undeclared : ∀ l ∈ before, l.declares name = false

namespace IsFirst

variable {name : String} {lines before : List Line} {line : Line}
  (h : IsFirst name lines before line)

include h

theorem find?_eq : lines.find? (Line.declares name) = some line := by
  obtain ⟨after, hsplit⟩ := h.split
  rw [List.find?_eq_some_iff_append]
  refine ⟨h.declares, before, after, hsplit, ?_⟩
  intro l hl
  rw [h.undeclared l hl, Bool.not_false]

theorem takeWhile_eq : (lines.takeWhile fun l => !l.declares name) = before := by
  obtain ⟨after, hsplit⟩ := h.split
  rw [hsplit, List.takeWhile_append_of_pos, List.takeWhile_cons_of_neg, List.append_nil]
  · rw [h.declares]
    decide
  · intro l hl
    rw [h.undeclared l hl, Bool.not_false]

/-- Later lines do not matter. -/
theorem append (later : List Line) : IsFirst name (lines ++ later) before line := by
  obtain ⟨after, rfl⟩ := h.split
  exact ⟨⟨after ++ later, by simp⟩, h.declares, h.undeclared⟩

end IsFirst

theorem exists_isFirst {name : String} {lines : List Line} {line : Line}
    (h : lines.find? (declares name) = some line) : ∃ before, IsFirst name lines before line := by
  obtain ⟨hdeclares, before, after, hsplit, hbefore⟩ := List.find?_eq_some_iff_append.1 h
  refine ⟨before, ⟨after, hsplit⟩, hdeclares, ?_⟩
  intro l hl
  simpa using hbefore l hl

/-- What a line declares again, behind other lines. -/
def redeclaration? (before : List Line) (line : Line) : Option Redeclaration :=
  if line.isLabel then
    (before.find? (declares line.name)).map fun first => ⟨line.name, first.number, line.number⟩
  else none

/-- What lines declare again, each of them behind the lines in front of its position. -/
def redeclarations (lines : List Line) : List Redeclaration :=
  lines.zipIdx.filterMap fun x => redeclaration? (lines.take x.2) x.1

theorem redeclarations_append_singleton (lines : List Line) (line : Line) :
    redeclarations (lines ++ [line]) =
      redeclarations lines ++ (redeclaration? lines line).toList := by
  have hlast : (lines ++ [line]).take lines.length = lines := by simp
  rw [redeclarations, List.zipIdx_append, List.filterMap_append, redeclarations]
  congr 1
  · apply List.filterMap_congr
    intro x hx
    have hlt : x.2 < lines.length := by
      have hindex := List.snd_lt_of_mem_zipIdx hx
      omega
    rw [List.take_append_of_le_length (Nat.le_of_lt hlt)]
  · cases hline : redeclaration? lines line with
    | none => simp [hlast, hline]
    | some r => simp [hlast, hline]

/-- What is declared again has a first declaration. -/
theorem exists_isFirst_of_mem_redeclarations {lines : List Line} {r : Redeclaration}
    (h : r ∈ redeclarations lines) :
    ∃ before first, IsFirst r.name lines before first ∧ first.number = r.firstLine := by
  obtain ⟨⟨line, n⟩, -, hr⟩ := List.mem_filterMap.1 h
  unfold redeclaration? at hr
  split at hr
  · obtain ⟨first, hfirst, rfl⟩ := Option.map_eq_some_iff.1 hr
    obtain ⟨before, hbefore⟩ := exists_isFirst hfirst
    have hlines := hbefore.append (lines.drop n)
    rw [List.take_append_drop] at hlines
    exact ⟨before, first, hlines, rfl⟩
  · cases hr

end Line

/-! ## Adding a declaration -/

/-- A declaration is found under its name, unless there was one before it. -/
theorem Labels.find?_declare (labels : Labels) (name other : String) (d : Declaration) :
    (labels.declare other d).find? name =
      (labels.find? name).or (if other = name then some d else none) := by
  unfold declare
  split
  · next first hfirst =>
    by_cases hother : other = name
    · subst hother
      show labels.find? other = _
      rw [hfirst, Option.some_or]
    · rw [if_neg hother, Option.or_none]
      rfl
  · next hnone =>
    by_cases hother : other = name
    · subst hother
      rw [hnone, Option.none_or, if_pos rfl]
      exact Std.HashMap.getElem?_insert_self
    · rw [if_neg hother, Option.or_none]
      simp [find?, Std.HashMap.getElem?_insert, hother]

namespace Labels

variable (labels : Labels) (name : String) (d : Declaration)

/-- A declaration of a name that is known is kept apart. -/
theorem redeclarations_declare :
    (labels.declare name d).redeclarations.toList =
      labels.redeclarations.toList ++
        ((labels.find? name).map fun first => ⟨name, first.line, d.line⟩).toList := by
  unfold declare
  split
  · next first hfirst => simp [hfirst]
  · next hnone => simp [hnone]

/-- Each declaration goes to one of two places. -/
theorem size_declare :
    (labels.declare name d).size + (labels.declare name d).redeclarations.size =
      labels.size + labels.redeclarations.size + 1 := by
  unfold declare
  split
  · next first hfirst =>
    simp only [size, Array.size_push]
    omega
  · next hnone =>
    have hnew : name ∉ labels.entries := by
      intro hmem
      rw [find?, Std.HashMap.getElem?_eq_some_getElem hmem] at hnone
      cases hnone
    simp only [size, Std.HashMap.size_insert, if_neg hnew]
    omega

end Labels

/-! ## Scanning -/

namespace LabelScan

variable (s : LabelScan) (line : Line)

/-- The count of instructions goes up by one at an instruction. -/
theorem executable_next :
    (s.next line).executable = s.executable + if line.isExecutable then 1 else 0 := by
  cases h : line.kind with
  | instruction => simp [next, Line.isExecutable, h]
  | label => simp [next, Line.isExecutable, h]
  | blank => simp [next, Line.isExecutable, h]
  | comment => simp [next, Line.isExecutable, h]

theorem labels_next :
    (s.next line).labels =
      if line.isLabel then s.labels.declare line.name ⟨s.executable, line.number⟩
      else s.labels := by
  cases hkind : line.kind with
  | label => simp [next, Line.isLabel, Line.name, hkind]
  | instruction => simp [next, Line.isLabel, hkind]
  | blank => simp [next, Line.isLabel, hkind]
  | comment => simp [next, Line.isLabel, hkind]

/-- A declaration is found under its name from then on. -/
theorem find?_labels_next (name : String) :
    (s.next line).labels.find? name =
      (s.labels.find? name).or
        (if line.declares name then some ⟨s.executable, line.number⟩ else none) := by
  rw [labels_next]
  by_cases hlabel : line.isLabel = true
  · simp [hlabel, Labels.find?_declare, Line.declares]
  · simp [hlabel, Line.declares]

/-- Whether a scan knows what there is to know of the lines that it has read. -/
structure Describes (s : LabelScan) (lines : List Line) : Prop where
  executable : s.executable = UInt16.ofNat (lines.countP Line.isExecutable)
  find? : ∀ name, s.labels.find? name =
    (lines.find? (Line.declares name)).map fun line =>
      ⟨UInt16.ofNat ((lines.takeWhile fun l => !l.declares name).countP Line.isExecutable),
        line.number⟩
  redeclarations : s.labels.redeclarations.toList = Line.redeclarations lines
  size : s.labels.size + s.labels.redeclarations.size = lines.countP Line.isLabel

namespace Describes

theorem nil : Describes {} [] where
  executable := rfl
  find? name := by simp [Labels.find?]
  redeclarations := rfl
  size := rfl

variable {s : LabelScan} {lines : List Line}

/-- A line leaves a scan right about the lines that it has read. -/
theorem next (h : s.Describes lines) (line : Line) :
    (s.next line).Describes (lines ++ [line]) where
  executable := by
    rw [executable_next, h.executable, List.countP_append, List.countP_singleton, UInt16.ofNat_add]
    split <;> rfl
  find? name := by
    rw [find?_labels_next, h.find?, h.executable]
    cases hfirst : lines.find? (Line.declares name) with
    | some first =>
      obtain ⟨before, hbefore⟩ := Line.exists_isFirst hfirst
      have hkept := hbefore.append [line]
      rw [hkept.find?_eq, hkept.takeWhile_eq, hbefore.takeWhile_eq]
      rfl
    | none =>
      by_cases hline : line.declares name = true
      · have hundeclared : ∀ l ∈ lines, l.declares name = false := by
          simpa using hfirst
        have hnew : Line.IsFirst name (lines ++ [line]) lines line :=
          ⟨⟨[], rfl⟩, hline, hundeclared⟩
        rw [hnew.find?_eq, hnew.takeWhile_eq, if_pos hline]
        rfl
      · simp [List.find?_append, hfirst, hline]
  redeclarations := by
    rw [labels_next, Line.redeclarations_append_singleton, ← h.redeclarations]
    by_cases hlabel : line.isLabel = true
    · rw [if_pos hlabel, Labels.redeclarations_declare, Line.redeclaration?, if_pos hlabel, h.find?,
        Option.map_map]
      rfl
    · rw [if_neg hlabel, Line.redeclaration?, if_neg hlabel]
      simp
  size := by
    rw [labels_next, List.countP_append, List.countP_singleton, ← h.size]
    by_cases hlabel : line.isLabel = true
    · rw [if_pos hlabel, if_pos hlabel, Labels.size_declare]
    · rw [if_neg hlabel, if_neg hlabel, Nat.add_zero]

theorem foldl (h : s.Describes lines) (later : List Line) :
    (later.foldl LabelScan.next s).Describes (lines ++ later) := by
  induction later generalizing s lines with
  | nil => simpa using h
  | cons line later ih =>
    rw [List.foldl_cons, ← List.singleton_append, ← List.append_assoc]
    exact ih (h.next line)

end Describes

end LabelScan

/-! ## The labels of lines -/

theorem exists_describes (lines : List Line) :
    ∃ s : LabelScan, s.labels = Labels.ofLines lines ∧ s.Describes lines :=
  ⟨lines.foldl LabelScan.next {}, rfl, LabelScan.Describes.nil.foldl lines⟩

/-- A name is found as it is declared first. -/
theorem find?_ofLines_eq_some_iff {lines : List Line} {name : String} {d : Declaration} :
    (Labels.ofLines lines).find? name = some d ↔
      ∃ before line, Line.IsFirst name lines before line ∧
        d = ⟨UInt16.ofNat (before.countP Line.isExecutable), line.number⟩ := by
  obtain ⟨s, hlabels, hs⟩ := exists_describes lines
  rw [← hlabels, hs.find?, Option.map_eq_some_iff]
  constructor
  · intro h
    obtain ⟨line, hline, rfl⟩ := h
    obtain ⟨before, hbefore⟩ := Line.exists_isFirst hline
    exact ⟨before, line, hbefore, by rw [hbefore.takeWhile_eq]⟩
  · intro h
    obtain ⟨before, line, hbefore, rfl⟩ := h
    exact ⟨line, hbefore.find?_eq, by rw [hbefore.takeWhile_eq]⟩

theorem redeclarations_ofLines (lines : List Line) :
    (Labels.ofLines lines).redeclarations.toList = Line.redeclarations lines := by
  obtain ⟨s, hlabels, hs⟩ := exists_describes lines
  rw [← hlabels]
  exact hs.redeclarations

/-- **What the labels of lines are.** A name is declared if a line that declares a label has it as
its trimmed text. It stands for the number of instructions before the first such line, modulo 65536,
and is declared there. What is declared again is told apart, in order, with the number of its line
and that of the first declaration. Each declaration is counted once. -/
theorem labels_of_lines (lines : List Line) :
    (∀ name, ((Labels.ofLines lines).find? name).isSome = true ↔
      ∃ line ∈ lines, line.declares name = true) ∧
    (∀ name address, (Labels.ofLines lines).address? name = some address ↔
      ∃ before line, Line.IsFirst name lines before line ∧
        address.toNat = before.countP Line.isExecutable % 65536) ∧
    (∀ name number, (Labels.ofLines lines).line? name = some number ↔
      ∃ before line, Line.IsFirst name lines before line ∧ number = line.number) ∧
    (Labels.ofLines lines).redeclarations.toList = Line.redeclarations lines ∧
    (Labels.ofLines lines).size + (Labels.ofLines lines).redeclarations.size =
      lines.countP Line.isLabel := by
  refine ⟨?_, ?_, ?_, ?_⟩
  · intro name
    obtain ⟨s, hlabels, hs⟩ := exists_describes lines
    rw [← hlabels, hs.find?, Option.isSome_map, List.find?_isSome]
  · intro name address
    rw [Labels.address?, Option.map_eq_some_iff]
    constructor
    · intro h
      obtain ⟨d, hd, rfl⟩ := h
      obtain ⟨before, line, hbefore, rfl⟩ := find?_ofLines_eq_some_iff.1 hd
      exact ⟨before, line, hbefore, UInt16.toNat_ofNat'⟩
    · intro h
      obtain ⟨before, line, hbefore, haddress⟩ := h
      refine ⟨_, find?_ofLines_eq_some_iff.2 ⟨before, line, hbefore, rfl⟩, ?_⟩
      rw [← UInt16.toNat_inj, haddress, UInt16.toNat_ofNat']
  · intro name number
    rw [Labels.line?, Option.map_eq_some_iff]
    constructor
    · intro h
      obtain ⟨d, hd, rfl⟩ := h
      obtain ⟨before, line, hbefore, rfl⟩ := find?_ofLines_eq_some_iff.1 hd
      exact ⟨before, line, hbefore, rfl⟩
    · intro h
      obtain ⟨before, line, hbefore, rfl⟩ := h
      exact ⟨_, find?_ofLines_eq_some_iff.2 ⟨before, line, hbefore, rfl⟩, rfl⟩
  · obtain ⟨s, hlabels, hs⟩ := exists_describes lines
    rw [← hlabels]
    exact ⟨hs.redeclarations, hs.size⟩

end WordMachine
