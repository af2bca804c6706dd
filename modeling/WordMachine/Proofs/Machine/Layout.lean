import Mathlib.Order.Monotone.Basic
import WordMachine.Proofs.Machine.Renumbering
import WordMachine.Proofs.Source.Edit
import WordMachine.Proofs.Source.LabelAddress

/-!
# Layout

Blank lines and comments between the lines of a source, blanks around a line and comments behind an
instruction (`Relaid`) are layout. The lines keep their order and move to other positions
(`Carries`). The instructions are the same ones with other line numbers (`exists_carries`), and the
labels have the same addresses (`LabelScan.Agrees.foldl`), so the program has no other meaning
(`layout_preserves`).
-/

namespace WordMachine

/-! ## Lines of a new layout -/

/-- Whether a text is no more than layout. It is blank, or begins with a semicolon. -/
def Line.Inert (text : List Char) : Prop :=
  Kind.ofText text = .blank ∨ Kind.ofText text = .comment

/-- Whether lines are others in a new layout. Blank lines and comments may stand between them, and
each line may be edited. -/
inductive Relaid : List (List Char) → List (List Char) → Prop
  | nil : Relaid [] []
  | insert {old new : List (List Char)} {text : List Char} (hinert : Line.Inert text)
      (h : Relaid old new) : Relaid old (text :: new)
  | keep {old new : List (List Char)} {text text' : List Char} (hedited : Line.Edited text text')
      (h : Relaid old new) : Relaid (text :: old) (text' :: new)

theorem Line.Edited.inert {text text' : List Char} (h : Edited text text') (hinert : Inert text) :
    Inert text' := by
  rwa [Inert, h.kind_eq]

namespace Relaid

protected theorem refl (texts : List (List Char)) : Relaid texts texts := by
  induction texts with
  | nil => exact .nil
  | cons text texts ih => exact .keep (.refl text) ih

/-- A layout can be changed again. -/
protected theorem trans {first second third : List (List Char)} (h : Relaid first second)
    (h' : Relaid second third) : Relaid first third := by
  induction h' generalizing first with
  | nil => exact h
  | insert hinert _ ih => exact .insert hinert (ih h)
  | keep hedited _ ih =>
    cases h with
    | insert hinert h => exact .insert (hedited.inert hinert) (ih h)
    | keep hedited₀ h => exact .keep (hedited₀.trans hedited) (ih h)

theorem not_mem_newline {old new : List (List Char)} (h : Relaid old new)
    (hnew : ∀ t ∈ new, '\n' ∉ t) : ∀ t ∈ old, '\n' ∉ t := by
  induction h with
  | nil => exact hnew
  | insert _ _ ih => exact ih fun t ht => hnew t (List.mem_cons_of_mem _ ht)
  | keep hedited _ ih =>
    rw [List.forall_mem_cons] at hnew ⊢
    exact ⟨fun hnewline => hnew.1 (hedited.subset hnewline), ih hnew.2⟩

end Relaid

/-! ## Positions -/

/-- Whether each old line stands, edited, at its position among the new lines, in the same order as
before and with nothing but layout at the other positions. -/
structure Carries (old new : List (List Char)) (position : Nat → Nat) : Prop where
  strictMono : StrictMono position
  edited : ∀ {k : Nat} {text : List Char}, old[k]? = some text →
    ∃ text', new[position k]? = some text' ∧ Line.Edited text text'
  inert : ∀ {k : Nat} {text : List Char}, new[k]? = some text →
    (∃ j < old.length, position j = k) ∨ Line.Inert text

/-- Positions behind a line that is kept. -/
def keepFirst (position : Nat → Nat) : Nat → Nat
  | 0 => 0
  | k + 1 => position k + 1

namespace Carries

variable {old new : List (List Char)} {position : Nat → Nat}

theorem nil : Carries [] [] id where
  strictMono := strictMono_id
  edited h := nomatch h
  inert h := nomatch h

variable (h : Carries old new position)

include h

theorem insert {text : List Char} (hinert : Line.Inert text) :
    Carries old (text :: new) fun k => position k + 1 where
  strictMono _ _ hlt := Nat.succ_lt_succ (h.strictMono hlt)
  edited htext := by
    rw [List.getElem?_cons_succ]
    exact h.edited htext
  inert {k t} htext := by
    cases k with
    | zero =>
      rw [List.getElem?_cons_zero, Option.some.injEq] at htext
      exact .inr (htext ▸ hinert)
    | succ k =>
      rw [List.getElem?_cons_succ] at htext
      refine (h.inert htext).imp_left ?_
      rintro ⟨j, hj, rfl⟩
      exact ⟨j, hj, rfl⟩

theorem keep {text text' : List Char} (hedited : Line.Edited text text') :
    Carries (text :: old) (text' :: new) (keepFirst position) where
  strictMono := by
    apply strictMono_nat_of_lt_succ
    intro k
    cases k with
    | zero => exact Nat.succ_pos _
    | succ k => exact Nat.succ_lt_succ (h.strictMono (Nat.lt_succ_self k))
  edited {k t} htext := by
    cases k with
    | zero =>
      rw [List.getElem?_cons_zero, Option.some.injEq] at htext
      exact ⟨text', rfl, htext ▸ hedited⟩
    | succ k =>
      rw [List.getElem?_cons_succ] at htext
      rw [keepFirst, List.getElem?_cons_succ]
      exact h.edited htext
  inert {k t} htext := by
    cases k with
    | zero => exact .inl ⟨0, Nat.succ_pos _, rfl⟩
    | succ k =>
      rw [List.getElem?_cons_succ] at htext
      refine (h.inert htext).imp_left ?_
      rintro ⟨j, hj, rfl⟩
      exact ⟨j + 1, Nat.succ_lt_succ hj, rfl⟩

end Carries

/-! ## Numbered lines -/

/-- Texts as lines, numbered from a number on. -/
def Line.numbered (texts : List (List Char)) (first : Nat) : List Line :=
  (texts.zipIdx first).map fun x => .ofText x.1 x.2

namespace Line

theorem numbered_cons (text : List Char) (texts : List (List Char)) (first : Nat) :
    numbered (text :: texts) first = ofText text first :: numbered texts (first + 1) :=
  rfl

theorem numbered_append (texts texts' : List (List Char)) (first : Nat) :
    numbered (texts ++ texts') first =
      numbered texts first ++ numbered texts' (first + texts.length) := by
  rw [numbered, List.zipIdx_append, List.map_append]
  rfl

theorem kind_ofText (text : List Char) (number : Nat) :
    (ofText text number).kind = Kind.ofText text :=
  (Edited.trim text).kind_eq.symm

theorem isExecutable_ofText (text : List Char) (number : Nat) :
    (ofText text number).isExecutable = (Kind.ofText text == .instruction) := by
  rw [isExecutable, kind_ofText]

end Line

/-- The source with the given lines. -/
def Program.source (texts : List (List Char)) : String :=
  String.ofList (['\n'].intercalate texts)

/-! ## Instructions -/

/-- Lines in a new layout have the same instructions, whose numbers are those of their new
positions. -/
theorem exists_carries {old new : List (List Char)} (h : Relaid old new) :
    ∃ position, Carries old new position ∧ ∀ {f : Nat → Nat} {a b : Nat},
      (∀ k, f (a + k) = b + position k) →
        List.Forall₂ (Line.Renumbered f) ((Line.numbered old a).filter Line.isExecutable)
          ((Line.numbered new b).filter Line.isExecutable) := by
  induction h with
  | nil => exact ⟨id, .nil, fun _ => .nil⟩
  | @insert old new text hinert _ ih =>
    obtain ⟨position, hcarries, hlines⟩ := ih
    refine ⟨_, hcarries.insert hinert, ?_⟩
    intro f a b hf
    have hexecutable : ¬(Line.ofText text b).isExecutable = true := by
      rw [Line.isExecutable_ofText]
      rcases hinert with hkind | hkind
      · simp [hkind]
      · simp [hkind]
    rw [Line.numbered_cons, List.filter_cons_of_neg hexecutable]
    apply hlines
    intro k
    rw [hf]
    omega
  | @keep old new text text' hedited _ ih =>
    obtain ⟨position, hcarries, hlines⟩ := ih
    refine ⟨_, hcarries.keep hedited, ?_⟩
    intro f a b hf
    have hrest : List.Forall₂ (Line.Renumbered f)
        ((Line.numbered old (a + 1)).filter Line.isExecutable)
        ((Line.numbered new (b + 1)).filter Line.isExecutable) := by
      apply hlines
      intro k
      rw [Nat.add_right_comm a, Nat.add_assoc, hf, keepFirst]
      omega
    have hline : (Line.ofText text a).Renumbered f (Line.ofText text' b) := by
      refine ⟨(hf 0).symm, ?_⟩
      rw [Line.ofText, Line.ofText, ← (Line.Edited.trim text').tokens_eq,
        ← (Line.Edited.trim text).tokens_eq, hedited.tokens_eq]
    have hexecutable : (Line.ofText text' b).isExecutable = (Line.ofText text a).isExecutable := by
      rw [Line.isExecutable_ofText, Line.isExecutable_ofText, hedited.kind_eq]
    rw [Line.numbered_cons, Line.numbered_cons, List.filter_cons, List.filter_cons, hexecutable]
    split
    · exact .cons hline hrest
    · exact hrest

/-! ## Labels -/

/-- Whether two scans have counted the same number of instructions and given the same addresses. -/
structure LabelScan.Agrees (s s' : LabelScan) : Prop where
  executable : s'.executable = s.executable
  address? : ∀ name, s'.labels.address? name = s.labels.address? name

theorem Labels.address?_declare (labels : Labels) (name other : String) (d : Declaration) :
    (labels.declare other d).address? name =
      (labels.address? name).or (if other = name then some d.address else none) := by
  rw [address?, find?_declare, address?]
  cases labels.find? name with
  | some first => rfl
  | none =>
    rw [Option.none_or, Option.map_none, Option.none_or]
    split <;> rfl

namespace LabelScan

variable {s s' : LabelScan}

theorem next_of_inert {text : List Char} (h : Line.Inert text) (number : Nat) :
    s.next (.ofText text number) = s := by
  rw [next, Line.kind_ofText]
  rcases h with h | h
  · rw [h]
  · rw [h]

/-- A line is scanned in the same way when it is edited. -/
theorem Agrees.next (h : s.Agrees s') {text text' : List Char} (hedited : Line.Edited text text')
    (number number' : Nat) :
    (s.next (.ofText text number)).Agrees (s'.next (.ofText text' number')) := by
  have hkind' : (Line.ofText text' number').kind = Line.Kind.ofText text := by
    rw [Line.kind_ofText, hedited.kind_eq]
  rw [LabelScan.next, LabelScan.next, hkind', Line.kind_ofText]
  cases hkind : Line.Kind.ofText text with
  | blank => exact h
  | comment => exact h
  | instruction => exact ⟨congrArg (· + 1) h.executable, h.address?⟩
  | label =>
    have hlabel : Line.Kind.ofText text ≠ .instruction := by
      rw [hkind]
      decide
    refine ⟨h.executable, fun name => ?_⟩
    simp only [Line.ofText, Labels.address?_declare, h.address?, h.executable,
      hedited.trim_eq hlabel]

/-- Scans of lines that agree so far agree in the end, in the new layout. -/
theorem Agrees.foldl {old new : List (List Char)} (hrelaid : Relaid old new) (h : s.Agrees s')
    (a b : Nat) :
    ((Line.numbered old a).foldl LabelScan.next s).Agrees
      ((Line.numbered new b).foldl LabelScan.next s') := by
  induction hrelaid generalizing s s' a b with
  | nil => exact h
  | insert hinert _ ih =>
    rw [Line.numbered_cons, List.foldl_cons, next_of_inert hinert]
    exact ih h a (b + 1)
  | keep hedited _ ih =>
    rw [Line.numbered_cons, Line.numbered_cons, List.foldl_cons, List.foldl_cons]
    exact ih (h.next hedited a b) (a + 1) (b + 1)

end LabelScan

/-! ## Sources -/

section Source

variable {texts : List (List Char)} (hline : ∀ t ∈ texts, '\n' ∉ t)

include hline

/-- A source has the lines that it is made of, but for an empty one at its end. -/
theorem exists_ofLines_eq :
    ∃ lines, Program.ofSource (Program.source texts) = .ofLines lines ∧
      (Line.numbered texts 1 = lines ∨
        ∃ number, Line.numbered texts 1 = lines ++ [.ofText [] number]) := by
  refine ⟨Line.numbered (Text.lines (['\n'].intercalate texts)) 1, ?_, ?_⟩
  · rw [Program.source, Program.ofSource, String.toList_ofList]
    rfl
  · obtain ⟨rest, htexts, rfl | rfl⟩ := Text.exists_intercalate_eq hline
    · rw [List.append_nil] at htexts
      exact .inl (by rw [← htexts])
    · have hnumbered := congrArg (Line.numbered · 1) htexts
      rw [Line.numbered_append] at hnumbered
      exact .inr ⟨_, hnumbered⟩

theorem executable_source :
    (Program.ofSource (Program.source texts)).executable.toList =
      (Line.numbered texts 1).filter Line.isExecutable := by
  obtain ⟨lines, hsource, hnumbered | ⟨number, hnumbered⟩⟩ := exists_ofLines_eq hline
  · rw [hsource, hnumbered, Program.toList_executable]
  · have hempty : [Line.ofText [] number].filter Line.isExecutable = [] := rfl
    rw [hsource, hnumbered, Program.toList_executable, List.filter_append, hempty, List.append_nil]

theorem labels_source :
    (Program.ofSource (Program.source texts)).labels = Labels.ofLines (Line.numbered texts 1) := by
  obtain ⟨lines, hsource, hnumbered | ⟨number, hnumbered⟩⟩ := exists_ofLines_eq hline
  · rw [hsource, hnumbered]
    rfl
  · have hempty : Labels.ofLines (lines ++ [.ofText [] number]) = Labels.ofLines lines := by
      rw [Labels.ofLines, Labels.ofLines, List.foldl_concat, LabelScan.next_of_inert (.inl rfl)]
    rw [hsource, hnumbered, hempty]
    rfl

end Source

/-! ## The meaning of a layout -/

/-- The number of a line in a new layout, from its number in the old one. -/
def lineNumber (position : Nat → Nat) (number : Nat) : Nat :=
  position (number - 1) + 1

/-- Whether two programs have the same meaning but for the numbers of their lines. Their labels
have the same addresses, they have as many instructions and the same image, and each machine has
the same run of the one and of the other: it ends in the same state, with the same trace or with the
same trap, whose line is the other number of the line where there is one. -/
structure Program.SameMeaning (f : Nat → Nat) (p q : Program) : Prop where
  address? : ∀ name, q.labels.address? name = p.labels.address? name
  size : q.size = p.size
  assemble : q.assemble = p.assemble.mapError (Trap.renumber f)
  run : ∀ (m : Machine) (settings : Settings),
    m.run q settings = ((m.run p settings).1.mapError (Trap.renumber f), (m.run p settings).2)

/-- **Layout has no meaning.** In a new layout each line stands at some position, and the program
has the same meaning, with the numbers of these positions for the numbers of its lines. -/
theorem layout_preserves {old new : List (List Char)} (h : Relaid old new)
    (hnew : ∀ t ∈ new, '\n' ∉ t) :
    ∃ position, Carries old new position ∧
      (Program.ofSource (Program.source old)).SameMeaning (lineNumber position)
        (Program.ofSource (Program.source new)) := by
  have hold := h.not_mem_newline hnew
  obtain ⟨position, hcarries, hlines⟩ := exists_carries h
  refine ⟨position, hcarries, ?_⟩
  have hrenumbered : (Program.ofSource (Program.source old)).Renumbered (lineNumber position)
      (Program.ofSource (Program.source new)) := by
    constructor
    · rw [executable_source hold, executable_source hnew]
      apply hlines
      intro k
      rw [lineNumber, Nat.add_sub_cancel_left, Nat.add_comm]
    · have hagrees : LabelScan.Agrees {} {} := ⟨rfl, fun _ => rfl⟩
      rw [labels_source hold, labels_source hnew]
      exact (hagrees.foldl h 1 1).address?
  exact ⟨hrenumbered.address?, hrenumbered.size_eq, assemble_renumbered hrenumbered,
    Machine.run_renumbered hrenumbered⟩

/-- A source whose last line is refused. -/
def plainTexts : List (List Char) :=
  [":top".toList, "li r1, :top".toList, "jp (r16)".toList]

/-- The same source with a comment before it, a blank line, a comment on a line and blanks. -/
def commentedTexts : List (List Char) :=
  ["; start".toList, " ".toList ++ ":top".toList ++ "\t".toList, [],
    [] ++ "li r1, :top".toList ++ " ".toList ++ ';' :: " back".toList,
    "  ".toList ++ "jp (r16)".toList ++ []]

theorem layout_preserves_commented :
    Relaid plainTexts commentedTexts ∧ (∀ t ∈ commentedTexts, '\n' ∉ t) ∧
      ∃ position, Carries plainTexts commentedTexts position ∧
        (Program.ofSource (Program.source plainTexts)).SameMeaning (lineNumber position)
          (Program.ofSource (Program.source commentedTexts)) := by
  have hblank {cs : List Char} (h : cs.all Text.isBlank = true) : ∀ c ∈ cs, Text.isBlank c = true :=
    List.all_eq_true.1 h
  have hlabel : Line.Edited ":top".toList (" ".toList ++ ":top".toList ++ "\t".toList) :=
    .pad (hblank (by decide +kernel)) (hblank (by decide +kernel))
  have hload : Line.Edited "li r1, :top".toList
      ([] ++ "li r1, :top".toList ++ " ".toList ++ ';' :: " back".toList) :=
    .comment _ (by decide +kernel) (hblank rfl) (hblank (by decide +kernel)) (by decide +kernel)
  have hjump : Line.Edited "jp (r16)".toList ("  ".toList ++ "jp (r16)".toList ++ []) :=
    .pad (hblank (by decide +kernel)) (hblank rfl)
  have hcomment : Line.Inert "; start".toList := .inr (by decide +kernel)
  have hrelaid : Relaid plainTexts commentedTexts :=
    .insert hcomment (.keep hlabel (.insert (.inl rfl) (.keep hload (.keep hjump .nil))))
  have hnew : ∀ t ∈ commentedTexts, '\n' ∉ t := by decide +kernel
  exact ⟨hrelaid, hnew, layout_preserves hrelaid hnew⟩

end WordMachine
