import WordMachine.Proofs.Lint.Checks
import WordMachine.Proofs.Source.LabelTable
import WordMachine.Proofs.Source.Number

/-!
# Which declarations lint reports as duplicates

The labels of a source keep every later declaration of a name (`Line.redeclarations`). Lint does not
go through them. It comes upon one where it checks a reference to its name, and so it reports the
ones that some instruction refers to, on each line that does, and no others
(`lint_redeclaration_iff`). A label that is declared twice and never referred to has no diagnostic
(`lint_silent_redeclaration`).
-/

namespace WordMachine

/-- The problem that a later declaration of a label is reported as. -/
def Redeclaration.problem (r : Redeclaration) : Problem :=
  .duplicateLabel r.name r.line r.firstLine

/-- Whether a name is one that can be referred to: a colon with something behind it. -/
def IsLabelName (name : String) : Prop :=
  ∃ c cs, name.toList = ':' :: c :: cs

/-- Whether a line refers to a label: it holds an instruction that loads a value, and the name
stands in place of the value. What else is wrong with the line does not matter. -/
def Line.RefersTo (line : Line) (name : String) : Prop :=
  line.kind = .instruction ∧ IsLabelName name ∧
    ∃ mnemonic register rest, tokens line.text = mnemonic :: register :: name.toList :: rest ∧
      Op.ofMnemonic? mnemonic = some .li

namespace Lint

/-! ## Checks of one line -/

section Checks

variable {labels : Labels} {r : Redeclaration} {op : Op} {args : List (List Char)}

/-- The check of a label reports what is declared again under its name. -/
theorem problem_mem_checkLabel_iff {name : String} :
    r.problem ∈ checkLabel labels name ↔
      r.name = name ∧ (∃ d, labels.find? name = some d ∧ d.line = r.firstLine) ∧
        ∃ r' ∈ labels.redeclarations.toList, r'.name = name ∧ r'.line = r.line := by
  unfold checkLabel
  split
  · next hnone => simp [Redeclaration.problem, hnone]
  · next d hd =>
    have hfar :
        r.problem ∉ if 255 < d.address.toNat then [Problem.labelTooFar name d.address] else [] := by
      split
      · simp [Redeclaration.problem]
      · exact List.not_mem_nil
    rw [List.mem_append, or_iff_right hfar, List.mem_map]
    simp only [List.mem_filter, beq_iff_eq, Redeclaration.problem, Problem.duplicateLabel.injEq, hd,
      Option.some.injEq]
    constructor
    · rintro ⟨r', ⟨hmem, hname⟩, hr, hline, hfirst⟩
      exact ⟨hr.symm, ⟨d, rfl, hfirst⟩, r', hmem, hname, hline⟩
    · rintro ⟨hr, ⟨_, rfl, hfirst⟩, r', hmem, hname, hline⟩
      exact ⟨r', ⟨hmem, hname⟩, hr.symm, hline, hfirst⟩

theorem readImmediate_eq_name_iff {token : List Char} {name : String} :
    readImmediate token = .ok (.label name) ↔ token = name.toList ∧ IsLabelName name := by
  rw [readImmediate_eq_label_iff]
  constructor
  · rintro ⟨rfl, c, cs, rfl⟩
    exact ⟨String.toList_ofList.symm, c, cs, String.toList_ofList⟩
  · rintro ⟨rfl, hname⟩
    exact ⟨String.ofList_toList.symm, hname⟩

/-- The check of a value reports what is declared again under the name that stands there. -/
theorem problem_mem_checkImmediate_iff {token : List Char} :
    r.problem ∈ checkImmediate labels op token ↔
      token = r.name.toList ∧ IsLabelName r.name ∧ r.problem ∈ checkLabel labels r.name := by
  rw [← and_assoc, ← readImmediate_eq_name_iff]
  constructor
  · intro h
    rcases check_of_mem_checkImmediate h with hcheck | ⟨name, hread, h⟩
    · cases hcheck
    · obtain ⟨rfl, -⟩ := problem_mem_checkLabel_iff.1 h
      exact ⟨hread, h⟩
  · rintro ⟨hread, h⟩
    rwa [checkImmediate_of_label hread]

theorem problem_mem_checkOperand_iff {position : Nat} {slot : Slot} {token : List Char} :
    r.problem ∈ checkOperand labels op position slot token ↔
      slot = .immediate ∧ r.problem ∈ checkImmediate labels op token := by
  have hregister (slot : Slot) :
      r.problem ∉ checkParens op position slot token ++ checkRegister op position token := by
    intro h
    rcases List.mem_append.1 h with h | h
    · cases check_of_mem_checkParens h
    · rcases check_of_mem_checkRegister h with hcheck | hcheck
      · cases hcheck
      · cases hcheck
  cases slot with
  | register => exact ⟨fun h => absurd h (hregister _), fun h => by cases h.1⟩
  | memory => exact ⟨fun h => absurd h (hregister _), fun h => by cases h.1⟩
  | immediate => exact ⟨fun h => ⟨rfl, h⟩, fun h => h.2⟩

/-- A value stands behind the register of a load. -/
theorem mem_immediate_iff {token : List Char} :
    (Slot.immediate, token) ∈ op.slots.zip args ↔
      op = .li ∧ ∃ register rest, args = register :: token :: rest := by
  constructor
  · intro h
    have hslot := (List.of_mem_zip h).1
    cases op with
    | li =>
      refine ⟨rfl, ?_⟩
      rcases args with _ | ⟨register, _ | ⟨value, rest⟩⟩
      · simp at h
      · simp [Op.slots] at h
      · obtain rfl : token = value := by simpa [Op.slots] using h
        exact ⟨register, rest, rfl⟩
    | halt | ld | st | jp | jpIf c | alu a => simp [Op.slots] at hslot
  · rintro ⟨rfl, register, rest, rfl⟩
    simp [Op.slots]

/-- The checks of operands report what is declared again where a load has its name as the value. -/
theorem problem_mem_checkOperands_iff :
    r.problem ∈ checkOperands labels op args ↔
      (IsLabelName r.name ∧ op = .li ∧
        ∃ register rest, args = register :: r.name.toList :: rest) ∧
      r.problem ∈ checkLabel labels r.name := by
  rw [mem_checkOperands]
  constructor
  · rintro ⟨slot, token, position, hposition, hoperand⟩
    obtain ⟨rfl, hvalue⟩ := problem_mem_checkOperand_iff.1 hoperand
    obtain ⟨rfl, hname, hlabel⟩ := problem_mem_checkImmediate_iff.1 hvalue
    exact ⟨⟨hname, mem_immediate_iff.1 (List.mem_of_getElem? hposition)⟩, hlabel⟩
  · rintro ⟨⟨hname, hload⟩, hlabel⟩
    obtain ⟨position, hposition⟩ := List.mem_iff_getElem?.1 (mem_immediate_iff.2 hload)
    exact ⟨.immediate, r.name.toList, position, hposition,
      problem_mem_checkOperand_iff.2 ⟨rfl, problem_mem_checkImmediate_iff.2 ⟨rfl, hname, hlabel⟩⟩⟩

/-- The checks of an instruction report what is declared again where it refers to the name. -/
theorem problem_mem_checkLine_iff {line : Line} (hkind : line.kind = .instruction) :
    r.problem ∈ checkLine labels line.text ↔
      line.RefersTo r.name ∧ r.problem ∈ checkLabel labels r.name := by
  have hcheck : r.problem.check ≠ .mnemonic := by
    intro h
    cases h
  rw [mem_checkLine_iff hcheck]
  constructor
  · rintro ⟨mnemonic, args, op, htokens, hop, h | h | h⟩
    · cases check_of_mem_checkCount h
    · cases check_of_mem_checkComma h
    · obtain ⟨⟨hname, rfl, register, rest, rfl⟩, hlabel⟩ := problem_mem_checkOperands_iff.1 h
      exact ⟨⟨hkind, hname, mnemonic, register, rest, htokens, hop⟩, hlabel⟩
  · rintro ⟨⟨-, hname, mnemonic, register, rest, htokens, hop⟩, hlabel⟩
    have hload := problem_mem_checkOperands_iff.2 ⟨⟨hname, rfl, register, rest, rfl⟩, hlabel⟩
    exact ⟨mnemonic, _, .li, htokens, hop, .inr (.inr hload)⟩

end Checks

end Lint

/-! ## Programs -/

/-- A problem is of the kind of duplicate labels where it is that of a later declaration. -/
theorem Problem.kind_eq_duplicateLabel_iff {problem : Problem} :
    problem.kind = .duplicateLabel ↔ ∃ r : Redeclaration, problem = r.problem := by
  constructor
  · intro h
    cases problem
    case duplicateLabel label line firstLine => exact ⟨⟨label, firstLine, line⟩, rfl⟩
    all_goals cases h
  · rintro ⟨r, rfl⟩
    rfl

namespace Program

variable {lines : List Line} {r : Redeclaration}

theorem redeclarations_ofSource (source : String) :
    (ofSource source).labels.redeclarations.toList =
      Line.redeclarations (ofSource source).lines :=
  redeclarations_ofLines _

/-- The check of a label reports each later declaration of it, with the line of the first one. -/
theorem problem_mem_checkLabel_ofLines_iff :
    r.problem ∈ Lint.checkLabel (ofLines lines).labels r.name ↔
      r ∈ Line.redeclarations lines := by
  have hlabels : (ofLines lines).labels = Labels.ofLines lines := rfl
  rw [hlabels, Lint.problem_mem_checkLabel_iff, redeclarations_ofLines]
  constructor
  · rintro ⟨-, ⟨d, hd, hfirst⟩, r', hmem, hname, hline⟩
    obtain ⟨before, first, hr', hnumber⟩ := Line.exists_isFirst_of_mem_redeclarations hmem
    obtain ⟨before', first', hr, rfl⟩ := find?_ofLines_eq_some_iff.1 hd
    rw [hname] at hr'
    obtain rfl := Option.some.inj (hr'.find?_eq.symm.trans hr.find?_eq)
    have heq : r' = r := by
      cases r
      cases r'
      rw [Redeclaration.mk.injEq]
      exact ⟨hname, hnumber.symm.trans hfirst, hline⟩
    exact heq ▸ hmem
  · intro hmem
    obtain ⟨before, first, hfirst, hnumber⟩ := Line.exists_isFirst_of_mem_redeclarations hmem
    have hd := find?_ofLines_eq_some_iff.2 ⟨before, first, hfirst, rfl⟩
    exact ⟨rfl, ⟨_, hd, hnumber⟩, r, hmem, rfl, rfl⟩

/-- Lint reports a later declaration on each line that refers to the label. -/
theorem problem_mem_lint_iff {n : Nat} :
    ⟨n, r.problem⟩ ∈ (ofLines lines).lint ↔
      r ∈ Line.redeclarations lines ∧ ∃ line ∈ lines, line.number = n ∧ line.RefersTo r.name := by
  rw [mem_lint]
  constructor
  · rintro ⟨line, hmem, hnumber, hproblem⟩
    obtain ⟨hline, hkind⟩ := mem_executable_ofLines.1 hmem
    obtain ⟨hrefers, hlabel⟩ := (Lint.problem_mem_checkLine_iff hkind).1 hproblem
    exact ⟨problem_mem_checkLabel_ofLines_iff.1 hlabel, line, hline, hnumber.symm, hrefers⟩
  · rintro ⟨hr, line, hline, hnumber, hrefers⟩
    have hkind := hrefers.1
    refine ⟨line, mem_executable_ofLines.2 ⟨hline, hkind⟩, hnumber.symm, ?_⟩
    have hlabel := problem_mem_checkLabel_ofLines_iff.2 hr
    exact (Lint.problem_mem_checkLine_iff hkind).2 ⟨hrefers, hlabel⟩

end Program

/-- **What lint reports of labels that are declared again.** It reports a later declaration with its
line and the line of the first one, on each line that refers to the label and on no other. What it
reports as a duplicate is such a declaration, and never an error. -/
theorem lint_redeclaration_iff (source : String) :
    (∀ r ∈ (Program.ofSource source).labels.redeclarations.toList,
      (∃ before first, Line.IsFirst r.name (Program.ofSource source).lines before first ∧
        first.number = r.firstLine) ∧
      ∀ n, ⟨n, .duplicateLabel r.name r.line r.firstLine⟩ ∈ (Program.ofSource source).lint ↔
        ∃ line ∈ (Program.ofSource source).lines, line.number = n ∧ line.RefersTo r.name) ∧
    ∀ d ∈ (Program.ofSource source).lint, d.kind = .duplicateLabel →
      d.isError = false ∧
        ∃ r ∈ (Program.ofSource source).labels.redeclarations.toList,
          d.problem = .duplicateLabel r.name r.line r.firstLine := by
  rw [Program.redeclarations_ofSource]
  constructor
  · intro r hr
    refine ⟨Line.exists_isFirst_of_mem_redeclarations hr, fun n => ?_⟩
    exact Program.problem_mem_lint_iff.trans (and_iff_right hr)
  · intro d hd hkind
    obtain ⟨r, hproblem⟩ := Problem.kind_eq_duplicateLabel_iff.1 hkind
    have hmem : ⟨d.line, r.problem⟩ ∈ (Program.ofSource source).lint := by
      rw [← hproblem]
      exact hd
    refine ⟨?_, r, (Program.problem_mem_lint_iff.1 hmem).1, hproblem⟩
    rw [Diagnostic.isError, hkind]
    rfl

/-- A label that is declared again behind a reference to it. -/
theorem lint_redeclaration_referred :
    ⟨":a", 1, 3⟩ ∈ (Program.ofSource ":a\nli r1, :a\n:a\nhalt").labels.redeclarations.toList ∧
      Line.RefersTo ⟨2, "li r1, :a".toList⟩ ":a" ∧
      ⟨2, .duplicateLabel ":a" 3 1⟩ ∈ (Program.ofSource ":a\nli r1, :a\n:a\nhalt").lint := by
  have hmem : ⟨":a", 1, 3⟩ ∈
      (Program.ofSource ":a\nli r1, :a\n:a\nhalt").labels.redeclarations.toList := by
    rw [Program.redeclarations_ofSource]
    decide +kernel
  have hline : ⟨2, "li r1, :a".toList⟩ ∈ (Program.ofSource ":a\nli r1, :a\n:a\nhalt").lines := by
    decide +kernel
  have hrefers : Line.RefersTo ⟨2, "li r1, :a".toList⟩ ":a" :=
    ⟨by decide +kernel, ⟨'a', [], rfl⟩, "li".toList, "r1".toList, [], by decide +kernel,
      by decide +kernel⟩
  refine ⟨hmem, hrefers, ?_⟩
  obtain ⟨-, hreported⟩ := (lint_redeclaration_iff ":a\nli r1, :a\n:a\nhalt").1 _ hmem
  exact (hreported 2).2 ⟨_, hline, rfl, hrefers⟩

/-- Lint is silent about a label that is declared again and that nothing refers to. -/
theorem lint_silent_redeclaration :
    ⟨":a", 1, 2⟩ ∈ (Program.ofSource ":a\n:a\nhalt").labels.redeclarations.toList ∧
      ¬∃ d ∈ (Program.ofSource ":a\n:a\nhalt").lint, d.problem = .duplicateLabel ":a" 2 1 := by
  have hmem : ⟨":a", 1, 2⟩ ∈ (Program.ofSource ":a\n:a\nhalt").labels.redeclarations.toList := by
    rw [Program.redeclarations_ofSource]
    decide +kernel
  have hlint : (Program.ofSource ":a\n:a\nhalt").lint = [] := by decide +kernel
  refine ⟨hmem, ?_⟩
  rintro ⟨d, hd, -⟩
  rw [hlint] at hd
  cases hd

end WordMachine
