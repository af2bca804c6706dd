import WordMachine.Lint
import WordMachine.Proofs.Source.Lines

/-!
# Which check a problem comes from

The problems of a line are put together from those of several checks, and each check has problems of
its own (`Problem.check`). So a problem that lint finds in a program is one that its check finds on a
line (`mem_lint`, `mem_checkLine_iff`, `mem_checkOperands`).
-/

namespace WordMachine

/-- The checks of a line. -/
inductive Lint.Check where
  | mnemonic | count | comma | parens | register | pc | immediate | label
  deriving DecidableEq

/-- Whether a check is about matters of style. -/
def Lint.Check.isStyle : Check → Bool
  | comma | parens | pc => true
  | mnemonic | count | register | immediate | label => false

namespace Problem

/-- The check that a problem comes from. -/
def check : Problem → Lint.Check
  | noInstruction _ | unknownJump _ | unknownMnemonic _ => .mnemonic
  | missingArgument .. | extraArgument .. => .count
  | missingComma .. => .comma
  | bareMemory .. | parenthesizedRegister .. => .parens
  | unknownRegister .. | notRegister .. => .register
  | jumpThroughPc | writesPc => .pc
  | emptyLabel _ | valueTooLarge .. | notNumber .. => .immediate
  | labelNotFound _ | labelTooFar .. | duplicateLabel .. => .label

/-- Matters of style are no errors. -/
theorem isError_of_isStyle {problem : Problem} (h : problem.check.isStyle = true) :
    problem.kind.isError = false := by
  cases problem
  all_goals first | rfl | cases h

end Problem

namespace Lint

variable {labels : Labels} {op : Op} {args : List (List Char)} {position : Nat} {slot : Slot}
  {token : List Char} {problem : Problem}

/-! ## Single checks -/

theorem check_checkMnemonic (mnemonic : List Char) : (checkMnemonic mnemonic).check = .mnemonic := by
  unfold checkMnemonic
  split
  · rfl
  · rfl

theorem check_of_mem_checkCount (h : problem ∈ checkCount op args) : problem.check = .count := by
  rcases List.mem_append.1 h with h | h
  · obtain ⟨_, -, rfl⟩ := List.mem_map.1 h
    rfl
  · obtain ⟨_, -, rfl⟩ := List.mem_map.1 h
    rfl

theorem check_of_mem_checkComma {line mnemonic : List Char}
    (h : problem ∈ checkComma op line mnemonic args) : problem.check = .comma := by
  unfold checkComma at h
  split at h
  · split at h
    · obtain rfl := List.mem_singleton.1 h
      rfl
    · cases h
  · cases h

theorem check_of_mem_checkParens (h : problem ∈ checkParens op position slot token) :
    problem.check = .parens := by
  unfold checkParens at h
  split at h
  · obtain rfl := List.mem_singleton.1 h
    rfl
  · obtain rfl := List.mem_singleton.1 h
    rfl
  · cases h

theorem check_of_mem_checkPc (h : problem ∈ checkPc op) : problem.check = .pc := by
  cases op with
  | halt | st => cases h
  | li | ld | jp | jpIf c | alu a =>
    obtain rfl := List.mem_singleton.1 h
    rfl

theorem check_of_mem_checkRegister (h : problem ∈ checkRegister op position token) :
    problem.check = .register ∨ problem.check = .pc := by
  unfold checkRegister at h
  split at h
  · split at h
    · exact .inr (check_of_mem_checkPc h)
    · cases h
  · obtain rfl := List.mem_singleton.1 h
    exact .inl rfl
  · obtain rfl := List.mem_singleton.1 h
    exact .inl rfl

theorem check_of_mem_checkLabel {name : String} (h : problem ∈ checkLabel labels name) :
    problem.check = .label := by
  unfold checkLabel at h
  split at h
  · obtain rfl := List.mem_singleton.1 h
    rfl
  · rcases List.mem_append.1 h with h | h
    · split at h
      · obtain rfl := List.mem_singleton.1 h
        rfl
      · cases h
    · obtain ⟨_, -, rfl⟩ := List.mem_map.1 h
      rfl

theorem checkImmediate_of_label {name : String} (h : readImmediate token = .ok (.label name)) :
    checkImmediate labels op token = checkLabel labels name := by
  simp only [checkImmediate, h]

/-- A value that refers to a label has the problems of the label, other values have their own. -/
theorem check_of_mem_checkImmediate (h : problem ∈ checkImmediate labels op token) :
    problem.check = .immediate ∨
      ∃ name, readImmediate token = .ok (.label name) ∧ problem ∈ checkLabel labels name := by
  unfold checkImmediate at h
  split at h
  · next name hread => exact .inr ⟨name, hread, h⟩
  · cases h
  all_goals
    obtain rfl := List.mem_singleton.1 h
    exact .inl rfl

/-! ## Checks of operands -/

theorem mem_checkOperands :
    problem ∈ checkOperands labels op args ↔
      ∃ slot token position, (op.slots.zip args)[position]? = some (slot, token) ∧
        problem ∈ checkOperand labels op position slot token := by
  unfold checkOperands
  rw [List.mem_flatMap]
  constructor
  · rintro ⟨⟨⟨slot, token⟩, position⟩, hmem, hproblem⟩
    exact ⟨slot, token, position, List.mk_mem_zipIdx_iff_getElem?.1 hmem, hproblem⟩
  · rintro ⟨slot, token, position, hmem, hproblem⟩
    exact ⟨((slot, token), position), List.mk_mem_zipIdx_iff_getElem?.2 hmem, hproblem⟩

/-! ## Checks of lines -/

theorem checkLine_eq {text mnemonic : List Char} (htokens : Line.tokens text = mnemonic :: args)
    (hop : Op.ofMnemonic? mnemonic = some op) :
    checkLine labels text =
      checkCount op args ++ checkComma op text mnemonic args ++ checkOperands labels op args := by
  simp only [checkLine, htokens, hop]

/-- Apart from those of mnemonics, problems are found on lines that have an operation. -/
theorem mem_checkLine_iff {text : List Char} (h : problem.check ≠ .mnemonic) :
    problem ∈ checkLine labels text ↔
      ∃ mnemonic args op, Line.tokens text = mnemonic :: args ∧
        Op.ofMnemonic? mnemonic = some op ∧
        (problem ∈ checkCount op args ∨ problem ∈ checkComma op text mnemonic args ∨
          problem ∈ checkOperands labels op args) := by
  constructor
  · intro hproblem
    cases htokens : Line.tokens text with
    | nil =>
      simp only [checkLine, htokens, List.mem_singleton] at hproblem
      subst hproblem
      exact absurd rfl h
    | cons mnemonic args =>
      cases hop : Op.ofMnemonic? mnemonic with
      | none =>
        simp only [checkLine, htokens, hop, List.mem_singleton] at hproblem
        subst hproblem
        exact absurd (check_checkMnemonic mnemonic) h
      | some op =>
        rw [checkLine_eq htokens hop, List.mem_append, List.mem_append, or_assoc] at hproblem
        exact ⟨mnemonic, args, op, rfl, hop, hproblem⟩
  · rintro ⟨mnemonic, args, op, htokens, hop, hproblem⟩
    rw [checkLine_eq htokens hop, List.mem_append, List.mem_append, or_assoc]
    exact hproblem

end Lint

/-! ## Programs -/

theorem Program.mem_lint {p : Program} {d : Diagnostic} :
    d ∈ p.lint ↔ ∃ line ∈ p.executable.toList, d.line = line.number ∧
      d.problem ∈ Lint.checkLine p.labels line.text := by
  unfold lint
  rw [List.mem_flatMap]
  refine exists_congr fun line => and_congr_right fun _ => ?_
  rw [List.mem_map]
  constructor
  · rintro ⟨problem, hmem, rfl⟩
    exact ⟨rfl, hmem⟩
  · rintro ⟨hline, hmem⟩
    exact ⟨d.problem, hmem, by rw [← hline]⟩

theorem Program.mem_executable_ofLines {lines : List Line} {line : Line} :
    line ∈ (ofLines lines).executable.toList ↔ line ∈ lines ∧ line.kind = .instruction := by
  rw [toList_executable, List.mem_filter, Line.isExecutable, beq_iff_eq]

/-- The problems that lint reports with the number of an executable line are those of the line. -/
theorem Program.mem_lint_number {source : String} {line : Line}
    (hline : line ∈ (ofSource source).executable.toList) {problem : Problem} :
    ⟨line.number, problem⟩ ∈ (ofSource source).lint ↔
      problem ∈ Lint.checkLine (ofSource source).labels line.text := by
  rw [mem_lint]
  constructor
  · rintro ⟨line', hline', hnumber, hproblem⟩
    obtain rfl := eq_of_number_eq (mem_executable_ofLines.1 hline).1
      (mem_executable_ofLines.1 hline').1 hnumber
    exact hproblem
  · exact fun hproblem => ⟨line, hline, rfl, hproblem⟩

end WordMachine
