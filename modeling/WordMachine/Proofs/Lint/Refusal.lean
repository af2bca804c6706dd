import WordMachine.Proofs.Instruction.Reading
import WordMachine.Proofs.Lint.Checks

/-!
# Lint errors and refused lines

Assembly stops at the first fault of a line while lint collects all problems, so the two are written
apart. They agree: a line has an error among its problems where it is refused (`lint_error_iff`),
and one of them has the kind that the reason of the refusal is reported as. The agreement is proved
operand by operand: an operand is refused by reading it or by resolving its label, and its problems
say so either way (`checkOperand_reports`, `checkOperand_faultless`).
-/

namespace WordMachine

/-- The kind of problem that a reason to refuse a line is reported as. No line is refused for the
reasons that have none. -/
def LineError.problemKind? : LineError → Option ProblemKind
  | emptyLine => some .syntaxFault
  | malformed .register _ => some .syntaxFault
  | malformed .label _ => some .syntaxFault
  | malformed .number _ => some .value
  | malformed .immediate _ => none
  | malformed .operands _ => none
  | arity .. => some .argument
  | outOfRange .. => some .value
  | labelNotFound _ => some .missingLabel
  | unknownInstruction _ => some .unknownInstruction

theorem LineError.isError_of_problemKind? {e : LineError} {kind : ProblemKind}
    (h : e.problemKind? = some kind) : kind.isError = true := by
  unfold problemKind? at h
  split at h
  all_goals cases h
  all_goals rfl

namespace Lint

/-! ## Problems that report an error, and problems that are none -/

/-- Whether one of the problems has the kind that an error is reported as. -/
def Reports (problems : List Problem) (e : LineError) : Prop :=
  ∃ kind, e.problemKind? = some kind ∧ ∃ problem ∈ problems, problem.kind = kind

/-- Whether no problem is an error. -/
def Faultless (problems : List Problem) : Prop :=
  ∀ problem ∈ problems, problem.kind.isError = false

theorem Reports.mono {problems problems' : List Problem} {e : LineError}
    (hsub : ∀ problem ∈ problems, problem ∈ problems') (h : Reports problems e) :
    Reports problems' e := by
  obtain ⟨kind, hkind, problem, hmem, hproblem⟩ := h
  exact ⟨kind, hkind, problem, hsub problem hmem, hproblem⟩

/-- What reports an error is an error. -/
theorem Reports.exists_isError {problems : List Problem} {e : LineError}
    (h : Reports problems e) : ∃ problem ∈ problems, problem.kind.isError = true := by
  obtain ⟨kind, hkind, problem, hmem, rfl⟩ := h
  exact ⟨problem, hmem, LineError.isError_of_problemKind? hkind⟩

theorem faultless_nil : Faultless [] := by
  intro problem h
  cases h

theorem Faultless.append {problems problems' : List Problem} (h : Faultless problems)
    (h' : Faultless problems') : Faultless (problems ++ problems') := by
  intro problem hmem
  rcases List.mem_append.1 hmem with hmem | hmem
  · exact h problem hmem
  · exact h' problem hmem

/-! ## Matters of style -/

theorem faultless_of_isStyle {problems : List Problem} {check : Check}
    (h : ∀ problem ∈ problems, problem.check = check) (hstyle : check.isStyle = true) :
    Faultless problems := by
  intro problem hmem
  apply Problem.isError_of_isStyle
  rw [h problem hmem, hstyle]

theorem checkComma_faultless (op : Op) (line mnemonic : List Char) (args : List (List Char)) :
    Faultless (checkComma op line mnemonic args) :=
  faultless_of_isStyle (fun _ => check_of_mem_checkComma) rfl

theorem checkParens_faultless (op : Op) (position : Nat) (slot : Slot) (token : List Char) :
    Faultless (checkParens op position slot token) :=
  faultless_of_isStyle (fun _ => check_of_mem_checkParens) rfl

theorem checkPc_faultless (op : Op) : Faultless (checkPc op) :=
  faultless_of_isStyle (fun _ => check_of_mem_checkPc) rfl

/-! ## Operands -/

theorem checkRegister_faultless {token : List Char} {n : UInt8} (op : Op) (position : Nat)
    (h : readRegister token = .ok n) : Faultless (checkRegister op position token) := by
  simp only [checkRegister, h]
  split
  · exact checkPc_faultless op
  · exact faultless_nil

theorem checkRegister_reports {token : List Char} {e : LineError} (op : Op) (position : Nat)
    (h : readRegister token = .error e) : Reports (checkRegister op position token) e := by
  unfold checkRegister
  rw [h]
  unfold readRegister at h
  split at h
  · obtain rfl := Except.error.inj h
    exact ⟨.syntaxFault, rfl, _, List.mem_singleton_self _, rfl⟩
  · split at h
    · cases h
    · obtain rfl := Except.error.inj h
      exact ⟨.value, rfl, _, List.mem_singleton_self _, rfl⟩

theorem checkImmediate_reports_read {token : List Char} {e : LineError} (labels : Labels) (op : Op)
    (h : readImmediate token = .error e) : Reports (checkImmediate labels op token) e := by
  unfold checkImmediate
  rw [h]
  unfold readImmediate at h
  split at h
  · obtain rfl := Except.error.inj h
    exact ⟨.syntaxFault, rfl, _, List.mem_singleton_self _, rfl⟩
  · cases h
  · obtain ⟨value, rfl⟩ | rfl := readByte_eq_error (except_map_eq_error h)
    · exact ⟨.value, rfl, _, List.mem_singleton_self _, rfl⟩
    · exact ⟨.value, rfl, _, List.mem_singleton_self _, rfl⟩

variable {p : Program}

theorem checkLabel_reports {name : String} {e : LineError}
    (h : p.resolveOperand (.label name) = .error e) : Reports (checkLabel p.labels name) e := by
  rw [resolveOperand_label] at h
  cases hfind : p.labels.find? name with
  | none =>
    rw [hfind] at h
    obtain rfl := Except.error.inj h
    simp only [checkLabel, hfind]
    exact ⟨.missingLabel, rfl, _, List.mem_singleton_self _, rfl⟩
  | some d =>
    simp only [hfind] at h
    split at h
    · cases h
    · next hfar =>
      obtain rfl := Except.error.inj h
      refine ⟨.value, rfl, .labelTooFar name d.address, ?_, rfl⟩
      simp [checkLabel, hfind, Nat.not_le.1 hfar]

theorem checkLabel_faultless {name : String} {o : Operand}
    (h : p.resolveOperand (.label name) = .ok o) : Faultless (checkLabel p.labels name) := by
  rw [resolveOperand_label] at h
  cases hfind : p.labels.find? name with
  | none =>
    rw [hfind] at h
    cases h
  | some d =>
    simp only [hfind] at h
    split at h
    · next hnear =>
      simp only [checkLabel, hfind, Nat.not_lt.2 hnear, if_false, List.nil_append]
      intro problem hmem
      obtain ⟨r, -, rfl⟩ := List.mem_map.1 hmem
      rfl
    · cases h

/-- The problems of an operand report why it is refused, by reading it or by resolving it. -/
theorem checkOperand_reports {slot : Slot} {token : List Char} {e : LineError} (op : Op)
    (position : Nat) (h : slot.read token >>= p.resolveOperand = .error e) :
    Reports (checkOperand p.labels op position slot token) e := by
  have hregister {kind : UInt8 → Operand}
      (h : (readRegister token).map kind >>= p.resolveOperand = .error e)
      (hkind : ∀ n, p.resolveOperand (kind n) = .ok (kind n)) :
      Reports (checkParens op position slot token ++ checkRegister op position token) e := by
    rcases except_bind_eq_error.1 h with h | ⟨o, ho, h⟩
    · exact (checkRegister_reports op position (except_map_eq_error h)).mono fun problem hmem =>
        List.mem_append_right _ hmem
    · obtain ⟨n, -, rfl⟩ := except_map_eq_ok.1 ho
      cases (hkind n).symm.trans h
  cases slot with
  | register => exact hregister h fun _ => rfl
  | memory => exact hregister h fun _ => rfl
  | immediate =>
    rcases except_bind_eq_error.1 h with h | ⟨o, ho, h⟩
    · exact checkImmediate_reports_read p.labels op h
    · cases o with
      | label name =>
        have ho : readImmediate token = .ok (.label name) := ho
        simp only [checkOperand, checkImmediate, ho]
        exact checkLabel_reports h
      | reg | mem | imm => cases h

/-- An operand that is read and resolved has no error among its problems. -/
theorem checkOperand_faultless {slot : Slot} {token : List Char} {o : Operand} (op : Op)
    (position : Nat) (h : slot.read token >>= p.resolveOperand = .ok o) :
    Faultless (checkOperand p.labels op position slot token) := by
  obtain ⟨o', ho', h⟩ := except_bind_eq_ok.1 h
  cases slot with
  | register =>
    obtain ⟨n, hn, -⟩ := except_map_eq_ok.1 ho'
    exact Faultless.append (checkParens_faultless op position .register token)
      (checkRegister_faultless op position hn)
  | memory =>
    obtain ⟨n, hn, -⟩ := except_map_eq_ok.1 ho'
    exact Faultless.append (checkParens_faultless op position .memory token)
      (checkRegister_faultless op position hn)
  | immediate =>
    have ho' : readImmediate token = .ok o' := ho'
    simp only [checkOperand, checkImmediate, ho']
    cases o' with
    | label name => exact checkLabel_faultless h
    | reg | mem | imm => exact faultless_nil

theorem checkOperands_reports {op : Op} {args : List (List Char)} {slot : Slot}
    {token : List Char} {e : LineError} (hmem : (slot, token) ∈ op.slots.zip args)
    (h : slot.read token >>= p.resolveOperand = .error e) :
    Reports (checkOperands p.labels op args) e := by
  obtain ⟨position, hposition⟩ := List.mem_iff_getElem?.1 hmem
  exact (checkOperand_reports op position h).mono fun problem hproblem =>
    mem_checkOperands.2 ⟨slot, token, position, hposition, hproblem⟩

theorem checkOperands_faultless {op : Op} {args : List (List Char)}
    (h : ∀ x ∈ op.slots.zip args, ∃ o, x.1.read x.2 >>= p.resolveOperand = .ok o) :
    Faultless (checkOperands p.labels op args) := by
  intro problem hmem
  obtain ⟨slot, token, position, hposition, hproblem⟩ := mem_checkOperands.1 hmem
  obtain ⟨o, ho⟩ := h (slot, token) (List.mem_iff_getElem?.2 ⟨position, hposition⟩)
  exact checkOperand_faultless op position ho problem hproblem

/-! ## Numbers of operands -/

theorem checkCount_reports {op : Op} {args : List (List Char)} (h : args.length ≠ op.arity)
    (mnemonic : String) (expected found : Nat) :
    Reports (checkCount op args) (.arity mnemonic expected found) := by
  refine ⟨.argument, rfl, ?_⟩
  unfold checkCount
  rcases Nat.lt_or_gt_of_ne h with hfew | hmany
  · have hdrop : 0 < (op.slots.zipIdx.drop args.length).length := by
      rw [List.length_drop, List.length_zipIdx]
      exact Nat.sub_pos_of_lt hfew
    obtain ⟨⟨slot, position⟩, hmem⟩ := List.exists_mem_of_length_pos hdrop
    exact ⟨_, List.mem_append_left _ (List.mem_map.2 ⟨_, hmem, rfl⟩), rfl⟩
  · have hdrop : 0 < (args.drop op.slots.length).length := by
      rw [List.length_drop]
      exact Nat.sub_pos_of_lt hmany
    obtain ⟨token, hmem⟩ := List.exists_mem_of_length_pos hdrop
    exact ⟨_, List.mem_append_right _ (List.mem_map.2 ⟨_, hmem, rfl⟩), rfl⟩

theorem checkCount_eq_nil {op : Op} {args : List (List Char)} (h : args.length = op.arity) :
    checkCount op args = [] := by
  have hslots : op.slots.zipIdx.drop args.length = [] := by
    rw [List.drop_eq_nil_iff, List.length_zipIdx]
    exact Nat.le_of_eq h.symm
  have hargs : args.drop op.slots.length = [] := List.drop_eq_nil_iff.2 (Nat.le_of_eq h)
  simp only [checkCount, hslots, hargs, List.map_nil, List.append_nil]

/-! ## Lines -/

/-- The problems of a line report why it is not read. -/
theorem checkLine_reports_read {text : List Char} {number : Nat} {e : LineError}
    (h : Instruction.read text number = .error e) : Reports (checkLine p.labels text) e := by
  unfold Instruction.read at h
  split at h
  · next htokens =>
    obtain rfl := Except.error.inj h
    refine ⟨.syntaxFault, rfl, .noInstruction (String.ofList text), ?_, rfl⟩
    simp only [checkLine, htokens, List.mem_singleton]
  · next mnemonic args htokens =>
    split at h
    · next hop =>
      obtain rfl := Except.error.inj h
      refine ⟨.unknownInstruction, rfl, checkMnemonic mnemonic, ?_, ?_⟩
      · simp only [checkLine, htokens, hop, List.mem_singleton]
      · unfold checkMnemonic
        split
        · rfl
        · rfl
    · next op hop =>
      rw [checkLine_eq htokens hop]
      split at h
      · next harity =>
        obtain rfl := Except.error.inj h
        exact (checkCount_reports harity ..).mono fun problem hmem =>
          List.mem_append_left _ (List.mem_append_left _ hmem)
      · -- Reading stops at the first operand at fault. All are checked, so its problems are there.
        rcases except_bind_eq_error.1 h with h | ⟨_, -, h⟩
        · rw [readOperands_eq_mapM] at h
          obtain ⟨⟨slot, token⟩, hmem, hread⟩ := mapM_eq_error h
          have hoperand : slot.read token >>= p.resolveOperand = .error e :=
            except_bind_eq_error.2 (.inl hread)
          exact (checkOperands_reports hmem hoperand).mono fun problem hmem =>
            List.mem_append_right _ hmem
        · cases h

/-- The problems of a line report why its labels are not resolved. -/
theorem checkLine_reports_resolve {text : List Char} {number : Nat} {i : Instruction}
    {e : LineError} (hread : Instruction.read text number = .ok i)
    (h : p.resolve i = .error e) : Reports (checkLine p.labels text) e := by
  obtain ⟨mnemonic, args, htokens, hop, -, hoperands, -⟩ := read_eq_ok_iff.1 hread
  obtain ⟨o, ho, h⟩ := resolve_eq_error h
  rw [readOperands_eq_mapM, mapM_eq_ok_iff] at hoperands
  obtain ⟨⟨slot, token⟩, hmem, hslot⟩ := exists_of_mem_right hoperands ho
  have hoperand : slot.read token >>= p.resolveOperand = .error e :=
    except_bind_eq_error.2 (.inr ⟨o, hslot, h⟩)
  rw [checkLine_eq htokens hop]
  exact (checkOperands_reports hmem hoperand).mono fun problem hmem =>
    List.mem_append_right _ hmem

theorem checkLine_reports {line : Line} {e : LineError} (h : p.assembleLine line = .error e) :
    Reports (checkLine p.labels line.text) e := by
  rcases Program.assembleLine_eq_error_iff.1 h with h | ⟨i, hread, h⟩
  · exact checkLine_reports_read h
  · exact checkLine_reports_resolve hread h

/-- A line that is accepted has no error among its problems. -/
theorem checkLine_faultless {line : Line} {i : Instruction} {w : Word}
    (h : p.assembleLine line = .ok (i, w)) : Faultless (checkLine p.labels line.text) := by
  obtain ⟨parsed, hread, hresolve, -⟩ := Program.assembleLine_eq_ok_iff.1 h
  obtain ⟨mnemonic, args, htokens, hop, harity, hoperands, -⟩ := read_eq_ok_iff.1 hread
  obtain ⟨-, -, hresolved⟩ := resolve_eq_ok_iff.1 hresolve
  rw [readOperands_eq_mapM, mapM_eq_ok_iff] at hoperands
  have haccepted : ∀ x ∈ parsed.op.slots.zip args,
      ∃ o, x.1.read x.2 >>= p.resolveOperand = .ok o := by
    intro x hx
    obtain ⟨o, ho, hslot⟩ := exists_of_mem_left hoperands hx
    obtain ⟨o', -, ho'⟩ := exists_of_mem_left hresolved ho
    exact ⟨o', except_bind_eq_ok.2 ⟨o, hslot, ho'⟩⟩
  rw [checkLine_eq htokens hop, checkCount_eq_nil harity]
  exact Faultless.append (checkComma_faultless parsed.op line.text mnemonic args)
    (checkOperands_faultless haccepted)

/-- A line has an error among its problems where it is refused. -/
theorem checkLine_error_iff {line : Line} :
    (∃ problem ∈ checkLine p.labels line.text, problem.kind.isError = true) ↔
      ∃ e, p.assembleLine line = .error e := by
  constructor
  · rintro ⟨problem, hmem, herror⟩
    cases h : p.assembleLine line with
    | error e => exact ⟨e, rfl⟩
    | ok x => exact absurd herror (Bool.eq_false_iff.1 (checkLine_faultless h problem hmem))
  · rintro ⟨e, h⟩
    exact (checkLine_reports h).exists_isError

end Lint

/-! ## Programs -/

/-- **Lint errors are the lines that are refused.** A line of a source has an error among its
diagnostics if it holds an instruction that is refused, and only then; and one of its diagnostics
has the kind that the reason of the refusal is reported as. -/
theorem lint_error_iff (source : String) (n : Nat) :
    ((∃ d ∈ (Program.ofSource source).lint, d.line = n ∧ d.isError = true) ↔
      ∃ line ∈ (Program.ofSource source).lines, line.number = n ∧ line.kind = .instruction ∧
        ∃ trap, (Program.ofSource source).decodeLine line = .error trap) ∧
      ∀ line ∈ (Program.ofSource source).lines, line.number = n → line.kind = .instruction →
        ∀ trap, (Program.ofSource source).decodeLine line = .error trap →
          ∃ e kind, trap = .decode n e ∧ e.problemKind? = some kind ∧
            ∃ d ∈ (Program.ofSource source).lint, d.line = n ∧ d.kind = kind := by
  constructor
  · constructor
    · rintro ⟨d, hd, rfl, herror⟩
      obtain ⟨line, hmem, hnumber, hproblem⟩ := Program.mem_lint.1 hd
      obtain ⟨hline, hkind⟩ := Program.mem_executable_ofLines.1 hmem
      obtain ⟨e, he⟩ := Lint.checkLine_error_iff.1 ⟨d.problem, hproblem, herror⟩
      exact ⟨line, hline, hnumber.symm, hkind, _, Program.decodeLine_eq_error_iff.2 ⟨e, rfl, he⟩⟩
    · rintro ⟨line, hline, rfl, hkind, trap, htrap⟩
      obtain ⟨e, -, he⟩ := Program.decodeLine_eq_error_iff.1 htrap
      obtain ⟨problem, hproblem, herror⟩ := Lint.checkLine_error_iff.2 ⟨e, he⟩
      have hmem := Program.mem_executable_ofLines.2 ⟨hline, hkind⟩
      exact ⟨⟨line.number, problem⟩, Program.mem_lint.2 ⟨line, hmem, rfl, hproblem⟩, rfl, herror⟩
  · rintro line hline rfl hkind trap htrap
    obtain ⟨e, rfl, he⟩ := Program.decodeLine_eq_error_iff.1 htrap
    obtain ⟨kind, hreported, problem, hproblem, rfl⟩ := Lint.checkLine_reports he
    have hmem := Program.mem_executable_ofLines.2 ⟨hline, hkind⟩
    exact ⟨e, problem.kind, rfl, hreported, ⟨line.number, problem⟩,
      Program.mem_lint.2 ⟨line, hmem, rfl, hproblem⟩, rfl, rfl⟩

/-- A register that does not exist is refused as out of range and reported as a wrong value. -/
theorem lint_error_unknown_register :
    ⟨2, "add r1, r16".toList⟩ ∈ (Program.ofSource ":a\nadd r1, r16\n:a\nhalt").lines ∧
      Line.kind ⟨2, "add r1, r16".toList⟩ = .instruction ∧
      (Program.ofSource ":a\nadd r1, r16\n:a\nhalt").decodeLine ⟨2, "add r1, r16".toList⟩ =
        .error (.decode 2 (.outOfRange .register 16 15)) ∧
      ∃ d ∈ (Program.ofSource ":a\nadd r1, r16\n:a\nhalt").lint, d.line = 2 ∧ d.kind = .value := by
  have hline : ⟨2, "add r1, r16".toList⟩ ∈
      (Program.ofSource ":a\nadd r1, r16\n:a\nhalt").lines := by decide +kernel
  have hkind : Line.kind ⟨2, "add r1, r16".toList⟩ = .instruction := by decide +kernel
  have htrap : (Program.ofSource ":a\nadd r1, r16\n:a\nhalt").decodeLine
      ⟨2, "add r1, r16".toList⟩ = .error (.decode 2 (.outOfRange .register 16 15)) := by
    decide +kernel
  obtain ⟨e, kind, he, hreported, d, hd, hdline, hdkind⟩ :=
    (lint_error_iff ":a\nadd r1, r16\n:a\nhalt" 2).2 _ hline rfl hkind _ htrap
  cases he
  cases hreported
  exact ⟨hline, hkind, htrap, d, hd, hdline, hdkind⟩

end WordMachine
