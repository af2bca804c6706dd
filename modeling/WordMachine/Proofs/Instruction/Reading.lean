import WordMachine.Machine.Step
import WordMachine.Proofs.Except
import WordMachine.Proofs.Instruction.Canonical

/-!
# What a line that is accepted holds

Reading gives each operand the kind of its position and a register that exists
(`fits_of_read`), and resolving leaves no label behind, so an instruction that has come through
both is canonical. Encoding cannot fail then: a line is refused by reading or by resolving its
labels (`assembleLine_eq_error_iff`), and otherwise it holds the canonical instruction of an action
with its word (`exists_of_decodeLine`).
-/

namespace WordMachine

/-! ## Operands that fit their positions -/

/-- Whether an operand has the kind of a position and names a register that exists. A reference to
a label fits where an immediate value is expected. -/
def Slot.Fits : Slot → Operand → Prop
  | register, .reg n => n.toNat ≤ 15
  | memory, .mem n => n.toNat ≤ 15
  | immediate, .imm _ => True
  | immediate, .label _ => True
  | _, _ => False

theorem le_of_readRegister {token : List Char} {n : UInt8} (h : readRegister token = .ok n) :
    n.toNat ≤ 15 := by
  unfold readRegister at h
  split at h
  · exact nomatch h
  · next k _ =>
    split at h
    · next hk =>
      obtain rfl := Except.ok.inj h
      rw [UInt8.toNat_ofNat']
      omega
    · exact nomatch h

/-- A number is refused for its range or for its form. -/
theorem readByte_eq_error {token : List Char} {e : LineError} (h : readByte token = .error e) :
    (∃ value, e = immediateRange value) ∨ e = .malformed .number (String.ofList token) := by
  unfold readByte at h
  simp only at h
  split at h
  · split at h
    · exact .inl ⟨_, (Except.error.inj h).symm⟩
    · split at h
      · exact nomatch h
      · exact .inl ⟨_, (Except.error.inj h).symm⟩
  · exact .inl ⟨_, (Except.error.inj h).symm⟩
  · exact .inr (Except.error.inj h).symm

theorem fits_immediate {token : List Char} {o : Operand} (h : readImmediate token = .ok o) :
    Slot.immediate.Fits o := by
  unfold readImmediate at h
  split at h
  · exact nomatch h
  · obtain rfl := Except.ok.inj h
    trivial
  · obtain ⟨v, -, rfl⟩ := except_map_eq_ok.1 h
    trivial

theorem Slot.fits_of_read {slot : Slot} {token : List Char} {o : Operand}
    (h : slot.read token = .ok o) : slot.Fits o := by
  cases slot with
  | register =>
    obtain ⟨n, hn, rfl⟩ := except_map_eq_ok.1 h
    exact le_of_readRegister hn
  | memory =>
    obtain ⟨n, hn, rfl⟩ := except_map_eq_ok.1 h
    exact le_of_readRegister hn
  | immediate => exact fits_immediate h

/-- Operands are read one by one. -/
theorem readOperands_eq_mapM (slots : List Slot) (tokens : List (List Char)) :
    readOperands slots tokens = (slots.zip tokens).mapM fun x => x.1.read x.2 := by
  induction slots generalizing tokens with
  | nil => rfl
  | cons slot slots ih =>
    cases tokens with
    | nil => rfl
    | cons token tokens =>
      rw [List.zip_cons_cons, List.mapM_cons, ← ih]
      rfl

/-- Every operand is read from one of the tokens. -/
theorem forall₂_of_readOperands {slots : List Slot} {tokens : List (List Char)}
    {operands : List Operand} (hlength : tokens.length = slots.length)
    (h : readOperands slots tokens = .ok operands) :
    List.Forall₂ (fun slot o => ∃ token ∈ tokens, Slot.read slot token = .ok o) slots operands := by
  induction slots generalizing tokens operands with
  | nil =>
    obtain rfl : [] = operands := Except.ok.inj h
    exact .nil
  | cons slot slots ih =>
    cases tokens with
    | nil => exact nomatch hlength
    | cons token tokens =>
      obtain ⟨o, ho, h⟩ := except_bind_eq_ok.1 h
      obtain ⟨os, hos, h⟩ := except_bind_eq_ok.1 h
      obtain rfl := Except.ok.inj h
      refine .cons ⟨token, List.mem_cons_self, ho⟩ ((ih (Nat.succ.inj hlength) hos).imp ?_)
      rintro slot' o' ⟨token', hmem, h'⟩
      exact ⟨token', List.mem_cons_of_mem _ hmem, h'⟩

/-! ## Reading a line -/

/-- What an instruction that is read was read from. -/
theorem read_eq_ok_iff {text : List Char} {line : Nat} {i : Instruction} :
    Instruction.read text line = .ok i ↔
      ∃ mnemonic args, Line.tokens text = mnemonic :: args ∧ Op.ofMnemonic? mnemonic = some i.op ∧
        args.length = i.op.arity ∧ readOperands i.op.slots args = .ok i.operands ∧
        i.line = line := by
  unfold Instruction.read
  constructor
  · intro h
    split at h
    · exact nomatch h
    · next mnemonic args htokens =>
      split at h
      · exact nomatch h
      · next op hop =>
        split at h
        · exact nomatch h
        · next harity =>
          obtain ⟨operands, hoperands, h⟩ := except_bind_eq_ok.1 h
          obtain rfl := Except.ok.inj h
          exact ⟨mnemonic, args, htokens, hop, not_not.1 harity, hoperands, rfl⟩
  · rintro ⟨mnemonic, args, htokens, hop, harity, hoperands, rfl⟩
    rw [htokens]
    simp only [hop, harity, ne_eq, not_true_eq_false, if_false, hoperands]
    rfl

/-- An instruction on another line. -/
def Instruction.onLine (i : Instruction) (line : Nat) : Instruction :=
  { i with line }

/-- Only the tokens of a line are read. -/
theorem read_of_tokens_eq {text text' : List Char} (h : Line.tokens text' = Line.tokens text)
    (line line' : Nat) :
    Instruction.read text' line' = (Instruction.read text line).map (·.onLine line') := by
  simp only [Instruction.read, h]
  split
  · rfl
  · split
    · rfl
    · split
      · rfl
      · next op _ _ =>
        cases readOperands op.slots _ with
        | error e => rfl
        | ok operands => rfl

/-- The operands that are read are read from tokens of the line. -/
theorem forall₂_of_read {text : List Char} {line : Nat} {i : Instruction}
    (h : Instruction.read text line = .ok i) :
    List.Forall₂ (fun slot o => ∃ token ∈ Line.tokens text, Slot.read slot token = .ok o)
      i.op.slots i.operands := by
  obtain ⟨_, args, htokens, -, harity, hoperands, -⟩ := read_eq_ok_iff.1 h
  refine (forall₂_of_readOperands harity hoperands).imp ?_
  rintro slot o ⟨token, hmem, hread⟩
  exact ⟨token, htokens ▸ List.mem_cons_of_mem _ hmem, hread⟩

theorem fits_of_read {text : List Char} {line : Nat} {i : Instruction}
    (h : Instruction.read text line = .ok i) : List.Forall₂ Slot.Fits i.op.slots i.operands := by
  refine (forall₂_of_read h).imp ?_
  rintro slot o ⟨token, -, hread⟩
  exact Slot.fits_of_read hread

/-! ## Resolving labels -/

/-- What a reference to a label is resolved to. -/
theorem resolveOperand_label (p : Program) (name : String) :
    p.resolveOperand (.label name) =
      match p.labels.find? name with
      | none => .error (.labelNotFound name)
      | some d =>
        if d.address.toNat ≤ 255 then .ok (.imm d.address.toUInt8)
        else .error (.outOfRange .labelAddress d.address.toNat 255) := by
  simp only [Program.resolveOperand, Labels.resolve, Labels.address?]
  cases p.labels.find? name with
  | none => rfl
  | some d => rfl

/-- Whether an operand fits a position and is no reference to a label. -/
def Slot.FitsResolved (slot : Slot) (o : Operand) : Prop :=
  slot.Fits o ∧ o.isLabel = false

theorem Slot.Fits.resolve {p : Program} {slot : Slot} {o o' : Operand} (hfits : slot.Fits o)
    (h : p.resolveOperand o = .ok o') : slot.FitsResolved o' := by
  cases o with
  | label name =>
    obtain ⟨address, -, h⟩ := except_bind_eq_ok.1 h
    cases slot with
    | immediate =>
      split at h
      · obtain rfl := Except.ok.inj h
        exact ⟨trivial, rfl⟩
      · exact nomatch h
    | register => exact hfits.elim
    | memory => exact hfits.elim
  | reg n => obtain rfl := Except.ok.inj h; exact ⟨hfits, rfl⟩
  | mem n => obtain rfl := Except.ok.inj h; exact ⟨hfits, rfl⟩
  | imm v => obtain rfl := Except.ok.inj h; exact ⟨hfits, rfl⟩

theorem resolve_eq_ok_iff {p : Program} {i j : Instruction} :
    p.resolve i = .ok j ↔
      j.op = i.op ∧ j.line = i.line ∧
        List.Forall₂ (fun o o' => p.resolveOperand o = .ok o') i.operands j.operands := by
  unfold Program.resolve
  rw [except_bind_eq_ok]
  constructor
  · rintro ⟨operands, hoperands, h⟩
    obtain rfl := Except.ok.inj h
    exact ⟨rfl, rfl, mapM_eq_ok_iff.1 hoperands⟩
  · rintro ⟨hop, hline, hoperands⟩
    refine ⟨j.operands, mapM_eq_ok_iff.2 hoperands, ?_⟩
    cases j
    cases hop
    cases hline
    rfl

theorem resolve_eq_error {p : Program} {i : Instruction} {e : LineError}
    (h : p.resolve i = .error e) : ∃ o ∈ i.operands, p.resolveOperand o = .error e := by
  rcases except_bind_eq_error.1 h with h | ⟨_, -, h⟩
  · exact mapM_eq_error h
  · exact nomatch h

theorem fits_of_resolve {p : Program} {slots : List Slot} {os os' : List Operand}
    (hfits : List.Forall₂ Slot.Fits slots os)
    (h : List.Forall₂ (fun o o' => p.resolveOperand o = .ok o') os os') :
    List.Forall₂ Slot.FitsResolved slots os' := by
  induction hfits generalizing os' with
  | nil =>
    cases h
    exact .nil
  | cons hfit _ ih =>
    cases h with
    | cons ho hos => exact .cons (hfit.resolve ho) (ih hos)

/-! ## The action of a line -/

theorem Slot.FitsResolved.register {o : Operand} (h : Slot.register.FitsResolved o) :
    ∃ r : Reg, o = .reg r.toByte := by
  cases o with
  | reg n => exact ⟨.ofByte n, by rw [Reg.toByte_ofByte h.1]⟩
  | mem | imm | label => exact h.1.elim

theorem Slot.FitsResolved.memory {o : Operand} (h : Slot.memory.FitsResolved o) :
    ∃ r : Reg, o = .mem r.toByte := by
  cases o with
  | mem n => exact ⟨.ofByte n, by rw [Reg.toByte_ofByte h.1]⟩
  | reg | imm | label => exact h.1.elim

theorem Slot.FitsResolved.immediate {o : Operand} (h : Slot.immediate.FitsResolved o) :
    ∃ v, o = .imm v := by
  cases o with
  | imm v => exact ⟨v, rfl⟩
  | reg | mem => exact h.1.elim
  | label => exact nomatch h.2

/-- Operands that fit the positions of an operation make it an action. -/
theorem Action.exists_of_fits {op : Op} {operands : List Operand}
    (h : List.Forall₂ Slot.FitsResolved op.slots operands) :
    ∃ a : Action, a.op = op ∧ a.operands = operands := by
  cases op with
  | halt =>
    cases h
    exact ⟨.halt, rfl, rfl⟩
  | li =>
    obtain _ | ⟨h₁, _ | ⟨h₂, ⟨⟩⟩⟩ := h
    obtain ⟨d, rfl⟩ := h₁.register
    obtain ⟨v, rfl⟩ := h₂.immediate
    exact ⟨.li d v, rfl, rfl⟩
  | ld =>
    obtain _ | ⟨h₁, _ | ⟨h₂, ⟨⟩⟩⟩ := h
    obtain ⟨d, rfl⟩ := h₁.register
    obtain ⟨a, rfl⟩ := h₂.memory
    exact ⟨.ld d a, rfl, rfl⟩
  | st =>
    obtain _ | ⟨h₁, _ | ⟨h₂, ⟨⟩⟩⟩ := h
    obtain ⟨a, rfl⟩ := h₁.register
    obtain ⟨s, rfl⟩ := h₂.memory
    exact ⟨.st a s, rfl, rfl⟩
  | jp =>
    obtain _ | ⟨h₁, ⟨⟩⟩ := h
    obtain ⟨r, rfl⟩ := h₁.register
    exact ⟨.jp r, rfl, rfl⟩
  | jpIf c =>
    obtain _ | ⟨h₁, ⟨⟩⟩ := h
    obtain ⟨r, rfl⟩ := h₁.register
    exact ⟨.jpIf c r, rfl, rfl⟩
  | alu op =>
    obtain _ | ⟨h₁, _ | ⟨h₂, ⟨⟩⟩⟩ := h
    obtain ⟨d, rfl⟩ := h₁.register
    obtain ⟨s, rfl⟩ := h₂.register
    exact ⟨.alu op d s, rfl, rfl⟩

namespace Program

variable {p : Program} {line : Line}

/-- An instruction that is read and resolved is the canonical instruction of an action. -/
theorem exists_of_resolve {text : List Char} {number : Nat} {parsed i : Instruction}
    (hread : Instruction.read text number = .ok parsed) (hresolve : p.resolve parsed = .ok i) :
    ∃ a : Action, i = a.instruction number := by
  obtain ⟨_, _, -, -, -, -, hnumber⟩ := read_eq_ok_iff.1 hread
  obtain ⟨hop, hline, hoperands⟩ := resolve_eq_ok_iff.1 hresolve
  obtain ⟨a, ha, haoperands⟩ :=
    Action.exists_of_fits (fits_of_resolve (fits_of_read hread) hoperands)
  refine ⟨a, ?_⟩
  cases i
  simp_all [Action.instruction]

/-- A line is accepted where it is read and resolved, and has the word of its action. -/
theorem assembleLine_eq_ok_iff {i : Instruction} {w : Word} :
    p.assembleLine line = .ok (i, w) ↔
      ∃ parsed, Instruction.read line.text line.number = .ok parsed ∧
        p.resolve parsed = .ok i ∧ ∃ a : Action, i = a.instruction line.number ∧ w = a.word := by
  unfold assembleLine
  rw [except_bind_eq_ok]
  refine exists_congr fun parsed => and_congr_right fun hread => ?_
  rw [except_bind_eq_ok]
  constructor
  · rintro ⟨resolved, hresolve, h⟩
    obtain ⟨w', hencode, h⟩ := except_bind_eq_ok.1 h
    obtain ⟨a, rfl⟩ := exists_of_resolve hread hresolve
    rw [Action.encode_instruction] at hencode
    cases h
    exact ⟨hresolve, a, rfl, (Except.ok.inj hencode).symm⟩
  · rintro ⟨hresolve, a, rfl, rfl⟩
    refine ⟨_, hresolve, ?_⟩
    rw [Action.encode_instruction]
    rfl

/-- A line is refused where it is not read or its labels are not resolved. -/
theorem assembleLine_eq_error_iff {e : LineError} :
    p.assembleLine line = .error e ↔
      Instruction.read line.text line.number = .error e ∨
        ∃ parsed, Instruction.read line.text line.number = .ok parsed ∧
          p.resolve parsed = .error e := by
  unfold assembleLine
  rw [except_bind_eq_error]
  refine or_congr_right (exists_congr fun parsed => and_congr_right fun hread => ?_)
  rw [except_bind_eq_error]
  refine ⟨?_, .inl⟩
  rintro (h | ⟨resolved, hresolve, h⟩)
  · exact h
  · -- What is resolved is canonical, so encoding has no error to give.
    obtain ⟨a, rfl⟩ := exists_of_resolve hread hresolve
    rw [Action.encode_instruction] at h
    exact nomatch h

theorem decodeLine_eq_ok_iff {x : Instruction × Word} :
    p.decodeLine line = .ok x ↔ p.assembleLine line = .ok x := by
  unfold decodeLine
  cases p.assembleLine line with
  | ok y =>
    exact ⟨fun h => congrArg Except.ok (Except.ok.inj h),
      fun h => congrArg Except.ok (Except.ok.inj h)⟩
  | error e => exact ⟨nofun, nofun⟩

theorem decodeLine_eq_error_iff {trap : Trap} :
    p.decodeLine line = .error trap ↔
      ∃ e, trap = .decode line.number e ∧ p.assembleLine line = .error e := by
  unfold decodeLine
  cases p.assembleLine line with
  | ok y => exact ⟨nofun, nofun⟩
  | error e =>
    constructor
    · intro h
      exact ⟨e, (Except.error.inj h).symm, rfl⟩
    · rintro ⟨_, rfl, h⟩
      exact congrArg (Except.error ∘ Trap.decode line.number) (Except.error.inj h)

/-- A line that is decoded holds the canonical instruction of an action, and its word. -/
theorem exists_of_decodeLine {i : Instruction} {w : Word}
    (h : p.decodeLine line = .ok (i, w)) :
    ∃ a : Action, i = a.instruction line.number ∧ w = a.word := by
  obtain ⟨_, -, -, h⟩ := assembleLine_eq_ok_iff.1 (decodeLine_eq_ok_iff.1 h)
  exact h

end Program

end WordMachine
