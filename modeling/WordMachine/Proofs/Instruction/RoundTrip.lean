import WordMachine.Instruction.Printer
import WordMachine.Proofs.Instruction.Reading
import WordMachine.Proofs.Source.Number
import WordMachine.Proofs.Source.Register
import WordMachine.Proofs.Source.Spelling

/-!
# Instructions are read as they are printed

An instruction is printed as the words of its mnemonic and its operands (`Instruction.spells`), and
reading what is printed gives the instruction on the line that is read (`Instruction.read_render`).
Each kind of operand is read back by the reader of its position (`Slot.read_render`). This asks for
operands that fit their positions, and for references to labels that are tokens
(`Slot.FitsWritten`): every instruction that was read from a line is of this kind
(`fitsWritten_of_read`), so printing takes all ways to write an instruction to one of them
(`canonical_text`).
-/

namespace WordMachine

/-! ## Numbers -/

theorem Line.plain_of_isDigit {c : Char} (h : c.isDigit = true) :
    isSeparator c = false ∧ c ≠ ';' := by
  have hrange : 48 ≤ c.toNat ∧ c.toNat ≤ 57 := by
    simp only [Char.isDigit, Bool.and_eq_true, decide_eq_true_eq] at h
    exact h
  have hblank : Text.isBlank c = false := by
    simp only [Text.isBlank, Bool.or_eq_false_iff, Bool.and_eq_false_iff, decide_eq_false_iff_not,
      beq_eq_false_iff_ne]
    omega
  have hother {d : Char} (hd : d.isDigit = false) : c ≠ d := by
    rintro rfl
    exact absurd h (Bool.eq_false_iff.1 hd)
  have hcomma : c ≠ ',' := hother rfl
  exact ⟨by simp [isSeparator, hblank, hcomma], hother rfl⟩

theorem Line.plain_of_mem_decimal {n : Nat} {c : Char} (h : c ∈ Text.decimal n) :
    isSeparator c = false ∧ c ≠ ';' :=
  plain_of_isDigit (Text.isDigit_of_mem_decimal h)

theorem Line.isToken_decimal (n : Nat) : IsToken (Text.decimal n) :=
  .of_forall Nat.toDigits_ne_nil fun _ hc => plain_of_mem_decimal hc

theorem readByte_decimal (v : UInt8) : readByte (Text.decimal v.toNat) = .ok v := by
  have htrim : Text.trim (Text.decimal v.toNat) = Text.decimal v.toNat :=
    (Line.Spells.word (Line.isToken_decimal v.toNat)).trim_eq
  rw [readByte_eq_ok_iff, htrim]
  exact .intro .decimal .none (Text.digits_decimal v.toNat)

theorem readImmediate_decimal (v : UInt8) :
    readImmediate (Text.decimal v.toNat) = .ok (.imm v) := by
  have hdigit : ∀ c ∈ Text.decimal v.toNat, c.isDigit = true :=
    fun c hc => Text.isDigit_of_mem_decimal hc
  unfold readImmediate
  split
  · next heq =>
    rw [heq] at hdigit
    exact absurd (hdigit _ List.mem_cons_self) (by decide)
  · next heq =>
    rw [heq] at hdigit
    exact absurd (hdigit _ List.mem_cons_self) (by decide)
  · rw [readByte_decimal]
    rfl

/-! ## Registers -/

theorem readRegister_bare {n : UInt8} (hn : n.toNat ≤ 15) :
    readRegister ('r' :: Text.decimal n.toNat) = .ok n :=
  readRegister_eq_ok_iff.2
    ⟨hn, false, .of_registerName (.bare (.inl rfl) (Text.digits_decimal n.toNat))⟩

theorem readRegister_parenthesized {n : UInt8} (hn : n.toNat ≤ 15) :
    readRegister ('(' :: 'r' :: Text.decimal n.toNat ++ [')']) = .ok n :=
  readRegister_eq_ok_iff.2
    ⟨hn, true, .of_registerName (.enclosed (.inl rfl) (Text.digits_decimal n.toNat))⟩

/-! ## Labels -/

/-- Whether a token refers to a label. There is a name behind the colon, which can hold anything
that a token can. -/
structure Line.IsReference (token : List Char) : Prop extends IsToken token where
  named : ∃ c cs, token = ':' :: c :: cs

theorem readImmediate_reference {name : String} (h : Line.IsReference name.toList) :
    readImmediate name.toList = .ok (.label name) := by
  obtain ⟨c, cs, hname⟩ := h.named
  have hlabel : String.ofList (':' :: c :: cs) = name := by rw [← hname, String.ofList_toList]
  rw [hname, readImmediate, hlabel]
  exact fun hcolon => nomatch hcolon

/-! ## Operands -/

/-- Whether an operand is read at a position as it is printed: it has the kind of the position, and
what it refers to as a label is written as a reference. -/
structure Slot.FitsWritten (slot : Slot) (o : Operand) : Prop where
  fits : slot.Fits o
  reference : ∀ name, o = .label name → Line.IsReference name.toList

theorem Slot.FitsResolved.fitsWritten {slot : Slot} {o : Operand} (h : slot.FitsResolved o) :
    slot.FitsWritten o := by
  refine ⟨h.1, ?_⟩
  rintro name rfl
  exact nomatch h.2

/-- What is read from a token fits and is written as it was. -/
theorem Slot.fitsWritten_of_read {slot : Slot} {token : List Char} {o : Operand}
    (htoken : Line.IsToken token) (h : slot.read token = .ok o) : slot.FitsWritten o := by
  refine ⟨fits_of_read h, ?_⟩
  rintro name rfl
  cases slot with
  | register =>
    obtain ⟨n, -, h⟩ := except_map_eq_ok.1 h
    exact nomatch h
  | memory =>
    obtain ⟨n, -, h⟩ := except_map_eq_ok.1 h
    exact nomatch h
  | immediate =>
    simp only [read, readImmediate] at h
    split at h
    · exact nomatch h
    · next cs hcolon =>
      -- A lone colon is refused, so there is a name.
      obtain rfl := Operand.label.inj (Except.ok.inj h)
      rw [String.toList_ofList]
      cases cs with
      | nil => exact absurd rfl hcolon
      | cons c cs => exact ⟨htoken, c, cs, rfl⟩
    · obtain ⟨v, -, h⟩ := except_map_eq_ok.1 h
      exact nomatch h

/-- An operand that fits a position is read there as it is printed. -/
theorem Slot.read_render {slot : Slot} {o : Operand} (h : slot.FitsWritten o) :
    slot.read o.render = .ok o := by
  cases slot with
  | register =>
    cases o with
    | reg n => exact except_map_eq_ok.2 ⟨n, readRegister_bare h.fits, rfl⟩
    | mem | imm | label => exact h.fits.elim
  | memory =>
    cases o with
    | mem n => exact except_map_eq_ok.2 ⟨n, readRegister_parenthesized h.fits, rfl⟩
    | reg | imm | label => exact h.fits.elim
  | immediate =>
    cases o with
    | imm v => exact readImmediate_decimal v
    | label name => exact readImmediate_reference (h.reference name rfl)
    | reg | mem => exact h.fits.elim

theorem readOperands_render {slots : List Slot} {operands : List Operand}
    (h : List.Forall₂ Slot.FitsWritten slots operands) :
    readOperands slots (operands.map Operand.render) = .ok operands := by
  induction h with
  | nil => rfl
  | cons hfits _ ih =>
    rw [List.map_cons, readOperands, Slot.read_render hfits, ih]
    rfl

theorem Slot.FitsWritten.isToken {slot : Slot} {o : Operand} (h : slot.FitsWritten o) :
    Line.IsToken o.render := by
  have hdecimal (n : UInt8) : ∀ c ∈ Text.decimal n.toNat, Line.isSeparator c = false ∧ c ≠ ';' :=
    fun c hc => Line.plain_of_mem_decimal hc
  cases o with
  | reg n =>
    refine .of_forall (List.cons_ne_nil _ _) ?_
    exact List.forall_mem_cons.2 ⟨by decide, hdecimal n⟩
  | mem n =>
    refine .of_forall (List.cons_ne_nil _ _) (List.forall_mem_append.2 ⟨?_, ?_⟩)
    · exact List.forall_mem_cons.2 ⟨by decide, List.forall_mem_cons.2 ⟨by decide, hdecimal n⟩⟩
    · exact List.forall_mem_singleton.2 (by decide)
  | imm v => exact Line.isToken_decimal v.toNat
  | label name => exact (h.reference name rfl).toIsToken

/-! ## Instructions -/

theorem Op.isToken_mnemonic (op : Op) : Line.IsToken op.mnemonic.toList := by
  have hplain : op.mnemonic.toList ≠ [] ∧ (op.mnemonic.toList.all fun c =>
      !Line.isSeparator c && c != ';') = true := by
    rcases op with _ | _ | _ | _ | _ | c | a
    case jpIf => cases c <;> decide
    case alu => cases a <;> decide
    all_goals decide
  refine .of_forall hplain.1 fun c hc => ?_
  simpa using List.all_eq_true.1 hplain.2 c hc

/-- No mnemonic begins like the declaration of a label. -/
theorem Op.head?_mnemonic (op : Op) : op.mnemonic.toList.head? ≠ some ':' := by
  rcases op with _ | _ | _ | _ | _ | c | a
  case jpIf => simp [Op.mnemonic_jpIf]
  case alu => cases a <;> decide
  all_goals decide

namespace Instruction

/-- What is printed begins with the mnemonic. -/
theorem head?_render (i : Instruction) : i.render.head? = i.op.mnemonic.toList.head? := by
  rw [render]
  split
  · rfl
  · exact List.head?_append_of_ne_nil _ i.op.isToken_mnemonic.ne_nil

variable {i : Instruction} (h : List.Forall₂ Slot.FitsWritten i.op.slots i.operands)

include h

/-- What is printed spells out the mnemonic and the operands. -/
theorem spells :
    Line.Spells i.render (i.op.mnemonic.toList :: i.operands.map Operand.render) := by
  have hmnemonic : Line.Spells i.op.mnemonic.toList [i.op.mnemonic.toList] :=
    .word i.op.isToken_mnemonic
  have hblank : ∀ c ∈ [' '], Line.isSeparator c = true ∧ c ≠ '\n' :=
    List.forall_mem_singleton.2 (by decide)
  have htokens : ∀ w ∈ i.operands.map Operand.render, Line.IsToken w := by
    intro w hw
    obtain ⟨o, ho, rfl⟩ := List.mem_map.1 hw
    obtain ⟨slot, -, hfits⟩ := exists_of_mem_right h ho
    exact hfits.isToken
  rw [render]
  split
  · next hnone =>
    rw [hnone]
    exact hmnemonic
  · next hsome =>
    have hoperands : Line.Spells ([',', ' '].intercalate (i.operands.map Operand.render))
        (i.operands.map Operand.render) := by
      apply Line.Spells.intercalate (List.cons_ne_nil _ _) _ _ htokens
      · exact List.forall_mem_cons.2 ⟨by decide, hblank⟩
      · intro hnil
        exact hsome (List.map_eq_nil_iff.1 hnil)
    have hall := hmnemonic.append (List.cons_ne_nil _ _) hblank hoperands
    rw [List.append_assoc] at hall
    exact hall

/-- What is printed is the text of an instruction. -/
theorem kind_render : Line.Kind.ofText i.render = .instruction := by
  apply (spells h).kind_eq
  rw [head?_render]
  exact i.op.head?_mnemonic

/-- Reading what is printed gives the instruction back, on the line that is read. -/
theorem read_render (line : Nat) : Instruction.read i.render line = .ok { i with line } := by
  refine read_eq_ok_iff.2 ⟨_, _, (spells h).tokens_eq, ?_, ?_, readOperands_render h, rfl⟩
  · exact i.op.ofMnemonic?_mnemonic
  · rw [List.length_map]
    exact h.length_eq.symm

end Instruction

/-- The operands of an instruction that is read are written as they were. -/
theorem fitsWritten_of_read {text : List Char} {line : Nat} {i : Instruction}
    (h : Instruction.read text line = .ok i) :
    List.Forall₂ Slot.FitsWritten i.op.slots i.operands := by
  refine (forall₂_of_read h).imp ?_
  rintro slot o ⟨token, hmem, hread⟩
  exact Slot.fitsWritten_of_read (Line.isToken_of_mem_tokens hmem) hread

namespace Action

/-- The operands of an action fit its operation. -/
theorem fits (a : Action) : List.Forall₂ Slot.FitsResolved a.op.slots a.operands := by
  have hle (r : Reg) : r.toByte.toNat ≤ 15 := by
    have := r.isLt
    rw [Reg.toNat_toByte]
    omega
  have hregister (r : Reg) : Slot.register.FitsResolved (.reg r.toByte) := ⟨hle r, rfl⟩
  have hmemory (r : Reg) : Slot.memory.FitsResolved (.mem r.toByte) := ⟨hle r, rfl⟩
  cases a with
  | halt => exact .nil
  | li d v => exact .cons (hregister d) (.cons ⟨trivial, rfl⟩ .nil)
  | ld d a => exact .cons (hregister d) (.cons (hmemory a) .nil)
  | st a s => exact .cons (hregister a) (.cons (hmemory s) .nil)
  | jp r => exact .cons (hregister r) .nil
  | jpIf c r => exact .cons (hregister r) .nil
  | alu op d s => exact .cons (hregister d) (.cons (hregister s) .nil)

theorem fitsWritten (a : Action) : List.Forall₂ Slot.FitsWritten a.op.slots a.operands :=
  a.fits.imp fun _ _ h => h.fitsWritten

end Action

/-- **Printing is a canonical form for reading.** The text of an instruction that was read from any
line, whatever its number, is the text of an instruction, and from it the same instruction is read
on every line, with the number of that line and with the same text. This holds of references to
labels as well, whose names can be made of all characters but separators. -/
theorem canonical_text {text : List Char} {number : Nat} {i : Instruction}
    (h : Instruction.read text number = .ok i) (line : Nat) :
    Line.Kind.ofText i.text.toList = .instruction ∧
      ∃ j, Instruction.read i.text.toList line = .ok j ∧ j.same i = true ∧ j.line = line ∧
        j.text = i.text := by
  have hfits := fitsWritten_of_read h
  rw [Instruction.text, String.toList_ofList]
  refine ⟨Instruction.kind_render hfits, _, Instruction.read_render hfits line, ?_, rfl, rfl⟩
  simp [Instruction.same]

/-- A register with zeros and parentheses, and a label of colons, semicolons and letters beyond
ASCII in front of a comment. -/
theorem canonical_text_label :
    Instruction.read "\tLI (R007),:é;:λ ; far".toList 9 = .ok ⟨.li, [.reg 7, .label ":é;:λ"], 9⟩ ∧
      (⟨.li, [.reg 7, .label ":é;:λ"], 9⟩ : Instruction).text = "li r7, :é;:λ" ∧
      Line.Kind.ofText "li r7, :é;:λ".toList = .instruction ∧
      ∃ j, Instruction.read "li r7, :é;:λ".toList 2 = .ok j ∧
        j.same ⟨.li, [.reg 7, .label ":é;:λ"], 9⟩ = true ∧ j.line = 2 ∧ j.text = "li r7, :é;:λ" := by
  have hread : Instruction.read "\tLI (R007),:é;:λ ; far".toList 9 =
      .ok ⟨.li, [.reg 7, .label ":é;:λ"], 9⟩ := by decide +kernel
  have htext : (⟨.li, [.reg 7, .label ":é;:λ"], 9⟩ : Instruction).text = "li r7, :é;:λ" := by
    decide +kernel
  have hcanonical := canonical_text hread 2
  rw [htext] at hcanonical
  exact ⟨hread, htext, hcanonical⟩

end WordMachine
