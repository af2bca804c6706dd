import WordMachine.Instruction.Encoding
import WordMachine.Machine.Action

/-!
# Canonical instructions

An action is an operation with operands that fit it, so there is one way to write it as an
instruction (`Action.instruction`) and one word that encodes it (`Action.word`). Encoding takes
the canonical instruction to the word, decoding takes the word back, and executing the canonical
instruction performs the action. Nothing else decodes: a word is the word of an action or of no
instruction (`decode?_eq_some_iff`).
-/

namespace WordMachine

namespace Reg

/-- The number of a register as it stands in an operand. -/
def toByte (r : Reg) : UInt8 :=
  UInt8.ofNat r.val

@[simp] theorem toNat_toByte (r : Reg) : r.toByte.toNat = r.val := by
  have := r.isLt
  simp only [toByte, UInt8.toNat_ofNat']
  omega

@[simp] theorem ofByte_toByte (r : Reg) : ofByte r.toByte = r := by
  have := r.isLt
  apply Fin.ext
  simp only [ofByte, toNat_toByte]
  omega

theorem toByte_ofByte {n : UInt8} (h : n.toNat ≤ 15) : (ofByte n).toByte = n := by
  apply UInt8.toNat_inj.1
  rw [toNat_toByte]
  simp only [ofByte]
  omega

end Reg

theorem Condition.code_of_ofCode? {n : Nat} {c : Condition} (h : ofCode? n = some c) :
    c.code = n := by
  obtain ⟨hn, rfl⟩ := List.getElem?_eq_some_iff.1 h
  match n, hn with
  | 0, _ | 1, _ | 2, _ | 3, _ | 4, _ | 5, _ | 6, _ | 7, _ => rfl

theorem AluOp.index_of_ofIndex? {n : Nat} {a : AluOp} (h : ofIndex? n = some a) :
    a.index = n := by
  obtain ⟨hn, rfl⟩ := List.getElem?_eq_some_iff.1 h
  match n, hn with
  | 0, _ | 1, _ | 2, _ | 3, _ | 4, _ | 5, _ | 6, _ | 7, _ | 8, _ | 9, _ | 10, _ => rfl

namespace Action

/-! ## The instruction and the word of an action -/

/-- The operation of an action. -/
def op : Action → Op
  | halt => .halt
  | li .. => .li
  | ld .. => .ld
  | st .. => .st
  | jp _ => .jp
  | jpIf c _ => .jpIf c
  | alu op .. => .alu op

/-- The operands of an action, each in the kind that its position has. -/
def operands : Action → List Operand
  | halt => []
  | li d v => [.reg d.toByte, .imm v]
  | ld d a => [.reg d.toByte, .mem a.toByte]
  | st a s => [.reg a.toByte, .mem s.toByte]
  | jp r => [.reg r.toByte]
  | jpIf _ r => [.reg r.toByte]
  | alu _ d s => [.reg d.toByte, .reg s.toByte]

/-- The canonical instruction of an action, on some line. -/
def instruction (a : Action) (line : Nat) : Instruction :=
  { op := a.op, operands := a.operands, line }

/-- A word of a tag and two registers. -/
def pairWord (tag : Nat) (a b : Reg) : Word :=
  UInt16.ofNat (tag * 256 + a.val * 16 + b.val)

/-- A word of a tag and one register. -/
def singleWord (tag : Nat) (a : Reg) : Word :=
  UInt16.ofNat (tag * 16 + a.val)

/-- The word of an action. -/
def word : Action → Word
  | halt => 0
  | li d v => UInt16.ofNat (Instruction.tagLi * 4096 + v.toNat * 16 + d.val)
  | ld d a => pairWord Instruction.tagLd d a
  | st a s => pairWord Instruction.tagSt a s
  | jp r => singleWord Instruction.tagJp r
  | jpIf c r => singleWord (Instruction.tagJpIf * 8 + c.code) r
  | alu op d s => pairWord (Instruction.tagAlu + op.index) d s

theorem toNat_pairWord {tag : Nat} (h : tag < 256) (a b : Reg) :
    (pairWord tag a b).toNat = tag * 256 + a.val * 16 + b.val := by
  have := a.isLt
  have := b.isLt
  simp only [pairWord, UInt16.toNat_ofNat']
  omega

theorem toNat_singleWord {tag : Nat} (h : tag < 4096) (a : Reg) :
    (singleWord tag a).toNat = tag * 16 + a.val := by
  have := a.isLt
  simp only [singleWord, UInt16.toNat_ofNat']
  omega

theorem toNat_word_li (d : Reg) (v : UInt8) :
    (li d v).word.toNat = 4096 + v.toNat * 16 + d.val := by
  have := d.isLt
  have := v.toNat_lt
  simp only [word, Instruction.tagLi, UInt16.toNat_ofNat']
  omega

/-! ## Encoding -/

theorem registerField_toByte (r : Reg) : Instruction.registerField r.toByte = .ok r.val := by
  have := r.isLt
  simp only [Instruction.registerField, Reg.toNat_toByte]
  rw [if_pos (by omega)]

theorem encodePair_eq (tag : Nat) (d s : Reg) {first second : Operand}
    (h₁ : Instruction.registerOf (some first) = .ok d.toByte)
    (h₂ : Instruction.registerOf (some second) = .ok s.toByte) :
    Instruction.encodePair tag [first, second] = .ok (pairWord tag d s) := by
  simp only [Instruction.encodePair, List.getElem?_cons_zero, List.getElem?_cons_succ, h₁, h₂,
    bind, Except.bind, registerField_toByte]
  rfl

theorem encodeSingle_eq (tag : Nat) (r : Reg) :
    Instruction.encodeSingle tag [.reg r.toByte] = .ok (singleWord tag r) := by
  simp only [Instruction.encodeSingle, List.getElem?_cons_zero, Instruction.registerOf, bind,
    Except.bind, registerField_toByte]
  rfl

/-- Encoding takes the canonical instruction to the word. -/
theorem encode_instruction (a : Action) (line : Nat) :
    (a.instruction line).encode = .ok a.word := by
  cases a with
  | halt => rfl
  | li d v =>
    simp only [instruction, op, operands, Instruction.encode, List.getElem?_cons_zero,
      List.getElem?_cons_succ, Instruction.immediateOf, Instruction.registerOf, bind, Except.bind,
      registerField_toByte]
    rfl
  | ld d a => exact encodePair_eq _ d a rfl rfl
  | st a s => exact encodePair_eq _ a s rfl rfl
  | jp r => exact encodeSingle_eq _ r
  | jpIf c r => exact encodeSingle_eq _ r
  | alu op d s => exact encodePair_eq _ d s rfl rfl

/-! ## Decoding -/

/-- A word of a tag and two registers decodes by its tag, unless the tag begins like that of `li`
or of a jump. -/
theorem decode?_pairWord {tag : Nat} (d s : Reg) (htag : tag < 256) (hzero : tag ≠ 0)
    (hli : tag / 16 ≠ 1) (hjp : tag ≠ 0xc0) (hjpIf : tag ≠ 0xf0) :
    Instruction.decode? (pairWord tag d s) =
      if tag = Instruction.tagLd then
        some { op := .ld, operands := [.reg d.toByte, .mem s.toByte] }
      else if tag = Instruction.tagSt then
        some { op := .st, operands := [.reg d.toByte, .mem s.toByte] }
      else if Instruction.tagAlu ≤ tag then
        (AluOp.ofIndex? (tag - Instruction.tagAlu)).map fun a =>
          { op := .alu a, operands := [.reg d.toByte, .reg s.toByte] }
      else none := by
  have hd := d.isLt
  have hs := s.isLt
  have hn := toNat_pairWord htag d s
  have h₀ : ¬(pairWord tag d s).toNat = 0 := by omega
  have h₁ : ¬(pairWord tag d s).toNat / 4096 = Instruction.tagLi := by
    rw [Instruction.tagLi]; omega
  have h₂ : ¬(pairWord tag d s).toNat / 16 = Instruction.tagJp := by
    rw [Instruction.tagJp]; omega
  have h₃ : ¬(pairWord tag d s).toNat / 128 = Instruction.tagJpIf := by
    rw [Instruction.tagJpIf]; omega
  have htop : (pairWord tag d s).toNat / 256 = tag := by omega
  have hlow : (pairWord tag d s).toNat % 16 = s.val := by omega
  have hmid : (pairWord tag d s).toNat / 16 % 16 = d.val := by omega
  simp only [Instruction.decode?, if_neg h₀, if_neg h₁, if_neg h₂, if_neg h₃, htop, hlow, hmid,
    Reg.toByte]

/-- Decoding takes the word of an action back to its canonical instruction. -/
theorem decode?_word (a : Action) : Instruction.decode? a.word = some (a.instruction 0) := by
  cases a with
  | halt => rfl
  | li d v =>
    have hd := d.isLt
    have hv := v.toNat_lt
    have hn := toNat_word_li d v
    have h₀ : ¬(li d v).word.toNat = 0 := by omega
    have h₁ : (li d v).word.toNat / 4096 = Instruction.tagLi := by rw [Instruction.tagLi]; omega
    have hlow : (li d v).word.toNat % 16 = d.val := by omega
    have hvalue : (li d v).word.toNat / 16 % 256 = v.toNat := by omega
    simp only [Instruction.decode?, if_neg h₀, if_pos h₁, hlow, hvalue, UInt8.ofNat_toNat]
    rfl
  | ld d a => exact decode?_pairWord d a (by decide) (by decide) (by decide) (by decide) (by decide)
  | st a s => exact decode?_pairWord a s (by decide) (by decide) (by decide) (by decide) (by decide)
  | jp r =>
    have hr := r.isLt
    have hn : (jp r).word.toNat = 0xc00 * 16 + r.val := toNat_singleWord (by decide) r
    have h₀ : ¬(jp r).word.toNat = 0 := by omega
    have h₁ : ¬(jp r).word.toNat / 4096 = Instruction.tagLi := by rw [Instruction.tagLi]; omega
    have h₂ : (jp r).word.toNat / 16 = Instruction.tagJp := by rw [Instruction.tagJp]; omega
    have hlow : (jp r).word.toNat % 16 = r.val := by omega
    simp only [Instruction.decode?, if_neg h₀, if_neg h₁, if_pos h₂, hlow]
    rfl
  | jpIf c r =>
    have hr := r.isLt
    have hc := c.code_lt
    have hn : (jpIf c r).word.toNat = (0x1e0 * 8 + c.code) * 16 + r.val :=
      toNat_singleWord (by rw [Instruction.tagJpIf]; omega) r
    have h₀ : ¬(jpIf c r).word.toNat = 0 := by omega
    have h₁ : ¬(jpIf c r).word.toNat / 4096 = Instruction.tagLi := by
      rw [Instruction.tagLi]; omega
    have h₂ : ¬(jpIf c r).word.toNat / 16 = Instruction.tagJp := by
      rw [Instruction.tagJp]; omega
    have h₃ : (jpIf c r).word.toNat / 128 = Instruction.tagJpIf := by
      rw [Instruction.tagJpIf]; omega
    have hlow : (jpIf c r).word.toNat % 16 = r.val := by omega
    have hcode : (jpIf c r).word.toNat / 16 % 8 = c.code := by omega
    simp only [Instruction.decode?, if_neg h₀, if_neg h₁, if_neg h₂, if_pos h₃, hlow, hcode,
      Condition.ofCode?_code]
    rfl
  | alu op d s =>
    have hop := op.index_lt
    have hld : ¬Instruction.tagAlu + op.index = Instruction.tagLd := by
      rw [Instruction.tagAlu, Instruction.tagLd]; omega
    have hst : ¬Instruction.tagAlu + op.index = Instruction.tagSt := by
      rw [Instruction.tagAlu, Instruction.tagSt]; omega
    have hdecode := @decode?_pairWord (Instruction.tagAlu + op.index) d s
      (by rw [Instruction.tagAlu]; omega) (by rw [Instruction.tagAlu]; omega)
      (by rw [Instruction.tagAlu]; omega) (by rw [Instruction.tagAlu]; omega)
      (by rw [Instruction.tagAlu]; omega)
    rw [if_neg hld, if_neg hst, if_pos (Nat.le_add_right ..), Nat.add_sub_cancel_left,
      AluOp.ofIndex?_index] at hdecode
    exact hdecode

/-- The register that a field of four bits holds. -/
def regOfField (n : Nat) : Reg :=
  ⟨n % 16, Nat.mod_lt _ (by decide)⟩

/-- A word that decodes is the word of an action. -/
theorem exists_of_decode? {w : Word} {i : Instruction} (h : Instruction.decode? w = some i) :
    ∃ a : Action, a.word = w ∧ a.instruction 0 = i := by
  have hw := w.toNat_lt
  have hfields : w.toNat = w.toNat / 256 * 256 + w.toNat / 16 % 16 * 16 + w.toNat % 16 := by omega
  unfold Instruction.decode? at h
  simp only at h
  split at h
  · next hzero =>
    refine ⟨.halt, UInt16.toNat_inj.1 hzero.symm, Option.some.inj h⟩
  split at h
  · next hli =>
    refine ⟨.li (regOfField w.toNat) (UInt8.ofNat (w.toNat / 16 % 256)), ?_, Option.some.inj h⟩
    apply UInt16.toNat_inj.1
    rw [Instruction.tagLi] at hli
    rw [toNat_word_li, UInt8.toNat_ofNat']
    simp only [regOfField]
    omega
  split at h
  · next hjp =>
    refine ⟨.jp (regOfField w.toNat), ?_, Option.some.inj h⟩
    apply UInt16.toNat_inj.1
    rw [Instruction.tagJp] at hjp
    rw [word, toNat_singleWord (by decide), Instruction.tagJp]
    simp only [regOfField]
    omega
  split at h
  · next hjpIf =>
    obtain ⟨c, hc, rfl⟩ := Option.map_eq_some_iff.1 h
    have hcode := Condition.code_of_ofCode? hc
    refine ⟨.jpIf c (regOfField w.toNat), ?_, rfl⟩
    apply UInt16.toNat_inj.1
    rw [Instruction.tagJpIf] at hjpIf
    rw [word, toNat_singleWord (by rw [Instruction.tagJpIf]; omega), Instruction.tagJpIf]
    simp only [regOfField]
    omega
  -- What is left has a tag of eight bits and two registers.
  have hpair {tag : Nat} (htag : w.toNat / 256 = tag) :
      pairWord tag (regOfField (w.toNat / 16)) (regOfField w.toNat) = w := by
    apply UInt16.toNat_inj.1
    rw [toNat_pairWord (by omega)]
    simp only [regOfField]
    omega
  split at h
  · next hld => exact ⟨.ld _ _, hpair hld, Option.some.inj h⟩
  split at h
  · next hst => exact ⟨.st _ _, hpair hst, Option.some.inj h⟩
  split at h
  · next halu =>
    obtain ⟨op, hop, rfl⟩ := Option.map_eq_some_iff.1 h
    have hindex := AluOp.index_of_ofIndex? hop
    refine ⟨.alu op _ _, hpair ?_, rfl⟩
    omega
  · exact nomatch h

theorem decode?_eq_some_iff {w : Word} {i : Instruction} :
    Instruction.decode? w = some i ↔ ∃ a : Action, a.word = w ∧ a.instruction 0 = i := by
  refine ⟨exists_of_decode?, ?_⟩
  rintro ⟨a, rfl, rfl⟩
  exact decode?_word a

/-- Only `halt` is the word zero. -/
theorem word_eq_zero_iff {a : Action} : a.word = 0 ↔ a.op = .halt := by
  constructor
  · intro h
    have hdecode := decode?_word a
    rw [h] at hdecode
    exact (congrArg Instruction.op (Option.some.inj hdecode)).symm
  · intro h
    cases a <;> first | rfl | exact nomatch h

/-! ## Execution -/

/-- The canonical instruction of an action performs it. -/
theorem ofInstruction_instruction (a : Action) (line : Nat) :
    ofInstruction (a.instruction line) = .ok a := by
  have hknown : a.operands.findSome? Operand.unknownRegister? = none := by
    cases a <;> simp [operands, Operand.unknownRegister?]
  have hfits : ofOperands? a.op a.operands = some a := by
    cases a <;> simp [op, operands, ofOperands?]
  simp only [ofInstruction, instruction, hknown, hfits]

/-- An instruction is that of one action. -/
theorem eq_of_instruction_eq {a b : Action} {line : Nat}
    (h : a.instruction line = b.instruction line) : a = b := by
  have hof := ofInstruction_instruction a line
  rw [h, ofInstruction_instruction] at hof
  exact (Except.ok.inj hof).symm

end Action

end WordMachine
