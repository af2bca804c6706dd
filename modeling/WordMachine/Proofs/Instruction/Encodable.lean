import WordMachine.Proofs.Instruction.RoundTrip

/-!
# What can be encoded

An instruction has a word exactly if the operands that its operation takes stand at the front of its
operands, whatever follows them (`exists_encode_iff`). Whether a register is written with or without
parentheses makes no difference (`encode_normalOperands`), and decoding gives the operands in the
kinds of their positions (`decode?_of_encode`).

A word is made of fields (`Instruction.fields`), and putting fields together checks whether they
fill a word and whether each holds its value (`Field.pack`). The first check never fails, since the
fields of every operation have sixteen bits together, and the second one fails on registers only; so
encoding is putting the fields together (`packed_eq_encode`).
-/

namespace WordMachine

/-! ## Fields -/

/-- A number in some bits of a word. -/
structure Field where
  value : Nat
  width : Nat

/-- Why fields cannot be put together, beside what can be wrong with a line. -/
inductive PackError where
  | line (e : LineError)
  /-- All fields together have another number of bits than a word. -/
  | width (bits : Nat)

namespace Field

/-- Appends fields to a number. A value that is too large for its field is refused. -/
def append (n : Nat) : List Field → Except LineError Nat
  | [] => .ok n
  | f :: fields =>
    if f.value < 2 ^ f.width then append (n * 2 ^ f.width + f.value) fields
    else .error (.outOfRange .field f.value (2 ^ f.width - 1 : Nat))

/-- The word of fields that a number is in front of. -/
def word (n : Nat) (fields : List Field) : Except LineError Word :=
  (append n fields).map UInt16.ofNat

/-- The word that fields make up, the most significant first. -/
def pack (fields : List Field) : Except PackError Word :=
  let bits := (fields.map Field.width).sum
  if bits = 16 then (word 0 fields).mapError .line else .error (.width bits)

end Field

namespace Instruction

/-- The fields of a tag and two registers. -/
def pairFields (tag : Nat) (operands : List Operand) : Except LineError (List Field) := do
  let first ← registerOf operands[0]?
  let second ← registerOf operands[1]?
  return [⟨tag, 8⟩, ⟨first.toNat, 4⟩, ⟨second.toNat, 4⟩]

/-- The fields of an instruction, as its operation lays them out. -/
def fields (i : Instruction) : Except LineError (List Field) :=
  match i.op with
  | .halt => .ok [⟨0, 16⟩]
  | .li => do
    let value ← immediateOf i.operands[1]?
    let first ← registerOf i.operands[0]?
    return [⟨tagLi, 4⟩, ⟨value.toNat, 8⟩, ⟨first.toNat, 4⟩]
  | .ld => pairFields tagLd i.operands
  | .st => pairFields tagSt i.operands
  | .jp => do
    let first ← registerOf i.operands[0]?
    return [⟨tagJp, 12⟩, ⟨first.toNat, 4⟩]
  | .jpIf c => do
    let first ← registerOf i.operands[0]?
    return [⟨tagJpIf, 9⟩, ⟨c.code, 3⟩, ⟨first.toNat, 4⟩]
  | .alu a => pairFields (tagAlu + a.index) i.operands

/-- The word of an instruction, put together from its fields. -/
def packed (i : Instruction) : Except PackError Word := do
  let fields ← i.fields.mapError .line
  Field.pack fields

end Instruction

/-! ## Putting fields together -/

namespace Field

theorem append_of_lt {f : Field} (h : f.value < 2 ^ f.width) (n : Nat) (fields : List Field) :
    append n (f :: fields) = append (n * 2 ^ f.width + f.value) fields :=
  if_pos h

/-- A register is the only thing that a field can have no room for. -/
theorem append_register (n : Nat) (r : UInt8) (fields : List Field) :
    append n (⟨r.toNat, 4⟩ :: fields) =
      Instruction.registerField r >>= fun x => append (n * 16 + x) fields := by
  have hiff : r.toNat ≤ 15 ↔ r.toNat < 2 ^ 4 := by omega
  rw [append, Instruction.registerField]
  simp only [hiff]
  split <;> rfl

theorem word_of_lt {f : Field} (h : f.value < 2 ^ f.width) (n : Nat) (fields : List Field) :
    word n (f :: fields) = word (n * 2 ^ f.width + f.value) fields := by
  rw [word, append_of_lt h, word]

@[simp] theorem word_register (n : Nat) (r : UInt8) (fields : List Field) :
    word n (⟨r.toNat, 4⟩ :: fields) =
      Instruction.registerField r >>= fun x => word (n * 16 + x) fields := by
  rw [word, append_register]
  cases Instruction.registerField r <;> rfl

end Field

namespace Instruction

theorem encodePair_eq {tag : Nat} (htag : tag < 2 ^ 8) (operands : List Operand) :
    encodePair tag operands = pairFields tag operands >>= Field.word 0 := by
  have hword (first second : UInt8) :
      Field.word 0 [⟨tag, 8⟩, ⟨first.toNat, 4⟩, ⟨second.toNat, 4⟩] = (do
        let a ← registerField first
        let b ← registerField second
        return UInt16.ofNat (tag * 256 + a * 16 + b)) := by
    have hsum (a b : Nat) : ((0 * 2 ^ 8 + tag) * 16 + a) * 16 + b = tag * 256 + a * 16 + b := by
      omega
    rw [Field.word_of_lt htag]
    simp only [Field.word_register, hsum]
    rfl
  simp only [encodePair, pairFields, bind_assoc, pure_bind, hword]

/-- One register behind fields that have room for what they hold. -/
theorem encodeSingle_eq {tag : Nat} (tags : List Field)
    (htags : ∀ fields, Field.word 0 (tags ++ fields) = Field.word tag fields)
    (operands : List Operand) :
    encodeSingle tag operands = (do
      let first ← registerOf operands[0]?
      return tags ++ [⟨first.toNat, 4⟩]) >>= Field.word 0 := by
  simp only [encodeSingle, bind_assoc, pure_bind, htags, Field.word_register]
  rfl

/-- Encoding puts the fields of an instruction together. -/
theorem encode_eq (i : Instruction) : i.encode = i.fields >>= Field.word 0 := by
  obtain ⟨op, operands, line⟩ := i
  cases op with
  | halt => rfl
  | li =>
    have hword (value first : UInt8) :
        Field.word 0 [⟨tagLi, 4⟩, ⟨value.toNat, 8⟩, ⟨first.toNat, 4⟩] = (do
          let a ← registerField first
          return UInt16.ofNat (tagLi * 4096 + value.toNat * 16 + a)) := by
      have hsum (a : Nat) : ((0 * 2 ^ 4 + tagLi) * 2 ^ 8 + value.toNat) * 16 + a =
          tagLi * 4096 + value.toNat * 16 + a := by
        omega
      rw [Field.word_of_lt (by decide), Field.word_of_lt value.toNat_lt]
      simp only [Field.word_register, hsum]
      rfl
    simp only [encode, fields, bind_assoc, pure_bind, hword]
  | ld => exact encodePair_eq (by decide) operands
  | st => exact encodePair_eq (by decide) operands
  | jp => exact encodeSingle_eq [⟨tagJp, 12⟩] (fun _ => Field.word_of_lt (by decide) _ _) operands
  | jpIf c =>
    refine encodeSingle_eq [⟨tagJpIf, 9⟩, ⟨c.code, 3⟩] (fun fields => ?_) operands
    rw [List.cons_append, Field.word_of_lt (by decide), List.singleton_append,
      Field.word_of_lt c.code_lt]
    rfl
  | alu a =>
    have hindex := a.index_lt
    exact encodePair_eq (by rw [tagAlu]; omega) operands

/-- The fields of every instruction fill a word. -/
theorem width_fields {i : Instruction} {fs : List Field} (h : i.fields = .ok fs) :
    (fs.map Field.width).sum = 16 := by
  have hpair {tag : Nat} {operands : List Operand} (h : pairFields tag operands = .ok fs) :
      (fs.map Field.width).sum = 16 := by
    obtain ⟨first, -, h⟩ := except_bind_eq_ok.1 h
    obtain ⟨second, -, h⟩ := except_bind_eq_ok.1 h
    cases h
    rfl
  obtain ⟨op, operands, line⟩ := i
  cases op with
  | halt =>
    cases h
    rfl
  | li =>
    obtain ⟨value, -, h⟩ := except_bind_eq_ok.1 h
    obtain ⟨first, -, h⟩ := except_bind_eq_ok.1 h
    cases h
    rfl
  | jp | jpIf =>
    obtain ⟨first, -, h⟩ := except_bind_eq_ok.1 h
    cases h
    rfl
  | ld | st | alu => exact hpair h

/-- Encoding is putting the fields together with the check of their widths, which never fails. -/
theorem packed_eq_encode (i : Instruction) : i.packed = i.encode.mapError .line := by
  rw [packed, encode_eq]
  rcases hfields : i.fields with e | fs
  · rfl
  · change Field.pack fs = (Field.word 0 fs).mapError .line
    rw [Field.pack, if_pos (width_fields hfields)]

end Instruction

/-! ## Operands that can be encoded -/

/-- Whether an operand names a register of the machine, with parentheses or without. -/
def Operand.IsRegister (o : Operand) : Prop :=
  ∃ n : UInt8, n.toNat ≤ 15 ∧ (o = .reg n ∨ o = .mem n)

/-- Whether an operand can be encoded at a position. -/
def Slot.Encodes : Slot → Operand → Prop
  | register, o => o.IsRegister
  | memory, o => o.IsRegister
  | immediate, o => ∃ v, o = .imm v

/-- An operand in the kind that a position has. -/
def Slot.normal : Slot → Operand → Operand
  | register, .mem n => .reg n
  | memory, .reg n => .mem n
  | _, o => o

theorem Slot.Encodes.fitsResolved {slot : Slot} {o : Operand} (h : slot.Encodes o) :
    slot.FitsResolved (slot.normal o) := by
  cases slot with
  | register =>
    obtain ⟨n, hn, rfl | rfl⟩ := h
    · exact ⟨hn, rfl⟩
    · exact ⟨hn, rfl⟩
  | memory =>
    obtain ⟨n, hn, rfl | rfl⟩ := h
    · exact ⟨hn, rfl⟩
    · exact ⟨hn, rfl⟩
  | immediate =>
    obtain ⟨v, rfl⟩ := h
    exact ⟨trivial, rfl⟩

namespace Instruction

/-- Whether the operands that the operation takes stand at the front of the operands. -/
def Encodable (i : Instruction) : Prop :=
  ∃ front surplus, i.operands = front ++ surplus ∧ List.Forall₂ Slot.Encodes i.op.slots front

/-- The operands that the operation takes, in the kinds of their positions. -/
def normalOperands (i : Instruction) : List Operand :=
  List.zipWith Slot.normal i.op.slots i.operands

theorem Encodable.fitsResolved {i : Instruction} (h : i.Encodable) :
    List.Forall₂ Slot.FitsResolved i.op.slots i.normalOperands := by
  obtain ⟨front, surplus, hoperands, hfront⟩ := h
  rw [normalOperands, hoperands]
  clear hoperands
  generalize i.op.slots = slots at hfront
  induction hfront with
  | nil => exact .nil
  | cons h _ ih => exact .cons h.fitsResolved ih

/-! ## Encoding looks at the front of the operands -/

theorem registerOf_normal (slot : Slot) (o : Operand) :
    registerOf (some (slot.normal o)) = registerOf (some o) := by
  cases slot with
  | register => cases o <;> rfl
  | memory => cases o <;> rfl
  | immediate => rfl

/-- Encoding takes no notice of surplus operands and of the kinds of registers. -/
theorem encode_normalOperands (i : Instruction) :
    { i with operands := i.normalOperands }.encode = i.encode := by
  obtain ⟨op, operands, line⟩ := i
  rcases operands with _ | ⟨o₁, _ | ⟨o₂, surplus⟩⟩
  · cases op <;> rfl
  · cases op <;>
      simp [encode, normalOperands, Op.slots, encodePair, encodeSingle, registerOf_normal]
  · have himmediate : Slot.immediate.normal o₂ = o₂ := rfl
    cases op <;>
      simp [encode, normalOperands, Op.slots, encodePair, encodeSingle, registerOf_normal,
        himmediate]

/-- An instruction that can be encoded is encoded as an action with its operands in their normal
kinds. -/
theorem Encodable.exists_action {i : Instruction} (h : i.Encodable) :
    ∃ a : Action, a.op = i.op ∧ a.operands = i.normalOperands ∧ i.encode = .ok a.word := by
  obtain ⟨a, hop, hoperands⟩ := Action.exists_of_fits h.fitsResolved
  refine ⟨a, hop, hoperands, ?_⟩
  rw [← encode_normalOperands, ← a.encode_instruction i.line, Action.instruction, hop, hoperands]

/-! ## Instructions that are encoded -/

theorem exists_of_registerOf {o? : Option Operand} {n : UInt8} {k : Nat}
    (h : registerOf o? = .ok n) (hfield : registerField n = .ok k) :
    ∃ o, o? = some o ∧ o.IsRegister := by
  have hn : n.toNat ≤ 15 := by
    unfold registerField at hfield
    split at hfield
    · assumption
    · exact nomatch hfield
  unfold registerOf at h
  split at h
  · cases h
    exact ⟨_, rfl, n, hn, .inl rfl⟩
  · cases h
    exact ⟨_, rfl, n, hn, .inr rfl⟩
  all_goals exact nomatch h

theorem exists_of_encodeSingle {tag : Nat} {operands : List Operand} {w : Word}
    (h : encodeSingle tag operands = .ok w) :
    ∃ o surplus, operands = o :: surplus ∧ o.IsRegister := by
  obtain ⟨first, hfirst, h⟩ := except_bind_eq_ok.1 h
  obtain ⟨a, ha, -⟩ := except_bind_eq_ok.1 h
  obtain ⟨o, ho, hregister⟩ := exists_of_registerOf hfirst ha
  obtain ⟨surplus, rfl⟩ := List.head?_eq_some_iff.1 (List.head?_eq_getElem?.trans ho)
  exact ⟨o, surplus, rfl, hregister⟩

/-- The first two operands, if there are as many. -/
theorem exists_of_getElem? {operands : List Operand} {o₁ o₂ : Operand}
    (h₁ : operands[0]? = some o₁) (h₂ : operands[1]? = some o₂) :
    ∃ surplus, operands = o₁ :: o₂ :: surplus := by
  rcases operands with _ | ⟨o, _ | ⟨o', surplus⟩⟩
  · cases h₁
  · cases h₂
  · cases h₁
    cases h₂
    exact ⟨surplus, rfl⟩

theorem exists_of_encodePair {tag : Nat} {operands : List Operand} {w : Word}
    (h : encodePair tag operands = .ok w) :
    ∃ o₁ o₂ surplus, operands = o₁ :: o₂ :: surplus ∧ o₁.IsRegister ∧ o₂.IsRegister := by
  obtain ⟨first, hfirst, h⟩ := except_bind_eq_ok.1 h
  obtain ⟨second, hsecond, h⟩ := except_bind_eq_ok.1 h
  obtain ⟨a, ha, h⟩ := except_bind_eq_ok.1 h
  obtain ⟨b, hb, -⟩ := except_bind_eq_ok.1 h
  obtain ⟨o₁, h₁, hregister₁⟩ := exists_of_registerOf hfirst ha
  obtain ⟨o₂, h₂, hregister₂⟩ := exists_of_registerOf hsecond hb
  obtain ⟨surplus, rfl⟩ := exists_of_getElem? h₁ h₂
  exact ⟨o₁, o₂, surplus, rfl, hregister₁, hregister₂⟩

theorem exists_of_immediateOf {o? : Option Operand} {v : UInt8} (h : immediateOf o? = .ok v) :
    o? = some (.imm v) := by
  unfold immediateOf at h
  split at h
  · cases h
    rfl
  all_goals exact nomatch h

theorem encodable_of_encode {i : Instruction} {w : Word} (h : i.encode = .ok w) :
    i.Encodable := by
  obtain ⟨op, operands, line⟩ := i
  have hpair {tag : Nat} (h : encodePair tag operands = .ok w) {second : Slot}
      (hsecond : ∀ o : Operand, o.IsRegister → second.Encodes o) :
      ∃ front surplus, operands = front ++ surplus ∧
        List.Forall₂ Slot.Encodes [.register, second] front := by
    obtain ⟨o₁, o₂, surplus, rfl, h₁, h₂⟩ := exists_of_encodePair h
    exact ⟨[o₁, o₂], surplus, rfl, .cons h₁ (.cons (hsecond o₂ h₂) .nil)⟩
  cases op with
  | halt => exact ⟨[], operands, rfl, .nil⟩
  | li =>
    obtain ⟨v, hv, h⟩ := except_bind_eq_ok.1 h
    obtain ⟨first, hfirst, h⟩ := except_bind_eq_ok.1 h
    obtain ⟨a, ha, -⟩ := except_bind_eq_ok.1 h
    obtain ⟨o, ho, hregister⟩ := exists_of_registerOf hfirst ha
    obtain ⟨surplus, rfl⟩ := exists_of_getElem? ho (exists_of_immediateOf hv)
    exact ⟨[o, .imm v], surplus, rfl, .cons hregister (.cons ⟨v, rfl⟩ .nil)⟩
  | jp | jpIf =>
    obtain ⟨o, surplus, rfl, hregister⟩ := exists_of_encodeSingle h
    exact ⟨[o], surplus, rfl, .cons hregister .nil⟩
  | ld | st => exact hpair h fun _ ho => ho
  | alu => exact hpair h fun _ ho => ho

theorem exists_encode_iff {i : Instruction} : (∃ w, i.encode = .ok w) ↔ i.Encodable := by
  constructor
  · rintro ⟨w, h⟩
    exact encodable_of_encode h
  · intro h
    obtain ⟨a, -, -, ha⟩ := h.exists_action
    exact ⟨a.word, ha⟩

/-- A word decodes to the operands that it was encoded from, in the kinds of their positions. -/
theorem decode?_of_encode {i : Instruction} {w : Word} (h : i.encode = .ok w) :
    decode? w = some { op := i.op, operands := i.normalOperands } := by
  obtain ⟨a, hop, hoperands, ha⟩ := (encodable_of_encode h).exists_action
  obtain rfl : w = a.word := Except.ok.inj (h.symm.trans ha)
  rw [Action.decode?_word, Action.instruction, hop, hoperands]

end Instruction

/-- **Decoding undoes encoding.** An instruction, however ill-formed, has a word exactly if the
operands that its operation takes stand at the front of its operands: registers that exist, and a
number where `li` takes one. Checking the widths of its fields never makes a difference. The word
decodes to the same operation with these operands, in the kinds of their positions and without the
surplus; that is the same instruction if it was read and resolved. The words that decode are those
that some instruction has, and each of them is the word of what it decodes to. -/
theorem decode_encode :
    (∀ i : Instruction,
      ((∃ w, i.encode = .ok w) ↔ i.Encodable) ∧
      (i.packed = i.encode.mapError .line ∧ ∀ bits, i.packed ≠ .error (.width bits)) ∧
      ∀ w, i.encode = .ok w → ∃ j, Instruction.decode? w = some j ∧ j.op = i.op ∧
        j.operands = List.zipWith Slot.normal i.op.slots i.operands) ∧
    (∀ (p : Program) (text : List Char) (number : Nat) (parsed i : Instruction),
      Instruction.read text number = .ok parsed → p.resolve parsed = .ok i →
        ∃ w j, i.encode = .ok w ∧ Instruction.decode? w = some j ∧ j.same i = true) ∧
    ∀ w : Word,
      ((∃ j, Instruction.decode? w = some j) ↔ ∃ i : Instruction, i.encode = .ok w) ∧
      ∀ j, Instruction.decode? w = some j → j.encode = .ok w := by
  have hreencode {w : Word} {j : Instruction} (h : Instruction.decode? w = some j) :
      j.encode = .ok w := by
    obtain ⟨a, rfl, rfl⟩ := Action.exists_of_decode? h
    exact a.encode_instruction 0
  refine ⟨fun i => ⟨Instruction.exists_encode_iff, ⟨i.packed_eq_encode, ?_⟩, ?_⟩, ?_, ?_⟩
  · intro bits h
    rw [i.packed_eq_encode] at h
    cases hencode : i.encode with
    | ok w =>
      rw [hencode] at h
      cases h
    | error e =>
      rw [hencode] at h
      cases h
  · intro w h
    exact ⟨_, Instruction.decode?_of_encode h, rfl, rfl⟩
  · intro p text number parsed i hread hresolve
    obtain ⟨a, rfl⟩ := Program.exists_of_resolve hread hresolve
    exact ⟨a.word, a.instruction 0, a.encode_instruction number, a.decode?_word,
      by simp [Instruction.same, Action.instruction]⟩
  · refine fun w => ⟨⟨?_, ?_⟩, fun j h => hreencode h⟩
    · rintro ⟨j, h⟩
      exact ⟨j, hreencode h⟩
    · rintro ⟨i, h⟩
      exact ⟨_, Instruction.decode?_of_encode h⟩

/-- Registers in the kinds of each other's positions with a surplus label behind them, and a
reference to a label that was resolved. -/
theorem decode_encode_surplus :
    (∃ j, Instruction.decode? 0x8034 = some j ∧ j.op = .ld ∧
        j.operands = List.zipWith Slot.normal Op.ld.slots [.mem 3, .reg 4, .label ":x"]) ∧
      List.zipWith Slot.normal Op.ld.slots [.mem 3, .reg 4, .label ":x"] = [.reg 3, .mem 4] ∧
      ∃ w j, (⟨.li, [.reg 1, .imm 2], 1⟩ : Instruction).encode = .ok w ∧
        Instruction.decode? w = some j ∧ j.same ⟨.li, [.reg 1, .imm 2], 1⟩ = true := by
  have hencode : (⟨.ld, [.mem 3, .reg 4, .label ":x"], 7⟩ : Instruction).encode = .ok 0x8034 := by
    decide +kernel
  have hread : Instruction.read "li r1, :end".toList 1 = .ok ⟨.li, [.reg 1, .label ":end"], 1⟩ := by
    decide +kernel
  have hresolve : Program.resolve ⟨[], #[], { entries := Std.HashMap.ofList [(":end", ⟨2, 3⟩)] }⟩
      ⟨.li, [.reg 1, .label ":end"], 1⟩ = .ok ⟨.li, [.reg 1, .imm 2], 1⟩ := by
    have hfind :
        (Std.HashMap.ofList [(":end", (⟨2, 3⟩ : Declaration))])[":end"]? = some ⟨2, 3⟩ := by
      simp
    simp only [Program.resolve, Program.resolveOperand, Labels.resolve, Labels.address?,
      Labels.find?, List.mapM_cons, hfind]
    rfl
  exact ⟨(decode_encode.1 _).2.2 _ hencode, by decide, decode_encode.2.1 _ _ _ _ _ hread hresolve⟩

end WordMachine
