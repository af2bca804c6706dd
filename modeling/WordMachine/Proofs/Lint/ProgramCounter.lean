import WordMachine.Proofs.Lint.Checks
import WordMachine.Proofs.Machine.Iteration

/-!
# What lint says of the program counter

Lint looks at the token behind the mnemonic: where it reads as the program counter, an operation
that writes its first operand is reported, and so is a jump (`mem_checkLine_pc_iff`). That token is
the first operand of the action on the line (`exists_tokens_of_decodeLine`). Of the actions that are
neither jumps nor `halt`, only one that is reported moves the program counter anywhere but to the
next address, and a jump that is reported leaves the machine as it is whenever it is taken
(`lint_foresees`).
-/

namespace WordMachine

/-! ## Lines that name the program counter -/

namespace Lint

variable {labels : Labels} {op : Op} {args : List (List Char)} {problem : Problem}

/-- An operation with something to report of the program counter begins with a register. -/
theorem slots_of_mem_checkPc (h : problem ∈ checkPc op) :
    ∃ slots, op.slots = .register :: slots := by
  cases op with
  | halt | st => cases h
  | li | ld | jp | jpIf c | alu a => exact ⟨_, rfl⟩

theorem mem_checkRegister_pc_iff {position : Nat} {token : List Char} (h : problem.check = .pc) :
    problem ∈ checkRegister op position token ↔
      position = 0 ∧ readRegister token = .ok 15 ∧ problem ∈ checkPc op := by
  unfold checkRegister
  constructor
  · intro hproblem
    split at hproblem
    · next n hread =>
      split at hproblem
      · next hpc =>
        obtain ⟨hposition, rfl⟩ := hpc
        exact ⟨hposition, hread, hproblem⟩
      · cases hproblem
    all_goals
      obtain rfl := List.mem_singleton.1 hproblem
      cases h
  · rintro ⟨rfl, hread, hproblem⟩
    rw [hread]
    exact hproblem

theorem mem_checkOperand_pc_iff {position : Nat} {slot : Slot} {token : List Char}
    (h : problem.check = .pc) :
    problem ∈ checkOperand labels op position slot token ↔
      slot ≠ .immediate ∧ position = 0 ∧ readRegister token = .ok 15 ∧ problem ∈ checkPc op := by
  have hregister (slot : Slot) :
      problem ∈ checkParens op position slot token ++ checkRegister op position token ↔
        position = 0 ∧ readRegister token = .ok 15 ∧ problem ∈ checkPc op := by
    rw [List.mem_append, mem_checkRegister_pc_iff h, or_iff_right]
    intro hparens
    cases h.symm.trans (check_of_mem_checkParens hparens)
  cases slot with
  | register => simpa [checkOperand] using hregister .register
  | memory => simpa [checkOperand] using hregister .memory
  | immediate =>
    refine iff_of_false (fun hproblem => ?_) fun hslot => hslot.1 rfl
    rcases check_of_mem_checkImmediate hproblem with hcheck | ⟨name, -, hlabel⟩
    · cases h.symm.trans hcheck
    · cases h.symm.trans (check_of_mem_checkLabel hlabel)

/-- What is reported of the program counter is reported of the token behind the mnemonic. -/
theorem mem_checkLine_pc_iff {text : List Char} (h : problem.check = .pc) :
    problem ∈ checkLine labels text ↔
      ∃ mnemonic token rest op, Line.tokens text = mnemonic :: token :: rest ∧
        Op.ofMnemonic? mnemonic = some op ∧ readRegister token = .ok 15 ∧
        problem ∈ checkPc op := by
  have hcheck : problem.check ≠ .mnemonic := by
    rw [h]
    decide
  rw [mem_checkLine_iff hcheck]
  constructor
  · rintro ⟨mnemonic, args, op, htokens, hop, hcount | hcomma | hoperands⟩
    · cases h.symm.trans (check_of_mem_checkCount hcount)
    · cases h.symm.trans (check_of_mem_checkComma hcomma)
    · obtain ⟨slot, token, position, hposition, hoperand⟩ := mem_checkOperands.1 hoperands
      obtain ⟨-, rfl, hread, hproblem⟩ := (mem_checkOperand_pc_iff h).1 hoperand
      cases args with
      | nil => simp at hposition
      | cons first rest =>
        obtain ⟨slots, hslots⟩ := slots_of_mem_checkPc hproblem
        rw [hslots] at hposition
        cases hposition
        exact ⟨mnemonic, _, rest, op, htokens, hop, hread, hproblem⟩
  · rintro ⟨mnemonic, token, rest, op, htokens, hop, hread, hproblem⟩
    obtain ⟨slots, hslots⟩ := slots_of_mem_checkPc hproblem
    have hoperand : problem ∈ checkOperand labels op 0 .register token :=
      (mem_checkOperand_pc_iff h).2 ⟨by decide, rfl, hread, hproblem⟩
    have hposition : (op.slots.zip (token :: rest))[0]? = some (.register, token) := by
      rw [hslots]
      rfl
    exact ⟨mnemonic, _, op, htokens, hop,
      .inr (.inr (mem_checkOperands.2 ⟨_, _, 0, hposition, hoperand⟩))⟩

end Lint

/-! ## The first operand of an action -/

/-- The register that is the first operand of an action. -/
def Action.first? : Action → Option Reg
  | halt => none
  | li d _ | ld d _ | alu _ d _ => some d
  | st address _ => some address
  | jp target | jpIf _ target => some target

theorem Reg.eq_pc_of_toByte {r : Reg} (h : r.toByte = 15) : r = .pc := by
  have hval : r.val = 15 := by rw [← Reg.toNat_toByte r, h]; rfl
  exact Fin.ext hval

namespace Program

variable {p : Program} {line : Line} {a : Action}

/-- The mnemonic on a line is that of its action, and the first operand stands behind it. -/
theorem exists_tokens_of_decodeLine
    (h : p.decodeLine line = .ok (a.instruction line.number, a.word)) :
    ∃ mnemonic args, Line.tokens line.text = mnemonic :: args ∧
      Op.ofMnemonic? mnemonic = some a.op ∧
      ∀ r, a.first? = some r → ∃ token rest, args = token :: rest ∧
        readRegister token = .ok r.toByte := by
  obtain ⟨parsed, hread, hresolve, -⟩ := assembleLine_eq_ok_iff.1 (decodeLine_eq_ok_iff.1 h)
  obtain ⟨mnemonic, args, htokens, hop, harity, hoperands, -⟩ := read_eq_ok_iff.1 hread
  obtain ⟨hsame, -, hresolved⟩ := resolve_eq_ok_iff.1 hresolve
  have hsame : a.op = parsed.op := hsame
  rw [← hsame] at hop harity hoperands
  refine ⟨mnemonic, args, htokens, hop, fun r hr => ?_⟩
  obtain ⟨slots, operands, hslots, hfirst⟩ : ∃ slots operands,
      a.op.slots = .register :: slots ∧ a.operands = .reg r.toByte :: operands := by
    cases a with
    | halt => cases hr
    | li | ld | st | jp | jpIf | alu =>
      cases hr
      exact ⟨_, _, rfl, rfl⟩
  cases args with
  | nil => simp [Op.arity, hslots] at harity
  | cons token rest =>
    rw [hslots] at hoperands
    obtain ⟨o, ho, hoperands⟩ := except_bind_eq_ok.1 hoperands
    obtain ⟨os, -, hoperands⟩ := except_bind_eq_ok.1 hoperands
    obtain ⟨n, hn, rfl⟩ := except_map_eq_ok.1 ho
    -- A register is resolved to itself.
    have hoperands : Operand.reg n :: os = parsed.operands := Except.ok.inj hoperands
    have hinstruction : (a.instruction line.number).operands = a.operands := rfl
    rw [← hoperands, hinstruction, hfirst, List.forall₂_cons] at hresolved
    cases Except.ok.inj hresolved.1
    exact ⟨token, rest, rfl, hn⟩

/-- On a line that is accepted, a problem of the program counter is reported where the program
counter is the first operand of the action. -/
theorem mem_checkLine_action_iff
    (h : p.decodeLine line = .ok (a.instruction line.number, a.word)) {problem : Problem}
    (hcheck : problem.check = .pc) :
    problem ∈ Lint.checkLine p.labels line.text ↔
      a.first? = some .pc ∧ problem ∈ Lint.checkPc a.op := by
  obtain ⟨mnemonic, args, htokens, hop, hargs⟩ := exists_tokens_of_decodeLine h
  rw [Lint.mem_checkLine_pc_iff hcheck]
  constructor
  · rintro ⟨mnemonic', token, rest, op, htokens', hop', hread, hproblem⟩
    cases htokens.symm.trans htokens'
    obtain rfl := Option.some.inj (hop.symm.trans hop')
    obtain ⟨r, hr⟩ : ∃ r, a.first? = some r := by
      cases a with
      | halt => cases hproblem
      | li | ld | st | jp | jpIf | alu => exact ⟨_, rfl⟩
    obtain ⟨_, _, heq, hread'⟩ := hargs r hr
    cases heq
    have hpc : r = .pc := Reg.eq_pc_of_toByte (Except.ok.inj (hread'.symm.trans hread))
    exact ⟨hpc ▸ hr, hproblem⟩
  · rintro ⟨hfirst, hproblem⟩
    obtain ⟨token, rest, rfl, hread⟩ := hargs _ hfirst
    exact ⟨mnemonic, token, rest, a.op, htokens, hop, hread, hproblem⟩

end Program

/-! ## What the actions do to the program counter -/

namespace Machine

variable {p : Program} {m m' : Machine} {a : Action} {line : Nat}

/-- An action that lets the machine go on to the next address writes the program counter only if
lint reports it. -/
theorem writesPc_of_perform (h : m.perform a line = (.ok .next, m'))
    (hpc : m'.cpu.pc ≠ m.cpu.pc) :
    a.first? = some .pc ∧ .writesPc ∈ Lint.checkPc a.op := by
  have hset {c : Cpu} {d : Reg} {w : Word} (hne : (c.set d w).pc ≠ c.pc) : d = .pc := by
    refine Classical.not_not.1 fun hd => hne ?_
    rw [Cpu.pc, Cpu.get_set, if_neg hd, Cpu.pc]
  cases a with
  | halt | jp => cases h
  | li d v =>
    cases h
    exact ⟨congrArg some (hset hpc), List.mem_singleton_self _⟩
  | ld d r =>
    simp only [perform] at h
    split at h
    · cases h
      exact ⟨congrArg some (hset hpc), List.mem_singleton_self _⟩
    · cases h
  | st r s =>
    simp only [perform] at h
    split at h
    · cases h
      exact absurd rfl hpc
    · cases h
  | jpIf c r =>
    simp only [perform] at h
    split at h
    · cases h
    · cases h
      exact absurd rfl hpc
  | alu op d s =>
    cases h
    exact ⟨congrArg some (hset hpc), List.mem_singleton_self _⟩

/-- A jump through the program counter changes nothing, whether or not it is taken. -/
theorem perform_of_jumpThroughPc (hfirst : a.first? = some .pc)
    (h : .jumpThroughPc ∈ Lint.checkPc a.op) :
    m.perform a line = (.ok (a.flow m.cpu.flags), m) := by
  have hself : m.cpu.setPc m.cpu.pc = m.cpu := by
    simp [Cpu.setPc, Cpu.set, Cpu.pc, Cpu.get]
  cases a with
  | halt | st => cases h
  | li | ld | alu => simp [Action.op, Lint.checkPc] at h
  | jp r =>
    cases hfirst
    rw [perform, ← Cpu.pc, hself]
    rfl
  | jpIf c r =>
    cases hfirst
    rw [perform, ← Cpu.pc, hself]
    simp only [Action.flow]
    split <;> rfl

/-- A step that leads back to its machine is repeated forever. -/
theorem after_of_step_eq {s : Step} (h : m.step p = (.ok s, m)) (n : Nat) : m.after p n = m := by
  have hfixed : (m.step p).2 = m := by rw [h]
  exact Function.iterate_fixed hfixed n

section Step

variable {line : Line}

/-- A successful step reports the flow of the action at the program counter. -/
theorem exists_of_step {s : Step} (h : m.step p = (.ok s, m')) :
    ∃ line a, p.fetch? m.cpu.pc = some line ∧
      p.decodeLine line = .ok (Action.instruction a line.number, a.word) ∧
      s.flow = a.flow m.cpu.flags := by
  cases step_eq_iff.1 h with
  | @action line a flow m₁ hfetch hdecode hperform =>
    exact ⟨line, a, hfetch, hdecode, (perform_eq_ok hperform).1⟩

/-- A step of an action that is no jump and no `halt` moves the program counter on, or lint reports
that the action writes it. -/
theorem writesPc_of_step {s : Step} (hfetch : p.fetch? m.cpu.pc = some line)
    (h : m.step p = (.ok s, m')) (hflow : s.flow = .next) (hpc : m'.cpu.pc ≠ m.cpu.pc + 1) :
    .writesPc ∈ Lint.checkLine p.labels line.text := by
  cases step_eq_iff.1 h with
  | @action line' a flow m₁ hfetch' hdecode hperform =>
    cases hfetch.symm.trans hfetch'
    obtain rfl : flow = .next := hflow
    refine (Program.mem_checkLine_action_iff hdecode rfl).2 (writesPc_of_perform hperform ?_)
    intro hsame
    have hadvance : (m₁.cpu.advance .next).pc = m₁.cpu.pc + 1 :=
      (Cpu.get_set ..).trans (if_pos rfl)
    exact hpc (hadvance.trans (congrArg (· + 1) hsame))

/-- A step that takes a jump through the program counter changes nothing. -/
theorem step_of_jumpThroughPc (hfetch : p.fetch? m.cpu.pc = some line)
    (hdecode : p.decodeLine line = .ok (a.instruction line.number, a.word))
    (hwarning : .jumpThroughPc ∈ Lint.checkLine p.labels line.text)
    (hflow : a.flow m.cpu.flags = .jump) :
    m.step p = (.ok ⟨m.cpu.pc, a.instruction line.number, a.word, .jump⟩, m) := by
  obtain ⟨hfirst, hproblem⟩ := (Program.mem_checkLine_action_iff hdecode rfl).1 hwarning
  have hperform : m.perform a line.number = (.ok (a.flow m.cpu.flags), m) :=
    perform_of_jumpThroughPc hfirst hproblem
  rw [hflow] at hperform
  exact step_eq_iff.2 (.action hfetch hdecode hperform)

end Step

end Machine

/-- Whether an instruction is a jump that is taken with some flags. -/
def Instruction.Jumps (i : Instruction) (f : Flags) : Prop :=
  i.op = .jp ∨ ∃ c, i.op = .jpIf c ∧ f.holds c = true

theorem Action.flow_eq_next {a : Action} {f : Flags} (hhalt : a.op ≠ .halt) (hjp : a.op ≠ .jp)
    (hjpIf : ∀ c, a.op ≠ .jpIf c) : a.flow f = .next := by
  cases a with
  | halt => exact absurd rfl hhalt
  | jp => exact absurd rfl hjp
  | jpIf c => exact absurd rfl (hjpIf c)
  | li | ld | st | alu => rfl

theorem Action.flow_eq_jump_iff {a : Action} {f : Flags} {line : Nat} :
    a.flow f = .jump ↔ (a.instruction line).Jumps f := by
  unfold Instruction.Jumps
  cases a with
  | jp => exact ⟨fun _ => .inl rfl, fun _ => rfl⟩
  | jpIf c r =>
    simp only [flow]
    split
    · next hc => exact ⟨fun _ => .inr ⟨c, rfl, hc⟩, fun _ => rfl⟩
    · next hc =>
      refine ⟨fun h => (by cases h), ?_⟩
      rintro (h | ⟨c', h, hc'⟩)
      · cases h
      · cases h
        exact absurd hc' hc
  | halt | li | ld | st | alu => simp [flow, instruction, op]

/-- **Lint foresees every irregular move of the program counter.** Let a line of a source stand at
the program counter. If a successful step of an instruction that is neither a jump nor `halt` leaves
the program counter at anything but the next address, lint warns that the line writes it. If lint
warns of a jump through the program counter on the line, a step that takes the jump changes nothing,
so that all further steps repeat it; and a step of the line, if it is accepted, does take the jump
whenever the instruction jumps with the flags of the machine. -/
theorem lint_foresees {source : String} {m : Machine} {line : Line}
    (hfetch : (Program.ofSource source).fetch? m.cpu.pc = some line) :
    (∀ s m', m.step (Program.ofSource source) = (.ok s, m') → s.instruction.op ≠ .halt →
      s.instruction.op ≠ .jp → (∀ c, s.instruction.op ≠ .jpIf c) →
      m'.cpu.pc ≠ m.cpu.pc + 1 → ⟨line.number, .writesPc⟩ ∈ (Program.ofSource source).lint) ∧
    (⟨line.number, .jumpThroughPc⟩ ∈ (Program.ofSource source).lint →
      (∀ s m', m.step (Program.ofSource source) = (.ok s, m') → s.flow = .jump →
        m' = m ∧ ∀ n, m.after (Program.ofSource source) n = m ∧
          (m.after (Program.ofSource source) n).step (Program.ofSource source) = (.ok s, m)) ∧
      ∀ i w, (Program.ofSource source).decodeLine line = .ok (i, w) → i.Jumps m.cpu.flags →
        m.step (Program.ofSource source) = (.ok ⟨m.cpu.pc, i, w, .jump⟩, m)) := by
  have hline : line ∈ (Program.ofSource source).executable.toList :=
    List.mem_of_getElem? ((Array.getElem?_toList ..).trans hfetch)
  simp only [Program.mem_lint_number hline]
  constructor
  · intro s m' hstep hhalt hjp hjpIf hpc
    refine Machine.writesPc_of_step hfetch hstep ?_ hpc
    cases Machine.step_eq_iff.1 hstep with
    | action _ _ hperform =>
      exact (Machine.perform_eq_ok hperform).1.trans (Action.flow_eq_next hhalt hjp hjpIf)
  · intro hwarning
    constructor
    · intro s m' hstep hflow
      obtain ⟨line', a, hfetch', hdecode, ha⟩ := Machine.exists_of_step hstep
      cases hfetch.symm.trans hfetch'
      have hloop := Machine.step_of_jumpThroughPc hfetch hdecode hwarning (ha.symm.trans hflow)
      cases hloop.symm.trans hstep
      refine ⟨rfl, fun n => ⟨Machine.after_of_step_eq hloop n, ?_⟩⟩
      rw [Machine.after_of_step_eq hloop n, hloop]
    · intro i w hdecode hjumps
      obtain ⟨a, rfl, rfl⟩ := Program.exists_of_decodeLine hdecode
      exact Machine.step_of_jumpThroughPc hfetch hdecode hwarning
        (Action.flow_eq_jump_iff.2 hjumps)

/-- A load of the program counter, and a conditional jump through it that is taken again and
again. -/
theorem lint_foresees_load_and_jump :
    (∃ s m', (Machine.new 4).step (Program.ofSource "li r15, 3\njpnz (R15)") = (.ok s, m') ∧
      m'.cpu.pc = 4 ∧ ⟨1, .writesPc⟩ ∈ (Program.ofSource "li r15, 3\njpnz (R15)").lint) ∧
    ∃ m : Machine, m.cpu.pc = 1 ∧
      ∀ n, (m.after (Program.ofSource "li r15, 3\njpnz (R15)") n).step
          (Program.ofSource "li r15, 3\njpnz (R15)") =
        (.ok ⟨1, ⟨.jpIf .notZero, [.reg 15], 2⟩, 0xf03f, .jump⟩, m) := by
  constructor
  · have hfetch : (Program.ofSource "li r15, 3\njpnz (R15)").fetch? (Machine.new 4).cpu.pc =
        some ⟨1, "li r15, 3".toList⟩ := by decide +kernel
    have hstep : (Machine.new 4).step (Program.ofSource "li r15, 3\njpnz (R15)") =
        (.ok ⟨0, ⟨.li, [.reg 15, .imm 3], 1⟩, 0x103f, .next⟩,
          { Machine.new 4 with cpu := (Machine.new 4).cpu.setPc 4 }) := by
      refine Machine.step_eq_iff.2 (.action (a := .li .pc 3) hfetch (by decide +kernel) rfl)
    exact ⟨_, _, hstep, rfl,
      (lint_foresees hfetch).1 _ _ hstep nofun nofun nofun (by decide)⟩
  · refine ⟨{ Machine.new 4 with cpu := (Machine.new 4).cpu.setPc 1 }, rfl, ?_⟩
    have hfetch : (Program.ofSource "li r15, 3\njpnz (R15)").fetch?
        ({ Machine.new 4 with cpu := (Machine.new 4).cpu.setPc 1 } : Machine).cpu.pc =
          some ⟨2, "jpnz (R15)".toList⟩ := by decide +kernel
    obtain ⟨hrepeat, htaken⟩ := (lint_foresees hfetch).2 (by decide +kernel)
    have hstep := htaken ⟨.jpIf .notZero, [.reg 15], 2⟩ 0xf03f (by decide +kernel)
      (.inr ⟨_, rfl, rfl⟩)
    exact fun n => ((hrepeat _ _ hstep rfl).2 n).2

end WordMachine
