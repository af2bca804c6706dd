import WordMachine.Proofs.Machine.Arithmetic
import WordMachine.Proofs.Machine.Iteration

/-!
# The flags that occur

From its start on, a machine has its flags in one of five states, whatever it executes
(`Flags.Attainable`): the carry flag is never set, and the overflow flag never together with another
one. An addition that overflows cannot have the result zero, since the sum of two signed words is
less than 65536 (`AluOp.attainable_flags`). So a conditional jump on carry never jumps and its
opposite always does (`flags_attainable`).
-/

namespace WordMachine

/-! ## Signed words -/

namespace Word

/-- A sum that is too large for a signed word is not zero. -/
theorem add_ne_zero_of_lt {a b : Word} (h : 32767 < a.signed + b.signed) : a + b ≠ 0 := by
  intro hzero
  have hsigned : (a.signed + b.signed).bmod 65536 = 0 := by
    rw [← signed_add, hzero]
    rfl
  obtain ⟨k, hk⟩ : (65536 : Int) ∣ a.signed + b.signed := Int.dvd_of_bmod_eq_zero hsigned
  have ha := a.signed_lt
  have hb := b.signed_lt
  omega

end Word

/-! ## Flags that operations can leave behind -/

/-- Whether flags can occur: no carry, and no other flag beside overflow. -/
structure Flags.Attainable (f : Flags) : Prop where
  carry : f.carry = false
  overflow : f.overflow = true → f.zero = false ∧ f.sign = false

theorem Flags.attainable_iff {f : Flags} :
    f.Attainable ↔ f = {} ∨ f = { zero := true } ∨ f = { sign := true } ∨
      f = { overflow := true } ∨ f = { zero := true, sign := true } := by
  constructor
  · obtain ⟨carry, zero, sign, overflow⟩ := f
    rintro ⟨hcarry, hoverflow⟩
    simp only at hcarry hoverflow
    cases overflow with
    | true =>
      obtain ⟨hzero, hsign⟩ := hoverflow rfl
      simp [hcarry, hzero, hsign]
    | false => cases zero <;> cases sign <;> simp [hcarry]
  · rintro (rfl | rfl | rfl | rfl | rfl)
    all_goals exact ⟨rfl, by decide⟩

/-- An operation takes flags that can occur to flags that can occur. -/
theorem AluOp.attainable_flags (op : AluOp) (a b : Word) {f : Flags} (h : f.Attainable) :
    (op.flags a b f).Attainable := by
  cases op with
  | nop => exact ⟨rfl, nofun⟩
  | or | and | xor => exact ⟨rfl, nofun⟩
  | add =>
    refine ⟨rfl, fun hoverflow => ⟨?_, rfl⟩⟩
    have hlarge : 32767 < a.signed + b.signed := of_decide_eq_true hoverflow
    exact beq_false_of_ne (Word.add_ne_zero_of_lt hlarge)
  | sub =>
    -- The sign flag may stay as it was, but the overflow flag is cleared.
    show (if sub.result a b = 0 then ({ zero := true, sign := f.sign } : Flags)
      else { sign := decide ((sub.result a b).signed < 0) }).Attainable
    split
    · exact ⟨rfl, nofun⟩
    · exact ⟨rfl, nofun⟩
  | shl | shr | ashr | not | neg => exact h

/-- The flags after an action of a processor. -/
def Action.flags (c : Cpu) : Action → Flags
  | alu op d s => op.flags (c.get d) (c.get s) c.flags
  | halt | li .. | ld .. | st .. | jp _ | jpIf .. => c.flags

theorem Action.attainable_flags (a : Action) {c : Cpu} (h : c.flags.Attainable) :
    (a.flags c).Attainable := by
  cases a with
  | alu op d s => exact op.attainable_flags _ _ h
  | halt | li | ld | st | jp | jpIf => exact h

theorem Cpu.flags_advance (c : Cpu) (flow : Flow) : (c.advance flow).flags = c.flags := by
  cases flow <;> rfl

namespace Machine

variable {p : Program} {m : Machine}

/-- Only an operation on two registers changes the flags. -/
theorem flags_perform (a : Action) (line : Nat) (m : Machine) :
    (m.perform a line).2.cpu.flags = a.flags m.cpu := by
  cases a with
  | ld d r =>
    simp only [perform]
    split <;> rfl
  | st r s =>
    simp only [perform]
    split <;> rfl
  | jpIf c r =>
    simp only [perform]
    split <;> rfl
  | halt | li | jp | alu => rfl

theorem attainable_step (h : m.cpu.flags.Attainable) :
    (m.step p).2.cpu.flags.Attainable := by
  rcases hstep : m.step p with ⟨x, m'⟩
  cases step_eq_iff.1 hstep with
  | trap => exact h
  | @action line a flow m₁ _ _ hperform =>
    have hflags := flags_perform a line.number m
    rw [hperform] at hflags
    show (m₁.cpu.advance flow).flags.Attainable
    rw [Cpu.flags_advance, hflags]
    exact a.attainable_flags h

theorem attainable_after (h : m.cpu.flags.Attainable) (n : Nat) :
    (m.after p n).cpu.flags.Attainable := by
  induction n with
  | zero => exact h
  | succ n ih =>
    rw [after_succ]
    exact attainable_step ih

/-! ## Jumps on carry -/

theorem op_eq_jpIf {a : Action} {c : Condition} (h : a.op = .jpIf c) : ∃ r, a = .jpIf c r := by
  cases a with
  | jpIf c' r =>
    cases h
    exact ⟨r, rfl⟩
  | halt | li | ld | st | jp | alu => exact nomatch h

/-- A conditional jump goes where its register points if its condition holds, and to the next
address if not. It never traps and changes nothing but the program counter. -/
theorem step_jpIf {line : Line} {c : Condition} {r : Reg} (hfetch : p.fetch? m.cpu.pc = some line)
    (hline : p.decodeLine line = .ok ((Action.jpIf c r).instruction line.number,
      (Action.jpIf c r).word)) :
    m.step p = (.ok ⟨m.cpu.pc, (Action.jpIf c r).instruction line.number, (Action.jpIf c r).word,
        if m.cpu.flags.holds c then .jump else .next⟩,
      { m with cpu := m.cpu.setPc (if m.cpu.flags.holds c then m.cpu.get r else m.cpu.pc + 1) }) := by
  cases hholds : m.cpu.flags.holds c with
  | true =>
    have hperform : m.perform (.jpIf c r) line.number =
        (.ok .jump, { m with cpu := m.cpu.setPc (m.cpu.get r) }) := by
      rw [perform, if_pos hholds]
    exact step_eq_iff.2 (.action hfetch hline hperform)
  | false =>
    have hperform : m.perform (.jpIf c r) line.number = (.ok .next, m) := by
      rw [perform, hholds]
      rfl
    exact step_eq_iff.2 (.action hfetch hline hperform)

end Machine

/-- **The flags that a machine can have.** After any number of steps of a processor from its start,
with any memory, the carry flag is not set, and neither the zero flag nor the sign flag is set
together with the overflow flag, which leaves five states of the flags. So the machine goes on to
the next address where a jump on carry stands at its program counter, and to the address in the
register that is named where a jump on no carry stands there. -/
theorem flags_attainable {p : Program} {m : Machine} (hstart : m.cpu = {}) (n : Nat) :
    ((m.after p n).cpu.flags.carry = false ∧
      ((m.after p n).cpu.flags.overflow = true →
        (m.after p n).cpu.flags.zero = false ∧ (m.after p n).cpu.flags.sign = false)) ∧
    (m.after p n).cpu.flags ∈ ([{}, { zero := true }, { sign := true }, { overflow := true },
      { zero := true, sign := true }] : List Flags) ∧
    ∀ (line : Line) (i : Instruction) (w : Word), p.fetch? (m.after p n).cpu.pc = some line →
      p.decodeLine line = .ok (i, w) →
        (i.op = .jpIf .carry →
          (m.after p n).step p = (.ok ⟨(m.after p n).cpu.pc, i, w, .next⟩,
            { m.after p n with
              cpu := (m.after p n).cpu.setPc ((m.after p n).cpu.pc + 1) })) ∧
        (i.op = .jpIf .noCarry →
          ∃ r : Reg, i.operands = [.reg r.toByte] ∧
            (m.after p n).step p = (.ok ⟨(m.after p n).cpu.pc, i, w, .jump⟩,
              { m.after p n with
                cpu := (m.after p n).cpu.setPc ((m.after p n).cpu.get r) })) := by
  have hattainable : (m.after p n).cpu.flags.Attainable := by
    apply Machine.attainable_after
    rw [hstart]
    exact ⟨rfl, nofun⟩
  refine ⟨⟨hattainable.carry, hattainable.overflow⟩, ?_, ?_⟩
  · simpa using Flags.attainable_iff.1 hattainable
  · intro line i w hfetch hline
    obtain ⟨a, rfl, rfl⟩ := Program.exists_of_decodeLine hline
    constructor
    · intro hop
      obtain ⟨r, rfl⟩ := Machine.op_eq_jpIf hop
      have hholds : (m.after p n).cpu.flags.holds .carry = false := hattainable.carry
      have hstep := Machine.step_jpIf hfetch hline
      rw [hholds] at hstep
      exact hstep
    · intro hop
      obtain ⟨r, rfl⟩ := Machine.op_eq_jpIf hop
      have hholds : (m.after p n).cpu.flags.holds .noCarry = true := by
        rw [Flags.holds, hattainable.carry]
        rfl
      have hstep := Machine.step_jpIf hfetch hline
      rw [hholds] at hstep
      exact ⟨r, rfl, hstep⟩

/-- A difference that is negative, one that is zero, and both jumps on the carry flag. -/
def carryJumps : Program :=
  .ofSource "li r1, 9\nsub r2, r1\nsub r2, r2\njpc r1\njpnc r1"

/-- The zero flag and the sign flag are set in front of the jumps, of which the second one jumps. -/
theorem flags_attainable_zero_sign :
    (Machine.new 4).cpu = {} ∧
      ((Machine.new 4).after carryJumps 3).cpu.flags = { zero := true, sign := true } ∧
      ((Machine.new 4).after carryJumps 3).cpu.flags.carry = false ∧
      ((Machine.new 4).after carryJumps 3).step carryJumps =
        (.ok ⟨3, ⟨.jpIf .carry, [.reg 1], 4⟩, 0xf001, .next⟩,
          { (Machine.new 4).after carryJumps 3 with
            cpu := ((Machine.new 4).after carryJumps 3).cpu.setPc 4 }) ∧
      ∃ r : Reg, [.reg 1] = [Operand.reg r.toByte] ∧
        ((Machine.new 4).after carryJumps 4).step carryJumps =
          (.ok ⟨4, ⟨.jpIf .noCarry, [.reg 1], 5⟩, 0xf011, .jump⟩,
            { (Machine.new 4).after carryJumps 4 with
              cpu := ((Machine.new 4).after carryJumps 4).cpu.setPc
                (((Machine.new 4).after carryJumps 4).cpu.get r) }) := by
  have hpc : ((Machine.new 4).after carryJumps 3).cpu.pc = 3 := by decide +kernel
  have hpc' : ((Machine.new 4).after carryJumps 4).cpu.pc = 4 := by decide +kernel
  obtain ⟨⟨hcarry, -⟩, -, hjump⟩ := flags_attainable (p := carryJumps) (m := .new 4) rfl 3
  obtain ⟨-, -, hjump'⟩ := flags_attainable (p := carryJumps) (m := .new 4) rfl 4
  have hnever := (hjump ⟨4, "jpc r1".toList⟩ ⟨.jpIf .carry, [.reg 1], 4⟩ 0xf001
    (by decide +kernel) (by decide +kernel)).1 rfl
  have halways := (hjump' ⟨5, "jpnc r1".toList⟩ ⟨.jpIf .noCarry, [.reg 1], 5⟩ 0xf011
    (by decide +kernel) (by decide +kernel)).2 rfl
  rw [hpc] at hnever
  rw [hpc'] at halways
  exact ⟨rfl, by decide +kernel, hcarry, hnever, halways⟩

end WordMachine
