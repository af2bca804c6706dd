import WordMachine.Proofs.Machine.Arithmetic
import WordMachine.Proofs.Machine.Iteration

/-!
# The instruction set

What the actions do, stated on a machine of numbers (`InstructionSet.State`): registers and words of
memory are natural numbers, results are those of integer arithmetic modulo 65536, and signed numbers
are read in two's complement. `InstructionSet.Transition` has one rule for each action, in which
every number that is read is one of the state before the action. A successful step of a program
makes the transition of the action on the line at the program counter, and there is no transition
that it does not make (`step_transition`). What an action leaves alone is read off its rule.
-/

namespace WordMachine

namespace InstructionSet

/-! ## Results and flags in numbers -/

/-- The number of positions that a count shifts by; it is read as a signed number, and a negative
one does not shift. -/
def positions (count : Nat) : Nat :=
  (Word.twosComplement count).toNat

/-- The result of an operation on the numbers in its destination and its source. -/
def result (op : AluOp) (a b : Nat) : Nat :=
  match op with
  | .nop => b
  | .or => a ||| b
  | .and => a &&& b
  | .xor => a ^^^ b
  | .add => Word.wrap (a + b)
  | .sub => Word.wrap (a - b)
  | .shl => a * 2 ^ positions b % 65536
  | .shr => a / 2 ^ positions b
  | .ashr => Word.wrap (Word.twosComplement a / 2 ^ positions b)
  | .not => Word.wrap (-1 - b)
  | .neg => Word.wrap (-b)

/-- The flags after an operation. -/
def flags (op : AluOp) (a b : Nat) (f : Flags) : Flags :=
  match op with
  | .nop => ⟨false, false, false, false⟩
  | .or | .and | .xor => ⟨false, result op a b = 0, false, false⟩
  | .add =>
    ⟨false, result op a b = 0, false, 32767 < Word.twosComplement a + Word.twosComplement b⟩
  | .sub =>
    ⟨false, result op a b = 0,
      if result op a b = 0 then f.sign else Word.twosComplement (result op a b) < 0, false⟩
  | .shl | .shr | .ashr | .not | .neg => f

/-- Whether a condition holds. The codes of the conditions go through the flags in their order, and
an even code asks for a flag that is set. -/
def Taken (f : Flags) (c : Condition) : Prop :=
  [f.carry, f.zero, f.sign, f.overflow][c.code / 2]? = some (c.code % 2 == 0)

/-! ## States and transitions -/

/-- A machine in numbers. -/
@[ext] structure State where
  reg : Reg → Nat
  flags : Flags
  halted : Bool
  /-- The word at an address, if the memory reaches that far. -/
  memory : Nat → Option Nat

namespace State

/-- The state with a number in a register. -/
def assign (s : State) (d : Reg) (n : Nat) : State :=
  { s with reg := fun r => if r = d then n else s.reg r }

/-- The state with a number at an address. -/
def store (s : State) (address n : Nat) : State :=
  { s with memory := fun k => if k = address then some n else s.memory k }

/-- The state with the program counter moved on by one. -/
def advance (s : State) : State :=
  s.assign .pc (Word.wrap (s.reg .pc + 1))

end State

/-- The transitions of the actions: from which state to which, and where the machine goes. -/
inductive Transition (s : State) : Action → Flow → State → Prop
  | halt : Transition s .halt .halt { s with halted := true }
  | li (d : Reg) (v : UInt8) : Transition s (.li d v) .next (s.assign d v.toNat).advance
  | ld (d a : Reg) {n : Nat} (hread : s.memory (s.reg a) = some n) :
      Transition s (.ld d a) .next (s.assign d n).advance
  | st (a r : Reg) {n : Nat} (hold : s.memory (s.reg a) = some n) :
      Transition s (.st a r) .next (s.store (s.reg a) (s.reg r)).advance
  | jp (r : Reg) : Transition s (.jp r) .jump (s.assign .pc (s.reg r))
  | jump {c : Condition} (r : Reg) (htaken : Taken s.flags c) :
      Transition s (.jpIf c r) .jump (s.assign .pc (s.reg r))
  | stay {c : Condition} (r : Reg) (htaken : ¬ Taken s.flags c) :
      Transition s (.jpIf c r) .next s.advance
  | alu (op : AluOp) (d r : Reg) :
      Transition s (.alu op d r) .next
        { (s.assign d (result op (s.reg d) (s.reg r))).advance with
          flags := flags op (s.reg d) (s.reg r) s.flags }

/-! ## The operations on words -/

theorem positions_toNat (count : Word) : positions count.toNat = shiftCount count :=
  (shiftCount_eq count).symm

theorem toNat_result (op : AluOp) (a b : Word) :
    (op.result a b).toNat = result op a.toNat b.toNat := by
  cases op with
  | nop => rfl
  | or => exact UInt16.toNat_or a b
  | and => exact UInt16.toNat_and a b
  | xor => exact UInt16.toNat_xor a b
  | add => exact Word.toNat_add a b
  | sub => exact Word.toNat_sub a b
  | shl =>
    rw [result, positions_toNat]
    exact toNat_shiftLeft a b
  | shr =>
    rw [result, positions_toNat]
    exact toNat_shiftRight a b
  | ashr =>
    rw [result, positions_toNat]
    exact toNat_shiftRightSigned a b
  | not => exact Word.toNat_not b
  | neg => exact Word.toNat_neg b

theorem toNat_eq_zero_iff {w : Word} : w.toNat = 0 ↔ w = 0 :=
  UInt16.toNat_inj (b := 0)

/-- A result is zero where its number is. -/
theorem beq_zero_result (op : AluOp) (a b : Word) :
    (op.result a b == 0) = decide (result op a.toNat b.toNat = 0) := by
  rw [← toNat_result, Bool.eq_iff_iff, beq_iff_eq, decide_eq_true_iff, toNat_eq_zero_iff]

theorem flags_toNat (op : AluOp) (a b : Word) (f : Flags) :
    op.flags a b f = flags op a.toNat b.toNat f := by
  cases op with
  | nop => rfl
  | or | and | xor =>
    simp only [AluOp.flags, flags, beq_zero_result]
  | add => simp only [AluOp.flags, flags, beq_zero_result, Word.signed_eq]
  | sub =>
    have hzero : AluOp.sub.result a b = 0 ↔ result .sub a.toNat b.toNat = 0 := by
      rw [← toNat_result, toNat_eq_zero_iff]
    simp only [AluOp.flags, flags, hzero, Word.signed_eq, toNat_result]
    split
    · next h => simp [h]
    · next h => simp [h]
  | shl | shr | ashr | not | neg => rfl

theorem flags_of_not_mem {op : AluOp} {a b : Nat} {f : Flags}
    (h : op ∉ ([.nop, .or, .and, .xor, .add, .sub] : List AluOp)) : flags op a b f = f := by
  cases op with
  | shl | shr | ashr | not | neg => rfl
  | nop | or | and | xor | add | sub => exact absurd (by decide) h

theorem taken_iff {f : Flags} {c : Condition} : Taken f c ↔ f.holds c = true := by
  obtain ⟨carry, zero, sign, overflow⟩ := f
  cases c <;> simp [Taken, Flags.holds, Condition.code]

end InstructionSet

/-! ## Machines as states -/

namespace Machine

open InstructionSet

/-- A machine with its words as numbers. -/
def state (m : Machine) : State where
  reg r := (m.cpu.get r).toNat
  flags := m.cpu.flags
  halted := m.cpu.halted
  memory n := m.memory.words[n]?.map UInt16.toNat

/-- A machine is known from its numbers. -/
theorem state_injective {m m' : Machine} (h : m.state = m'.state) : m = m' := by
  obtain ⟨⟨regs, flags, halted⟩, ⟨words, hwords⟩⟩ := m
  obtain ⟨⟨regs', flags', halted'⟩, ⟨words', hwords'⟩⟩ := m'
  simp only [state, State.mk.injEq] at h
  obtain ⟨hregs, rfl, rfl, hmemory⟩ := h
  obtain rfl : regs = regs' := by
    apply Vector.ext
    intro i hi
    exact UInt16.toNat_inj.1 (congrFun hregs ⟨i, hi⟩)
  obtain rfl : words = words' := by
    apply Array.ext_getElem?
    intro i
    exact Option.map_injective (fun _ _ => UInt16.toNat_inj.1) (congrFun hmemory i)
  rfl

variable {m : Machine}

theorem state_set (m : Machine) (d : Reg) (w : Word) :
    state { m with cpu := m.cpu.set d w } = m.state.assign d w.toNat := by
  refine State.ext ?_ rfl rfl rfl
  funext r
  simp only [state, State.assign, Cpu.get_set, eq_comm (a := d)]
  split <;> rfl

theorem state_advance (m : Machine) :
    state { m with cpu := m.cpu.advance .next } = m.state.advance := by
  rw [Cpu.advance, Cpu.setPc, state_set, Word.toNat_add]
  rfl

/-- Reading finds the word that has the number at an address. -/
theorem state_memory_eq_some_iff {address : Word} {n : Nat} :
    m.state.memory address.toNat = some n ↔
      ∃ w, m.memory.read address = .ok w ∧ w.toNat = n := by
  simp only [state, Memory.read]
  cases m.memory.words[address.toNat]? with
  | none => simp
  | some w => simp

/-- Writing is possible where there is a word already, and stores the number of the new one. -/
theorem state_write (m : Machine) (address value : Word) {n : Nat}
    (hold : m.state.memory address.toNat = some n) :
    ∃ memory, m.memory.write address value = (.ok (), memory) ∧
      state ⟨m.cpu, memory⟩ = m.state.store address.toNat value.toNat := by
  obtain ⟨w, hw, -⟩ := Option.map_eq_some_iff.1 hold
  have hlt : address.toNat < m.memory.words.size := (Array.getElem?_eq_some_iff.1 hw).1
  refine ⟨_, by rw [Memory.write, dif_pos hlt], ?_⟩
  refine State.ext rfl rfl rfl ?_
  funext k
  simp only [state, State.store, Array.getElem?_set, eq_comm (a := address.toNat)]
  split <;> rfl

/-! ## Actions make the transitions -/

theorem exists_perform {a : Action} {flow : Flow} {t : State} (h : Transition m.state a flow t)
    (line : Nat) :
    ∃ m', m.perform a line = (.ok flow, m') ∧ state { m' with cpu := m'.cpu.advance flow } = t := by
  cases h with
  | halt => exact ⟨m, rfl, rfl⟩
  | li d v => exact ⟨_, rfl, by rw [state_advance, state_set, UInt8.toNat_toUInt16]⟩
  | ld d a hread =>
    obtain ⟨w, hw, rfl⟩ := state_memory_eq_some_iff.1 hread
    refine ⟨{ m with cpu := m.cpu.set d w }, ?_, by rw [state_advance, state_set]⟩
    simp only [perform, hw]
  | st a r hold =>
    obtain ⟨memory, hwrite, hstate⟩ := m.state_write (m.cpu.get a) (m.cpu.get r) hold
    refine ⟨⟨m.cpu, memory⟩, ?_, by rw [state_advance, hstate]; rfl⟩
    simp only [perform, hwrite]
  | jp r => exact ⟨_, rfl, m.state_set .pc (m.cpu.get r)⟩
  | @jump c r htaken =>
    have hholds : m.cpu.flags.holds c = true := taken_iff.1 htaken
    refine ⟨{ m with cpu := m.cpu.setPc (m.cpu.get r) }, ?_, m.state_set .pc (m.cpu.get r)⟩
    rw [perform, if_pos hholds]
  | @stay c r htaken =>
    have hholds : ¬ m.cpu.flags.holds c = true := fun h => htaken (taken_iff.2 h)
    refine ⟨m, ?_, m.state_advance⟩
    rw [perform, if_neg hholds]
  | alu op d r =>
    refine ⟨_, rfl, ?_⟩
    -- The flags stand beside the registers, which are those of a machine whose flags stay.
    have hreg := congrArg State.reg
      (state_advance { m with cpu := m.cpu.set d (op.result (m.cpu.get d) (m.cpu.get r)) })
    rw [state_set, toNat_result] at hreg
    exact State.ext hreg (flags_toNat op (m.cpu.get d) (m.cpu.get r) m.cpu.flags) rfl rfl

/-- An action that is performed has a transition. -/
theorem exists_transition {a : Action} {line : Nat} {flow : Flow} {m' : Machine}
    (h : m.perform a line = (.ok flow, m')) : ∃ flow t, Transition m.state a flow t := by
  cases a with
  | halt => exact ⟨_, _, .halt⟩
  | li d v => exact ⟨_, _, .li d v⟩
  | ld d a =>
    cases hread : m.memory.read (m.cpu.get a) with
    | ok w => exact ⟨_, _, .ld d a (state_memory_eq_some_iff.2 ⟨w, hread, rfl⟩)⟩
    | error fault =>
      simp only [perform, hread] at h
      cases h
  | st a r =>
    cases hold : m.state.memory (m.cpu.get a).toNat with
    | some n => exact ⟨_, _, .st a r hold⟩
    | none =>
      have hsize : m.memory.size ≤ (m.cpu.get a).toNat :=
        Array.getElem?_eq_none_iff.1 (Option.map_eq_none_iff.1 hold)
      have hwrite : m.memory.write (m.cpu.get a) (m.cpu.get r) =
          (.error ⟨.write, m.memory.size⟩, m.memory) :=
        Memory.write_eq_error_iff.2 ⟨hsize, rfl, rfl⟩
      simp only [perform, hwrite] at h
      cases h
  | jp r => exact ⟨_, _, .jp r⟩
  | jpIf c r =>
    by_cases htaken : Taken m.cpu.flags c
    · exact ⟨_, _, .jump r htaken⟩
    · exact ⟨_, _, .stay r htaken⟩
  | alu op d r => exact ⟨_, _, .alu op d r⟩

/-- The transitions of an action are what performing it and moving the program counter does. -/
theorem transition_iff {a : Action} {flow : Flow} {t : State} (line : Nat) :
    Transition m.state a flow t ↔
      ∃ m', m.perform a line = (.ok flow, m') ∧
        state { m' with cpu := m'.cpu.advance flow } = t := by
  refine ⟨fun h => exists_perform h line, ?_⟩
  rintro ⟨m', hperform, rfl⟩
  obtain ⟨flow', t, h⟩ := exists_transition hperform
  obtain ⟨m'', hperform', rfl⟩ := exists_perform h line
  cases hperform.symm.trans hperform'
  exact h

end Machine

/-! ## What a transition leaves alone -/

/-- The register that an action writes, besides moving the program counter. -/
def Action.destination? : Action → Option Reg
  | li d _ | ld d _ | alu _ d _ => some d
  | halt | st .. | jp _ | jpIf .. => none

namespace InstructionSet

namespace State

variable {s : State} {r d : Reg} {n : Nat}

theorem reg_assign_of_ne (h : d ≠ r) : (s.assign d n).reg r = s.reg r :=
  if_neg (Ne.symm h)

theorem reg_advance_of_ne (h : r ≠ .pc) : s.advance.reg r = s.reg r :=
  reg_assign_of_ne (Ne.symm h)

end State

namespace Transition

variable {s t : State} {a : Action} {flow : Flow}

theorem reg_eq (h : Transition s a flow t) {r : Reg} (hpc : r ≠ .pc)
    (hr : a.destination? ≠ some r) : t.reg r = s.reg r := by
  cases h with
  | halt => rfl
  | li d | ld d | alu _ d =>
    have hd : d ≠ r := fun h => hr (congrArg some h)
    exact (State.reg_advance_of_ne hpc).trans (State.reg_assign_of_ne hd)
  | st | stay => exact State.reg_advance_of_ne hpc
  | jp | jump => exact State.reg_assign_of_ne (Ne.symm hpc)

theorem halted_eq (h : Transition s a flow t) : t.halted = (s.halted || a.op == .halt) := by
  cases h with
  | halt => exact (Bool.or_true _).symm
  | li | ld | st | jp | jump | stay | alu => exact (Bool.or_false _).symm

theorem flags_eq (h : Transition s a flow t)
    (ha : ∀ op, a.op = .alu op → op ∉ [.nop, .or, .and, .xor, .add, .sub]) :
    t.flags = s.flags := by
  cases h with
  | alu op d r => exact flags_of_not_mem (ha op rfl)
  | halt | li | ld | st | jp | jump | stay => rfl

theorem memory_eq (h : Transition s a flow t) {k : Nat}
    (ha : ∀ b r, a = .st b r → s.reg b ≠ k) : t.memory k = s.memory k := by
  cases h with
  | st b r => exact if_neg (Ne.symm (ha b r rfl))
  | halt | li | ld | jp | jump | stay | alu => rfl

end Transition

end InstructionSet

/-! ## Steps make the transitions -/

/-- **What a step does.** A line at the program counter that is decoded holds an action, on
registers that exist. A successful step reports the address at the program counter, the instruction
and its word, and where the machine goes, and it makes the transition of the action; there is no
transition of the action that is not made. It changes no register but the destination and the
program counter, halts the machine if the instruction is `halt` and leaves it halted or running if
not, changes the flags only in copies, logical operations, additions and subtractions, and the
memory only at the address of a `st`. -/
theorem step_transition {p : Program} {m : Machine} {line : Line} {i : Instruction} {w : Word}
    (hfetch : p.fetch? m.cpu.pc = some line) (hline : p.decodeLine line = .ok (i, w)) :
    ∃ a : Action, i = a.instruction line.number ∧
      (∀ s m', m.step p = (.ok s, m') ↔
        s = ⟨m.cpu.pc, i, w, s.flow⟩ ∧ InstructionSet.Transition m.state a s.flow m'.state) ∧
      (∀ flow t, InstructionSet.Transition m.state a flow t →
        ∃ s m', m.step p = (.ok s, m') ∧ s.flow = flow ∧ m'.state = t) ∧
      ∀ s m', m.step p = (.ok s, m') →
        (∀ r, r ≠ .pc → a.destination? ≠ some r → m'.cpu.get r = m.cpu.get r) ∧
        m'.cpu.halted = (m.cpu.halted || i.op == .halt) ∧
        (m'.cpu.flags ≠ m.cpu.flags →
          ∃ op, i.op = .alu op ∧ op ∈ [.nop, .or, .and, .xor, .add, .sub]) ∧
        m'.memory.size = m.memory.size ∧
        ∀ address : Nat, m'.memory.words[address]? ≠ m.memory.words[address]? →
          ∃ b r, a = .st b r ∧ (m.cpu.get b).toNat = address := by
  obtain ⟨a, rfl, rfl⟩ := Program.exists_of_decodeLine hline
  have hstep {s : Step} {m' : Machine} (h : m.step p = (.ok s, m')) :
      s = ⟨m.cpu.pc, a.instruction line.number, a.word, s.flow⟩ ∧
        InstructionSet.Transition m.state a s.flow m'.state := by
    cases Machine.step_eq_iff.1 h with
    | @action line' a' flow m₁ hfetch' hline' hperform =>
      cases hfetch.symm.trans hfetch'
      have hinstruction := congrArg Prod.fst (Except.ok.inj (hline.symm.trans hline'))
      cases Action.eq_of_instruction_eq hinstruction
      exact ⟨rfl, (Machine.transition_iff line.number).2 ⟨m₁, hperform, rfl⟩⟩
  have htransition {flow : Flow} {t : InstructionSet.State}
      (h : InstructionSet.Transition m.state a flow t) :
      ∃ m', m.step p = (.ok ⟨m.cpu.pc, a.instruction line.number, a.word, flow⟩, m') ∧
        m'.state = t := by
    obtain ⟨m₁, hperform, rfl⟩ := (Machine.transition_iff line.number).1 h
    exact ⟨_, Machine.step_eq_iff.2 (.action hfetch hline hperform), rfl⟩
  refine ⟨a, rfl, fun s m' => ⟨hstep, ?_⟩, ?_, ?_⟩
  · rintro ⟨hs, h⟩
    obtain ⟨m'', hm'', hstate⟩ := htransition h
    rw [hs, hm'', Machine.state_injective hstate]
  · intro flow t h
    obtain ⟨m', hm', hstate⟩ := htransition h
    exact ⟨_, m', hm', rfl, hstate⟩
  · intro s m' h
    have ht := (hstep h).2
    refine ⟨fun r hpc hr => UInt16.toNat_inj.1 (ht.reg_eq hpc hr), ht.halted_eq, ?_, ?_, ?_⟩
    · intro hflags
      by_contra hnot
      exact hflags (ht.flags_eq fun op hop hmem => hnot ⟨op, hop, hmem⟩)
    · have hsize := Machine.size_step p m
      rw [h] at hsize
      exact hsize
    · intro address hne
      by_contra hnot
      refine hne (Option.map_injective (fun _ _ => UInt16.toNat_inj.1) (ht.memory_eq ?_))
      exact fun b r ha hb => hnot ⟨b, r, ha, hb⟩

/-- An addition of the program counter to itself, at the address 1. -/
def selfAddition : Program :=
  .ofSource "li r1, 9\nadd r15, r15\nli r2, 7\nhalt"

/-- Both operands are the address of the addition, and what is written is moved on: the next
instruction is the one at 1 + 1 + 1. The register that a `li` has written stays. -/
theorem step_transition_program_counter :
    ∃ m', ((Machine.new 4).after selfAddition 1).step selfAddition =
        (.ok ⟨1, (Action.alu .add .pc .pc).instruction 2, 0x44ff, .next⟩, m') ∧
      m'.state.reg .pc = 3 ∧ m'.cpu.get 1 = 9 := by
  have hpc : ((Machine.new 4).after selfAddition 1).cpu.pc = 1 := by decide +kernel
  have hline : selfAddition.decodeLine ⟨2, "add r15, r15".toList⟩ =
      .ok ((Action.alu .add .pc .pc).instruction 2, 0x44ff) := by decide +kernel
  obtain ⟨a, ha, hstep, hmake, hkept⟩ :=
    step_transition (m := (Machine.new 4).after selfAddition 1) (hpc ▸ by decide +kernel) hline
  obtain rfl := Action.eq_of_instruction_eq ha
  obtain ⟨s, m', hs, hflow, hstate⟩ := hmake _ _ (.alu .add .pc .pc)
  have hreport := ((hstep s m').1 hs).1
  rw [hpc, hflow] at hreport
  refine ⟨m', hreport ▸ hs, ?_, ?_⟩
  · rw [hstate]
    decide +kernel
  · rw [(hkept s m' hs).1 1 (by decide) (by decide)]
    decide +kernel

end WordMachine
