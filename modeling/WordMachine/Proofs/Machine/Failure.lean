import WordMachine.Proofs.Machine.Iteration

/-!
# Failures

What fails leaves the machine as it was: an instruction, well-formed or not, and a step
(`step_eq_error_iff`). A run that fails therefore stops on the machine that its last successful step
left, and its trap tells where that machine stands (`failure_atomic`).
-/

namespace WordMachine

namespace Trap.ArisesAt

variable {p : Program} {m : Machine} {trap : Trap}

/-- The line that a trap names is the one at the program counter. -/
theorem exists_fetch? (h : trap.ArisesAt p m) {number : Nat} (hline : trap.line? = some number) :
    ∃ line, p.fetch? m.cpu.pc = some line ∧ line.number = number := by
  cases h with
  | pcOutOfRange => exact nomatch hline
  | decode hfetch => exact ⟨_, hfetch, Option.some.inj hline⟩
  | bus hfetch => exact ⟨_, hfetch, Option.some.inj hline⟩

theorem of_pcOutOfRange {pc : Word} {size : Nat} (h : (Trap.pcOutOfRange pc size).ArisesAt p m) :
    pc = m.cpu.pc ∧ size = p.size ∧ size ≤ pc.toNat := by
  cases h with
  | pcOutOfRange hpc => exact ⟨rfl, rfl, hpc⟩

theorem le_of_bus {line : Nat} {address : Word} {fault : MemoryFault}
    (h : (Trap.bus line address fault).ArisesAt p m) : m.memory.size ≤ address.toNat := by
  cases h with
  | bus _ _ _ haddress => exact haddress

end Trap.ArisesAt

namespace Machine

variable {p : Program} {m m' : Machine}

/-- A run that fails stops on the machine that its successful steps lead to: its steps are used up
or the next one traps. -/
theorem exists_of_run_eq_error {settings : Settings} {trap : Trap}
    (h : m.run p settings = (.error trap, m')) :
    ∃ n, m' = m.reset.after p n ∧
      (∀ k < n, (m.reset.after p k).cpu.halted = false ∧
        ∃ s, ((m.reset.after p k).step p).1 = .ok s) ∧
      (n = settings.budget ∧ trap = .stepLimit settings.budget ∨
        n < settings.budget ∧ trap.ArisesAt p m') := by
  cases run_eq_iff.1 h with
  | @trapped words _ _ hpasses _ harises hlt =>
    exact ⟨words.length, hpasses.eq_after, fun _ => hpasses.of_lt, .inr ⟨hlt, harises⟩⟩
  | @limited words _ hpasses _ hlength =>
    exact ⟨words.length, hpasses.eq_after, fun _ => hpasses.of_lt, .inl ⟨hlength, rfl⟩⟩

end Machine

/-- **Failures are atomic, and traps tell where.** An instruction that is not executed, whatever its
operands, and a step that traps leave the machine as it was. A run that fails leaves the machine as
its last successful step did. Its trap is the limit of its steps or the trap of the next step. The
line that it names is the line at the program counter, a program counter that it names is the
machine's and lies behind the program, and an address that it names lies behind the memory. -/
theorem failure_atomic :
    (∀ (m : Machine) (i : Instruction) (trap : Trap),
      (m.execute i).1 = .error trap → (m.execute i).2 = m) ∧
    (∀ (p : Program) (m : Machine) (trap : Trap),
      (m.step p).1 = .error trap → (m.step p).2 = m ∧ trap.ArisesAt p m) ∧
    ∀ (p : Program) (settings : Settings) (m m' : Machine) (trap : Trap),
      m.run p settings = (.error trap, m') →
        (∃ n, m' = m.reset.after p n ∧
          (∀ k < n, (m.reset.after p k).cpu.halted = false ∧
            ∃ s, ((m.reset.after p k).step p).1 = .ok s) ∧
          (n = settings.budget ∧ trap = .stepLimit settings.budget ∨
            n < settings.budget ∧ m'.step p = (.error trap, m'))) ∧
        (∀ number, trap.line? = some number →
          ∃ line, p.fetch? m'.cpu.pc = some line ∧ line.number = number) ∧
        (∀ pc size, trap = .pcOutOfRange pc size →
          pc = m'.cpu.pc ∧ size = p.size ∧ size ≤ pc.toNat) ∧
        ∀ line address fault, trap = .bus line address fault →
          m'.memory.size ≤ address.toNat := by
  refine ⟨?_, ?_, ?_⟩
  · intro m i trap h
    exact Machine.execute_eq_error (Prod.ext h rfl)
  · intro p m trap h
    obtain ⟨harises, hm⟩ := Machine.step_eq_error_iff.1 (Prod.ext h rfl)
    exact ⟨hm, harises⟩
  · intro p settings m m' trap h
    obtain ⟨n, hm', hsucceed, hend⟩ := Machine.exists_of_run_eq_error h
    have harises (hne : ∀ limit, trap ≠ .stepLimit limit) : trap.ArisesAt p m' := by
      obtain ⟨-, hlimit⟩ | ⟨-, harises⟩ := hend
      · exact absurd hlimit (hne settings.budget)
      · exact harises
    refine ⟨⟨n, hm', hsucceed, hend.imp_right fun ⟨hlt, harises⟩ =>
      ⟨hlt, Machine.step_eq_error_iff.2 ⟨harises, rfl⟩⟩⟩, ?_, ?_, ?_⟩
    · intro number hline
      exact (harises fun limit h => by cases h; exact nomatch hline).exists_fetch? hline
    · rintro pc size rfl
      exact (harises nofun).of_pcOutOfRange
    · rintro line address fault rfl
      exact (harises nofun).le_of_bus

/-- An instruction that names no register, a step to no line, and a run that writes outside its
memory on its second step. -/
theorem failure_atomic_write_outside :
    ((Machine.new 4).execute ⟨.alu .add, [.reg 1, .reg 16], 4⟩).1 =
        .error (.decode 4 (.outOfRange .register 16 15)) ∧
      ((Machine.new 4).execute ⟨.alu .add, [.reg 1, .reg 16], 4⟩).2 = Machine.new 4 ∧
      ((Machine.new 4).step (Program.ofSource "; end")).1 = .error (.pcOutOfRange 0 0) ∧
      ((Machine.new 4).step (Program.ofSource "; end")).2 = Machine.new 4 ∧
      ((Machine.new 4).run (Program.ofSource "; start\nli r1, 9\nst r1, (r1)")
        { maxSteps := some 5 }).1 = .error (.bus 3 9 ⟨.write, 4⟩) ∧
      ∃ line, (Program.ofSource "; start\nli r1, 9\nst r1, (r1)").fetch?
        ((Machine.new 4).run (Program.ofSource "; start\nli r1, 9\nst r1, (r1)")
          { maxSteps := some 5 }).2.cpu.pc = some line ∧ line.number = 3 := by
  have hexecute : ((Machine.new 4).execute ⟨.alu .add, [.reg 1, .reg 16], 4⟩).1 =
      .error (.decode 4 (.outOfRange .register 16 15)) := by decide +kernel
  have hstep : ((Machine.new 4).step (Program.ofSource "; end")).1 =
      .error (.pcOutOfRange 0 0) := by decide +kernel
  have hrun : ((Machine.new 4).run (Program.ofSource "; start\nli r1, 9\nst r1, (r1)")
      { maxSteps := some 5 }).1 = .error (.bus 3 9 ⟨.write, 4⟩) := by decide +kernel
  obtain ⟨-, hline, -, -⟩ := failure_atomic.2.2 _ _ _ _ _ (Prod.ext hrun rfl)
  exact ⟨hexecute, failure_atomic.1 _ _ _ hexecute, hstep, (failure_atomic.2.1 _ _ _ hstep).1,
    hrun, hline 3 rfl⟩

end WordMachine
