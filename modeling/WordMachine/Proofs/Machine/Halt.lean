import WordMachine.Proofs.Machine.Iteration

/-!
# Halting

A machine that has halted stands on a `halt`, however many steps it took, because a `halt` does not
move the program counter (`atHalt_of_halted_after`). Its further steps repeat that `halt` and change
nothing (`AtHalt.step_eq`). As `halt` is the only action with the word zero, a run that completes
has one zero in its trace, at the end (`Passes.exists_append_zero`).
-/

namespace WordMachine

theorem Action.op_eq_halt_iff {a : Action} : a.op = .halt ↔ a = .halt := by
  cases a with
  | halt => exact ⟨fun _ => rfl, fun _ => rfl⟩
  | li | ld | st | jp | jpIf | alu => exact ⟨nofun, nofun⟩

theorem Cpu.halted_advance {c : Cpu} {flow : Flow} :
    (c.advance flow).halted = true ↔ flow = .halt ∨ c.halted = true := by
  cases flow with
  | next => exact ⟨.inr, fun h => h.resolve_left nofun⟩
  | jump => exact ⟨.inr, fun h => h.resolve_left nofun⟩
  | halt => exact ⟨fun _ => .inl rfl, fun _ => rfl⟩

namespace Machine

variable {p : Program} {m m' : Machine} {words : List Word}

/-! ## Machines that have halted -/

/-- Whether a `halt` stands at the program counter. -/
def AtHalt (p : Program) (m : Machine) : Prop :=
  ∃ line, p.fetch? m.cpu.pc = some line ∧
    p.decodeLine line = .ok (Action.halt.instruction line.number, 0)

/-- A machine that has halted on a `halt` halts on it again. -/
theorem AtHalt.step_eq (h : m.AtHalt p) (hhalted : m.cpu.halted = true) :
    ∃ s, m.step p = (.ok s, m) ∧ s.flow = .halt ∧ s.word = 0 := by
  obtain ⟨line, hfetch, hline⟩ := h
  have hcpu : m.cpu.advance .halt = m.cpu := by rw [Cpu.advance, ← hhalted]
  have hstep := (StepsTo.action hfetch hline rfl : m.StepsTo p _ _).step_eq
  rw [hcpu] at hstep
  exact ⟨_, hstep, rfl, rfl⟩

/-- A step that ends on a halted machine was a `halt`, and left the program counter on it. -/
theorem atHalt_of_step {s : Step} (hrunning : m.cpu.halted = false)
    (hstep : m.step p = (.ok s, m')) (hhalted : m'.cpu.halted = true) : m'.AtHalt p := by
  cases step_eq_iff.1 hstep with
  | action hfetch hline hperform =>
    obtain ⟨hflow, hunhalted, -⟩ := perform_eq_ok hperform
    obtain hflow' | hhalted' := Cpu.halted_advance.1 hhalted
    · rw [hflow', eq_comm, Action.flow_eq_halt_iff, Action.op_eq_halt_iff] at hflow
      obtain rfl := hflow
      cases hperform
      exact ⟨_, hfetch, hline⟩
    · rw [hunhalted, hrunning] at hhalted'
      exact nomatch hhalted'

/-- However many steps a machine takes, if it has halted it stands on a `halt`. -/
theorem atHalt_of_halted_after (hrunning : m.cpu.halted = false) {n : Nat}
    (hhalted : (m.after p n).cpu.halted = true) : (m.after p n).AtHalt p := by
  induction n with
  | zero => exact nomatch hrunning.symm.trans hhalted
  | succ n ih =>
    rw [after_succ] at hhalted ⊢
    cases hbefore : (m.after p n).cpu.halted with
    | true =>
      obtain ⟨s, hstep, -⟩ := (ih hbefore).step_eq hbefore
      rw [hstep]
      exact ih hbefore
    | false =>
      rcases hstep : (m.after p n).step p with ⟨trap | s, m'⟩
      · -- A step that traps changes nothing, so the machine has not halted after it either.
        obtain ⟨-, rfl⟩ := step_eq_error_iff.1 hstep
        rw [hstep, hbefore] at hhalted
        exact nomatch hhalted
      · rw [hstep] at hhalted
        exact atHalt_of_step hbefore hstep hhalted

/-! ## The zero word -/

/-- A running machine halts by a step of the word zero, and by no other. -/
theorem word_eq_zero_iff_halted {s : Step} (hrunning : m.cpu.halted = false)
    (hstep : m.step p = (.ok s, m')) : s.word = 0 ↔ m'.cpu.halted = true := by
  cases step_eq_iff.1 hstep with
  | @action line a flow m₁ hfetch hline hperform =>
    obtain ⟨hflow, hunhalted, -⟩ := perform_eq_ok hperform
    rw [Cpu.halted_advance, hunhalted, hrunning, hflow, Action.flow_eq_halt_iff,
      Action.word_eq_zero_iff]
    simp

/-- The words up to a halted machine end in zero, and have no zero before. -/
theorem Passes.exists_append_zero (h : Passes p m words m') (hrunning : m.cpu.halted = false)
    (hhalted : m'.cpu.halted = true) : ∃ init, words = init ++ [0] ∧ 0 ∉ init := by
  induction h with
  | nil => exact nomatch hrunning.symm.trans hhalted
  | @cons m m₁ m' s words _ hstep hrest ih =>
    have hzero := word_eq_zero_iff_halted hrunning hstep
    cases hnext : m₁.cpu.halted with
    | true =>
      cases hrest with
      | nil => exact ⟨[], by rw [hzero.2 hnext, List.nil_append], List.not_mem_nil⟩
      | cons hrunning' => exact nomatch hrunning'.symm.trans hnext
    | false =>
      obtain ⟨init, rfl, hinit⟩ := ih hnext hhalted
      have hne : s.word ≠ 0 := fun h => nomatch hnext.symm.trans (hzero.1 h)
      exact ⟨s.word :: init, rfl, fun h => hinit ((List.mem_cons.1 h).resolve_left hne.symm)⟩

end Machine

/-- **Completed runs end on a `halt` for good.** The trace of a run that completes has as many words
as the run had steps, and zero is the last of them and no other. The machine has halted and a `halt`
stands at its program counter. However many steps it takes from there, each succeeds as a `halt`
with the word zero and leaves the machine as it was. -/
theorem run_ends_at_halt {p : Program} {settings : Settings} {m m' : Machine} {trace : Trace}
    (h : m.run p settings = (.ok trace, m')) :
    trace.steps = trace.words.size ∧ 1 ≤ trace.words.size ∧
      (∃ init, trace.words.toList = init ++ [0] ∧ 0 ∉ init) ∧
      m'.cpu.halted = true ∧
      (∃ line i w, p.fetch? m'.cpu.pc = some line ∧ p.decodeLine line = .ok (i, w) ∧
        i.op = .halt) ∧
      ∀ n, m'.after p n = m' ∧
        ∃ s, (m'.after p n).step p = (.ok s, m') ∧ s.flow = .halt ∧ s.word = 0 := by
  cases Machine.run_eq_iff.1 h with
  | @halted words _ hpasses hhalted hle =>
    have hatHalt : m'.AtHalt p := by
      rw [hpasses.eq_after] at hhalted ⊢
      exact Machine.atHalt_of_halted_after rfl hhalted
    obtain ⟨s, hstep, hflow, hword⟩ := hatHalt.step_eq hhalted
    obtain ⟨init, rfl, hinit⟩ := hpasses.exists_append_zero rfl hhalted
    have hafter (n : Nat) : m'.after p n = m' := Function.iterate_fixed (by rw [hstep]) n
    refine ⟨rfl, by simp, ⟨init, rfl, hinit⟩, hhalted, ?_, ?_⟩
    · obtain ⟨line, hfetch, hline⟩ := hatHalt
      exact ⟨line, _, _, hfetch, hline, rfl⟩
    · intro n
      rw [hafter n]
      exact ⟨rfl, s, hstep, hflow, hword⟩

/-- A run that jumps to its `halt` and takes all the steps it may. -/
theorem run_ends_at_halt_behind_jump :
    ((Machine.new 4).run (Program.ofSource "li r1, 3\njp r1\nnop r1, r1\n:end\nhalt")
        { maxSteps := some 3 }).1 = .ok { words := #[0x1031, 0xc001, 0], steps := 3 } ∧
      ((Machine.new 4).run (Program.ofSource "li r1, 3\njp r1\nnop r1, r1\n:end\nhalt")
        { maxSteps := some 3 }).2.cpu.halted = true ∧
      ((Machine.new 4).run (Program.ofSource "li r1, 3\njp r1\nnop r1, r1\n:end\nhalt")
        { maxSteps := some 3 }).2.after
          (Program.ofSource "li r1, 3\njp r1\nnop r1, r1\n:end\nhalt") 1000000 =
        ((Machine.new 4).run (Program.ofSource "li r1, 3\njp r1\nnop r1, r1\n:end\nhalt")
          { maxSteps := some 3 }).2 := by
  have hrun : ((Machine.new 4).run
      (Program.ofSource "li r1, 3\njp r1\nnop r1, r1\n:end\nhalt")
      { maxSteps := some 3 }).1 = .ok { words := #[0x1031, 0xc001, 0], steps := 3 } := by
    decide +kernel
  obtain ⟨-, -, -, hhalted, -, hafter⟩ := run_ends_at_halt (Prod.ext hrun rfl)
  exact ⟨hrun, hhalted, (hafter 1000000).1⟩

end WordMachine
