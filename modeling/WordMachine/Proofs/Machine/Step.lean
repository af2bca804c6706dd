import WordMachine.Machine.Step
import WordMachine.Proofs.Instruction.Reading

/-!
# What a step does

A step traps and changes nothing, or it performs the action of the line at the program counter and
then moves the program counter (`step_eq_iff`). It traps where no line stands at the program
counter, where that line is refused, and where its action accesses an address outside memory
(`Trap.ArisesAt`); there is no other way, since an accepted line holds an action and an action fails
by a refused access only (`perform_eq_error_iff`).
-/

namespace WordMachine

/-! ## Actions -/

namespace Action

/-- The access to memory that an action makes, and the register that holds its address. -/
def access? : Action → Option (Access × Reg)
  | ld _ a => some (.read, a)
  | st a _ => some (.write, a)
  | halt | li .. | jp _ | jpIf .. | alu .. => none

/-- Where the machine goes after an action, with the flags before it. -/
def flow (f : Flags) : Action → Flow
  | halt => .halt
  | jp _ => .jump
  | jpIf c _ => if f.holds c then .jump else .next
  | li .. | ld .. | st .. | alu .. => .next

theorem flow_eq_halt_iff {f : Flags} {a : Action} : a.flow f = .halt ↔ a.op = .halt := by
  cases a with
  | halt => exact ⟨fun _ => rfl, fun _ => rfl⟩
  | jpIf c r =>
    simp only [flow, op]
    split
    · simp
    · simp
  | li | ld | st | jp | alu => simp [flow, op]

end Action

namespace Machine

variable {m m' : Machine} {a : Action} {line : Nat}

/-- An action fails where its access is refused, and changes nothing then. -/
theorem perform_eq_error_iff {trap : Trap} :
    m.perform a line = (.error trap, m') ↔
      ∃ access r, a.access? = some (access, r) ∧ m.memory.size ≤ (m.cpu.get r).toNat ∧
        trap = .bus line (m.cpu.get r) ⟨access, m.memory.size⟩ ∧ m' = m := by
  cases a with
  | ld d r =>
    simp only [perform]
    split
    · next w hread =>
      refine ⟨nofun, ?_⟩
      rintro ⟨_, _, haccess, hsize, -, -⟩
      cases haccess
      exact nomatch hread.symm.trans (Memory.read_eq_error_iff.2 ⟨hsize, rfl⟩)
    · next fault hread =>
      obtain ⟨hsize, rfl⟩ := Memory.read_eq_error_iff.1 hread
      constructor
      · intro h
        cases h
        exact ⟨_, _, rfl, hsize, rfl, rfl⟩
      · rintro ⟨_, _, haccess, -, rfl, rfl⟩
        cases haccess
        rfl
  | st r s =>
    simp only [perform]
    split
    · next memory hwrite =>
      refine ⟨nofun, ?_⟩
      rintro ⟨_, _, haccess, hsize, -, -⟩
      cases haccess
      exact nomatch hwrite.symm.trans (Memory.write_eq_error_iff.2 ⟨hsize, rfl, rfl⟩)
    · next fault memory hwrite =>
      obtain ⟨hsize, rfl, rfl⟩ := Memory.write_eq_error_iff.1 hwrite
      constructor
      · intro h
        cases h
        exact ⟨_, _, rfl, hsize, rfl, rfl⟩
      · rintro ⟨_, _, haccess, -, rfl, rfl⟩
        cases haccess
        rfl
  | jpIf c r =>
    simp only [perform]
    refine ⟨fun h => ?_, fun ⟨_, _, haccess, _⟩ => nomatch haccess⟩
    split at h
    · exact nomatch h
    · exact nomatch h
  | halt | li | jp | alu => exact ⟨nofun, fun ⟨_, _, haccess, _⟩ => nomatch haccess⟩

/-- An action that is performed neither halts the machine by itself nor changes the size of the
memory. -/
theorem perform_eq_ok {flow : Flow} (h : m.perform a line = (.ok flow, m')) :
    flow = a.flow m.cpu.flags ∧ m'.cpu.halted = m.cpu.halted ∧ m'.memory.size = m.memory.size := by
  cases a with
  | st r s =>
    simp only [perform] at h
    split at h
    · next memory hwrite =>
      cases h
      have hsize := m.memory.size_write (m.cpu.get r) (m.cpu.get s)
      rw [hwrite] at hsize
      exact ⟨rfl, rfl, hsize⟩
    · exact nomatch h
  | ld d r =>
    simp only [perform] at h
    split at h
    · cases h
      exact ⟨rfl, rfl, rfl⟩
    · exact nomatch h
  | jpIf c r =>
    simp only [perform] at h
    split at h
    · next hc =>
      cases h
      exact ⟨(if_pos hc).symm, rfl, rfl⟩
    · next hc =>
      cases h
      exact ⟨(if_neg hc).symm, rfl, rfl⟩
  | halt | li | jp | alu =>
    cases h
    exact ⟨rfl, rfl, rfl⟩

theorem execute_instruction (a : Action) (line : Nat) (m : Machine) :
    m.execute (a.instruction line) = m.perform a line := by
  simp only [execute, Action.ofInstruction_instruction]
  rfl

/-- An instruction that is not executed, well-formed or not, changes nothing. -/
theorem execute_eq_error {i : Instruction} {trap : Trap} (h : m.execute i = (.error trap, m')) :
    m' = m := by
  unfold execute at h
  split at h
  · obtain ⟨_, _, -, -, -, hm'⟩ := perform_eq_error_iff.1 h
    exact hm'
  · cases h
    rfl

end Machine

/-! ## Steps -/

/-- The traps in which a step of a program can end: no line stands at the program counter, or one
that is refused, or one whose action accesses an address outside memory. -/
inductive Trap.ArisesAt (p : Program) (m : Machine) : Trap → Prop
  | pcOutOfRange (hpc : p.size ≤ m.cpu.pc.toNat) : ArisesAt p m (.pcOutOfRange m.cpu.pc p.size)
  | decode {line : Line} {e : LineError} (hfetch : p.fetch? m.cpu.pc = some line)
      (hline : p.assembleLine line = .error e) : ArisesAt p m (.decode line.number e)
  | bus {line : Line} {a : Action} {access : Access} {r : Reg}
      (hfetch : p.fetch? m.cpu.pc = some line)
      (hline : p.decodeLine line = .ok (a.instruction line.number, a.word))
      (haccess : a.access? = some (access, r)) (haddress : m.memory.size ≤ (m.cpu.get r).toNat) :
      ArisesAt p m (.bus line.number (m.cpu.get r) ⟨access, m.memory.size⟩)

/-- What a step of a program can do to a machine. -/
inductive Machine.StepsTo (p : Program) (m : Machine) : Except Trap Step → Machine → Prop
  | trap {trap : Trap} (harises : trap.ArisesAt p m) : StepsTo p m (.error trap) m
  | action {line : Line} {a : Action} {flow : Flow} {m' : Machine}
      (hfetch : p.fetch? m.cpu.pc = some line)
      (hline : p.decodeLine line = .ok (a.instruction line.number, a.word))
      (hperform : m.perform a line.number = (.ok flow, m')) :
      StepsTo p m (.ok ⟨m.cpu.pc, a.instruction line.number, a.word, flow⟩)
        { m' with cpu := m'.cpu.advance flow }

namespace Machine

variable {p : Program} {m m' : Machine}

theorem StepsTo.of_eq {x : Except Trap Step} (h : m.step p = (x, m')) : m.StepsTo p x m' := by
  unfold step Program.decodeAt at h
  cases hfetch : p.fetch? m.cpu.pc with
  | none =>
    rw [hfetch] at h
    cases h
    exact .trap (.pcOutOfRange (Array.getElem?_eq_none_iff.1 hfetch))
  | some line =>
    simp only [hfetch] at h
    cases hline : p.decodeLine line with
    | error trap =>
      obtain ⟨e, rfl, he⟩ := Program.decodeLine_eq_error_iff.1 hline
      rw [hline] at h
      cases h
      exact .trap (.decode hfetch he)
    | ok x =>
      obtain ⟨i, w⟩ := x
      obtain ⟨a, rfl, rfl⟩ := Program.exists_of_decodeLine hline
      simp only [hline, stepWith, execute_instruction] at h
      -- The line holds an action, so all that can still fail is an access to memory.
      rcases hperform : m.perform a line.number with ⟨trap | flow, m₁⟩
      · obtain ⟨access, r, haccess, haddress, rfl, rfl⟩ := perform_eq_error_iff.1 hperform
        rw [hperform] at h
        cases h
        exact .trap (.bus hfetch hline haccess haddress)
      · rw [hperform] at h
        cases h
        exact .action hfetch hline hperform

theorem StepsTo.step_eq {x : Except Trap Step} (h : m.StepsTo p x m') : m.step p = (x, m') := by
  cases h with
  | action hfetch hline hperform =>
    simp only [step, Program.decodeAt, hfetch, hline, stepWith, execute_instruction, hperform]
  | trap harises =>
    cases harises with
    | pcOutOfRange hpc =>
      have hfetch : p.fetch? m.cpu.pc = none := Array.getElem?_eq_none_iff.2 hpc
      simp only [step, Program.decodeAt, hfetch, stepWith]
    | decode hfetch hline =>
      have hline := Program.decodeLine_eq_error_iff.2 ⟨_, rfl, hline⟩
      simp only [step, Program.decodeAt, hfetch, hline, stepWith]
    | @bus line a access r hfetch hline haccess haddress =>
      have hperform : m.perform a line.number =
          (.error (.bus line.number (m.cpu.get r) ⟨access, m.memory.size⟩), m) :=
        perform_eq_error_iff.2 ⟨_, _, haccess, haddress, rfl, rfl⟩
      simp only [step, Program.decodeAt, hfetch, hline, stepWith, execute_instruction, hperform]

/-- A step does what a step can do. -/
theorem step_eq_iff {x : Except Trap Step} : m.step p = (x, m') ↔ m.StepsTo p x m' :=
  ⟨.of_eq, StepsTo.step_eq⟩

theorem step_eq_error_iff {trap : Trap} :
    m.step p = (.error trap, m') ↔ trap.ArisesAt p m ∧ m' = m := by
  rw [step_eq_iff]
  constructor
  · intro h
    cases h with
    | trap harises => exact ⟨harises, rfl⟩
  · rintro ⟨harises, rfl⟩
    exact .trap harises

theorem size_step (p : Program) (m : Machine) : (m.step p).2.memory.size = m.memory.size := by
  rcases hstep : m.step p with ⟨x, m'⟩
  cases step_eq_iff.1 hstep with
  | trap => rfl
  | action _ _ hperform => exact (perform_eq_ok hperform).2.2

end Machine

end WordMachine
