import WordMachine.Proofs.Machine.Iteration

/-!
# Runs on a machine that was used before

A machine is used for runs, and its memory is written from outside between them (`Machine.Use`).
Nothing of that matters to a later run. It starts from the machine that is reset, of which only the
size of the memory is left (`reset_eq_new`), and no use changes that size (`size_apply`). So it is
the run of a machine that is new (`run_isolated`).
-/

namespace WordMachine

namespace Machine

theorem size_new (m : Machine) : (new m.memory.size).memory.size = m.memory.size :=
  m.memory.size_clear

/-! ## Uses of a machine -/

/-- A use of a machine. -/
inductive Use where
  /-- A run of a program, however it ends. -/
  | run (p : Program) (settings : Settings)
  /-- A write into the memory from outside, which may be refused. -/
  | write (address value : Word)

/-- The machine after a use. -/
def apply (m : Machine) : Use → Machine
  | .run p settings => (m.run p settings).2
  | .write address value => { m with memory := (m.memory.write address value).2 }

/-- The machine after uses in order. -/
def applyAll (m : Machine) (uses : List Use) : Machine :=
  uses.foldl apply m

theorem size_apply (m : Machine) (use : Use) : (m.apply use).memory.size = m.memory.size := by
  cases use with
  | run p settings =>
    have hrun : m.run p settings = ((m.run p settings).1, m.apply (.run p settings)) := rfl
    exact size_run hrun
  | write address value => exact m.memory.size_write address value

theorem size_applyAll (m : Machine) (uses : List Use) :
    (m.applyAll uses).memory.size = m.memory.size := by
  induction uses generalizing m with
  | nil => rfl
  | cons use uses ih => exact (ih (m.apply use)).trans (m.size_apply use)

end Machine

/-- **Runs are isolated from each other.** A machine that was used for any runs, whether they
completed or trapped, and whose memory was written from outside, runs a program with the result of a
new machine whose memory has the same size, and both are left in the same state. The size of the
memory is the same after all uses, at each step of the run and after the run. -/
theorem run_isolated (m : Machine) (uses : List Machine.Use) (p : Program) (settings : Settings) :
    (m.applyAll uses).run p settings = (Machine.new m.memory.size).run p settings ∧
      (m.applyAll uses).memory.size = m.memory.size ∧
      (∀ n, ((m.applyAll uses).reset.after p n).memory.size = m.memory.size) ∧
      ((m.applyAll uses).run p settings).2.memory.size = m.memory.size := by
  have hsize : (m.applyAll uses).memory.size = m.memory.size := m.size_applyAll uses
  have hreset : (m.applyAll uses).reset = (Machine.new m.memory.size).reset := by
    rw [Machine.reset_eq_new, Machine.reset_eq_new, hsize, Machine.size_new]
  refine ⟨?_, hsize, ?_, ?_⟩
  · rw [Machine.run, Machine.run, hreset]
  · intro n
    rw [Machine.size_after, Machine.reset, Memory.size_clear, hsize]
  · -- The run is one more use.
    exact ((m.applyAll uses).size_apply (.run p settings)).trans hsize

end WordMachine
