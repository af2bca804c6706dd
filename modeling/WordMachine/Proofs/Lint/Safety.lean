import WordMachine.Proofs.Image.Assembly
import WordMachine.Proofs.Lint.Refusal
import WordMachine.Proofs.Machine.Iteration

/-!
# Programs without lint errors

A program in which lint finds no error has no refused line, so it assembles, and whatever a machine
does with it, no step finds an instruction that it cannot decode (`lint_clean_safe`). What is left
to go wrong lies outside: a program counter behind the program, an address behind the memory
(`Trap.IsOutside`), or a limit that is too low.
-/

namespace WordMachine

/-- Whether a trap is about a program counter behind the program, or about an address behind a
memory of some size. -/
inductive Trap.IsOutside (p : Program) (size : Nat) : Trap → Prop
  | pcOutOfRange {pc : Word} (hpc : p.size ≤ pc.toNat) :
      IsOutside p size (.pcOutOfRange pc p.size)
  | bus {line : Nat} {address : Word} {fault : MemoryFault} (haddress : size ≤ address.toNat) :
      IsOutside p size (.bus line address fault)

namespace Trap.IsOutside

variable {p : Program} {size : Nat} {trap : Trap}

/-- No address lies behind the largest memory. -/
theorem ne_bus (h : trap.IsOutside p size) (hsize : size = 65536) (line : Nat) (address : Word)
    (fault : MemoryFault) : trap ≠ .bus line address fault := by
  rintro rfl
  cases h with
  | bus haddress => exact Nat.not_le.2 (hsize ▸ address.toNat_lt) haddress

/-- No program counter lies behind a program of as many lines as there are words. -/
theorem ne_pcOutOfRange (h : trap.IsOutside p size) (hp : 65536 ≤ p.size) (pc : Word) (n : Nat) :
    trap ≠ .pcOutOfRange pc n := by
  rintro rfl
  cases h with
  | pcOutOfRange hpc => exact Nat.not_le.2 pc.toNat_lt (Nat.le_trans hp hpc)

end Trap.IsOutside

namespace Program

variable {p : Program}

/-- Whether every line at an address is accepted. -/
def Accepted (p : Program) : Prop :=
  ∀ line ∈ p.executable.toList, ∃ x, p.decodeLine line = .ok x

theorem accepted_of_lint (hclean : ∀ d ∈ p.lint, d.isError = false) : p.Accepted := by
  intro line hmem
  cases hline : p.decodeLine line with
  | ok x => exact ⟨x, rfl⟩
  | error trap =>
    obtain ⟨e, -, he⟩ := decodeLine_eq_error_iff.1 hline
    obtain ⟨problem, hproblem, herror⟩ := Lint.checkLine_error_iff.2 ⟨e, he⟩
    have hd : (⟨line.number, problem⟩ : Diagnostic) ∈ p.lint :=
      mem_lint.2 ⟨line, hmem, rfl, hproblem⟩
    exact nomatch (hclean _ hd).symm.trans herror

theorem Accepted.exists_image (h : p.Accepted) : ∃ image, p.assemble = .ok image := by
  obtain ⟨words, hwords⟩ := Assembled.exists_words h
  exact ⟨words.toArray, assemble_eq_ok_iff.2 hwords⟩

/-- A step of a program whose lines are accepted traps outside the program or the memory only. -/
theorem Accepted.isOutside (h : p.Accepted) {m : Machine} {trap : Trap}
    (harises : trap.ArisesAt p m) : trap.IsOutside p m.memory.size := by
  cases harises with
  | pcOutOfRange hpc => exact .pcOutOfRange hpc
  | bus _ _ _ haddress => exact .bus haddress
  | @decode line e hfetch hline =>
    obtain ⟨x, hx⟩ := h line (List.mem_of_getElem? ((Array.getElem?_toList ..).trans hfetch))
    exact nomatch hline.symm.trans (decodeLine_eq_ok_iff.1 hx)

/-- So does a step after any number of steps. -/
theorem Accepted.isOutside_after (h : p.Accepted) {m : Machine} {n : Nat} {trap : Trap}
    (htrap : ((m.after p n).step p).1 = .error trap) : trap.IsOutside p m.memory.size := by
  rw [← Machine.size_after (p := p) n]
  exact h.isOutside (Machine.step_eq_error_iff.1 (Prod.ext htrap rfl)).1

/-- So does a run, unless its steps are used up. -/
theorem Accepted.isOutside_of_run (h : p.Accepted) {m : Machine} {settings : Settings}
    {trap : Trap} (htrap : (m.run p settings).1 = .error trap)
    (hlimit : trap ≠ .stepLimit settings.budget) : trap.IsOutside p m.memory.size := by
  have hrun : m.run p settings = (.error trap, (m.run p settings).2) := Prod.ext htrap rfl
  rw [← Machine.size_run hrun]
  cases Machine.run_eq_iff.1 hrun with
  | trapped _ _ harises _ => exact h.isOutside harises
  | limited => exact absurd rfl hlimit

end Program

/-- **Programs without lint errors cannot go wrong.** Let lint find no error in a source. Then it
assembles. Whatever machine executes it, a step after any number of steps, and a run whose steps
are not used up, fail only because the program counter lies behind the program or an address behind
the memory; not for an address if the memory has its full size, and not for the program counter if
the program has as many lines as there are words. -/
theorem lint_clean_safe {source : String}
    (hclean : ∀ d ∈ (Program.ofSource source).lint, d.isError = false) :
    (∃ image, (Program.ofSource source).assemble = .ok image) ∧
      ∀ (m : Machine) (trap : Trap),
        ((∃ n, ((m.after (Program.ofSource source) n).step (Program.ofSource source)).1 =
            .error trap) ∨
          ∃ settings : Settings, (m.run (Program.ofSource source) settings).1 = .error trap ∧
            trap ≠ .stepLimit settings.budget) →
          trap.IsOutside (Program.ofSource source) m.memory.size ∧
            (m.memory.size = 65536 → ∀ line address fault, trap ≠ .bus line address fault) ∧
            (65536 ≤ (Program.ofSource source).size → ∀ pc n, trap ≠ .pcOutOfRange pc n) := by
  have haccepted := Program.accepted_of_lint hclean
  refine ⟨haccepted.exists_image, fun m trap htrap => ?_⟩
  have houtside : trap.IsOutside (Program.ofSource source) m.memory.size := by
    obtain ⟨n, htrap⟩ | ⟨settings, htrap, hlimit⟩ := htrap
    · exact haccepted.isOutside_after htrap
    · exact haccepted.isOutside_of_run htrap hlimit
  exact ⟨houtside, houtside.ne_bus, houtside.ne_pcOutOfRange⟩

/-- A program with two warnings and no error, which reads outside a memory of four words. -/
theorem lint_clean_safe_read_outside :
    (Program.ofSource ":a\nli r1, 9\nld r2 r1\nhalt").lint.length = 2 ∧
      (∀ d ∈ (Program.ofSource ":a\nli r1, 9\nld r2 r1\nhalt").lint, d.isError = false) ∧
      (∃ image, (Program.ofSource ":a\nli r1, 9\nld r2 r1\nhalt").assemble = .ok image) ∧
      ((Machine.new 4).run (Program.ofSource ":a\nli r1, 9\nld r2 r1\nhalt")
        { maxSteps := some 5 }).1 = .error (.bus 3 9 ⟨.read, 4⟩) ∧
      (Trap.bus 3 9 ⟨.read, 4⟩).IsOutside (Program.ofSource ":a\nli r1, 9\nld r2 r1\nhalt") 4 := by
  have hclean : ∀ d ∈ (Program.ofSource ":a\nli r1, 9\nld r2 r1\nhalt").lint,
      d.isError = false := by decide +kernel
  have hrun : ((Machine.new 4).run (Program.ofSource ":a\nli r1, 9\nld r2 r1\nhalt")
      { maxSteps := some 5 }).1 = .error (.bus 3 9 ⟨.read, 4⟩) := by decide +kernel
  obtain ⟨himage, hsafe⟩ := lint_clean_safe hclean
  exact ⟨by decide +kernel, hclean, himage, hrun,
    (hsafe (Machine.new 4) _ (.inr ⟨{ maxSteps := some 5 }, hrun, nofun⟩)).1⟩

end WordMachine
