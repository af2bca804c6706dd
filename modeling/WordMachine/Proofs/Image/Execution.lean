import WordMachine.Proofs.Machine.Renumbering

/-!
# Executing an image

A machine that executes an image fetches words instead of lines: it decodes the word at the program
counter, performs the instruction and moves the program counter as usual. It is stuck where no
instruction is encoded. On the image of a program it goes through the states of the machine that
executes the program, for as long as the program counter stays inside the image
(`assemble_simulates`), although labels, comments and the lines behind the first `halt` have no
words, and although it knows no line numbers.
-/

namespace WordMachine

/-! ## The machine that executes an image -/

/-- The instruction at an address of an image and its word. -/
def Image.fetch? (image : Image) (pc : Word) : Option (Instruction × Word) :=
  image[pc.toNat]?.bind fun w => (Instruction.decode? w).map (·, w)

namespace Machine

/-- One step of an image, where an instruction stands at the program counter. -/
def stepImage (image : Image) (m : Machine) : Option (Except Trap Step × Machine) :=
  (image.fetch? m.cpu.pc).map fun fetched => m.stepWith (.ok fetched)

/-- The machine after a number of calls of `stepImage`, if none of them is stuck. -/
def afterImage (image : Image) (n : Nat) (m : Machine) : Option Machine :=
  (fun s => s.bind fun m => (m.stepImage image).map Prod.snd)^[n] (some m)

theorem afterImage_succ (image : Image) (n : Nat) (m : Machine) :
    m.afterImage image (n + 1) =
      (m.afterImage image n).bind fun m => (m.stepImage image).map Prod.snd :=
  Function.iterate_succ_apply' ..

end Machine

/-! ## Agreement but for line numbers -/

/-- A trap without the number of its line. -/
def Trap.unnumbered : Trap → Trap
  | decode _ source => decode 0 source
  | bus _ address fault => bus 0 address fault
  | trap => trap

theorem Trap.unnumbered_renumber (trap : Trap) (f : Nat → Nat) :
    (trap.renumber f).unnumbered = trap.unnumbered := by
  cases trap with
  | decode | bus | pcOutOfRange | stepLimit => rfl

/-- Whether two results of a step tell of the same instruction, or of the same trap, wherever it
stands. -/
def StepsAgree : Except Trap Step → Except Trap Step → Prop
  | .ok s, .ok t =>
    s.pc = t.pc ∧ s.word = t.word ∧ s.flow = t.flow ∧ s.instruction.same t.instruction = true
  | .error s, .error t => s.unnumbered = t.unnumbered
  | _, _ => False

theorem Action.same_instruction (a : Action) (line line' : Nat) :
    (a.instruction line).same (a.instruction line') = true := by
  simp [Instruction.same, instruction]

namespace Machine

/-- Performing an action leaves the machine in the same state whatever the number of its line, and
has the same flow or traps alike. -/
theorem perform_line (a : Action) (line line' : Nat) (m : Machine) :
    (m.perform a line).2 = (m.perform a line').2 ∧
      ((∃ flow, (m.perform a line).1 = .ok flow ∧ (m.perform a line').1 = .ok flow) ∨
        ∃ t t', (m.perform a line).1 = .error t ∧ (m.perform a line').1 = .error t' ∧
          t.unnumbered = t'.unnumbered) := by
  have hline : m.perform a line' =
      ((m.perform a line).1.mapError (Trap.renumber fun _ => line'), (m.perform a line).2) :=
    perform_renumber (fun _ => line') a line m
  rw [hline]
  refine ⟨rfl, ?_⟩
  cases (m.perform a line).1 with
  | ok flow => exact .inl ⟨flow, rfl, rfl⟩
  | error trap => exact .inr ⟨trap, _, rfl, rfl, (trap.unnumbered_renumber _).symm⟩

/-- A step of an action does the same whatever the number of its line. -/
theorem stepWith_line (a : Action) (line line' : Nat) (w : Word) (m : Machine) :
    (m.stepWith (.ok (a.instruction line, w))).2 = (m.stepWith (.ok (a.instruction line', w))).2 ∧
      StepsAgree (m.stepWith (.ok (a.instruction line, w))).1
        (m.stepWith (.ok (a.instruction line', w))).1 := by
  obtain ⟨hmachine, hresult⟩ := perform_line a line line' m
  simp only [stepWith, execute_instruction]
  rcases hx : m.perform a line with ⟨x, m₁⟩
  rcases hy : m.perform a line' with ⟨y, m₂⟩
  rw [hx, hy] at hmachine hresult
  obtain rfl : m₁ = m₂ := hmachine
  obtain ⟨flow, rfl, rfl⟩ | ⟨t, t', rfl, rfl, ht⟩ := hresult
  · exact ⟨rfl, rfl, rfl, rfl, a.same_instruction line line'⟩
  · exact ⟨rfl, ht⟩

/-- The word of a step that succeeds is the one that was fetched. -/
theorem word_of_stepWith {i : Instruction} {w : Word} {m : Machine} {s : Step}
    (h : (m.stepWith (.ok (i, w))).1 = .ok s) : s.pc = m.cpu.pc ∧ s.word = w := by
  simp only [stepWith] at h
  split at h
  · obtain rfl := Except.ok.inj h
    exact ⟨rfl, rfl⟩
  · cases h

/-! ## Lockstep -/

section Lockstep

variable {p : Program} {image : Image} (h : p.assemble = .ok image) {m : Machine}

include h

/-- The word of a step at an address inside the image stands there. -/
theorem word_of_step {s : Step} (hstep : (m.step p).1 = .ok s) {w : Word}
    (hw : image[m.cpu.pc.toNat]? = some w) : s.pc = m.cpu.pc ∧ s.word = w := by
  obtain ⟨a, line, hdecode, rfl⟩ := Program.exists_of_assemble h hw
  rw [step, hdecode] at hstep
  exact word_of_stepWith hstep

/-- Inside the image the next step of the image is the next step of the program. -/
theorem stepImage_of_pc_lt (hpc : m.cpu.pc.toNat < image.size) :
    ∃ outcome, m.stepImage image = some outcome ∧ outcome.2 = (m.step p).2 ∧
      StepsAgree (m.step p).1 outcome.1 := by
  have hw : image[m.cpu.pc.toNat]? = some image[m.cpu.pc.toNat] := Array.getElem?_eq_getElem hpc
  obtain ⟨a, line, hdecode, hword⟩ := Program.exists_of_assemble h hw
  rw [hword] at hw hdecode
  -- The word has lost the number of its line, which is why the steps only agree.
  have hfetch : image.fetch? m.cpu.pc = some (a.instruction 0, a.word) := by
    simp only [Image.fetch?, hw, Option.bind_some, Action.decode?_word, Option.map_some]
  obtain ⟨hmachine, hagree⟩ := stepWith_line a line 0 a.word m
  refine ⟨m.stepWith (.ok (a.instruction 0, a.word)), ?_, ?_, ?_⟩
  · rw [stepImage, hfetch, Option.map_some]
  · rw [step, hdecode, hmachine]
  · rw [step, hdecode]
    exact hagree

/-- While the program counter stays inside the image, both machines go through the same states. -/
theorem afterImage_eq {n : Nat} (hpc : ∀ k < n, (m.after p k).cpu.pc.toNat < image.size) :
    m.afterImage image n = some (m.after p n) := by
  induction n with
  | zero => rfl
  | succ n ih =>
    have hbefore : m.afterImage image n = some (m.after p n) :=
      ih fun k hk => hpc k (Nat.lt_succ_of_lt hk)
    obtain ⟨outcome, hstep, hmachine, -⟩ := stepImage_of_pc_lt h (hpc n (Nat.lt_succ_self n))
    rw [afterImage_succ, hbefore, Option.bind_some, hstep, Option.map_some, hmachine, after_succ]

end Lockstep

end Machine

/-- **Assembling and executing agree.** Let a program assemble to an image. From any machine, for
as many steps as start with the program counter inside the image, the image takes the machine
through the states that the program takes it through. Each step of the image is a step of the
program: it executes the same instruction with the same flow, or traps alike, and its word is the
word of the image at the program counter. So is every word in the trace of a run whose step
started inside the image. -/
theorem assemble_simulates {p : Program} {image : Image} (h : p.assemble = .ok image) :
    (∀ (m : Machine) (n : Nat), (∀ k < n, (m.after p k).cpu.pc.toNat < image.size) →
      (∀ k ≤ n, m.afterImage image k = some (m.after p k)) ∧
        ∀ k < n, ∃ outcome, (m.after p k).stepImage image = some outcome ∧
          outcome.2 = ((m.after p k).step p).2 ∧
          StepsAgree ((m.after p k).step p).1 outcome.1 ∧
          ∀ s, ((m.after p k).step p).1 = .ok s →
            s.pc = (m.after p k).cpu.pc ∧ image[s.pc.toNat]? = some s.word) ∧
      ∀ (settings : Settings) (m m' : Machine) (trace : Trace),
        m.run p settings = (.ok trace, m') →
          ∀ (k : Nat) (w v : Word), trace.words[k]? = some w →
            image[(m.reset.after p k).cpu.pc.toNat]? = some v → w = v := by
  constructor
  · intro m n hpc
    constructor
    · intro k hk
      exact Machine.afterImage_eq h fun j hj => hpc j (Nat.lt_of_lt_of_le hj hk)
    · intro k hk
      obtain ⟨outcome, hstep, hmachine, hagree⟩ := Machine.stepImage_of_pc_lt h (hpc k hk)
      refine ⟨outcome, hstep, hmachine, hagree, ?_⟩
      intro s hs
      have hw := Array.getElem?_eq_getElem (hpc k hk)
      obtain ⟨hspc, hword⟩ := Machine.word_of_step h hs hw
      rw [hspc, hword]
      exact ⟨rfl, hw⟩
  · intro settings m m' trace hrun k w v hk hv
    obtain ⟨-, -, -, -, hwords⟩ := Machine.exists_of_run hrun
    obtain ⟨-, s, hs, rfl⟩ := hwords k w hk
    exact (Machine.word_of_step h hs hv).2

/-- Two steps of a program whose image is shorter than its source. -/
theorem assemble_simulates_two_steps :
    (Program.ofSource "; start\n:a\nli r1, 7\nhalt\nnop r1, r1").assemble = .ok #[0x1071, 0] ∧
      (∀ k < 2, ((Machine.new 4).after
        (Program.ofSource "; start\n:a\nli r1, 7\nhalt\nnop r1, r1") k).cpu.pc.toNat < 2) ∧
      (Machine.new 4).afterImage #[0x1071, 0] 2 =
        some ((Machine.new 4).after
          (Program.ofSource "; start\n:a\nli r1, 7\nhalt\nnop r1, r1") 2) ∧
      ((Machine.new 4).run (Program.ofSource "; start\n:a\nli r1, 7\nhalt\nnop r1, r1")
        { maxSteps := some 5 }).1 = .ok { words := #[0x1071, 0], steps := 2 } ∧
      ∀ v, (#[0x1071, 0] : Image)[((Machine.new 4).reset.after
        (Program.ofSource "; start\n:a\nli r1, 7\nhalt\nnop r1, r1") 0).cpu.pc.toNat]? = some v →
          0x1071 = v := by
  have h : (Program.ofSource "; start\n:a\nli r1, 7\nhalt\nnop r1, r1").assemble =
      .ok #[0x1071, 0] := by decide +kernel
  have hpc : ∀ k < 2, ((Machine.new 4).after
      (Program.ofSource "; start\n:a\nli r1, 7\nhalt\nnop r1, r1") k).cpu.pc.toNat < 2 := by
    decide +kernel
  have hrun : ((Machine.new 4).run (Program.ofSource "; start\n:a\nli r1, 7\nhalt\nnop r1, r1")
      { maxSteps := some 5 }).1 = .ok { words := #[0x1071, 0], steps := 2 } := by decide +kernel
  exact ⟨h, hpc, ((assemble_simulates h).1 _ 2 hpc).1 2 (Nat.le_refl 2), hrun,
    fun v hv => (assemble_simulates h).2 _ _ _ _ (Prod.ext hrun rfl) 0 _ v rfl hv⟩

end WordMachine
