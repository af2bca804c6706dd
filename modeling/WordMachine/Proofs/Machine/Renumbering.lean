import WordMachine.Proofs.Image.Assembly
import WordMachine.Proofs.Machine.Iteration

/-!
# Programs that differ in the numbers of their lines

Line numbers are for messages only. A program whose instructions have other numbers, but the same
tokens and the same addresses of labels (`Program.Renumbered`), assembles to the same image
(`assemble_renumbered`), takes a machine through the same states, and has the same runs
(`run_renumbered`). Where the one fails the other fails alike, with the other number of the same
line in its trap (`Trap.renumber`).
-/

namespace WordMachine

/-! ## Renumbered lines and programs -/

/-- A trap whose line has another number. -/
def Trap.renumber (f : Nat → Nat) : Trap → Trap
  | decode line source => decode (f line) source
  | bus line address fault => bus (f line) address fault
  | pcOutOfRange pc size => pcOutOfRange pc size
  | stepLimit limit => stepLimit limit

/-- Whether a line is another one but for its number and for what stands around its tokens. -/
structure Line.Renumbered (f : Nat → Nat) (line line' : Line) : Prop where
  number : line'.number = f line.number
  tokens : Line.tokens line'.text = Line.tokens line.text

/-- Whether a program has the instructions of another one, on lines with other numbers, and gives
its labels the same addresses. -/
structure Program.Renumbered (f : Nat → Nat) (p q : Program) : Prop where
  executable : List.Forall₂ (Line.Renumbered f) p.executable.toList q.executable.toList
  address? : ∀ name, q.labels.address? name = p.labels.address? name

namespace Program.Renumbered

variable {f : Nat → Nat} {p q : Program} (h : p.Renumbered f q)

include h

theorem size_eq : q.size = p.size := by
  rw [Program.size, Program.size, ← Array.length_toList, ← Array.length_toList,
    h.executable.length_eq]

theorem exists_fetch? {pc : Word} {line : Line} (hfetch : p.fetch? pc = some line) :
    ∃ line', q.fetch? pc = some line' ∧ line.Renumbered f line' := by
  rw [Program.fetch?, ← Array.getElem?_toList] at hfetch
  obtain ⟨hlt, rfl⟩ := List.getElem?_eq_some_iff.1 hfetch
  have hlt' : pc.toNat < q.executable.toList.length := h.executable.length_eq ▸ hlt
  refine ⟨q.executable.toList[pc.toNat], ?_, h.executable.get hlt hlt'⟩
  rw [Program.fetch?, ← Array.getElem?_toList, List.getElem?_eq_getElem hlt']

/-! ## Decoding -/

theorem resolveOperand_eq (o : Operand) : q.resolveOperand o = p.resolveOperand o := by
  cases o with
  | label name => simp only [Program.resolveOperand, Labels.resolve, h.address?]
  | reg | mem | imm => rfl

end Program.Renumbered

namespace Program.Renumbered

variable {f : Nat → Nat} {p q : Program} (h : p.Renumbered f q) {line line' : Line}
  (hline : line.Renumbered f line')

include h

theorem resolve_eq (i : Instruction) (number : Nat) :
    q.resolve (i.onLine number) = (p.resolve i).map (·.onLine number) := by
  have hoperands : q.resolveOperand = p.resolveOperand := funext h.resolveOperand_eq
  simp only [Program.resolve, Instruction.onLine, hoperands]
  cases i.operands.mapM p.resolveOperand with
  | error e => rfl
  | ok operands => rfl

include hline

/-- A line that is accepted holds the same action on its new line. -/
theorem decodeLine_eq_ok {a : Action}
    (hdecode : p.decodeLine line = .ok (a.instruction line.number, a.word)) :
    q.decodeLine line' = .ok (a.instruction line'.number, a.word) := by
  rw [Program.decodeLine_eq_ok_iff, Program.assembleLine_eq_ok_iff] at hdecode ⊢
  obtain ⟨parsed, hread, hresolve, b, hinstruction, hword⟩ := hdecode
  refine ⟨parsed.onLine line'.number, ?_, ?_, a, rfl, rfl⟩
  · rw [read_of_tokens_eq hline.tokens line.number, hread]
    rfl
  · rw [h.resolve_eq, hresolve]
    rfl

/-- A line that is refused is refused for the same reason. -/
theorem assembleLine_eq_error {e : LineError} (hassemble : p.assembleLine line = .error e) :
    q.assembleLine line' = .error e := by
  rw [Program.assembleLine_eq_error_iff] at hassemble ⊢
  rw [read_of_tokens_eq hline.tokens line.number]
  rcases hassemble with hread | ⟨parsed, hread, hresolve⟩
  · rw [hread]
    exact .inl rfl
  · rw [hread]
    refine .inr ⟨parsed.onLine line'.number, rfl, ?_⟩
    rw [h.resolve_eq, hresolve]
    rfl

theorem decodeLine_eq_error {trap : Trap} (hdecode : p.decodeLine line = .error trap) :
    q.decodeLine line' = .error (trap.renumber f) := by
  obtain ⟨e, rfl, hassemble⟩ := Program.decodeLine_eq_error_iff.1 hdecode
  refine Program.decodeLine_eq_error_iff.2 ⟨e, ?_, h.assembleLine_eq_error hline hassemble⟩
  rw [Trap.renumber, hline.number]

end Program.Renumbered

/-! ## Assembling -/

section Assembling

variable {f : Nat → Nat} {p q : Program} (h : p.Renumbered f q)

include h

theorem assembleFrom_renumbered {lines lines' : List Line}
    (hlines : List.Forall₂ (Line.Renumbered f) lines lines') (image : Image) :
    q.assembleFrom image lines' = (p.assembleFrom image lines).mapError (Trap.renumber f) := by
  induction hlines generalizing image with
  | nil => rfl
  | @cons line line' lines lines' hline _ ih =>
    rw [Program.assembleFrom, Program.assembleFrom]
    cases hdecode : p.decodeLine line with
    | error trap =>
      rw [h.decodeLine_eq_error hline hdecode]
      rfl
    | ok x =>
      obtain ⟨i, w⟩ := x
      obtain ⟨a, rfl, rfl⟩ := Program.exists_of_decodeLine hdecode
      rw [h.decodeLine_eq_ok hline hdecode]
      show (if a.op = .halt then Except.ok (image.push a.word)
          else q.assembleFrom (image.push a.word) lines') =
        (if a.op = .halt then Except.ok (image.push a.word)
          else p.assembleFrom (image.push a.word) lines).mapError (Trap.renumber f)
      split
      · rfl
      · exact ih _

theorem assemble_renumbered : q.assemble = p.assemble.mapError (Trap.renumber f) :=
  assembleFrom_renumbered h h.executable #[]

end Assembling

namespace Machine

variable {f : Nat → Nat} {p q : Program} {m m' : Machine}

/-! ## Steps -/

/-- The number of its line is no part of what an action does. -/
theorem perform_renumber (f : Nat → Nat) (a : Action) (line : Nat) (m : Machine) :
    m.perform a (f line) =
      ((m.perform a line).1.mapError (Trap.renumber f), (m.perform a line).2) := by
  cases a with
  | ld d r =>
    simp only [perform]
    cases m.memory.read (m.cpu.get r) with
    | ok w => rfl
    | error fault => rfl
  | st r s =>
    simp only [perform]
    rcases m.memory.write (m.cpu.get r) (m.cpu.get s) with ⟨fault | u, memory⟩
    · rfl
    · rfl
  | jpIf c r =>
    simp only [perform]
    split
    · rfl
    · rfl
  | halt | li | jp | alu => rfl

section Renumbered

variable (h : p.Renumbered f q)

include h

theorem arisesAt_renumbered {trap : Trap} (harises : trap.ArisesAt p m) :
    (trap.renumber f).ArisesAt q m := by
  cases harises with
  | pcOutOfRange hpc =>
    rw [Trap.renumber, ← h.size_eq]
    exact .pcOutOfRange (h.size_eq ▸ hpc)
  | decode hfetch hline =>
    obtain ⟨line', hfetch', hline'⟩ := h.exists_fetch? hfetch
    rw [Trap.renumber, ← hline'.number]
    exact .decode hfetch' (h.assembleLine_eq_error hline' hline)
  | bus hfetch hline haccess haddress =>
    obtain ⟨line', hfetch', hline'⟩ := h.exists_fetch? hfetch
    rw [Trap.renumber, ← hline'.number]
    exact .bus hfetch' (h.decodeLine_eq_ok hline' hline) haccess haddress

/-- A step that succeeds does so on the other program, with the same word and the same state. -/
theorem step_renumbered {s : Step} (hstep : m.step p = (.ok s, m')) :
    ∃ s', m.step q = (.ok s', m') ∧ s'.word = s.word := by
  cases step_eq_iff.1 hstep with
  | @action line a flow m₁ hfetch hline hperform =>
    obtain ⟨line', hfetch', hline'⟩ := h.exists_fetch? hfetch
    have hperform' : m.perform a line'.number = (.ok flow, m₁) := by
      rw [hline'.number, perform_renumber, hperform]
      rfl
    exact ⟨_, step_eq_iff.2 (.action hfetch' (h.decodeLine_eq_ok hline' hline) hperform'), rfl⟩

/-! ## Runs -/

theorem passes_renumbered {words : List Word} (hpasses : Passes p m words m') :
    Passes q m words m' := by
  induction hpasses with
  | nil => exact .nil
  | cons hrunning hstep _ ih =>
    obtain ⟨s', hstep', hword⟩ := step_renumbered h hstep
    rw [← hword]
    exact .cons hrunning hstep' ih

theorem ends_renumbered {budget : Nat} {x : Except Trap Trace} (hends : Ends p budget m x m') :
    Ends q budget m (x.mapError (Trap.renumber f)) m' := by
  cases hends with
  | halted hpasses hhalted hle => exact .halted (passes_renumbered h hpasses) hhalted hle
  | trapped hpasses hrunning harises hlt =>
    exact .trapped (passes_renumbered h hpasses) hrunning (arisesAt_renumbered h harises) hlt
  | limited hpasses hrunning hlength =>
    exact .limited (passes_renumbered h hpasses) hrunning hlength

theorem run_renumbered (m : Machine) (settings : Settings) :
    m.run q settings =
      ((m.run p settings).1.mapError (Trap.renumber f), (m.run p settings).2) :=
  run_eq_iff.2 (ends_renumbered h (run_eq_iff.1 rfl))

end Renumbered

end Machine

end WordMachine
