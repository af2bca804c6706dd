import WordMachine.CommandLine.Outcome
import WordMachine.Proofs.Image.Assembly
import WordMachine.Proofs.Image.Record
import WordMachine.Proofs.Instruction.RoundTrip
import WordMachine.Proofs.Machine.Iteration

/-!
# Messages stand on one line

What is shown of a source inside a message is quoted or is a token, so no message about a line holds
a newline (`Program.oneLine_of_assembleLine`). The name of a label stands in its message as it is
written; it is a token, since an instruction was read that refers to it. The other traps show
numbers (`Trap.ArisesAt.oneLine_message`). So a tool that fails because of a trap says why on the
first line of its standard error output (`Outcome.head?_lines_failure`).
-/

namespace WordMachine

namespace Text

/-- Whether a text holds no newline. -/
def OneLine (s : String) : Prop :=
  '\n' ∉ s.toList

instance (s : String) : Decidable (OneLine s) :=
  inferInstanceAs (Decidable ('\n' ∉ s.toList))

theorem OneLine.append {s t : String} (hs : OneLine s) (ht : OneLine t) : OneLine (s ++ t) := by
  rw [OneLine, String.toList_append, List.mem_append]
  rintro (h | h)
  · exact hs h
  · exact ht h

theorem newline_not_mem_toDigits {radix : Nat} (hone : 1 < radix) (hradix : radix ≤ 16) (n : Nat) :
    '\n' ∉ Nat.toDigits radix n := by
  intro h
  obtain ⟨d, hd, hchar⟩ := exists_of_mem_toDigits hone h
  exact (by decide : ∀ d < 16, '\n' ≠ Nat.digitChar d) d (Nat.lt_of_lt_of_le hd hradix) hchar

theorem newline_not_mem_padded {radix : Nat} (hone : 1 < radix) (hradix : radix ≤ 16)
    (width n : Nat) : '\n' ∉ padded radix width n := by
  simp [padded, newline_not_mem_toDigits hone hradix]

theorem oneLine_nat (n : Nat) : OneLine (toString n) := by
  have h := newline_not_mem_toDigits (by decide) (by decide : 10 ≤ 16) n
  simpa [OneLine, toString, Nat.repr] using h

theorem oneLine_int (z : Int) : OneLine (toString z) := by
  cases z with
  | ofNat n => exact oneLine_nat n
  | negSucc n => exact OneLine.append (s := "-") (by decide) (oneLine_nat (n + 1))

/-- A newline is escaped inside quotes. -/
theorem newline_not_mem_escape (c : Char) : '\n' ∉ escape c := by
  unfold escape
  split
  case h_7 hnewline _ =>
    split
    · rw [List.mem_singleton]
      exact fun h => hnewline h.symm
    · have hdigits := newline_not_mem_toDigits (by decide) (by decide : 16 ≤ 16) c.toNat
      simpa using hdigits
  all_goals decide

theorem oneLine_quoted (s : String) : OneLine (quoted s) := by
  simp [OneLine, quoted, newline_not_mem_escape]

end Text

open Text (OneLine)

/-- What stands in the message of an error as it is. -/
def LineError.verbatim? : LineError → Option String
  | arity mnemonic _ _ => some mnemonic
  | labelNotFound name => some name
  | emptyLine | malformed .. | outOfRange .. | unknownInstruction _ => none

theorem LineError.oneLine_message {e : LineError} (h : ∀ s, e.verbatim? = some s → OneLine s) :
    OneLine e.message := by
  cases e with
  | emptyLine => decide
  | malformed part token =>
    have hpart : OneLine part.name := by cases part <;> decide
    have hstart := OneLine.append (s := "malformed ") (by decide) hpart
    exact (hstart.append (t := " ") (by decide)).append (Text.oneLine_quoted token)
  | arity mnemonic expected found =>
    have hexpected := ((h mnemonic rfl).append (t := " takes ") (by decide)).append
      (Text.oneLine_nat expected)
    have hfound := hexpected.append (t := " operand(s), found ") (by decide)
    exact hfound.append (Text.oneLine_nat found)
  | outOfRange what value max =>
    have hwhat : OneLine what.name := by cases what <;> decide
    have hvalue := (hwhat.append (t := " ") (by decide)).append (Text.oneLine_int value)
    have hrange := hvalue.append (t := " out of range (0-") (by decide)
    have hmax := hrange.append (Text.oneLine_nat max)
    exact hmax.append (t := ")") (by decide)
  | labelNotFound name =>
    have hname := OneLine.append (s := "label ") (by decide) (h name rfl)
    exact hname.append (t := " not found") (by decide)
  | unknownInstruction token =>
    exact OneLine.append (s := "unknown instruction ") (by decide) (Text.oneLine_quoted token)

/-! ## Lines that are refused -/

theorem readRegister_verbatim? {token : List Char} {e : LineError}
    (h : readRegister token = .error e) : e.verbatim? = none := by
  unfold readRegister at h
  split at h
  · cases h
    rfl
  · split at h
    · cases h
    · cases h
      rfl

theorem readImmediate_verbatim? {token : List Char} {e : LineError}
    (h : readImmediate token = .error e) : e.verbatim? = none := by
  unfold readImmediate at h
  split at h
  · cases h
    rfl
  · cases h
  · obtain ⟨value, rfl⟩ | rfl := readByte_eq_error (except_map_eq_error h)
    · rfl
    · rfl

/-- Reading shows nothing of a line as it is. -/
theorem oneLine_of_read {text : List Char} {number : Nat} {e : LineError}
    (h : Instruction.read text number = .error e) {s : String} (hs : e.verbatim? = some s) :
    OneLine s := by
  unfold Instruction.read at h
  split at h
  · cases h
    cases hs
  · split at h
    · cases h
      cases hs
    · next op _ =>
      split at h
      · cases h
        cases hs
        exact op.isToken_mnemonic.not_mem_newline
      · rcases except_bind_eq_error.1 h with h | ⟨_, -, h⟩
        · rw [readOperands_eq_mapM] at h
          obtain ⟨⟨slot, token⟩, -, hread⟩ := mapM_eq_error h
          have hnone : e.verbatim? = none := by
            cases slot with
            | register => exact readRegister_verbatim? (except_map_eq_error hread)
            | memory => exact readRegister_verbatim? (except_map_eq_error hread)
            | immediate => exact readImmediate_verbatim? hread
          rw [hnone] at hs
          cases hs
        · cases h

/-- Resolving shows the label that is referred to. -/
theorem oneLine_of_resolveOperand {p : Program} {slot : Slot} {o : Operand} {e : LineError}
    (hwritten : slot.FitsWritten o) (h : p.resolveOperand o = .error e) {s : String}
    (hs : e.verbatim? = some s) : OneLine s := by
  cases o with
  | label name =>
    rw [resolveOperand_label] at h
    split at h
    · cases h
      cases hs
      exact (hwritten.reference _ rfl).not_mem_newline
    · split at h
      · cases h
      · cases h
        cases hs
  | reg | mem | imm => cases h

namespace Program

variable {p : Program} {line : Line}

theorem oneLine_of_assembleLine {e : LineError} (h : p.assembleLine line = .error e) :
    OneLine e.message := by
  apply LineError.oneLine_message
  intro s hs
  rcases assembleLine_eq_error_iff.1 h with h | ⟨i, hread, h⟩
  · exact oneLine_of_read h hs
  · obtain ⟨o, ho, h⟩ := resolve_eq_error h
    obtain ⟨slot, -, hwritten⟩ := exists_of_mem_right (fitsWritten_of_read hread) ho
    exact oneLine_of_resolveOperand hwritten h hs

theorem oneLine_of_decodeLine {trap : Trap} (h : p.decodeLine line = .error trap) :
    OneLine trap.message := by
  obtain ⟨e, rfl, he⟩ := decodeLine_eq_error_iff.1 h
  have hnumber := OneLine.append (s := "line ") (by decide) (Text.oneLine_nat line.number)
  exact (hnumber.append (t := ": ") (by decide)).append (oneLine_of_assembleLine he)

/-- The message of a program that is not assembled stands on one line. -/
theorem oneLine_of_assemble {trap : Trap} (h : p.assemble = .error trap) :
    OneLine trap.message := by
  obtain ⟨line, -, hline⟩ := exists_of_assemble_eq_error h
  exact oneLine_of_decodeLine hline

end Program

/-! ## Runs that trap -/

theorem MemoryFault.oneLine_message (f : MemoryFault) : OneLine f.message := by
  obtain ⟨access, words⟩ := f
  cases access with
  | read =>
    exact (OneLine.append (s := "read outside ") (by decide) (Text.oneLine_nat words)).append
      (t := " words of memory") (by decide)
  | write =>
    exact (OneLine.append (s := "write outside ") (by decide) (Text.oneLine_nat words)).append
      (t := " words of memory") (by decide)

theorem Trap.ArisesAt.oneLine_message {p : Program} {m : Machine} {trap : Trap}
    (h : trap.ArisesAt p m) : OneLine trap.message := by
  cases h with
  | pcOutOfRange =>
    have hpc := OneLine.append (s := "program counter ") (by decide)
      (Text.oneLine_nat m.cpu.pc.toNat)
    have hsize := (hpc.append (t := " runs past the end of the program (") (by decide)).append
      (Text.oneLine_nat p.size)
    exact hsize.append (t := " instructions)") (by decide)
  | decode _ hline =>
    exact Program.oneLine_of_decodeLine (Program.decodeLine_eq_error_iff.2 ⟨_, rfl, hline⟩)
  | @bus line _ access r =>
    have hnumber := OneLine.append (s := "line ") (by decide) (Text.oneLine_nat line.number)
    have hhex : OneLine (String.ofList (m.cpu.get r).hex) := by
      rw [OneLine, String.toList_ofList]
      exact Text.newline_not_mem_padded (by decide) (by decide) 4 _
    have haddress := (hnumber.append (t := ": bus error at 0x") (by decide)).append hhex
    exact (haddress.append (t := ": ") (by decide)).append
      (MemoryFault.oneLine_message ⟨access, m.memory.size⟩)

/-- The message of a run that fails stands on one line. -/
theorem Machine.oneLine_of_run {p : Program} {m m' : Machine} {settings : Settings} {trap : Trap}
    (h : m.run p settings = (.error trap, m')) : OneLine trap.message := by
  cases run_eq_iff.1 h with
  | trapped _ _ harises => exact harises.oneLine_message
  | limited =>
    exact (OneLine.append (s := "step limit of ") (by decide)
      (Text.oneLine_nat settings.budget)).append (t := " reached without halting") (by decide)

/-! ## Tools that fail -/

/-- The message of a tool that fails stands on the first line of its standard error output. -/
theorem Outcome.head?_lines_failure {message : String} (h : OneLine message) :
    (Text.lines (failure message).stderr.toList).head? = some ("Error: " ++ message).toList := by
  have hline := OneLine.append (s := "Error: ") (by decide) h
  have hstderr : (failure message).stderr.toList = ("Error: " ++ message).toList ++ ['\n'] := by
    simp [failure, String.toList_append, toString]
  rw [hstderr, Text.lines_append_newline hline]
  rfl

end WordMachine
