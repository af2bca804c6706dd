import WordMachine.CommandLine.Simulator
import WordMachine.Proofs.Instruction.Message
import WordMachine.Proofs.Machine.Arithmetic
import WordMachine.Proofs.Machine.Memory
import WordMachine.Proofs.Text.Lines

/-!
# What a report tells

The report of a machine has a line for each register, one for the flags and one for each word of
memory that is not zero. No line holds a newline, so the lines are known from the text; a line is
known from the number or the address that it begins with and the signed number that it ends in. So
the report tells the registers and the flags, and of the memory all that its size does not
(`reportLines_inj`, `joinLines_reportLines_inj`).
-/

namespace WordMachine

/-! ## Numbers -/

namespace Text

theorem decimal_injective : Function.Injective decimal := by
  intro n k h
  have hread (n : Nat) : natural? 10 (decimal n) = some n :=
    natural?_toDigits (by decide) (by decide) n
  exact Option.some.inj ((hread n).symm.trans (h ▸ hread k))

theorem minus_not_mem_decimal (n : Nat) : '-' ∉ decimal n := by
  intro h
  exact absurd (isDigit_of_mem_decimal h) (by decide)

theorem integer_injective : Function.Injective integer := by
  intro z k h
  unfold integer at h
  split at h
  · split at h
    · have := decimal_injective (List.cons.inj h).2
      omega
    · exact absurd (h ▸ List.mem_cons_self) (minus_not_mem_decimal k.natAbs)
  · split at h
    · exact absurd (h ▸ List.mem_cons_self) (minus_not_mem_decimal z.natAbs)
    · have := decimal_injective h
      omega

theorem newline_not_mem_integer (z : Int) : '\n' ∉ integer z := by
  have hdigits : '\n' ∉ decimal z.natAbs :=
    newline_not_mem_toDigits (by decide) (by decide : 10 ≤ 16) z.natAbs
  unfold integer
  split
  · simp [hdigits]
  · exact hdigits

/-- A number in front of a character that is no digit ends before it. -/
theorem decimal_append_inj {n k : Nat} {c : Char} {cs ds : List Char} (hc : c.isDigit = false)
    (h : decimal n ++ c :: cs = decimal k ++ c :: ds) : n = k ∧ cs = ds := by
  have htake (n : Nat) (cs : List Char) :
      (decimal n ++ c :: cs).takeWhile Char.isDigit = decimal n := by
    rw [List.takeWhile_append_of_pos fun d hd => isDigit_of_mem_decimal hd,
      List.takeWhile_cons_of_neg (by simp [hc]), List.append_nil]
  have hn : n = k := by
    apply decimal_injective
    rw [← htake n cs, h, htake]
  subst hn
  exact ⟨rfl, (List.cons.inj (List.append_cancel_left h)).2⟩

end Text

/-! ## Lines -/

theorem registerLine_inj {v w : Word} {n : Nat} (h : registerLine v n = registerLine w n) :
    v = w :=
  Word.signed_injective (Text.integer_injective (List.append_cancel_left h))

theorem memoryLine_inj {a b v w : Word} (h : memoryLine a v = memoryLine b w) : a = b ∧ v = w := by
  have hcolon : ": ".toList = [':', ' '] := by simp
  unfold memoryLine at h
  simp only [hcolon, List.append_assoc, List.append_cancel_left_eq, List.cons_append] at h
  obtain ⟨haddress, h⟩ := Text.decimal_append_inj (by decide) h
  exact ⟨UInt16.toNat_inj.1 haddress,
    Word.signed_injective (Text.integer_injective (List.cons.inj h).2)⟩

theorem Flags.describe_injective : Function.Injective Flags.describe := by
  have hall : ∀ c z s v c' z' s' v' : Bool,
      describe ⟨c, z, s, v⟩ = describe ⟨c', z', s', v'⟩ → c = c' ∧ z = z' ∧ s = s' ∧ v = v' := by
    decide +kernel
  rintro ⟨c, z, s, v⟩ ⟨c', z', s', v'⟩ h
  obtain ⟨rfl, rfl, rfl, rfl⟩ := hall _ _ _ _ _ _ _ _ h
  rfl

theorem Flags.oneLine_describe (f : Flags) : Text.OneLine f.describe := by
  have hall : ∀ c z s v : Bool, Text.OneLine (describe ⟨c, z, s, v⟩) := by decide +kernel
  exact hall f.carry f.zero f.sign f.overflow

/-! ## Reports -/

namespace Machine

variable {m m' : Machine}

theorem newline_not_mem_of_mem_reportLines {line : List Char} (h : line ∈ m.reportLines) :
    '\n' ∉ line := by
  have hdecimal (n : Nat) : '\n' ∉ Text.decimal n :=
    Text.newline_not_mem_toDigits (by decide) (by decide : 10 ≤ 16) n
  rw [reportLines, List.mem_append, List.mem_cons] at h
  rcases h with h | rfl | h
  · obtain ⟨⟨w, n⟩, -, rfl⟩ := List.mem_map.1 h
    unfold registerLine
    simp [hdecimal, Text.newline_not_mem_integer]
  · exact Text.OneLine.append (s := "flags: ") (by decide) m.cpu.flags.oneLine_describe
  · obtain ⟨⟨a, w⟩, -, rfl⟩ := List.mem_map.1 h
    unfold memoryLine
    simp [hdecimal, Text.newline_not_mem_integer]

/-- Machines with memories of one size have the same report if they agree on what is in their
registers, flags and memories. -/
theorem reportLines_inj (hsize : m.memory.size = m'.memory.size) :
    m.reportLines = m'.reportLines ↔
      m.cpu.regs = m'.cpu.regs ∧ m.cpu.flags = m'.cpu.flags ∧ m.memory = m'.memory := by
  constructor
  · intro h
    obtain ⟨hregs, h⟩ := List.append_inj h (by simp)
    obtain ⟨hflags, hmemory⟩ := List.cons.inj h
    refine ⟨?_, ?_, ?_⟩
    · apply Vector.ext
      intro i hi
      have hline := congrArg (·[i]?) hregs
      simpa [hi] using registerLine_inj (by simpa [hi] using hline)
    · apply Flags.describe_injective
      rw [String.toList_append, String.toList_append] at hflags
      exact String.toList_inj.1 (List.append_cancel_left hflags)
    · have hinj : Function.Injective fun x : Word × Word => memoryLine x.1 x.2 := by
        rintro ⟨a, v⟩ ⟨b, w⟩ h
        obtain ⟨rfl, rfl⟩ := memoryLine_inj h
        rfl
      have hnonzero : m.memory.nonzero = m'.memory.nonzero := List.map_injective_iff.2 hinj hmemory
      rw [← m.memory.ofEntries_nonzero, ← m'.memory.ofEntries_nonzero, hsize, hnonzero]
  · rintro ⟨hregs, hflags, hmemory⟩
    simp only [reportLines, hregs, hflags, hmemory]

/-- The text of a report tells what its lines tell. -/
theorem joinLines_reportLines_inj (hsize : m.memory.size = m'.memory.size) :
    joinLines m.reportLines = joinLines m'.reportLines ↔
      m.cpu.regs = m'.cpu.regs ∧ m.cpu.flags = m'.cpu.flags ∧ m.memory = m'.memory := by
  rw [← reportLines_inj hsize]
  have hlines (m : Machine) : Text.lines (joinLines m.reportLines).toList = m.reportLines := by
    rw [joinLines, String.toList_ofList]
    exact Text.lines_flatMap_newline fun line => newline_not_mem_of_mem_reportLines
  constructor
  · intro h
    rw [← hlines m, ← hlines m', h]
  · exact congrArg joinLines

end Machine

end WordMachine
