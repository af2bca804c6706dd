import WordMachine.Image
import WordMachine.Proofs.Instruction.Reading

/-!
# The words of an image

Assembly as a relation between lines and words (`Assembled`): the words are those of the lines in
order, up to and including the first `halt`. The word at an address is the word of the executable
line at that address, whatever labels and comments stand between the lines, and zero is the last
word or none.
-/

namespace WordMachine

/-- The words that lines of a program assemble to. -/
inductive Assembled (p : Program) : List Line → List Word → Prop
  | nil : Assembled p [] []
  | halt {line : Line} {lines : List Line} {i : Instruction} {w : Word}
      (hline : p.decodeLine line = .ok (i, w)) (hop : i.op = .halt) :
      Assembled p (line :: lines) [w]
  | cons {line : Line} {lines : List Line} {i : Instruction} {w : Word} {words : List Word}
      (hline : p.decodeLine line = .ok (i, w)) (hop : i.op ≠ .halt)
      (hlines : Assembled p lines words) : Assembled p (line :: lines) (w :: words)

namespace Program

variable {p : Program}

theorem assembleFrom_eq_ok_iff {image image' : Image} {lines : List Line} :
    p.assembleFrom image lines = .ok image' ↔
      ∃ words, image' = image ++ words.toArray ∧ Assembled p lines words := by
  induction lines generalizing image with
  | nil =>
    constructor
    · intro h
      exact ⟨[], by simpa using (Except.ok.inj h).symm, .nil⟩
    · rintro ⟨_, rfl, ⟨⟩⟩
      simp [assembleFrom]
  | cons line lines ih =>
    rw [assembleFrom]
    split
    · next trap htrap =>
      refine ⟨nofun, ?_⟩
      rintro ⟨_, -, h⟩
      cases h with
      | halt hline => exact nomatch htrap.symm.trans hline
      | cons hline => exact nomatch htrap.symm.trans hline
    · next i w hline =>
      split
      · next hop =>
        constructor
        · intro h
          exact ⟨[w], by simpa using (Except.ok.inj h).symm, .halt hline hop⟩
        · rintro ⟨_, rfl, h⟩
          cases h with
          | halt hline' =>
            cases hline.symm.trans hline'
            simp
          | cons hline' hop' =>
            cases hline.symm.trans hline'
            exact absurd hop hop'
      · next hop =>
        rw [ih]
        constructor
        · rintro ⟨words, rfl, h⟩
          exact ⟨w :: words, by simp, .cons hline hop h⟩
        · rintro ⟨_, rfl, h⟩
          cases h with
          | halt hline' hop' =>
            cases hline.symm.trans hline'
            exact absurd hop' hop
          | cons hline' _ hlines =>
            cases hline.symm.trans hline'
            exact ⟨_, by simp, hlines⟩

theorem assemble_eq_ok_iff {image : Image} :
    p.assemble = .ok image ↔ Assembled p p.executable.toList image.toList := by
  unfold assemble
  rw [assembleFrom_eq_ok_iff]
  constructor
  · rintro ⟨words, rfl, h⟩
    simpa using h
  · intro h
    exact ⟨image.toList, by simp, h⟩

/-- Assembly fails as one of the executable lines does. -/
theorem exists_of_assemble_eq_error {trap : Trap} (h : p.assemble = .error trap) :
    ∃ line ∈ p.executable.toList, p.decodeLine line = .error trap := by
  have hfrom (lines : List Line) {image : Image} (h : p.assembleFrom image lines = .error trap) :
      ∃ line ∈ lines, p.decodeLine line = .error trap := by
    induction lines generalizing image with
    | nil => exact nomatch h
    | cons line lines ih =>
      rw [assembleFrom] at h
      split at h
      · next trap' hline =>
        cases h
        exact ⟨line, List.mem_cons_self, hline⟩
      · split at h
        · exact nomatch h
        · obtain ⟨line', hmem, hline⟩ := ih h
          exact ⟨line', List.mem_cons_of_mem _ hmem, hline⟩
  exact hfrom _ h

end Program

namespace Assembled

variable {p : Program} {lines : List Line} {words : List Word}

/-- Positions among the words are positions among the lines. -/
theorem exists_line (h : Assembled p lines words) {k : Nat} {w : Word} (hk : words[k]? = some w) :
    ∃ line i, lines[k]? = some line ∧ p.decodeLine line = .ok (i, w) := by
  induction h generalizing k with
  | nil => exact nomatch hk
  | halt hline =>
    cases k with
    | zero =>
      obtain rfl := Option.some.inj hk
      exact ⟨_, _, rfl, hline⟩
    | succ k => exact nomatch hk
  | cons hline _ _ ih =>
    cases k with
    | zero =>
      obtain rfl := Option.some.inj hk
      exact ⟨_, _, rfl, hline⟩
    | succ k => exact ih hk

/-- Lines that are accepted assemble to some words. -/
theorem exists_words (h : ∀ line ∈ lines, ∃ x, p.decodeLine line = .ok x) :
    ∃ words, Assembled p lines words := by
  induction lines with
  | nil => exact ⟨[], .nil⟩
  | cons line lines ih =>
    obtain ⟨⟨i, w⟩, hline⟩ := h line List.mem_cons_self
    obtain ⟨words, hwords⟩ := ih fun l hl => h l (List.mem_cons_of_mem _ hl)
    by_cases hop : i.op = .halt
    · exact ⟨[w], .halt hline hop⟩
    · exact ⟨w :: words, .cons hline hop hwords⟩

end Assembled

/-- The word at an address is the word of an action, which the line at that address holds. -/
theorem Program.exists_of_assemble {p : Program} {image : Image} (h : p.assemble = .ok image)
    {pc w : Word} (hpc : image[pc.toNat]? = some w) :
    ∃ (a : Action) (line : Nat), p.decodeAt pc = .ok (a.instruction line, w) ∧ w = a.word := by
  have hw : image.toList[pc.toNat]? = some w := by rw [Array.getElem?_toList, hpc]
  obtain ⟨line, i, hline, hdecode⟩ := (assemble_eq_ok_iff.1 h).exists_line hw
  obtain ⟨a, rfl, rfl⟩ := exists_of_decodeLine hdecode
  refine ⟨a, line.number, ?_, rfl⟩
  rw [Array.getElem?_toList] at hline
  simp only [decodeAt, fetch?, hline, hdecode]

end WordMachine
