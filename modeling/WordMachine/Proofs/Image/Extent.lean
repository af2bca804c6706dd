import WordMachine.Proofs.Image.Assembly
import WordMachine.Proofs.Source.LabelAddress

/-!
# How far assembly goes

Assembly takes the executable lines in order and stops at the first `halt`. It fails at the first
line that is refused if no `halt` stands before it (`assembleFrom_eq_error`), and otherwise gives an
image of all lines up to there (`exists_assembled`). Lines behind a `halt` are not looked at, and
the labels that they declare do not replace others, so that a program which goes on behind its
`halt` has the same image (`assemble_append`).
-/

namespace WordMachine

/-! ## The first line with a property -/

/-- Whether a line with a property stands at an index, and none before it. -/
structure FirstAt (P : Line → Prop) (lines : List Line) (k : Nat) : Prop where
  holds : ∃ line, lines[k]? = some line ∧ P line
  before : ∀ j < k, ∀ line, lines[j]? = some line → ¬P line

section FirstAt

variable {P : Line → Prop} {line : Line} {lines : List Line} {k : Nat}

theorem not_firstAt_nil : ¬FirstAt P [] k := by
  intro h
  obtain ⟨line, hline, -⟩ := h.holds
  cases hline

theorem firstAt_cons_zero : FirstAt P (line :: lines) 0 ↔ P line := by
  constructor
  · intro h
    obtain ⟨first, hfirst, hP⟩ := h.holds
    obtain rfl := Option.some.inj hfirst
    exact hP
  · intro hP
    exact ⟨⟨line, rfl, hP⟩, fun j hj => absurd hj (Nat.not_lt_zero j)⟩

theorem firstAt_cons_succ : FirstAt P (line :: lines) (k + 1) ↔ ¬P line ∧ FirstAt P lines k := by
  constructor
  · intro h
    refine ⟨h.before 0 (Nat.succ_pos k) line rfl, h.holds, ?_⟩
    intro j hj
    exact h.before (j + 1) (Nat.succ_lt_succ hj)
  · intro h
    refine ⟨h.2.holds, ?_⟩
    intro j hj l hl
    cases j with
    | zero =>
      obtain rfl := Option.some.inj hl
      exact h.1
    | succ j => exact h.2.before j (Nat.lt_of_succ_lt_succ hj) l hl

end FirstAt

/-! ## Lines that end assembly -/

namespace Program

/-- Whether a line is accepted as a `halt`. -/
def IsHalt (p : Program) (line : Line) : Prop :=
  ∃ i w, p.decodeLine line = .ok (i, w) ∧ i.op = .halt

/-- Whether a line is refused. -/
def Refuses (p : Program) (line : Line) : Prop :=
  ∃ trap, p.decodeLine line = .error trap

/-- Whether assembly comes to a line that is refused. -/
def FailsAt (p : Program) (lines : List Line) (e : Nat) : Prop :=
  FirstAt p.Refuses lines e ∧ ¬∃ h, h < e ∧ FirstAt p.IsHalt lines h

variable {p : Program}

theorem isHalt_iff {line : Line} {i : Instruction} {w : Word} (h : p.decodeLine line = .ok (i, w)) :
    p.IsHalt line ↔ i.op = .halt := by
  constructor
  · intro hhalt
    obtain ⟨j, v, hj, hop⟩ := hhalt
    cases h.symm.trans hj
    exact hop
  · intro hop
    exact ⟨i, w, h, hop⟩

theorem not_refuses {line : Line} {i : Instruction} {w : Word}
    (h : p.decodeLine line = .ok (i, w)) : ¬p.Refuses line := by
  intro hrefused
  obtain ⟨trap, htrap⟩ := hrefused
  cases h.symm.trans htrap

theorem failsAt_zero {line : Line} {lines : List Line} (h : p.Refuses line) :
    p.FailsAt (line :: lines) 0 := by
  refine ⟨firstAt_cons_zero.2 h, ?_⟩
  intro hbefore
  obtain ⟨k, hk, -⟩ := hbefore
  exact absurd hk (Nat.not_lt_zero k)

/-- A line that is accepted and is no `halt` makes no difference to what assembly comes to. -/
theorem FailsAt.cons {line : Line} {lines : List Line} {e : Nat} (h : p.FailsAt lines e)
    (hrefuses : ¬p.Refuses line) (hhalt : ¬p.IsHalt line) : p.FailsAt (line :: lines) (e + 1) := by
  refine ⟨firstAt_cons_succ.2 ⟨hrefuses, h.1⟩, ?_⟩
  intro hbefore
  obtain ⟨k, hk, hfirst⟩ := hbefore
  cases k with
  | zero => exact hhalt (firstAt_cons_zero.1 hfirst)
  | succ k => exact h.2 ⟨k, Nat.lt_of_succ_lt_succ hk, (firstAt_cons_succ.1 hfirst).2⟩

theorem FailsAt.of_cons {line : Line} {lines : List Line} {e : Nat}
    (h : p.FailsAt (line :: lines) (e + 1)) : ¬p.IsHalt line ∧ p.FailsAt lines e := by
  have hhalt : ¬p.IsHalt line := by
    intro hline
    exact h.2 ⟨0, Nat.succ_pos e, firstAt_cons_zero.2 hline⟩
  refine ⟨hhalt, (firstAt_cons_succ.1 h.1).2, ?_⟩
  intro hbefore
  obtain ⟨k, hk, hfirst⟩ := hbefore
  exact h.2 ⟨k + 1, Nat.succ_lt_succ hk, firstAt_cons_succ.2 ⟨hhalt, hfirst⟩⟩

/-- Assembly fails as the line does that it comes to. -/
theorem assembleFrom_eq_error {lines : List Line} {e : Nat} (h : p.FailsAt lines e) :
    ∃ line trap, lines[e]? = some line ∧ p.decodeLine line = .error trap ∧
      ∀ image, p.assembleFrom image lines = .error trap := by
  induction lines generalizing e with
  | nil => exact absurd h.1 not_firstAt_nil
  | cons line lines ih =>
    cases e with
    | zero =>
      obtain ⟨trap, htrap⟩ := firstAt_cons_zero.1 h.1
      refine ⟨line, trap, rfl, htrap, ?_⟩
      intro image
      rw [assembleFrom, htrap]
    | succ e =>
      obtain ⟨hhalt, hrest⟩ := h.of_cons
      obtain ⟨l, trap, hl, htrap, hfails⟩ := ih hrest
      refine ⟨l, trap, hl, htrap, ?_⟩
      intro image
      cases hline : p.decodeLine line with
      | error trap' => exact absurd ⟨trap', hline⟩ (firstAt_cons_succ.1 h.1).1
      | ok x =>
        obtain ⟨i, w⟩ := x
        rw [isHalt_iff hline] at hhalt
        rw [assembleFrom, hline]
        simp only [if_neg hhalt, hfails]

theorem exists_assembled {lines : List Line} (h : ¬∃ e, p.FailsAt lines e) :
    ∃ words, Assembled p lines words := by
  induction lines with
  | nil => exact ⟨[], .nil⟩
  | cons line lines ih =>
    cases hline : p.decodeLine line with
    | error trap => exact absurd ⟨0, failsAt_zero ⟨trap, hline⟩⟩ h
    | ok x =>
      obtain ⟨i, w⟩ := x
      by_cases hop : i.op = .halt
      · exact ⟨[w], .halt hline hop⟩
      · have hhalt := mt (isHalt_iff hline).1 hop
        obtain ⟨words, hwords⟩ := ih (by
          intro hrest
          obtain ⟨e, he⟩ := hrest
          exact h ⟨e + 1, he.cons (not_refuses hline) hhalt⟩)
        exact ⟨w :: words, .cons hline hop hwords⟩

end Program

namespace Assembled

variable {p : Program} {lines : List Line} {words : List Word}

/-- Zero stands where the first `halt` does. -/
theorem getElem?_eq_zero_iff (h : Assembled p lines words) {k : Nat} :
    words[k]? = some 0 ↔ FirstAt p.IsHalt lines k := by
  induction h generalizing k with
  | nil => simp [not_firstAt_nil]
  | halt hline hop =>
    have hhalt := (Program.isHalt_iff hline).2 hop
    obtain ⟨a, rfl, rfl⟩ := Program.exists_of_decodeLine hline
    have hzero : a.word = 0 := Action.word_eq_zero_iff.2 hop
    cases k with
    | zero => simp [firstAt_cons_zero, hhalt, hzero]
    | succ k => simp [firstAt_cons_succ, hhalt]
  | cons hline hop _ ih =>
    have hhalt := mt (Program.isHalt_iff hline).1 hop
    obtain ⟨a, rfl, rfl⟩ := Program.exists_of_decodeLine hline
    have hzero : a.word ≠ 0 := fun hzero => hop (Action.word_eq_zero_iff.1 hzero)
    cases k with
    | zero => simp [firstAt_cons_zero, hhalt, hzero]
    | succ k => simp [firstAt_cons_succ, hhalt, ih]

theorem length_eq_of_firstAt (h : Assembled p lines words) {k : Nat}
    (hk : FirstAt p.IsHalt lines k) : words.length = k + 1 := by
  induction h generalizing k with
  | nil => exact absurd hk not_firstAt_nil
  | halt hline hop =>
    have hhalt := (Program.isHalt_iff hline).2 hop
    cases k with
    | zero => rfl
    | succ k => exact absurd hhalt (firstAt_cons_succ.1 hk).1
  | cons hline hop _ ih =>
    have hhalt := mt (Program.isHalt_iff hline).1 hop
    cases k with
    | zero => exact absurd (firstAt_cons_zero.1 hk) hhalt
    | succ k => rw [List.length_cons, ih (firstAt_cons_succ.1 hk).2]

theorem length_eq_of_not (h : Assembled p lines words) (hnone : ¬∃ k, FirstAt p.IsHalt lines k) :
    words.length = lines.length := by
  induction h with
  | nil => rfl
  | halt hline hop =>
    have hhalt := (Program.isHalt_iff hline).2 hop
    exact absurd ⟨0, firstAt_cons_zero.2 hhalt⟩ hnone
  | cons hline hop _ ih =>
    have hhalt := mt (Program.isHalt_iff hline).1 hop
    rw [List.length_cons, List.length_cons, ih]
    intro hrest
    obtain ⟨k, hk⟩ := hrest
    exact hnone ⟨k + 1, firstAt_cons_succ.2 ⟨hhalt, hk⟩⟩

/-- Lines that go as far as a `halt` assemble to the same words in front of others. -/
theorem append (h : Assembled p lines words) (hhalt : ∃ k, FirstAt p.IsHalt lines k) {q : Program}
    (hq : ∀ line x, p.decodeLine line = .ok x → q.decodeLine line = .ok x) (later : List Line) :
    Assembled q (lines ++ later) words := by
  induction h with
  | nil =>
    obtain ⟨k, hk⟩ := hhalt
    exact absurd hk not_firstAt_nil
  | halt hline hop => exact .halt (hq _ _ hline) hop
  | cons hline hop _ ih =>
    obtain ⟨k, hk⟩ := hhalt
    cases k with
    | zero => exact absurd ((Program.isHalt_iff hline).1 (firstAt_cons_zero.1 hk)) hop
    | succ k => exact .cons (hq _ _ hline) hop (ih ⟨k, (firstAt_cons_succ.1 hk).2⟩)

end Assembled

/-! ## Programs that go on -/

namespace Program

variable {p q : Program}

/-- What a program accepts is accepted where its labels stand for the same. -/
theorem decodeLine_of_labels
    (hlabels : ∀ name d, p.labels.find? name = some d → q.labels.find? name = some d) {line : Line}
    {x : Instruction × Word} (h : p.decodeLine line = .ok x) : q.decodeLine line = .ok x := by
  obtain ⟨i, w⟩ := x
  rw [decodeLine_eq_ok_iff, assembleLine_eq_ok_iff] at h ⊢
  obtain ⟨parsed, hread, hresolve, haction⟩ := h
  refine ⟨parsed, hread, ?_, haction⟩
  obtain ⟨hop, hline, hoperands⟩ := resolve_eq_ok_iff.1 hresolve
  refine resolve_eq_ok_iff.2 ⟨hop, hline, hoperands.imp ?_⟩
  intro o o' ho
  cases o with
  | label name =>
    rw [resolveOperand_label] at ho ⊢
    cases hfind : p.labels.find? name with
    | none =>
      rw [hfind] at ho
      cases ho
    | some d => rwa [hlabels name d hfind, ← hfind]
  | reg n => exact ho
  | mem n => exact ho
  | imm v => exact ho

/-- Further lines do not change what the labels before them stand for. -/
theorem find?_labels_append {lines later : List Line} {name : String} {d : Declaration}
    (h : (ofLines lines).labels.find? name = some d) :
    (ofLines (lines ++ later)).labels.find? name = some d := by
  obtain ⟨before, line, hfirst, rfl⟩ := find?_ofLines_eq_some_iff.1 h
  exact find?_ofLines_eq_some_iff.2 ⟨before, line, hfirst.append later, rfl⟩

/-- A program that goes on behind a `halt` has the same image. -/
theorem assemble_append {lines later : List Line} {image : Image}
    (h : (ofLines lines).assemble = .ok image)
    (hhalt : ∃ k, FirstAt (ofLines lines).IsHalt (ofLines lines).executable.toList k) :
    (ofLines (lines ++ later)).assemble = .ok image := by
  have hdecode : ∀ line x, (ofLines lines).decodeLine line = .ok x →
      (ofLines (lines ++ later)).decodeLine line = .ok x := by
    intro line x
    exact decodeLine_of_labels fun _ _ => find?_labels_append
  have hassembled := (assemble_eq_ok_iff.1 h).append hhalt hdecode (later.filter Line.isExecutable)
  rw [assemble_eq_ok_iff]
  rwa [toList_executable, ← List.filter_append] at hassembled

/-- Whether an image is that of the executable lines up to the first `halt`, or of all of them if
there is none. Each word is the encoding of the line at its address, and a `halt` is the only one
that is zero. -/
structure IsImage (p : Program) (image : Image) : Prop where
  size_of_halt : ∀ h, FirstAt p.IsHalt p.executable.toList h → image.size = h + 1
  size_of_no_halt : (¬∃ h, FirstAt p.IsHalt p.executable.toList h) → image.size = p.size
  word : ∀ (k : Nat) (w : Word), image[k]? = some w → ∃ line i,
    p.executable[k]? = some line ∧ p.decodeLine line = .ok (i, w) ∧ i.encode = .ok w
  zero : ∀ k : Nat, image[k]? = some 0 ↔ FirstAt p.IsHalt p.executable.toList k

theorem isImage_of_assemble {image : Image} (h : p.assemble = .ok image) : p.IsImage image := by
  have hassembled := assemble_eq_ok_iff.1 h
  refine ⟨?_, ?_, ?_, ?_⟩
  · intro k hk
    exact hassembled.length_eq_of_firstAt hk
  · intro hnone
    exact hassembled.length_eq_of_not hnone
  · intro k w hw
    rw [← Array.getElem?_toList] at hw
    obtain ⟨line, i, hline, hdecode⟩ := hassembled.exists_line hw
    obtain ⟨a, rfl, rfl⟩ := exists_of_decodeLine hdecode
    rw [Array.getElem?_toList] at hline
    exact ⟨line, _, hline, hdecode, a.encode_instruction line.number⟩
  · intro k
    rw [← Array.getElem?_toList]
    exact hassembled.getElem?_eq_zero_iff

end Program

/-- **What assembly gives.** If a line is refused and no `halt` stands before the first such line,
assembly fails as that line does, with its number. Otherwise it gives the image of the lines up to
the first `halt`, or of all lines. An image that ends with a `halt` stays the same when the source
goes on, with whatever lines. -/
theorem assemble_extent :
    (∀ p : Program,
      (∀ e, p.FailsAt p.executable.toList e → ∃ line source, p.executable[e]? = some line ∧
        p.decodeLine line = .error (.decode line.number source) ∧
        p.assemble = .error (.decode line.number source)) ∧
      ((¬∃ e, p.FailsAt p.executable.toList e) → ∃ image, p.assemble = .ok image ∧
        p.IsImage image)) ∧
    ∀ (source longer : String) (later : List Line) (image : Image),
      (Program.ofSource longer).lines = (Program.ofSource source).lines ++ later →
      (Program.ofSource source).assemble = .ok image →
      (∃ h, FirstAt (Program.ofSource source).IsHalt
        (Program.ofSource source).executable.toList h) →
      (Program.ofSource longer).assemble = .ok image := by
  refine ⟨?_, ?_⟩
  · intro p
    refine ⟨?_, ?_⟩
    · intro e he
      obtain ⟨line, trap, hline, htrap, hfails⟩ := Program.assembleFrom_eq_error he
      obtain ⟨source, rfl, -⟩ := Program.decodeLine_eq_error_iff.1 htrap
      rw [Array.getElem?_toList] at hline
      exact ⟨line, source, hline, htrap, hfails #[]⟩
    · intro hnone
      obtain ⟨words, hwords⟩ := Program.exists_assembled hnone
      have himage : p.assemble = .ok words.toArray := Program.assemble_eq_ok_iff.2 hwords
      exact ⟨words.toArray, himage, Program.isImage_of_assemble himage⟩
  · intro source longer later image hlines himage hhalt
    have hlonger : Program.ofSource longer =
        .ofLines ((Program.ofSource source).lines ++ later) := by
      rw [← hlines]
      rfl
    rw [hlonger]
    exact Program.assemble_append himage hhalt

/-- A source with a bad line before its `halt`, and one that goes on behind it with a label that it
declares already and with a bad line. -/
theorem assemble_extent_behind_halt :
    (Program.ofSource "li r1, 7\njp (r16\nhalt").FailsAt
        (Program.ofSource "li r1, 7\njp (r16\nhalt").executable.toList 1 ∧
      (∃ source, (Program.ofSource "li r1, 7\njp (r16\nhalt").assemble =
        .error (.decode 2 source)) ∧
      (Program.ofSource "li r1, :end\nhalt\n:end").assemble = .ok #[0x1021, 0] ∧
      (∃ h, FirstAt (Program.ofSource "li r1, :end\nhalt\n:end").IsHalt
        (Program.ofSource "li r1, :end\nhalt\n:end").executable.toList h) ∧
      (Program.ofSource "li r1, :end\nhalt\n:end\nnop\n:end").assemble = .ok #[0x1021, 0] := by
  obtain ⟨p, hp⟩ : ∃ p, p = Program.ofSource "li r1, 7\njp (r16\nhalt" := ⟨_, rfl⟩
  have hlines : p.executable.toList =
      [⟨1, "li r1, 7".toList⟩, ⟨2, "jp (r16".toList⟩, ⟨3, "halt".toList⟩] := by
    rw [hp]
    decide +kernel
  have hfails : p.FailsAt p.executable.toList 1 := by
    have hfirst : p.decodeLine ⟨1, "li r1, 7".toList⟩ =
        .ok (⟨.li, [.reg 1, .imm 7], 1⟩, 0x1071) := by
      rw [hp]
      decide +kernel
    have hsecond : p.decodeLine ⟨2, "jp (r16".toList⟩ =
        .error (.decode 2 (.malformed .register "(r16")) := by
      rw [hp]
      decide +kernel
    rw [hlines]
    exact (Program.failsAt_zero ⟨_, hsecond⟩).cons (Program.not_refuses hfirst)
      (mt (Program.isHalt_iff hfirst).1 (by decide))
  obtain ⟨q, hq⟩ : ∃ q, q = Program.ofSource "li r1, :end\nhalt\n:end" := ⟨_, rfl⟩
  have himage : q.assemble = .ok #[0x1021, 0] := by
    have hlines : q.executable.toList =
        [⟨1, "li r1, :end".toList⟩, ⟨2, "halt".toList⟩] := by
      rw [hq]
      decide +kernel
    have hend : q.labels.find? ":end" = some ⟨2, 3⟩ := by
      have hname : ":end".toList = ':' :: "end".toList := rfl
      rw [hq]
      exact (find?_ofLines hname _).trans (by decide +kernel)
    have hread : Instruction.read "li r1, :end".toList 1 =
        .ok { op := .li, operands := [.reg 1, .label ":end"], line := 1 } := by decide +kernel
    have hfirst : q.decodeLine ⟨1, "li r1, :end".toList⟩ = _ := decodeLine_reference hread
    have hsecond : q.decodeLine ⟨2, "halt".toList⟩ = .ok (⟨.halt, [], 2⟩, 0) := by
      rw [hq]
      decide +kernel
    rw [hend] at hfirst
    rw [Program.assemble_eq_ok_iff, hlines]
    exact .cons hfirst (by decide) (.halt hsecond rfl)
  have hhalt : ∃ h, FirstAt q.IsHalt q.executable.toList h :=
    ⟨1, ((Program.isImage_of_assemble himage).zero 1).1 rfl⟩
  have hlonger : (Program.ofSource "li r1, :end\nhalt\n:end\nnop\n:end").lines =
      q.lines ++ [⟨4, "nop".toList⟩, ⟨5, ":end".toList⟩] := by
    rw [hq]
    decide +kernel
  obtain ⟨line, source, hline, -, herror⟩ := (assemble_extent.1 p).1 1 hfails
  rw [← Array.getElem?_toList, hlines] at hline
  obtain rfl := Option.some.inj hline
  subst hp hq
  exact ⟨hfails, ⟨source, herror⟩, himage, hhalt,
    assemble_extent.2 _ _ _ _ hlonger himage hhalt⟩

end WordMachine
