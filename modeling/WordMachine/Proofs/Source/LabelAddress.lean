import Mathlib.Data.List.TakeWhile
import WordMachine.Proofs.Instruction.Reading
import WordMachine.Proofs.Source.LabelTable

/-!
# What a reference to a label comes to

A label is meant to stand for the number of instructions before its first declaration, which is the
address of the first instruction behind it, and a number that does not fit into eight bits is meant
to be refused (`Program.Reaches`). The scan that collects the labels counts in a word, so what a
label stands for is that number modulo 65536 (`find?_ofLines`). A reference does what it is meant
to as long as there are less than 65536 instructions before the declaration. Behind more of them a
label comes round to a small address, and the reference to it is accepted (`reaches_iff`).
-/

namespace WordMachine

/-! ## Declarations and instructions among lines -/

/-- Whether the trimmed text of a line is a name. -/
def Line.isNamed (name : String) (line : Line) : Bool :=
  String.ofList (Text.trim line.text) == name

/-- The lines before the first one with a name. -/
def Line.before (name : String) (lines : List Line) : List Line :=
  lines.takeWhile fun line => !line.isNamed name

/-- The first line with a name and the lines behind it. -/
def Line.fromName (name : String) (lines : List Line) : List Line :=
  lines.dropWhile fun line => !line.isNamed name

namespace Program

/-- Whether a line has a name. -/
def Declares (p : Program) (name : String) : Prop :=
  ∃ line ∈ p.lines, line.isNamed name = true

/-- The number of instructions before the first line with a name. -/
def distance (p : Program) (name : String) : Nat :=
  (Line.before name p.lines).countP Line.isExecutable

/-- The first instruction behind the first line with a name. -/
def target? (p : Program) (name : String) : Option Line :=
  (Line.fromName name p.lines).tail.find? Line.isExecutable

/-- What a line that refers to a label is meant to do. Where it is accepted, the label is declared
and has become the number of instructions before its declaration, at which the first instruction
behind the declaration stands. Where that number does not fit into eight bits, the line is refused
for it. -/
def Reaches (p : Program) (line : Line) (name : String) : Prop :=
  (∀ i w, p.decodeLine line = .ok (i, w) →
    ∃ k : UInt8, i.operands[1]? = some (.imm k) ∧ p.Declares name ∧ p.distance name = k.toNat ∧
      p.fetch? k.toUInt16 = p.target? name) ∧
    (p.Declares name → 255 < p.distance name →
      ∃ v, p.decodeLine line = .error (.decode line.number (.outOfRange .labelAddress v 255)))

end Program

/-- A name that begins with a colon is the text of a label only. -/
theorem Line.kind_of_isNamed {name : String} {cs : List Char} (hname : name.toList = ':' :: cs)
    {line : Line} (h : line.isNamed name = true) : line.kind = .label := by
  have htrim : Text.trim line.text = ':' :: cs := by
    rw [← hname, ← eq_of_beq h, String.toList_ofList]
  simp only [kind, Kind.ofText, htrim]

/-! ## The address of a label and what stands there -/

section Addresses

variable {name : String} {cs : List Char} (hname : name.toList = ':' :: cs)

include hname

/-- A label stands for the number of instructions before its first declaration, as a word. -/
theorem find?_ofLines (lines : List Line) :
    (Labels.ofLines lines).find? name =
      (lines.find? (Line.isNamed name)).map fun line =>
        ⟨UInt16.ofNat ((Line.before name lines).countP Line.isExecutable), line.number⟩ := by
  have hnamed : Line.declares name = Line.isNamed name := by
    funext line
    by_cases h : line.isNamed name = true
    · have hlabel : line.isLabel = true := beq_iff_eq.2 (Line.kind_of_isNamed hname h)
      rw [Line.declares, hlabel, Bool.true_and]
      rfl
    · have hother : ¬(line.name == name) = true := h
      simp [Line.declares, h, hother]
  obtain ⟨s, hlabels, hs⟩ := exists_describes lines
  rw [← hlabels, hs.find?]
  simp only [hnamed, Line.before]

namespace Program

variable {lines : List Line}

theorem declares_of_find? {d : Declaration}
    (h : (ofLines lines).labels.find? name = some d) :
    (ofLines lines).Declares name ∧ d.address.toNat = (ofLines lines).distance name % 65536 := by
  have hlabels : (ofLines lines).labels = Labels.ofLines lines := rfl
  rw [hlabels, find?_ofLines hname] at h
  obtain ⟨line, hline, rfl⟩ := Option.map_eq_some_iff.1 h
  exact ⟨⟨line, List.mem_of_find?_eq_some hline, List.find?_some hline⟩, UInt16.toNat_ofNat'⟩

theorem exists_find? (h : (ofLines lines).Declares name) :
    ∃ d, (ofLines lines).labels.find? name = some d ∧
      d.address.toNat = (ofLines lines).distance name % 65536 := by
  have hlabels : (ofLines lines).labels = Labels.ofLines lines := rfl
  obtain ⟨line, hline⟩ := Option.isSome_iff_exists.1 (List.find?_isSome.2 h)
  have hline : lines.find? (Line.isNamed name) = some line := hline
  rw [hlabels, find?_ofLines hname, hline]
  exact ⟨_, rfl, UInt16.toNat_ofNat'⟩

/-- The number of instructions before a declaration is the address of the first one behind it. -/
theorem getElem?_distance (h : (ofLines lines).Declares name) :
    (ofLines lines).executable[(ofLines lines).distance name]? = (ofLines lines).target? name := by
  have hlines : (ofLines lines).lines = lines := rfl
  have hsplit : Line.before name lines ++ Line.fromName name lines = lines :=
    List.takeWhile_append_dropWhile
  have hhead : (Line.fromName name lines).head? = lines.find? (Line.isNamed name) :=
    (List.find?_eq_head?_dropWhile_not ..).symm
  obtain ⟨d, hd⟩ := Option.isSome_iff_exists.1 (List.find?_isSome.2 h)
  have hd : lines.find? (Line.isNamed name) = some d := hd
  rw [hd] at hhead
  obtain ⟨after, hfrom⟩ := List.head?_eq_some_iff.1 hhead
  have hexecutable : (ofLines lines).executable.toList =
      (Line.before name lines).filter Line.isExecutable ++ after.filter Line.isExecutable := by
    have hlabel : ¬d.isExecutable = true := by
      simp [Line.isExecutable, Line.kind_of_isNamed hname (List.find?_some hd)]
    rw [← List.filter_cons_of_neg (l := after) hlabel, ← hfrom, ← List.filter_append, hsplit,
      toList_executable]
  rw [← Array.getElem?_toList, hexecutable, distance, target?, hlines, hfrom,
    List.countP_eq_length_filter, List.getElem?_append_right (Nat.le_refl _), Nat.sub_self,
    List.tail_cons, ← List.head?_eq_getElem?, List.head?_filter]

end Program

end Addresses

/-! ## Lines that refer to a label -/

section References

variable {p : Program} {line : Line} {r : UInt8} {name : String}
  (hread : Instruction.read line.text line.number =
    .ok { op := .li, operands := [.reg r, .label name], line := line.number })

include hread

theorem toList_of_reference : ∃ cs, name.toList = ':' :: cs := by
  obtain ⟨_, args, -, -, -, hoperands, -⟩ := read_eq_ok_iff.1 hread
  rw [readOperands_eq_mapM, mapM_eq_ok_iff] at hoperands
  obtain ⟨⟨slot, token⟩, -, hslot⟩ := exists_of_mem_right hoperands (b := .label name) (by simp)
  cases slot with
  | register =>
    obtain ⟨_, -, h⟩ := except_map_eq_ok.1 hslot
    exact nomatch h
  | memory =>
    obtain ⟨_, -, h⟩ := except_map_eq_ok.1 hslot
    exact nomatch h
  | immediate =>
    have hslot : readImmediate token = .ok (.label name) := hslot
    unfold readImmediate at hslot
    split at hslot
    · exact nomatch hslot
    · cases hslot
      exact ⟨_, String.toList_ofList⟩
    · obtain ⟨_, -, h⟩ := except_map_eq_ok.1 hslot
      exact nomatch h

/-- What a line that refers to a label is decoded to. -/
theorem decodeLine_reference :
    p.decodeLine line =
      match p.labels.find? name with
      | none => .error (.decode line.number (.labelNotFound name))
      | some d =>
        if d.address.toNat ≤ 255 then
          .ok ((Action.li (.ofByte r) d.address.toUInt8).instruction line.number,
            (Action.li (.ofByte r) d.address.toUInt8).word)
        else .error (.decode line.number (.outOfRange .labelAddress d.address.toNat 255)) := by
  have hr : r.toNat ≤ 15 := by
    have hfits := fits_of_read hread
    cases hfits with
    | cons h _ => exact h
  have hresolve : p.resolve { op := .li, operands := [.reg r, .label name], line := line.number } =
      (p.resolveOperand (.label name)).map fun o =>
        { op := .li, operands := [.reg r, o], line := line.number } := by
    simp only [Program.resolve, List.mapM_cons, List.mapM_nil]
    cases p.resolveOperand (.label name) with
    | ok o => rfl
    | error e => rfl
  rw [resolveOperand_label] at hresolve
  cases hfind : p.labels.find? name with
  | none =>
    rw [hfind] at hresolve
    exact Program.decodeLine_eq_error_iff.2
      ⟨_, rfl, Program.assembleLine_eq_error_iff.2 (.inr ⟨_, hread, hresolve⟩)⟩
  | some d =>
    rw [hfind] at hresolve
    by_cases hnear : d.address.toNat ≤ 255
    · simp only [if_pos hnear] at hresolve ⊢
      refine Program.decodeLine_eq_ok_iff.2
        (Program.assembleLine_eq_ok_iff.2 ⟨_, hread, ?_, _, rfl, rfl⟩)
      rw [hresolve, Action.instruction, Action.operands, Reg.toByte_ofByte hr]
      rfl
    · simp only [if_neg hnear] at hresolve ⊢
      exact Program.decodeLine_eq_error_iff.2
        ⟨_, rfl, Program.assembleLine_eq_error_iff.2 (.inr ⟨_, hread, hresolve⟩)⟩

end References

/-- **Where references to labels go astray.** A line that refers to a label does what it is meant
to, unless 65536 or more instructions stand before the declaration of the label and their number
comes round to one that fits into eight bits. -/
theorem reaches_iff (source : String) {line : Line} {r : UInt8} {name : String}
    (hread : Instruction.read line.text line.number =
      .ok { op := .li, operands := [.reg r, .label name], line := line.number }) :
    (Program.ofSource source).Reaches line name ↔
      ((Program.ofSource source).Declares name →
        (Program.ofSource source).distance name < 65536 ∨
          255 < (Program.ofSource source).distance name % 65536) := by
  obtain ⟨lines, hsource⟩ : ∃ lines, Program.ofSource source = .ofLines lines := ⟨_, rfl⟩
  obtain ⟨cs, hname⟩ := toList_of_reference hread
  have hdecode := decodeLine_reference (p := .ofLines lines) hread
  rw [hsource]
  constructor
  · rintro ⟨haccepted, -⟩ hdeclared
    by_contra hround
    obtain ⟨hfar, hnear⟩ := not_or.1 hround
    obtain ⟨d, hfind, haddress⟩ := Program.exists_find? hname hdeclared
    simp only [hfind] at hdecode
    rw [if_pos (haddress ▸ Nat.not_lt.1 hnear)] at hdecode
    obtain ⟨k, -, -, hk, -⟩ := haccepted _ _ hdecode
    -- An immediate value is below 256, but the distance is 65536 at least.
    have := k.toNat_lt
    omega
  · intro hcondition
    constructor
    · intro i w h
      rw [hdecode] at h
      split at h
      · exact nomatch h
      · next d hfind =>
        obtain ⟨hdeclared, haddress⟩ := Program.declares_of_find? hname hfind
        split at h
        · next hnear =>
          obtain ⟨rfl, -⟩ := Prod.mk.inj (Except.ok.inj h)
          have hdistance : (Program.ofLines lines).distance name = d.address.toUInt8.toNat := by
            have hcount := hcondition hdeclared
            rw [UInt16.toNat_toUInt8]
            omega
          refine ⟨d.address.toUInt8, rfl, hdeclared, hdistance, ?_⟩
          rw [Program.fetch?, UInt8.toNat_toUInt16, ← hdistance]
          exact Program.getElem?_distance hname hdeclared
        · exact nomatch h
    · intro hdeclared hfar
      obtain ⟨d, hfind, haddress⟩ := Program.exists_find? hname hdeclared
      have hrefused : ¬d.address.toNat ≤ 255 := by
        have hcount := hcondition hdeclared
        omega
      refine ⟨d.address.toNat, ?_⟩
      rw [hdecode]
      simp only [hfind, if_neg hrefused]

theorem reaches_iff_next_line :
    Instruction.read "li r1, :end".toList 1 =
        .ok { op := .li, operands := [.reg 1, .label ":end"], line := 1 } ∧
      (Program.ofSource "li r1, :end\n:end\nhalt").Reaches ⟨1, "li r1, :end".toList⟩ ":end" := by
  have hread : Instruction.read "li r1, :end".toList 1 =
      .ok { op := .li, operands := [.reg 1, .label ":end"], line := 1 } := by decide +kernel
  refine ⟨hread, (reaches_iff "li r1, :end\n:end\nhalt" hread).2 fun _ => .inl ?_⟩
  decide +kernel

/-! ## A label that is too far away -/

/-- In a source that begins with texts of instructions and goes on with a label, the label is as far
away as there are texts before it. -/
theorem distance_intercalate {before after : List String} {name : String} {cs : List Char}
    (hname : name.toList = ':' :: cs) (htrim : Text.trim (Text.trim name.toList) = name.toList)
    (hbefore : ∀ t ∈ before, Line.Kind.ofText (Text.trim t.toList) = .instruction)
    (hne : ∀ t ∈ before ++ name :: after, t.toList ≠ [])
    (hline : ∀ t ∈ before ++ name :: after, '\n' ∉ t.toList) :
    (Program.ofSource ("\n".intercalate (before ++ name :: after))).Declares name ∧
      (Program.ofSource ("\n".intercalate (before ++ name :: after))).distance name =
        before.length := by
  have hlines := Program.lines_intercalate hne hline
  rw [List.zipIdx_append, List.map_append, List.zipIdx_cons, List.map_cons] at hlines
  obtain ⟨first, hfirst⟩ : ∃ first : List Line, first =
      (before.zipIdx 1).map fun x => .ofText x.1.toList x.2 := ⟨_, rfl⟩
  rw [← hfirst] at hlines
  have hnamed : (Line.ofText name.toList (1 + before.length)).isNamed name = true := by
    rw [Line.isNamed, Line.ofText, htrim, String.ofList_toList]
    exact beq_self_eq_true name
  have hinstruction : ∀ line ∈ first, line.kind = .instruction := by
    intro line hmem
    rw [hfirst] at hmem
    obtain ⟨⟨t, number⟩, hzip, rfl⟩ := List.mem_map.1 hmem
    exact hbefore t (List.fst_mem_of_mem_zipIdx hzip)
  have hother : ∀ line ∈ first, (!line.isNamed name) = true := by
    intro line hmem
    by_contra h
    have hkind := Line.kind_of_isNamed hname (by simpa using h)
    rw [hinstruction line hmem] at hkind
    exact nomatch hkind
  have hlength : first.length = before.length := by simp [hfirst]
  constructor
  · exact ⟨_, by rw [hlines]; exact List.mem_append_right _ List.mem_cons_self, hnamed⟩
  · rw [Program.distance, hlines, Line.before, List.takeWhile_append_of_pos hother,
      List.takeWhile_cons_of_neg (by simp [hnamed]), List.append_nil, ← hlength,
      List.countP_eq_length]
    intro line hmem
    rw [Line.isExecutable, hinstruction line hmem]
    rfl

/-- A source that refers to a label behind 65537 instructions. -/
def farReference : String :=
  "\n".intercalate ("li r1, :far" :: List.replicate 65536 "halt" ++ [":far", "halt"])

/-- The reference does not reach the label, which would have to be refused as too far away. -/
theorem not_reaches_farReference :
    Instruction.read "li r1, :far".toList 1 =
        .ok { op := .li, operands := [.reg 1, .label ":far"], line := 1 } ∧
      ¬(Program.ofSource farReference).Reaches ⟨1, "li r1, :far".toList⟩ ":far" := by
  have hread : Instruction.read "li r1, :far".toList 1 =
      .ok { op := .li, operands := [.reg 1, .label ":far"], line := 1 } := by decide +kernel
  refine ⟨hread, ?_⟩
  have htexts : ∀ t ∈ "li r1, :far" :: List.replicate 65536 "halt" ++ [":far", "halt"],
      t = "li r1, :far" ∨ t = "halt" ∨ t = ":far" := by
    intro t ht
    simp only [List.mem_append, List.mem_cons, List.mem_replicate, List.not_mem_nil] at ht
    tauto
  have hbefore : ∀ t ∈ "li r1, :far" :: List.replicate 65536 "halt",
      Line.Kind.ofText (Text.trim t.toList) = .instruction := by
    intro t ht
    rcases List.mem_cons.1 ht with rfl | ht
    · decide +kernel
    · obtain rfl := (List.mem_replicate.1 ht).2
      decide +kernel
  obtain ⟨hdeclared, hdistance⟩ := @distance_intercalate
    ("li r1, :far" :: List.replicate 65536 "halt") ["halt"] ":far" _ rfl (by decide +kernel) hbefore
    (fun t ht => by rcases htexts t ht with rfl | rfl | rfl <;> decide +kernel)
    (fun t ht => by rcases htexts t ht with rfl | rfl | rfl <;> decide +kernel)
  rw [List.length_cons, List.length_replicate] at hdistance
  intro h
  have hcondition := (reaches_iff farReference hread).1 h hdeclared
  rw [farReference, hdistance] at hcondition
  omega

end WordMachine
