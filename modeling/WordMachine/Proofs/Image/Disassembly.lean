import WordMachine.Image.Listing
import WordMachine.Proofs.Image.Assembly
import WordMachine.Proofs.Instruction.RoundTrip
import WordMachine.Proofs.Source.Lines

/-!
# Disassembling and assembling again

The rows of a listing are cut into their columns again (`columns_render`), which show an address, a
word and a text (`showsWord_render`). The instructions in the last column make up a source
(`Image.disassembly`). Each line of it is read as the instruction
that was printed and has the word that was decoded (`decodeLine_text`), so the source assembles to
the words of the image, as far as the first `halt`. An image that was assembled has no word behind
a `halt` and comes back whole (`disassembly_assembles`).
-/

namespace WordMachine

/-! ## Columns -/

/-- The columns of a row. -/
structure Columns where
  address : String
  hex : String
  bits : String
  text : String

/-- Cuts a row of a listing: a colon ends the address, the words have four digits and sixteen bits,
and there are two blanks in front of each column. -/
def columns (row : String) : Columns :=
  let behind := (row.toList.dropWhile (· != ':')).drop 3
  { address := String.ofList (row.toList.takeWhile (· != ':'))
    hex := String.ofList (behind.take 4)
    bits := String.ofList ((behind.drop 6).take 16)
    text := String.ofList (behind.drop 24) }

/-- Whether a row shows a word at an address: both in hexadecimal, the word in binary, and a text,
with nothing but a colon and blanks between them. -/
structure ShowsWord (row : String) (address : Nat) (w : Word) (text : String) : Prop where
  row_eq : row = (columns row).address ++ ":  " ++ (columns row).hex ++ "  " ++
    (columns row).bits ++ "  " ++ (columns row).text
  address : Text.natural? 16 (columns row).address.toList = some address
  hex : Text.natural? 16 (columns row).hex.toList = some w.toNat
  bits : Text.natural? 2 (columns row).bits.toList = some w.toNat
  text_eq : (columns row).text = text

theorem toList_render (row : ListingRow) :
    row.render.toList =
      Text.padded 16 4 row.address ++ (':' :: ' ' :: ' ' ::
        (row.word.hex ++ (' ' :: ' ' ::
          (row.word.bits ++ (' ' :: ' ' :: (row.text.getD ".word").toList))))) := by
  simp [ListingRow.render, String.toList_append, toString]

theorem columns_render (row : ListingRow) :
    columns row.render =
      { address := String.ofList (Text.padded 16 4 row.address)
        hex := String.ofList row.word.hex
        bits := String.ofList row.word.bits
        text := row.text.getD ".word" } := by
  have hw : row.word.toNat < 65536 := row.word.toNat_lt
  have hhex : row.word.hex.length = 4 := Text.length_padded (by decide) (by decide) hw
  have hbits : row.word.bits.length = 16 := Text.length_padded (by decide) (by decide) hw
  have haddress : ∀ c ∈ Text.padded 16 4 row.address, (c != ':') = true := by
    intro c hc
    have hnatural : Text.natural? 16 (Text.padded 16 4 row.address) = some row.address :=
      Text.natural?_padded (by decide) (by decide) 4 row.address
    obtain ⟨d, hd⟩ := Text.exists_digit? hnatural hc
    rw [bne_iff_ne]
    rintro rfl
    exact nomatch hd
  have hhexEnd : row.word.hex.drop 24 = [] := List.drop_eq_nil_of_le (by omega)
  have hbitsEnd : row.word.bits.drop 18 = [] := List.drop_eq_nil_of_le (by omega)
  simp only [columns, toList_render]
  rw [List.dropWhile_append_of_pos haddress, List.takeWhile_append_of_pos haddress]
  simp [List.take_append, List.drop_append, hhex, hbits, hhexEnd, hbitsEnd]

theorem showsWord_render (row : ListingRow) :
    ShowsWord row.render row.address row.word (row.text.getD ".word") where
  row_eq := by
    rw [columns_render, ← String.toList_inj, toList_render]
    simp [String.toList_append]
  address := by
    simp only [columns_render, String.toList_ofList]
    exact Text.natural?_padded (by decide) (by decide) 4 row.address
  hex := by
    simp only [columns_render, String.toList_ofList]
    exact Text.natural?_padded (by decide) (by decide) 4 row.word.toNat
  bits := by
    simp only [columns_render, String.toList_ofList]
    exact Text.natural?_padded (by decide) (by decide) 16 row.word.toNat
  text_eq := by rw [columns_render]

theorem getElem?_listing {image : Image} {k : Nat} {w : Word} (hk : image[k]? = some w) :
    (listing image)[k]? = some ⟨k, w, (Instruction.decode? w).map Instruction.text⟩ := by
  rw [← Array.getElem?_toList] at hk
  simp [listing, hk]

/-- The source made of the instructions in a listing. -/
def Image.disassembly (image : Image) : String :=
  "\n".intercalate ((listing image).map fun row => (columns row.render).text)

theorem disassembly_eq (image : Image) :
    image.disassembly = "\n".intercalate (image.toList.map fun w =>
      ((Instruction.decode? w).map Instruction.text).getD ".word") := by
  simp only [Image.disassembly, columns_render, listing, List.map_map]
  congr 1
  apply List.ext_getElem
  · simp
  · intro k hk hk'
    simp

/-! ## Lines of a disassembly -/

namespace Action

/-- The text of an action is spelled out in words. -/
theorem spells (a : Action) : Line.Spells (a.instruction 0).text.toList
    (a.op.mnemonic.toList :: a.operands.map Operand.render) := by
  rw [Instruction.text, String.toList_ofList]
  exact Instruction.spells a.fitsWritten

theorem kind_text (a : Action) :
    Line.Kind.ofText (a.instruction 0).text.toList = .instruction := by
  rw [Instruction.text, String.toList_ofList]
  exact Instruction.kind_render a.fitsWritten

/-- The text of an action is read as its instruction, is resolved already, and has its word. -/
theorem decodeLine_text (p : Program) (a : Action) (number : Nat) :
    p.decodeLine (.ofText (a.instruction 0).text.toList number) =
      .ok (a.instruction number, a.word) := by
  have hread : Instruction.read (a.instruction 0).text.toList number =
      .ok (a.instruction number) := by
    rw [Instruction.text, String.toList_ofList]
    exact Instruction.read_render a.fitsWritten number
  have hresolve : p.resolve (a.instruction number) = .ok (a.instruction number) := by
    refine resolve_eq_ok_iff.2 ⟨rfl, rfl, List.forall₂_same.2 fun o ho => ?_⟩
    obtain ⟨slot, -, -, hlabel⟩ := exists_of_mem_right a.fits ho
    cases o with
    | label name => cases hlabel
    | reg | mem | imm => rfl
  rw [Program.decodeLine_eq_ok_iff]
  refine Program.assembleLine_eq_ok_iff.2 ⟨_, ?_, hresolve, a, rfl, rfl⟩
  rw [Line.ofText, a.spells.trim_eq, hread]

/-- Only a word that does not decode is shown as data. -/
theorem text_ne_word (a : Action) : (a.instruction 0).text ≠ ".word" := by
  intro h
  have htokens := a.spells.tokens_eq
  rw [h] at htokens
  have hword : Line.tokens ".word".toList = [".word".toList] := by decide +kernel
  rw [hword] at htokens
  have hop := a.op.ofMnemonic?_mnemonic
  have hnone : Op.ofMnemonic? ".word".toList = none := by decide +kernel
  rw [← (List.cons.inj htokens).1, hnone] at hop
  exact nomatch hop

end Action

/-! ## Assembling a disassembly -/

/-- Words as far as the first zero, which is the word of `halt`. -/
def throughHalt : List Word → List Word
  | [] => []
  | w :: words => if w = 0 then [w] else w :: throughHalt words

/-- Nothing stands behind a `halt` in words that are assembled. -/
theorem Assembled.throughHalt_eq {p : Program} {lines : List Line} {words : List Word}
    (h : Assembled p lines words) : throughHalt words = words := by
  induction h with
  | nil => rfl
  | halt => rw [throughHalt, throughHalt, ite_self]
  | cons hline hop _ ih =>
    obtain ⟨a, rfl, rfl⟩ := Program.exists_of_decodeLine hline
    rw [throughHalt, if_neg (fun hzero => hop (Action.word_eq_zero_iff.1 hzero)), ih]

/-- The texts of actions assemble to their words as far as the first `halt`, on whatever lines they
stand. -/
theorem assembled_texts (p : Program) (actions : List Action) (number : Nat) :
    Assembled p
      (((actions.map fun a => (a.instruction 0).text).zipIdx number).map fun x =>
        .ofText x.1.toList x.2)
      (throughHalt (actions.map Action.word)) := by
  induction actions generalizing number with
  | nil => exact .nil
  | cons a actions ih =>
    rw [List.map_cons, List.zipIdx_cons, List.map_cons, List.map_cons, throughHalt]
    have hdecode := a.decodeLine_text p number
    -- Zero is the word of `halt` only, so both sides stop at the same action.
    by_cases hzero : a.word = 0
    · rw [if_pos hzero]
      exact .halt hdecode (Action.word_eq_zero_iff.1 hzero)
    · rw [if_neg hzero]
      exact .cons hdecode (fun hop => hzero (Action.word_eq_zero_iff.2 hop)) (ih _)

/-- Words that decode are the words of actions. -/
theorem exists_actions {words : List Word}
    (h : ∀ w ∈ words, (Instruction.decode? w).isSome = true) :
    ∃ actions : List Action, words = actions.map Action.word := by
  induction words with
  | nil => exact ⟨[], rfl⟩
  | cons w words ih =>
    obtain ⟨i, hi⟩ := Option.isSome_iff_exists.1 (h w List.mem_cons_self)
    obtain ⟨a, rfl, -⟩ := Action.exists_of_decode? hi
    obtain ⟨actions, rfl⟩ := ih fun v hv => h v (List.mem_cons_of_mem _ hv)
    exact ⟨a :: actions, rfl⟩

theorem disassembly_words (actions : List Action) :
    Image.disassembly (actions.map Action.word).toArray =
      "\n".intercalate (actions.map fun a => (a.instruction 0).text) := by
  rw [disassembly_eq, List.map_map]
  congr 1
  apply List.map_congr_left
  intro a _
  simp only [Function.comp_apply, Action.decode?_word, Option.map_some, Option.getD_some]

theorem assemble_disassembly {image : Image}
    (h : ∀ w ∈ image, (Instruction.decode? w).isSome = true) :
    (Program.ofSource image.disassembly).assemble = .ok (throughHalt image.toList).toArray := by
  obtain ⟨actions, hactions⟩ := exists_actions fun w hw => h w (Array.mem_toList_iff.1 hw)
  obtain ⟨words⟩ := image
  obtain rfl : words = actions.map Action.word := hactions
  have hspells : ∀ t ∈ actions.map fun a => (a.instruction 0).text,
      (∃ words, Line.Spells t.toList words) ∧ Line.Kind.ofText t.toList = .instruction := by
    intro t ht
    obtain ⟨a, -, rfl⟩ := List.mem_map.1 ht
    exact ⟨⟨_, a.spells⟩, a.kind_text⟩
  rw [disassembly_words, Program.assemble_eq_ok_iff, Program.executable_intercalate]
  · exact assembled_texts _ actions 1
  · intro t ht
    obtain ⟨⟨_, h⟩, -⟩ := hspells t ht
    exact h.ne_nil
  · intro t ht
    obtain ⟨⟨_, h⟩, -⟩ := hspells t ht
    exact h.no_newline
  · intro t ht
    obtain ⟨⟨_, h⟩, hkind⟩ := hspells t ht
    rw [h.trim_eq]
    exact hkind

theorem decodes_of_assemble {p : Program} {image : Image} (h : p.assemble = .ok image) :
    ∀ w ∈ image, (Instruction.decode? w).isSome = true := by
  intro w hw
  obtain ⟨k, hk⟩ := List.mem_iff_getElem?.1 (Array.mem_toList_iff.2 hw)
  obtain ⟨line, i, -, hdecode⟩ := (Program.assemble_eq_ok_iff.1 h).exists_line hk
  obtain ⟨a, -, rfl⟩ := Program.exists_of_decodeLine hdecode
  rw [Action.decode?_word]
  rfl

/-- **Disassembling and assembling again gives the same words.** A listing has a row for each word
in order, whose columns denote the word in hexadecimal and in binary and show it as data if it does
not decode, and only then. If all words decode, the source made of the last column assembles to the
words as far as the first zero. In particular, an image that a source assembles to decodes and is
what its disassembly assembles to. -/
theorem disassembly_assembles :
    (∀ image : Image,
      ((listing image).map ListingRow.render).length = image.size ∧
        (∀ (k : Nat) (w : Word), image[k]? = some w →
          ∃ row, ((listing image).map ListingRow.render)[k]? = some row ∧
            Text.natural? 16 (columns row).hex.toList = some w.toNat ∧
            Text.natural? 2 (columns row).bits.toList = some w.toNat ∧
            ((columns row).text = ".word" ↔ Instruction.decode? w = none)) ∧
        ((∀ w ∈ image, (Instruction.decode? w).isSome = true) →
          (Program.ofSource image.disassembly).assemble =
            .ok (throughHalt image.toList).toArray)) ∧
      ∀ (source : String) (image : Image), (Program.ofSource source).assemble = .ok image →
        (∀ w ∈ image, (Instruction.decode? w).isSome = true) ∧
          (Program.ofSource image.disassembly).assemble = .ok image := by
  constructor
  · intro image
    refine ⟨by simp [listing], ?_, assemble_disassembly⟩
    intro k w hk
    refine ⟨ListingRow.render ⟨k, w, (Instruction.decode? w).map Instruction.text⟩, ?_, ?_⟩
    · rw [List.getElem?_map, getElem?_listing hk]
      rfl
    · have hshows := showsWord_render ⟨k, w, (Instruction.decode? w).map Instruction.text⟩
      refine ⟨hshows.hex, hshows.bits, ?_⟩
      rw [hshows.text_eq]
      cases hdecode : Instruction.decode? w with
      | none => exact ⟨fun _ => rfl, fun _ => rfl⟩
      | some i =>
        obtain ⟨a, -, rfl⟩ := Action.exists_of_decode? hdecode
        exact ⟨fun htext => absurd htext a.text_ne_word, nofun⟩
  · intro source image h
    have hdecodes := decodes_of_assemble h
    refine ⟨hdecodes, ?_⟩
    rw [assemble_disassembly hdecodes, (Program.assemble_eq_ok_iff.1 h).throughHalt_eq]

/-- An instruction behind a `halt` is listed but does not come back. -/
theorem disassembly_assembles_cut :
    (∀ w ∈ (#[0x1071, 0, 0x8012] : Image), (Instruction.decode? w).isSome = true) ∧
      (Program.ofSource (Image.disassembly #[0x1071, 0, 0x8012])).assemble = .ok #[0x1071, 0] ∧
      (Program.ofSource "li r1, 7\n; end\nhalt\nhalt").assemble = .ok #[0x1071, 0] ∧
      (Program.ofSource (Image.disassembly #[0x1071, 0])).assemble = .ok #[0x1071, 0] := by
  have hdecodes : ∀ w ∈ (#[0x1071, 0, 0x8012] : Image),
      (Instruction.decode? w).isSome = true := by
    have hall : ([0x1071, 0, 0x8012] : List Word).all
        (fun w => (Instruction.decode? w).isSome) = true := by decide +kernel
    intro w hw
    exact List.all_eq_true.1 hall w (Array.mem_toList_iff.2 hw)
  have h : (Program.ofSource "li r1, 7\n; end\nhalt\nhalt").assemble = .ok #[0x1071, 0] := by
    decide +kernel
  exact ⟨hdecodes, (disassembly_assembles.1 #[0x1071, 0, 0x8012]).2.2 hdecodes, h,
    (disassembly_assembles.2 _ _ h).2⟩

end WordMachine
