import WordMachine.CommandLine.Assembler
import WordMachine.Proofs.CommandLine.Files
import WordMachine.Proofs.Image.Disassembly
import WordMachine.Proofs.Image.Record
import WordMachine.Proofs.Instruction.Message
import WordMachine.Proofs.Json.Tokens

/-!
# Building and disassembling

The assembler tool on a tree of files. A program that is refused leaves the tree as it was, since
the record is written last (`run_build_error`); one that is assembled leaves its record behind and
no other change (`run_build`). The record is read as the image that was written, so disassembling it
prints the rows of the image (`run_disasm`): as the lines of the output (`lines_listingReport`), or
as objects, which the output is read as (`tokens_listingReport`). What stands in them are the words
with their addresses and the instructions that they were assembled from (`exists_texts`).
-/

namespace WordMachine

namespace Assembler

variable {t t' : FileTree} {args : List String}

/-! ## Steps of the tool -/

theorem run_perform {r : Request} {result : Except String String}
    (h : (r.result : ExceptT String OnFiles String).run.run t = (result, t')) :
    (r.perform : OnFiles Outcome).run t = (.ofResult result, t') := by
  simp only [Request.perform, StateT.run_bind, h]
  rfl

theorem run_of_arguments {r : Request} {result : Except String String}
    (hargs : Request.ofArguments args = .ok r)
    (h : (r.result : ExceptT String OnFiles String).run.run t = (result, t')) :
    (run args : OnFiles Outcome).run t = (.ofResult result, t') := by
  rw [run, hargs]
  exact run_perform h

/-- A record is written at a writable path, and nothing else is. -/
theorem run_writeRecord {path : String} (image : Image) (h : t.Writable path) :
    ∃ t' location,
      (writeRecord path image : ExceptT String OnFiles Unit).run.run t = (.ok (), t') ∧
      t'.locate? path = some location ∧
      t'.content? location = some (String.ofList (HexRecord.render image)) ∧
      ∀ l, l ≠ location → t'.content? l = t.content? l := by
  obtain ⟨t₁, t', location, hparent, hwrite, hlocate, hcontent, hother⟩ :=
    h.exists_write? (String.ofList (HexRecord.render image))
  refine ⟨t', location, ?_, hlocate, hcontent, hother⟩
  have hfile := OnFiles.run_lift String (OnFiles.run_write hwrite)
  unfold FileTree.withParent? at hparent
  rw [writeRecord]
  split at hparent
  · next hnone =>
    cases hparent
    simp only [hnone, ne_eq, not_true_eq_false, if_false]
    exact OnFiles.run_bind hfile
  · next hsome =>
    simp only [hsome, ne_eq, not_false_eq_true, if_true]
    have hdirectory := OnFiles.run_lift String (OnFiles.run_makeDirectory hparent)
    exact (OnFiles.run_bind hdirectory).trans (OnFiles.run_bind hfile)

theorem run_readRecord {path : String} {image : Image} (h : image.size ≤ 65536)
    (hread : t.read? path = some (String.ofList (HexRecord.render image))) :
    (readRecord path : ExceptT String OnFiles Image).run.run t = (.ok image, t) := by
  rw [readRecord, OnFiles.run_bind (OnFiles.run_readOr hread), String.toList_ofList,
    HexRecord.parse_render_of_le h]
  rfl

/-! ## Commands -/

theorem run_build_error {source record text : String} {trap : Trap}
    (hargs : Request.ofArguments args = .ok (.build source record))
    (hsource : t.read? source = some text)
    (htrap : (Program.ofSource text).assemble = .error trap) :
    (run args : OnFiles Outcome).run t = (.failure trap.message, t) := by
  have hresult : ((Request.build source record).result : ExceptT String OnFiles String).run.run t =
      (.error trap.message, t) := by
    rw [Request.result, readSource, OnFiles.run_bind (OnFiles.run_readOr hsource), htrap]
    rfl
  exact run_of_arguments hargs hresult

theorem run_build {source record text : String} {image : Image}
    (hargs : Request.ofArguments args = .ok (.build source record))
    (hsource : t.read? source = some text) (hrecord : t.Writable record)
    (himage : (Program.ofSource text).assemble = .ok image) :
    ∃ t' location,
      (run args : OnFiles Outcome).run t =
        (.success s!"Successfully wrote {image.size} words to {record}\n", t') ∧
      t'.locate? record = some location ∧
      t'.content? location = some (String.ofList (HexRecord.render image)) ∧
      ∀ l, l ≠ location → t'.content? l = t.content? l := by
  obtain ⟨t', location, hwrite, hfile⟩ := run_writeRecord image hrecord
  have hresult : ((Request.build source record).result : ExceptT String OnFiles String).run.run t =
      (.ok s!"Successfully wrote {image.size} words to {record}\n", t') := by
    rw [Request.result, readSource, OnFiles.run_bind (OnFiles.run_readOr hsource), himage]
    exact OnFiles.run_bind hwrite
  exact ⟨t', location, run_of_arguments hargs hresult, hfile⟩

theorem run_disasm {record : String} {format : OutputFormat} {image : Image}
    (hargs : Request.ofArguments args = .ok (.disasm record format)) (h : image.size ≤ 65536)
    (hread : t.read? record = some (String.ofList (HexRecord.render image))) :
    (run args : OnFiles Outcome).run t = (.success (listingReport image format), t) := by
  have hresult : ((Request.disasm record format).result : ExceptT String OnFiles String).run.run t =
      (.ok (listingReport image format), t) := by
    rw [Request.result, OnFiles.run_bind (run_readRecord h hread)]
    rfl
  exact run_of_arguments hargs hresult

/-! ## Reports -/

theorem oneLine_render {image : Image} {row : ListingRow} (h : row ∈ listing image) :
    Text.OneLine row.render := by
  obtain ⟨⟨w, k⟩, -, rfl⟩ := List.mem_map.1 h
  have htext : '\n' ∉ (((Instruction.decode? w).map Instruction.text).getD ".word").toList := by
    cases hdecode : Instruction.decode? w with
    | none => decide
    | some i =>
      obtain ⟨a, -, rfl⟩ := Action.exists_of_decode? hdecode
      exact a.spells.no_newline
  have haddress := Text.newline_not_mem_padded (by decide) (by decide : 16 ≤ 16) 4 k
  have hhex := Text.newline_not_mem_padded (by decide) (by decide : 16 ≤ 16) 4 w.toNat
  have hbits := Text.newline_not_mem_padded (by decide) (by decide : 2 ≤ 16) 16 w.toNat
  rw [Text.OneLine, toList_render]
  simpa [haddress, Word.hex, hhex, Word.bits, hbits] using htext

theorem lines_listingReport (image : Image) :
    Text.lines (listingReport image .text).toList =
      ((listing image).map ListingRow.render).map String.toList := by
  rw [listingReport, joinLines, String.toList_ofList, List.map_map]
  refine Text.lines_flatMap_newline fun t ht => ?_
  obtain ⟨row, hrow, rfl⟩ := List.mem_map.1 ht
  exact oneLine_render hrow

theorem tokens_listingReport (image : Image) :
    JsonToken.ofText? (listingReport image .json).toList =
      some (Json.array ((listing image).map ListingRow.json)).tokens :=
  JsonToken.ofText?_pretty _

end Assembler

/-- A listing shows the instructions that were assembled. -/
theorem exists_row_of_assemble {p : Program} {image : Image} (h : p.assemble = .ok image) {k : Nat}
    {w : Word} (hk : image[k]? = some w) :
    ∃ line i, p.executable[k]? = some line ∧ p.decodeLine line = .ok (i, w) ∧
      (listing image)[k]? = some ⟨k, w, some i.text⟩ := by
  have hw : image.toList[k]? = some w := by rw [Array.getElem?_toList, hk]
  obtain ⟨line, i, hline, hdecode⟩ := (Program.assemble_eq_ok_iff.1 h).exists_line hw
  obtain ⟨a, rfl, rfl⟩ := Program.exists_of_decodeLine hdecode
  rw [Array.getElem?_toList] at hline
  refine ⟨line, _, hline, hdecode, ?_⟩
  rw [getElem?_listing hk, Action.decode?_word]
  rfl

/-- The texts of the instructions that an image was assembled from are those in its listing. -/
theorem exists_texts {p : Program} {image : Image} (h : p.assemble = .ok image) :
    ∃ texts : List String, texts.length = image.size ∧
      (∀ (k : Nat) (w : Word), image[k]? = some w → ∃ line i,
        p.executable[k]? = some line ∧ p.decodeLine line = .ok (i, w) ∧
        texts[k]? = some i.text) ∧
      ∀ (k : Nat) (w : Word) (text : String), image[k]? = some w → texts[k]? = some text →
        (listing image)[k]? = some ⟨k, w, some text⟩ := by
  have htext {k : Nat} {i : Instruction} {w : Word}
      (hrow : (listing image)[k]? = some ⟨k, w, some i.text⟩) :
      ((listing image).map fun row => row.text.getD ".word")[k]? = some i.text := by
    rw [List.getElem?_map, hrow]
    rfl
  refine ⟨(listing image).map fun row => row.text.getD ".word", by simp [listing], ?_, ?_⟩
  · intro k w hk
    obtain ⟨line, i, hline, hdecode, hrow⟩ := exists_row_of_assemble h hk
    exact ⟨line, i, hline, hdecode, htext hrow⟩
  · intro k w text hk hshown
    obtain ⟨line, i, -, -, hrow⟩ := exists_row_of_assemble h hk
    cases (htext hrow).symm.trans hshown
    exact hrow

/-- **Building, and disassembling what was built.** If the program of a source file is not
assembled, building it ends with exit code 1, nothing on the standard output and the message of the
trap on the first line of the standard error output, and changes nothing in the tree of files. If it
is assembled, building it for a writable path ends with exit code 0, prints the number of words,
leaves their record as the content of the file at the path, and changes no other file. If they are
at most 65536 words, disassembling the record ends with exit code 0, changes nothing, and prints
each word with its address and the text of the instruction on the executable line that it was
assembled from: as the row of a listing, or as an object in an array. -/
theorem build_then_disasm {t : FileTree} {args : List String} {source record text : String}
    (hargs : Assembler.Request.ofArguments args = .ok (.build source record))
    (hsource : t.read? source = some text) (hrecord : t.Writable record) :
    (∀ trap, (Program.ofSource text).assemble = .error trap →
      ∃ outcome, (Assembler.run args : OnFiles Outcome).run t = (outcome, t) ∧
        outcome.exit = 1 ∧ outcome.stdout = "" ∧
        (Text.lines outcome.stderr.toList).head? = some ("Error: " ++ trap.message).toList) ∧
    ∀ image, (Program.ofSource text).assemble = .ok image →
      ∃ t' location,
        (Assembler.run args : OnFiles Outcome).run t =
          (⟨0, s!"Successfully wrote {image.size} words to {record}\n", ""⟩, t') ∧
        (t'.locate? record = some location ∧
          t'.content? location = some (String.ofList (HexRecord.render image)) ∧
          ∀ l, l ≠ location → t'.content? l = t.content? l) ∧
        (image.size ≤ 65536 → ∃ texts : List String,
          texts.length = image.size ∧
          (∀ (k : Nat) (w : Word), image[k]? = some w → ∃ line i,
            (Program.ofSource text).executable[k]? = some line ∧
            (Program.ofSource text).decodeLine line = .ok (i, w) ∧
            texts[k]? = some i.text) ∧
          ∀ args' format, Assembler.Request.ofArguments args' = .ok (.disasm record format) →
            ∃ stdout, (Assembler.run args' : OnFiles Outcome).run t' = (⟨0, stdout, ""⟩, t') ∧
              (format = .text → ∃ rows : List String,
                Text.lines stdout.toList = rows.map String.toList ∧
                rows = (listing image).map ListingRow.render ∧ rows.length = image.size ∧
                ∀ (k : Nat) (w : Word) (shown : String), image[k]? = some w →
                  texts[k]? = some shown → ∃ row, rows[k]? = some row ∧ ShowsWord row k w shown) ∧
              (format = .json → ∃ items : List Json,
                JsonToken.ofText? stdout.toList = some (Json.array items).tokens ∧
                items.length = image.size ∧
                ∀ (k : Nat) (w : Word) (shown : String), image[k]? = some w →
                  texts[k]? = some shown →
                    items[k]? = some (.object [("addr", .number k), ("word", .number w.toNat),
                      ("text", .string shown)]))) := by
  constructor
  · intro trap htrap
    exact ⟨_, Assembler.run_build_error hargs hsource htrap, rfl, rfl,
      Outcome.head?_lines_failure (Program.oneLine_of_assemble htrap)⟩
  · intro image himage
    obtain ⟨t', location, hrun, hlocate, hcontent, hother⟩ :=
      Assembler.run_build hargs hsource hrecord himage
    refine ⟨t', location, hrun, ⟨hlocate, hcontent, hother⟩, fun hsize => ?_⟩
    have hread : t'.read? record = some (String.ofList (HexRecord.render image)) := by
      rw [FileTree.read?, hlocate]
      exact hcontent
    obtain ⟨texts, hlength, htexts, hrows⟩ := exists_texts himage
    refine ⟨texts, hlength, htexts, fun args' format hargs' =>
      ⟨_, Assembler.run_disasm hargs' hsize hread, ?_, ?_⟩⟩
    · rintro rfl
      refine ⟨_, Assembler.lines_listingReport image, rfl, by simp [listing], ?_⟩
      intro k w shown hk hshown
      refine ⟨ListingRow.render ⟨k, w, some shown⟩, ?_, showsWord_render _⟩
      rw [List.getElem?_map, hrows k w shown hk hshown]
      rfl
    · rintro rfl
      refine ⟨_, Assembler.tokens_listingReport image, by simp [listing], ?_⟩
      intro k w shown hk hshown
      rw [List.getElem?_map, hrows k w shown hk hshown]
      rfl

/-- A tree with one source file. -/
def oneSource (text : String) : FileTree where
  files := [(["in.txt".toList], text)]

/-- A record in a directory that is made for it, and its word as a row and as an object. -/
theorem build_then_disasm_halt :
    ∃ t', (Assembler.run ["-iin.txt", "build", "-o", "out/r.hex"] : OnFiles Outcome).run
          (oneSource "halt ; at once") =
        (⟨0, "Successfully wrote 1 words to out/r.hex\n", ""⟩, t') ∧
      t'.read? "out/r.hex" = some "v2.0 raw\n0000 " ∧
      (∃ stdout row, (Assembler.run ["disasm", "out/r.hex"] : OnFiles Outcome).run t' =
          (⟨0, stdout, ""⟩, t') ∧
        Text.lines stdout.toList = [row.toList] ∧ ShowsWord row 0 0 "halt") ∧
      ∃ stdout, (Assembler.run ["disasm", "out/r.hex", "--format=json"] : OnFiles Outcome).run t' =
          (⟨0, stdout, ""⟩, t') ∧
        JsonToken.ofText? stdout.toList = some (Json.array
          [.object [("addr", .number 0), ("word", .number 0), ("text", .string "halt")]]).tokens := by
  have himage : (Program.ofSource "halt ; at once").assemble = .ok #[0] := by decide +kernel
  have hargs : Assembler.Request.ofArguments ["-iin.txt", "build", "-o", "out/r.hex"] =
      .ok (.build "in.txt" "out/r.hex") := by decide +kernel
  have hsource : (oneSource "halt ; at once").read? "in.txt" = some "halt ; at once" := by
    decide +kernel
  have hpath : Path.ofNames (["out".toList] ++ ["r.hex".toList]) = "out/r.hex" := by decide +kernel
  have hrecord : (oneSource "halt ; at once").Writable "out/r.hex" := by
    rw [← hpath]
    exact FileTree.writable_ofNames (by decide) (by decide) (by decide)
  obtain ⟨t', location, hrun, ⟨hlocate, hcontent, -⟩, hdisasm⟩ :=
    (build_then_disasm hargs hsource hrecord).2 _ himage
  obtain ⟨texts, hlength, htexts, hprint⟩ := hdisasm (by decide)
  obtain ⟨line, i, hline, hdecode, htext⟩ := htexts 0 0 rfl
  have hfetch : (Program.ofSource "halt ; at once").executable[0]? =
      some ⟨1, "halt ; at once".toList⟩ := by decide +kernel
  have hhalt : (Program.ofSource "halt ; at once").decodeLine ⟨1, "halt ; at once".toList⟩ =
      .ok (⟨.halt, [], 1⟩, 0) := by decide +kernel
  cases hfetch.symm.trans hline
  cases hhalt.symm.trans hdecode
  refine ⟨t', hrun, ?_, ?_, ?_⟩
  · rw [FileTree.read?, hlocate]
    exact hcontent.trans (by decide +kernel)
  · obtain ⟨stdout, hlist, hrows, -⟩ := hprint ["disasm", "out/r.hex"] .text (by decide +kernel)
    obtain ⟨rows, hlines, -, hcount, hshows⟩ := hrows rfl
    obtain ⟨row, rfl⟩ := List.length_eq_one_iff.1 hcount
    obtain ⟨row', hrow, hshow⟩ := hshows 0 0 _ rfl htext
    cases hrow
    exact ⟨stdout, row, hlist, hlines, hshow⟩
  · obtain ⟨stdout, hlist, -, hitems⟩ :=
      hprint ["disasm", "out/r.hex", "--format=json"] .json (by decide +kernel)
    obtain ⟨items, htokens, hcount, hshows⟩ := hitems rfl
    obtain ⟨item, rfl⟩ := List.length_eq_one_iff.1 hcount
    cases hshows 0 0 _ rfl htext
    exact ⟨stdout, hlist, htokens⟩

end WordMachine
