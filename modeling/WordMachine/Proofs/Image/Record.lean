import Mathlib.Data.List.TakeWhile
import WordMachine.Proofs.Image.RecordFormat
import WordMachine.Proofs.Text.Lines

/-!
# Records are read as they are written

A written record has the words of its image as tokens, eight on each line behind the header
(`tokens_render`), and each token is read as the one word that it was written for
(`isRun_hex`). So reading gives the image back as long as there is room for it in memory, and
otherwise stops at the first word for which there is none (`parse_render`).
-/

namespace WordMachine

/-! ## Hexadecimal digits -/

/-- What is written in a radix is made of its digits. -/
theorem Text.exists_of_mem_toDigits {radix n : Nat} (hradix : 1 < radix) {c : Char}
    (h : c ∈ Nat.toDigits radix n) : ∃ d < radix, c = d.digitChar := by
  induction n using Nat.strongRecOn with
  | ind n ih =>
    rw [Nat.toDigits_eq_if hradix] at h
    split at h
    · next hn => exact ⟨n, hn, List.mem_singleton.1 h⟩
    · next hn =>
      rcases List.mem_append.1 h with h | h
      · exact ih (n / radix) (Nat.div_lt_self (by omega) hradix) h
      · exact ⟨n % radix, Nat.mod_lt _ (by omega), List.mem_singleton.1 h⟩

theorem Text.exists_of_mem_padded {radix width n : Nat} (hradix : 1 < radix) {c : Char}
    (h : c ∈ padded radix width n) : ∃ d < radix, c = d.digitChar := by
  rcases List.mem_append.1 h with h | h
  · exact ⟨0, by omega, (List.mem_replicate.1 h).2⟩
  · exact exists_of_mem_toDigits hradix h

namespace Word

theorem length_hex (w : Word) : w.hex.length = 4 :=
  Text.length_padded (by decide) (by decide) w.toNat_lt

theorem hex_ne_nil (w : Word) : w.hex ≠ [] := by
  intro h
  have hlength := w.length_hex
  rw [h] at hlength
  exact nomatch hlength

theorem natural?_hex (w : Word) : Text.natural? 16 w.hex = some w.toNat :=
  Text.natural?_padded (by decide) (by decide) 4 w.toNat

/-- The digits that words are written with. -/
def hexDigits : List Char :=
  "0123456789abcdef".toList

theorem mem_hexDigits_of_mem_hex {w : Word} {c : Char} (h : c ∈ w.hex) : c ∈ hexDigits := by
  obtain ⟨d, hd, rfl⟩ := Text.exists_of_mem_padded (by decide) h
  exact (by decide : ∀ d < 16, Nat.digitChar d ∈ hexDigits) d hd

/-- A character that is no digit does not occur in a word. -/
theorem ne_of_mem_hex {w : Word} {c d : Char} (hd : d ∉ hexDigits) (h : c ∈ w.hex) : c ≠ d := by
  rintro rfl
  exact hd (mem_hexDigits_of_mem_hex h)

theorem isBlank_of_mem_hex {w : Word} {c : Char} (h : c ∈ w.hex) : Text.isBlank c = false := by
  have hdigits : (hexDigits.all fun c => !Text.isBlank c) = true := by decide
  have hc := List.all_eq_true.1 hdigits c (mem_hexDigits_of_mem_hex h)
  simpa using hc

end Word

namespace HexRecord

/-! ## Tokens -/

/-- A word is read as one word. -/
theorem isRun_hex (w : Word) : IsRun w.hex 1 w := by
  have hdigits := (Text.natural?_eq_some_iff (by decide)).1 w.natural?_hex
  exact .word (.plain hdigits (Nat.le_of_lt_succ w.toNat_lt))

/-- Words on one line, each with a blank behind it. -/
def row (ws : List Word) : List Char :=
  ws.flatMap fun w => w.hex ++ [' ']

theorem mem_row {ws : List Word} {c : Char} (h : c ∈ row ws) : c = ' ' ∨ c ∈ Word.hexDigits := by
  obtain ⟨w, -, h⟩ := List.mem_flatMap.1 h
  rcases List.mem_append.1 h with h | h
  · exact .inr (Word.mem_hexDigits_of_mem_hex h)
  · exact .inl (List.mem_singleton.1 h)

theorem newline_not_mem_row (ws : List Word) : '\n' ∉ row ws := by
  intro h
  rcases mem_row h with h | h
  · exact absurd h (by decide)
  · exact absurd h (by decide)

/-- The tokens of a row are its words. -/
theorem lineTokens_row (ws : List Word) : lineTokens (row ws) = ws.map Word.hex := by
  have hcomment : (row ws).takeWhile (· != '#') = row ws := by
    rw [List.takeWhile_eq_self_iff]
    intro c hc
    rw [bne_iff_ne]
    rintro rfl
    rcases mem_row hc with h | h
    · exact absurd h (by decide)
    · exact absurd h (by decide)
  have hblank : ∀ c ∈ [' '], Text.isBlank c = true := List.forall_mem_singleton.2 rfl
  have hwords : Text.words Text.isBlank (row ws) = ws.map Word.hex := by
    clear hcomment
    induction ws with
    | nil => rfl
    | cons w ws ih =>
      rw [row, List.flatMap_cons, Text.words_append_append hblank (List.cons_ne_nil _ _),
        Text.words_eq_singleton w.hex_ne_nil fun c hc => Word.isBlank_of_mem_hex hc,
        List.map_cons, ← ih]
      rfl
  rw [lineTokens, hcomment]
  exact hwords

/-! ## Lines -/

/-- The words of a record from some index on, as they are written. -/
def body (ws : List Word) (k : Nat) : List Char :=
  (ws.zipIdx k).flatMap fun (w, index) => renderWord w index

theorem render_eq (image : Image) :
    render image = header.toList ++ '\n' :: body image.toList 0 :=
  rfl

theorem body_cons (w : Word) (ws : List Word) (k : Nat) :
    body (w :: ws) k = renderWord w k ++ body ws (k + 1) :=
  rfl

theorem body_append (ws vs : List Word) (k : Nat) :
    body (ws ++ vs) k = body ws k ++ body vs (k + ws.length) := by
  rw [body, List.zipIdx_append, List.flatMap_append]
  rfl

/-- An eighth word ends the line on which other words stand already. -/
theorem row_append_body_cons_of_eq (done : List Word) {w : Word} {ws : List Word} {k : Nat}
    (h : k % 8 = 7) :
    row done ++ body (w :: ws) k = row (done ++ [w]) ++ '\n' :: body ws (k + 1) := by
  simp [body_cons, renderWord, h, row]

/-- Another word goes on with the line. -/
theorem row_append_body_cons_of_ne (done : List Word) {w : Word} {ws : List Word} {k : Nat}
    (h : k % 8 ≠ 7) : row done ++ body (w :: ws) k = row (done ++ [w]) ++ body ws (k + 1) := by
  simp [body_cons, renderWord, h, row]

/-- Words with the numbers of their lines, from some index on. -/
def numbered (ws : List Word) (k : Nat) : List (Nat × Word) :=
  (ws.zipIdx k).map fun (w, index) => (2 + index / 8, w)

theorem numbered_cons (w : Word) (ws : List Word) (k : Nat) :
    numbered (w :: ws) k = (2 + k / 8, w) :: numbered ws (k + 1) :=
  rfl

/-- The tokens of what is written, behind words that stand on its first line already. -/
theorem tokens_row_append_body (done ws : List Word) (k : Nat) :
    tokens (Text.lines (row done ++ body ws k)) (2 + k / 8) =
      done.map (fun w => (2 + k / 8, w.hex)) ++
        (numbered ws k).map fun x => (x.1, x.2.hex) := by
  induction ws generalizing done k with
  | nil =>
    have hbody : body [] k = [] := rfl
    rw [hbody, List.append_nil]
    by_cases hempty : row done = []
    · have htokens := lineTokens_row done
      rw [hempty] at htokens ⊢
      rw [List.map_eq_nil_iff.1 htokens.symm]
      rfl
    · rw [Text.lines_of_not_mem hempty (newline_not_mem_row done), tokens_cons, lineTokens_row,
        List.map_map]
      rfl
  | cons w ws ih =>
    rw [numbered_cons, List.map_cons]
    by_cases hend : k % 8 = 7
    · -- The word ends its line, and the next line starts with nothing on it.
      have hnumber : 2 + (k + 1) / 8 = 2 + k / 8 + 1 := by omega
      have hrest := ih [] (k + 1)
      rw [hnumber] at hrest
      rw [row_append_body_cons_of_eq done hend,
        Text.lines_append_newline (newline_not_mem_row _), tokens_cons, lineTokens_row]
      have hrow : row [] ++ body ws (k + 1) = body ws (k + 1) := rfl
      rw [← hrow, hrest]
      simp
    · have hnumber : (k + 1) / 8 = k / 8 := by omega
      have hrest := ih (done ++ [w]) (k + 1)
      rw [hnumber] at hrest
      rw [row_append_body_cons_of_ne done hend, hrest]
      simp

/-- A record has the words of its image as tokens, eight on each line behind the header. -/
theorem tokens_render (image : Image) :
    ∃ lines, Text.lines (render image) = header.toList :: lines ∧
      tokens lines 2 = (numbered image.toList 0).map fun x => (x.1, x.2.hex) := by
  have hheader : '\n' ∉ header.toList := by decide
  exact ⟨_, Text.lines_append_newline hheader _, tokens_row_append_body [] image.toList 0⟩

/-- Every eighth word ends a line. -/
theorem count_newline_body (ws : List Word) (k : Nat) :
    k / 8 + (body ws k).count '\n' = (k + ws.length) / 8 := by
  induction ws generalizing k with
  | nil => rfl
  | cons w ws ih =>
    have hhex : w.hex.count '\n' = 0 :=
      List.count_eq_zero.2 fun h => absurd rfl (Word.ne_of_mem_hex (by decide) h)
    have hrest := ih (k + 1)
    rw [body_cons, List.count_append, renderWord, List.count_append, hhex, List.length_cons]
    by_cases hend : k % 8 = 7
    · have hnewline : [' ', '\n'].count '\n' = 1 := rfl
      rw [if_pos hend, hnewline]
      omega
    · have hnewline : [' '].count '\n' = 0 := rfl
      rw [if_neg hend, hnewline]
      omega

/-! ## Reading the tokens -/

/-- Words that are written one by one. -/
theorem areRuns_hex (words : List (Nat × Word)) :
    AreRuns (words.map fun x => (x.1, x.2.hex)) (words.map fun x => (1, x.2)) := by
  induction words with
  | nil => exact .nil
  | cons x words ih => exact .cons (isRun_hex x.2) ih

theorem total_singles (words : List (Nat × Word)) :
    total (words.map fun x => (1, x.2)) = words.length := by
  simp [total, Function.comp_def]

theorem expand_singles (words : List (Nat × Word)) :
    expand (words.map fun x => (1, x.2)) = words.map Prod.snd := by
  rw [expand, List.flatMap_map, List.map_eq_flatMap]
  rfl

/-- Words for which there is room are appended to an image. -/
theorem readFrom_eq_ok {words : List (Nat × Word)} {image : Image}
    (h : image.size + words.length ≤ 65536) :
    readFrom image (words.map fun x => (x.1, x.2.hex)) =
      .ok (image ++ (words.map Prod.snd).toArray) := by
  have himage : image.size ≤ 65536 := by omega
  refine (readFrom_eq_ok_iff himage).2 ⟨_, areRuns_hex words, ?_, ?_⟩
  · rwa [total_singles]
  · simp [expand_singles]

/-- The first word for which there is no room is reported. -/
theorem readFrom_eq_error {words : List (Nat × Word)} {image : Image} {k number : Nat} {w : Word}
    (hk : words[k]? = some (number, w)) (hsize : image.size + k = 65536) :
    readFrom image (words.map fun x => (x.1, x.2.hex)) =
      .error (.value number (String.ofList w.hex)) := by
  have himage : image.size ≤ 65536 := by omega
  obtain ⟨before, after, rfl, hlength⟩ : ∃ before after,
      words = before ++ (number, w) :: after ∧ before.length = k := by
    obtain ⟨hlt, hword⟩ := List.getElem?_eq_some_iff.1 hk
    refine ⟨words.take k, words.drop (k + 1), ?_, by rw [List.length_take]; omega⟩
    rw [← hword, List.getElem_cons_drop, List.take_append_drop]
  refine (readFrom_eq_error_iff himage).2 ⟨(number, w.hex), ?_, rfl⟩
  refine ⟨_, after.map fun x => (x.1, x.2.hex), _, List.map_append, areRuns_hex before, ?_, ?_⟩
  · rw [total_singles]
    omega
  · intro n v hrun
    obtain ⟨rfl, -⟩ := hrun.unique (isRun_hex w)
    rw [total_singles]
    omega

/-! ## Reading a record -/

theorem numbered_words (ws : List Word) (k : Nat) : (numbered ws k).map Prod.snd = ws := by
  induction ws generalizing k with
  | nil => rfl
  | cons w ws ih => rw [numbered_cons, List.map_cons, ih]

theorem numbered_getElem? (ws : List Word) (k i : Nat) :
    (numbered ws k)[i]? = ws[i]?.map fun w => (2 + (k + i) / 8, w) := by
  rw [numbered, List.getElem?_map, List.getElem?_zipIdx, Option.map_map]
  rfl

theorem parse_render (image : Image) :
    parse (render image) =
      readFrom #[] ((numbered image.toList 0).map fun x => (x.1, x.2.hex)) := by
  have htrim : Text.trim header.toList = header.toList := by decide
  obtain ⟨lines, hlines, htokens⟩ := tokens_render image
  simp only [parse, hlines, htrim, if_true, htokens]

theorem parse_render_of_le {image : Image} (h : image.size ≤ 65536) :
    parse (render image) = .ok image := by
  have hroom : (#[] : Image).size + (numbered image.toList 0).length ≤ 65536 := by
    simpa [numbered] using h
  rw [parse_render, readFrom_eq_ok hroom, numbered_words]
  simp

/-- Where a word stands in a record: behind the record of the words before it, and on the line whose
number the words before it make. -/
theorem exists_render_eq {image : Image} {k : Nat} (hk : k < image.size) :
    ∃ after, render image = render (image.take k) ++ image[k].hex ++ after ∧
      (render (image.take k)).count '\n' + 1 = 2 + k / 8 := by
  have hlength : (image.toList.take k).length = k := by
    rw [List.length_take, Array.length_toList]
    omega
  have htake : (image.take k).toList = image.toList.take k := by simp
  have hbody : body image.toList 0 =
      body (image.toList.take k) 0 ++ (renderWord image[k] k ++
        body (image.toList.drop (k + 1)) (k + 1)) := by
    calc body image.toList 0
        = body (image.toList.take k ++ image[k] :: image.toList.drop (k + 1)) 0 := by
          rw [← Array.getElem_toList hk, List.getElem_cons_drop, List.take_append_drop]
      _ = _ := by rw [body_append, body_cons, hlength, Nat.zero_add]
  refine ⟨(if k % 8 = 7 then [' ', '\n'] else [' ']) ++ body (image.toList.drop (k + 1)) (k + 1),
    ?_, ?_⟩
  · rw [render_eq, render_eq, htake, hbody, renderWord]
    simp
  · have hheader : header.toList.count '\n' = 0 := by decide
    have hcount := count_newline_body (image.toList.take k) 0
    rw [hlength] at hcount
    rw [render_eq, htake, List.count_append, List.count_cons_self, hheader]
    omega

end HexRecord

/-- **A record is read as the image that it was written for, if that fits into memory.** A record of
at most 65536 words is read as these words. A record of more words is refused at the word behind
them: the error has its four digits, in lower case, and the number 8194, which is that of its line,
since 8193 lines end before it. -/
theorem record_round_trip (image : Image) :
    (image.size ≤ 65536 → HexRecord.parse (HexRecord.render image) = .ok image) ∧
    ∀ h : 65536 < image.size,
      HexRecord.parse (HexRecord.render image) =
          .error (.value 8194 (String.ofList image[65536].hex)) ∧
        (image[65536].hex.length = 4 ∧ (∀ c ∈ image[65536].hex, c ∈ Word.hexDigits) ∧
          Text.natural? 16 image[65536].hex = some image[65536].toNat) ∧
        ∃ after, HexRecord.render image =
            HexRecord.render (image.take 65536) ++ image[65536].hex ++ after ∧
          (HexRecord.render (image.take 65536)).count '\n' + 1 = 8194 := by
  constructor
  · exact HexRecord.parse_render_of_le
  · intro h
    rw [HexRecord.parse_render]
    have hword : (HexRecord.numbered image.toList 0)[65536]? = some (8194, image[65536]) := by
      rw [HexRecord.numbered_getElem?, Array.getElem?_toList, Array.getElem?_eq_getElem h]
      rfl
    exact ⟨HexRecord.readFrom_eq_error hword rfl,
      ⟨image[65536].length_hex, fun c hc => Word.mem_hexDigits_of_mem_hex hc,
        image[65536].natural?_hex⟩,
      HexRecord.exists_render_eq h⟩

/-- A record that fits, and one of a word too many. -/
theorem record_round_trip_at_boundary :
    (#[0x1071, 0xabcd] : Image).size ≤ 65536 ∧
      HexRecord.parse (HexRecord.render #[0x1071, 0xabcd]) = .ok #[0x1071, 0xabcd] ∧
      65536 < (Array.replicate 65537 0xbeef : Image).size ∧
      HexRecord.parse (HexRecord.render (Array.replicate 65537 0xbeef)) =
        .error (.value 8194 "beef") := by
  have hlarge : 65536 < (Array.replicate 65537 0xbeef : Image).size := by
    rw [Array.size_replicate]
    decide
  have hrefused := ((record_round_trip _).2 hlarge).1
  rw [Array.getElem_replicate] at hrefused
  exact ⟨by decide, (record_round_trip _).1 (by decide), hlarge, hrefused⟩

end WordMachine
