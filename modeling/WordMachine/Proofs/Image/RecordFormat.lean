import Mathlib.Data.List.TakeWhile
import WordMachine.Image.HexRecord
import WordMachine.Proofs.Text.Digits
import WordMachine.Proofs.Text.Spacing

/-!
# The format of records

What a record is, said without the reader. A header line is followed by tokens with blanks between
them and comments behind a number sign (`HexRecord.HasTokens`), and a token is a word or a run of
equal words (`HexRecord.IsRun`). A record is read if all its tokens are runs and there is room in
memory for all of their words, and it is refused at the first token that breaks this
(`record_format`).
-/

namespace WordMachine

namespace HexRecord

/-! ## Runs -/

/-- Whether a token stands for a number of equal words. It is a word in hexadecimal, which may have
a decimal count in front of it. -/
inductive IsRun : List Char → Nat → Word → Prop
  | word {value : List Char} {w : Word} (h : Text.Unsigned 16 65535 value w.toNat) :
      IsRun value 1 w
  | counted {count value : List Char} {n : Nat} {w : Word}
      (hcount : Text.Unsigned 10 18446744073709551615 count n)
      (hvalue : Text.Unsigned 16 65535 value w.toNat) : IsRun (count ++ '*' :: value) n w

theorem readWord?_eq_some_iff {cs : List Char} {w : Word} :
    readWord? cs = some w ↔ Text.Unsigned 16 65535 cs w.toNat := by
  rw [readWord?, Option.map_eq_some_iff, ← Text.unsigned?_eq_some_iff (by decide)]
  constructor
  · intro h
    obtain ⟨n, hn, rfl⟩ := h
    obtain ⟨-, hmax⟩ := Option.filter_eq_some_iff.1 hn
    have hlt : n < 65536 := Nat.lt_succ_of_le (by simpa using hmax)
    rwa [UInt16.toNat_ofNat_of_lt' hlt]
  · intro h
    exact ⟨w.toNat, h, UInt16.ofNat_toNat⟩

theorem readRun?_eq_some_iff {token : List Char} {n : Nat} {w : Word} :
    readRun? token = some (n, w) ↔ IsRun token n w := by
  constructor
  · intro h
    have hsplit : token.takeWhile (· != '*') ++ token.dropWhile (· != '*') = token :=
      List.takeWhile_append_dropWhile
    unfold readRun? at h
    split at h
    · next hrest =>
      obtain ⟨v, hv, hrun⟩ := Option.map_eq_some_iff.1 h
      obtain ⟨rfl, rfl⟩ := Prod.mk.inj hrun
      exact .word (readWord?_eq_some_iff.1 hv)
    · next c value hrest =>
      obtain ⟨m, hm, h⟩ := Option.bind_eq_some_iff.1 h
      obtain ⟨v, hv, h⟩ := Option.bind_eq_some_iff.1 h
      obtain ⟨rfl, rfl⟩ := Prod.mk.inj (Option.some.inj h)
      obtain rfl : c = '*' := by
        have hstop := List.head?_dropWhile_not (· != '*') token
        rw [hrest, List.head?_cons] at hstop
        simpa using hstop
      rw [← hsplit, hrest]
      exact .counted ((Text.unsigned?_eq_some_iff (by decide)).1 hm) (readWord?_eq_some_iff.1 hv)
  · intro h
    have hstar {radix max n : Nat} {cs : List Char} (hradix : radix ≤ 16)
        (hcs : Text.Unsigned radix max cs n) : ∀ c ∈ cs, (c != '*') = true := by
      intro c hc
      rw [bne_iff_ne]
      rintro rfl
      exact hcs.not_mem hradix (by decide) (by decide) hc
    cases h with
    | word h =>
      have hrest : token.dropWhile (· != '*') = [] :=
        List.dropWhile_eq_nil_iff.2 (hstar (by decide) h)
      simp [readRun?, hrest, readWord?_eq_some_iff.2 h]
    | @counted count value _ _ hcount hvalue =>
      have hcs := hstar (by decide) hcount
      have hrest : (count ++ '*' :: value).dropWhile (· != '*') = '*' :: value := by
        simp [List.dropWhile_append_of_pos hcs]
      have hfirst : (count ++ '*' :: value).takeWhile (· != '*') = count := by
        simp [List.takeWhile_append_of_pos hcs]
      have hcount := (Text.unsigned?_eq_some_iff (by decide)).2 hcount
      simp [readRun?, hrest, hfirst, hcount, readWord?_eq_some_iff.2 hvalue]

theorem IsRun.unique {token : List Char} {n n' : Nat} {w w' : Word} (h : IsRun token n w)
    (h' : IsRun token n' w') : n = n' ∧ w = w' := by
  rw [← readRun?_eq_some_iff] at h h'
  exact Prod.mk.inj (Option.some.inj (h.symm.trans h'))

/-! ## Tokens -/

/-- Whether words are the tokens of a line. A number sign begins a comment. -/
inductive LineTokens (ws : List (List Char)) : List Char → Prop
  | bare {line : List Char} (hline : Text.Spaced Text.isBlank ws line) (hsign : '#' ∉ line) :
      LineTokens ws line
  | commented {line : List Char} (hline : Text.Spaced Text.isBlank ws line) (hsign : '#' ∉ line)
      (comment : List Char) : LineTokens ws (line ++ '#' :: comment)

/-- Whether lines from a number on have given tokens, each with the number of its line. -/
inductive LinesTokens : List (List Char) → Nat → List (Nat × List Char) → Prop
  | nil {number : Nat} : LinesTokens [] number []
  | cons {line : List Char} {lines ws : List (List Char)} {number : Nat}
      {ts : List (Nat × List Char)} (hwords : ∀ w ∈ ws, Text.IsWord Text.isBlank w)
      (hline : LineTokens ws line) (hlines : LinesTokens lines (number + 1) ts) :
      LinesTokens (line :: lines) number (ws.map (number, ·) ++ ts)

theorem lineTokens_eq_iff {line : List Char} {ws : List (List Char)} :
    lineTokens line = ws ↔ (∀ w ∈ ws, Text.IsWord Text.isBlank w) ∧ LineTokens ws line := by
  have hwords : lineTokens line = Text.words Text.isBlank (line.takeWhile (· != '#')) := rfl
  rw [hwords, Text.words_eq_iff]
  refine and_congr_right fun _ => ?_
  constructor
  · intro h
    have hsign : '#' ∉ line.takeWhile (· != '#') := by
      intro hmem
      simpa using List.mem_takeWhile_imp hmem
    have hsplit : line.takeWhile (· != '#') ++ line.dropWhile (· != '#') = line :=
      List.takeWhile_append_dropWhile
    have hstop := List.head?_dropWhile_not (· != '#') line
    cases hrest : line.dropWhile (· != '#') with
    | nil =>
      rw [hrest, List.append_nil] at hsplit
      rw [hsplit] at h hsign
      exact .bare h hsign
    | cons c comment =>
      rw [hrest, List.head?_cons] at hstop
      obtain rfl : c = '#' := by simpa using hstop
      rw [hrest] at hsplit
      rw [← hsplit]
      exact .commented h hsign comment
  · intro h
    have hplain {cs : List Char} (hcs : '#' ∉ cs) : ∀ c ∈ cs, (c != '#') = true := by
      intro c hc
      rw [bne_iff_ne]
      rintro rfl
      exact hcs hc
    cases h with
    | bare hline hsign => rwa [List.takeWhile_eq_self_iff.2 (hplain hsign)]
    | commented hline hsign comment =>
      rw [List.takeWhile_append_of_pos (hplain hsign)]
      simpa using hline

theorem tokens_cons (line : List Char) (lines : List (List Char)) (number : Nat) :
    tokens (line :: lines) number =
      (lineTokens line).map (number, ·) ++ tokens lines (number + 1) := by
  simp [tokens, List.zipIdx_cons]

theorem linesTokens_iff {lines : List (List Char)} {number : Nat} {ts : List (Nat × List Char)} :
    LinesTokens lines number ts ↔ tokens lines number = ts := by
  constructor
  · intro h
    induction h with
    | nil => rfl
    | cons hwords hline _ ih => rw [tokens_cons, ih, lineTokens_eq_iff.2 ⟨hwords, hline⟩]
  · intro h
    subst h
    induction lines generalizing number with
    | nil => exact .nil
    | cons line lines ih =>
      obtain ⟨hwords, hline⟩ := lineTokens_eq_iff.1 (rfl : lineTokens line = _)
      rw [tokens_cons]
      exact .cons hwords hline ih

/-- Whether a text begins with the header line. -/
def HasHeader (text : List Char) : Prop :=
  ∃ first rest, Text.lines text = first :: rest ∧ Text.trim first = "v2.0 raw".toList

/-- Whether a text is the header line and lines with given tokens behind it. -/
def HasTokens (text : List Char) (ts : List (Nat × List Char)) : Prop :=
  ∃ first rest, Text.lines text = first :: rest ∧ Text.trim first = "v2.0 raw".toList ∧
    LinesTokens rest 2 ts

/-! ## Reading tokens -/

/-- Whether tokens stand for runs of words. -/
def AreRuns (ts : List (Nat × List Char)) (runs : List (Nat × Word)) : Prop :=
  List.Forall₂ (fun t run => IsRun t.2 run.1 run.2) ts runs

/-- The number of words in runs. -/
def total (runs : List (Nat × Word)) : Nat :=
  (runs.map Prod.fst).sum

def expand (runs : List (Nat × Word)) : List Word :=
  runs.flatMap fun run => List.replicate run.1 run.2

/-- Whether a token is the first one that is no run or goes beyond memory, behind words that are
there already. -/
def FirstFault (size : Nat) (ts : List (Nat × List Char)) (t : Nat × List Char) : Prop :=
  ∃ before after runs, ts = before ++ t :: after ∧ AreRuns before runs ∧
    size + total runs ≤ 65536 ∧ ∀ n w, IsRun t.2 n w → 65536 < size + total runs + n

section Reading

variable {image : Image} {t : Nat × List Char} {ts : List (Nat × List Char)}

theorem readFrom_cons_of_run {n : Nat} {w : Word} (h : IsRun t.2 n w)
    (hroom : image.size + n ≤ 65536) :
    readFrom image (t :: ts) = readFrom (image ++ Array.replicate n w) ts := by
  have hfits : n ≤ Word.count - image.size := by
    rw [Word.count]
    omega
  rw [readFrom, readRun?_eq_some_iff.2 h]
  simp only [if_pos hfits]

theorem readFrom_cons_of_fault (himage : image.size ≤ 65536)
    (h : ∀ n w, IsRun t.2 n w → 65536 < image.size + n) :
    readFrom image (t :: ts) = .error (.value t.1 (String.ofList t.2)) := by
  rw [readFrom]
  cases hrun : readRun? t.2 with
  | none => rfl
  | some run =>
    obtain ⟨n, w⟩ := run
    have hover := h n w (readRun?_eq_some_iff.1 hrun)
    have hfull : ¬n ≤ Word.count - image.size := by
      rw [Word.count]
      omega
    simp only [if_neg hfull]

/-- The next token is a run for which there is room, or it is at fault. -/
theorem run_or_fault (size : Nat) (t : Nat × List Char) :
    (∃ n w, IsRun t.2 n w ∧ size + n ≤ 65536) ∨ ∀ n w, IsRun t.2 n w → 65536 < size + n := by
  by_cases h : ∃ n w, IsRun t.2 n w ∧ size + n ≤ 65536
  · exact .inl h
  · refine .inr fun n w hrun => ?_
    by_contra hle
    exact h ⟨n, w, hrun, Nat.not_lt.1 hle⟩

theorem size_append_replicate (image : Image) (n : Nat) (w : Word) :
    (image ++ Array.replicate n w).size = image.size + n := by
  rw [Array.size_append, Array.size_replicate]

/-- Reading appends the words of all runs, if there is room for them. -/
theorem readFrom_eq_ok_iff (himage : image.size ≤ 65536) {image' : Image} :
    readFrom image ts = .ok image' ↔
      ∃ runs, AreRuns ts runs ∧ image.size + total runs ≤ 65536 ∧
        image'.toList = image.toList ++ expand runs := by
  induction ts generalizing image with
  | nil =>
    constructor
    · intro h
      obtain rfl := Except.ok.inj h
      exact ⟨[], .nil, himage, by simp [expand]⟩
    · intro h
      obtain ⟨runs, hruns, -, hwords⟩ := h
      cases hruns
      rw [readFrom, ← Array.toList_inj.1 (hwords.trans (List.append_nil _))]
  | cons t ts ih =>
    rcases run_or_fault image.size t with ⟨n, w, hrun, hroom⟩ | hfault
    · rw [readFrom_cons_of_run hrun hroom, ih (by rwa [size_append_replicate])]
      rw [size_append_replicate]
      constructor
      · intro h
        obtain ⟨runs, hruns, htotal, hwords⟩ := h
        refine ⟨(n, w) :: runs, .cons hrun hruns, ?_, ?_⟩
        · simpa [total, Nat.add_assoc] using htotal
        · simpa [expand] using hwords
      · intro h
        obtain ⟨_, hruns, htotal, hwords⟩ := h
        cases hruns with
        | @cons _ run _ runs hrun' hruns =>
          obtain ⟨n', w'⟩ := run
          obtain ⟨rfl, rfl⟩ := hrun.unique hrun'
          refine ⟨runs, hruns, ?_, ?_⟩
          · simpa [total, Nat.add_assoc] using htotal
          · simpa [expand] using hwords
    · rw [readFrom_cons_of_fault himage hfault]
      constructor
      · intro h
        cases h
      · intro h
        obtain ⟨_, hruns, htotal, -⟩ := h
        cases hruns with
        | @cons _ run _ runs hrun hruns =>
          have hover := hfault _ _ hrun
          have hle : image.size + (run.1 + total runs) ≤ 65536 := htotal
          omega

theorem not_firstFault_nil {size : Nat} : ¬FirstFault size [] t := by
  intro h
  obtain ⟨before, after, -, hsplit, -⟩ := h
  simp at hsplit

/-- A run for which there is room is passed over. -/
theorem firstFault_cons_of_run {size n : Nat} {w : Word} {fault : Nat × List Char}
    (h : IsRun t.2 n w) (hroom : size + n ≤ 65536) :
    FirstFault size (t :: ts) fault ↔ FirstFault (size + n) ts fault := by
  constructor
  · intro hfault
    obtain ⟨before, after, runs, hsplit, hruns, htotal, hover⟩ := hfault
    cases hruns with
    | nil =>
      obtain ⟨rfl, -⟩ := List.cons.inj hsplit
      have hbeyond : 65536 < size + n := hover n w h
      omega
    | @cons _ run before runs hrun hruns =>
      obtain ⟨rfl, rfl⟩ := List.cons.inj hsplit
      obtain ⟨m, v⟩ := run
      obtain ⟨rfl, rfl⟩ := h.unique hrun
      have hsum : size + total ((n, w) :: runs) = size + n + total runs := by
        simp [total, Nat.add_assoc]
      rw [hsum] at htotal hover
      exact ⟨before, after, runs, rfl, hruns, htotal, hover⟩
  · intro hfault
    obtain ⟨before, after, runs, rfl, hruns, htotal, hover⟩ := hfault
    have hsum : size + total ((n, w) :: runs) = size + n + total runs := by
      simp [total, Nat.add_assoc]
    refine ⟨t :: before, after, (n, w) :: runs, rfl, .cons h hruns, ?_, ?_⟩
    · rwa [hsum]
    · rwa [hsum]

theorem firstFault_cons_of_fault {size : Nat} {fault : Nat × List Char} (hsize : size ≤ 65536)
    (h : ∀ n w, IsRun t.2 n w → 65536 < size + n) :
    FirstFault size (t :: ts) fault ↔ fault = t := by
  constructor
  · intro hfault
    obtain ⟨before, after, runs, hsplit, hruns, htotal, -⟩ := hfault
    cases hruns with
    | nil => exact (List.cons.inj hsplit).1.symm
    | @cons _ run before runs hrun hruns =>
      obtain ⟨rfl, rfl⟩ := List.cons.inj hsplit
      have hover := h _ _ hrun
      have hle : size + (run.1 + total runs) ≤ 65536 := htotal
      omega
  · intro hfault
    subst hfault
    exact ⟨[], ts, [], rfl, .nil, hsize, h⟩

/-- Reading stops at the first token that is at fault. -/
theorem readFrom_eq_error_iff (himage : image.size ≤ 65536) {e : RecordError} :
    readFrom image ts = .error e ↔
      ∃ t, FirstFault image.size ts t ∧ e = .value t.1 (String.ofList t.2) := by
  induction ts generalizing image with
  | nil =>
    constructor
    · intro h
      cases h
    · intro h
      obtain ⟨t, hfault, -⟩ := h
      exact absurd hfault not_firstFault_nil
  | cons t ts ih =>
    rcases run_or_fault image.size t with ⟨n, w, hrun, hroom⟩ | hfault
    · rw [readFrom_cons_of_run hrun hroom, ih (by rwa [size_append_replicate])]
      simp only [size_append_replicate, firstFault_cons_of_run hrun hroom]
    · rw [readFrom_cons_of_fault himage hfault]
      simp only [firstFault_cons_of_fault himage hfault, exists_eq_left]
      constructor
      · intro h
        exact (Except.error.inj h).symm
      · intro h
        rw [h]

/-- Reading goes on from the words that were read. -/
theorem readFrom_append {before : List (Nat × List Char)} {image' : Image}
    (h : readFrom image before = .ok image') (after : List (Nat × List Char)) :
    readFrom image (before ++ after) = readFrom image' after := by
  induction before generalizing image with
  | nil =>
    obtain rfl := Except.ok.inj h
    rfl
  | cons t before ih =>
    rw [List.cons_append, readFrom]
    rw [readFrom] at h
    split at h
    · cases h
    · split at h
      · next hroom =>
        rw [if_pos hroom]
        exact ih h
      · cases h

/-- What has been read fits into memory. -/
theorem size_le_of_readFrom (himage : image.size ≤ 65536) {image' : Image}
    (h : readFrom image ts = .ok image') : image'.size ≤ 65536 := by
  obtain ⟨runs, -, htotal, hwords⟩ := (readFrom_eq_ok_iff himage).1 h
  have hlength : (expand runs).length = total runs := by
    rw [expand, total, List.length_flatMap]
    simp
  rw [← Array.length_toList, hwords, List.length_append, Array.length_toList, hlength]
  exact htotal

end Reading

/-! ## Reading a record -/

variable {text : List Char}

theorem parse_eq_of_hasTokens {ts : List (Nat × List Char)} (h : HasTokens text ts) :
    parse text = readFrom #[] ts := by
  obtain ⟨first, rest, hlines, hheader, htokens⟩ := h
  have hheader : Text.trim first = header.toList := hheader
  simp only [parse, hlines, if_pos hheader, linesTokens_iff.1 htokens]

theorem parse_eq_of_not_hasHeader (h : ¬HasHeader text) : parse text = .error .missingHeader := by
  cases hlines : Text.lines text with
  | nil => simp only [parse, hlines]
  | cons first rest =>
    have hheader : ¬Text.trim first = header.toList := fun hfirst => h ⟨first, rest, hlines, hfirst⟩
    simp only [parse, hlines, if_neg hheader]

theorem exists_hasTokens (h : HasHeader text) : ∃ ts, HasTokens text ts := by
  obtain ⟨first, rest, hlines, hheader⟩ := h
  exact ⟨tokens rest 2, first, rest, hlines, hheader, linesTokens_iff.2 rfl⟩

theorem parse_eq_missingHeader_iff : parse text = .error .missingHeader ↔ ¬HasHeader text := by
  constructor
  · intro h hheader
    obtain ⟨ts, hts⟩ := exists_hasTokens hheader
    rw [parse_eq_of_hasTokens hts, readFrom_eq_error_iff (Nat.zero_le _)] at h
    obtain ⟨t, -, ht⟩ := h
    cases ht
  · exact parse_eq_of_not_hasHeader

end HexRecord

/-- **What is read as a record.** A text without the header line is refused for it. Behind the
header line, a text whose tokens are runs of 65536 words at most is read as these words, and any
other text is refused at the first token that is no run or goes beyond that number. There never are
more words than that, so the room that is left in memory is never negative. -/
theorem record_format (text : List Char) :
    (HexRecord.parse text = .error .missingHeader ↔ ¬HexRecord.HasHeader text) ∧
    (HexRecord.HasHeader text → ∃ ts, HexRecord.HasTokens text ts) ∧
    ∀ ts, HexRecord.HasTokens text ts →
      (∀ image, HexRecord.parse text = .ok image ↔
        ∃ runs, HexRecord.AreRuns ts runs ∧ HexRecord.total runs ≤ 65536 ∧
          image.toList = HexRecord.expand runs) ∧
      (∀ e, HexRecord.parse text = .error e ↔
        ∃ t, HexRecord.FirstFault 0 ts t ∧ e = .value t.1 (String.ofList t.2)) ∧
      ∀ before after image, ts = before ++ after →
        HexRecord.readFrom #[] before = .ok image →
        image.size ≤ 65536 ∧ HexRecord.parse text = HexRecord.readFrom image after := by
  have hempty : (#[] : Image).size ≤ 65536 := Nat.zero_le _
  refine ⟨HexRecord.parse_eq_missingHeader_iff, HexRecord.exists_hasTokens, ?_⟩
  intro ts hts
  rw [HexRecord.parse_eq_of_hasTokens hts]
  refine ⟨?_, ?_, ?_⟩
  · intro image
    rw [HexRecord.readFrom_eq_ok_iff hempty]
    simp
  · intro e
    exact HexRecord.readFrom_eq_error_iff hempty
  · intro before after image hsplit himage
    refine ⟨HexRecord.size_le_of_readFrom hempty himage, ?_⟩
    rw [hsplit, HexRecord.readFrom_append himage]

/-- A record that goes beyond memory, on a line behind a comment and an empty line. -/
theorem record_format_beyond_memory :
    HexRecord.HasHeader "v2.0 raw\n3*+0f # pad\n\n65534*1 ?".toList ∧
      HexRecord.HasTokens "v2.0 raw\n3*+0f # pad\n\n65534*1 ?".toList
        [(2, "3*+0f".toList), (4, "65534*1".toList), (4, "?".toList)] ∧
      HexRecord.parse "v2.0 raw\n3*+0f # pad\n\n65534*1 ?".toList =
        .error (.value 4 "65534*1") ∧
      HexRecord.readFrom #[] [(2, "3*+0f".toList)] = .ok #[15, 15, 15] ∧
      (#[15, 15, 15] : Image).size ≤ 65536 := by
  obtain ⟨text, htext⟩ : ∃ text, text = "v2.0 raw\n3*+0f # pad\n\n65534*1 ?".toList := ⟨_, rfl⟩
  obtain ⟨ts, hts⟩ : ∃ ts, ts =
      [(2, "3*+0f".toList), (4, "65534*1".toList), (4, "?".toList)] := ⟨_, rfl⟩
  rw [← htext, ← hts]
  have hlines : Text.lines text =
      ["v2.0 raw".toList, "3*+0f # pad".toList, [], "65534*1 ?".toList] := by
    rw [htext]
    decide +kernel
  have htrim : Text.trim "v2.0 raw".toList = "v2.0 raw".toList := by decide +kernel
  have htokens : HexRecord.HasTokens text ts := by
    refine ⟨_, _, hlines, htrim, HexRecord.linesTokens_iff.2 ?_⟩
    rw [hts]
    decide +kernel
  have hfirst : HexRecord.IsRun "3*+0f".toList 3 15 :=
    HexRecord.readRun?_eq_some_iff.1 (by decide +kernel)
  have hsecond : HexRecord.IsRun "65534*1".toList 65534 1 :=
    HexRecord.readRun?_eq_some_iff.1 (by decide +kernel)
  have hfault : HexRecord.FirstFault 0 ts (4, "65534*1".toList) := by
    refine ⟨[(2, "3*+0f".toList)], [(4, "?".toList)], [(3, 15)], hts, .cons hfirst .nil,
      by decide, ?_⟩
    intro n w hrun
    obtain ⟨rfl, -⟩ := hsecond.unique hrun
    decide
  have hread : HexRecord.readFrom #[] [(2, "3*+0f".toList)] = .ok #[15, 15, 15] := by
    decide +kernel
  obtain ⟨-, herror, hroom⟩ := (record_format text).2.2 ts htokens
  exact ⟨⟨_, _, hlines, htrim⟩, htokens, (herror _).2 ⟨_, hfault, rfl⟩, hread,
    (hroom [(2, "3*+0f".toList)] _ _ hts hread).1⟩

end WordMachine
