import Mathlib.Data.String.Basic
import WordMachine.Proofs.Instruction.LetterCase
import WordMachine.Proofs.Lint.Checks
import WordMachine.Proofs.Source.Register
import WordMachine.Proofs.Source.Tokens

/-!
# Missing commas

When a comma is found missing behind the first operand. The operand is looked for behind as many
bytes as the mnemonic has, with blanks skipped in front of them and behind them, but no commas.
Where no comma stands in front of the operand it is found where it is, and a comma is missing if
none stands between it and the second operand; a comma between the mnemonic and the operand hides
the operand (`lacksComma_iff_of_blank`). A comma in front of the mnemonic counts among the bytes, so
that the operand can be found in the mnemonic only (`lacksComma_iff_of_comma`). No register is found
there (`not_foundInMnemonic`).
-/

namespace WordMachine

/-! ## Layout -/

namespace Text

theorem Joined.exists_of_cons {sep : Char → Bool} {w text : List Char} {ws : List (List Char)}
    (h : Joined sep (w :: ws) text) : ∃ rest, text = w ++ rest := by
  cases h with
  | single => exact ⟨[], (List.append_nil w).symm⟩
  | cons => exact ⟨_, List.append_assoc ..⟩

end Text

namespace Line

/-- Where a mnemonic and its first two operands stand in a text, and what is around them. -/
structure Layout (text mnemonic first second : List Char) where
  before : List Char
  gap : List Char
  between : List Char
  after : List Char
  text_eq : text = before ++ (mnemonic ++ (gap ++ (first ++ (between ++ (second ++ after)))))
  isGap_before : Text.IsGap isSeparator before
  isGap_gap : Text.IsGap isSeparator gap
  isGap_between : Text.IsGap isSeparator between
  gap_ne_nil : gap ≠ []

/-- The tokens of a text stand in it. -/
theorem nonempty_layout {text mnemonic first second : List Char} {more : List (List Char)}
    (h : tokens text = mnemonic :: first :: second :: more) :
    Nonempty (Layout text mnemonic first second) := by
  have hlaid := laidOut_tokens text
  rw [h] at hlaid
  obtain ⟨before, body, rest, htext, hbefore, hbody⟩ : ∃ before body rest,
      text = before ++ (body ++ rest) ∧ Text.IsGap isSeparator before ∧
        Text.Joined isSeparator (mnemonic :: first :: second :: more) body := by
    cases hlaid with
    | bare hbefore hbody => exact ⟨_, _, _, List.append_assoc .., hbefore, hbody⟩
    | @commented before body after hbefore hbody _ _ comment =>
      exact ⟨before, body, after ++ ';' :: comment, by simp, hbefore, hbody⟩
  cases hbody with
  | cons hgap hgapne hbody =>
    cases hbody with
    | cons hbetween _ hbody =>
      obtain ⟨after, rfl⟩ := hbody.exists_of_cons
      exact ⟨⟨before, _, _, after ++ rest, by rw [htext]; simp, hbefore, hgap, hbetween,
        hgapne⟩⟩

end Line

/-! ## Separators that are skipped -/

theorem Line.isBlank_of_isSeparator {c : Char} (h : isSeparator c = true) (hc : c ≠ ',') :
    Text.isBlank c = true := by
  rw [isSeparator, Bool.or_eq_true, beq_iff_eq] at h
  exact h.resolve_right hc

/-- Where something is left of a text, what stands behind the text is left too. -/
theorem Text.trimStart_append {cs : List Char} (hne : trimStart cs ≠ []) (ds : List Char) :
    trimStart (cs ++ ds) = trimStart cs ++ ds := by
  unfold trimStart at *
  rw [List.dropWhile_append, if_neg fun h => hne (List.isEmpty_iff.1 h)]

theorem Line.IsToken.head?_append {w : List Char} (hw : IsToken w) (cs : List Char) :
    ∀ c, (w ++ cs).head? = some c → isSeparator c = false := by
  obtain ⟨d, w, rfl⟩ := List.exists_cons_of_ne_nil hw.ne_nil
  rintro c ⟨⟩
  exact hw.no_separator d List.mem_cons_self

/-- Nothing is skipped where no separator is at the front. -/
theorem trimStart_eq_self {cs : List Char}
    (hcs : ∀ c, cs.head? = some c → Line.isSeparator c = false) : Text.trimStart cs = cs := by
  cases cs with
  | nil => rfl
  | cons c cs =>
    have hc : Text.isBlank c = false := (Bool.or_eq_false_iff.1 (hcs c rfl)).1
    exact List.dropWhile_cons_of_neg (by simp [hc])

/-- A text that ends as a token does is not skipped as a whole. -/
theorem trimStart_ne_nil {xs w skipped part : List Char} (hw : Line.IsToken w)
    (h : xs ++ w = skipped ++ part) (hne : part ≠ []) : Text.trimStart part ≠ [] := by
  intro hnil
  have hlast : w.getLast? = part.getLast? := by
    have h := congrArg List.getLast? h
    rwa [List.getLast?_append_of_ne_nil _ hw.ne_nil, List.getLast?_append_of_ne_nil _ hne] at h
  rw [List.getLast?_eq_some_getLast hw.ne_nil] at hlast
  have hsep := Line.isSeparator_of_isBlank
    (List.dropWhile_eq_nil_iff.1 hnil _ (List.mem_of_getLast? hlast.symm))
  rw [hw.no_separator _ (List.getLast_mem hw.ne_nil)] at hsep
  cases hsep

section Gap

variable {gap cs : List Char} (hgap : Text.IsGap Line.isSeparator gap)

include hgap

/-- Separators that are no commas are skipped. -/
theorem trimStart_gap_append (hcomma : ',' ∉ gap)
    (hcs : ∀ c, cs.head? = some c → Line.isSeparator c = false) :
    Text.trimStart (gap ++ cs) = cs := by
  have hblank : ∀ c ∈ gap, Text.isBlank c = true := by
    intro c hc
    exact Line.isBlank_of_isSeparator (hgap c hc) fun h => hcomma (h ▸ hc)
  rw [Text.trimStart, List.dropWhile_append_of_pos hblank]
  exact trimStart_eq_self hcs

/-- A comma among separators is not skipped. -/
theorem head?_trimStart_gap_append (hcomma : ',' ∈ gap) (cs : List Char) :
    (Text.trimStart (gap ++ cs)).head? = some ',' := by
  induction gap with
  | nil => cases hcomma
  | cons c gap ih =>
    by_cases hc : c = ','
    · rw [Text.trimStart, List.cons_append, hc, List.dropWhile_cons_of_neg (by decide)]
      rfl
    · have hblank := Line.isBlank_of_isSeparator (hgap c List.mem_cons_self) hc
      rw [Text.trimStart, List.cons_append, List.dropWhile_cons_of_pos hblank]
      exact ih (fun d hd => hgap d (List.mem_cons_of_mem c hd))
        ((List.mem_cons.1 hcomma).resolve_left (Ne.symm hc))

theorem head?_trimStart_eq_comma_iff {w : List Char} (hw : Line.IsToken w) :
    (Text.trimStart (gap ++ (w ++ cs))).head? = some ',' ↔ ',' ∈ gap := by
  constructor
  · intro hhead
    by_contra hcomma
    rw [trimStart_gap_append hgap hcomma (hw.head?_append cs)] at hhead
    exact absurd (hw.head?_append cs _ hhead) (by decide)
  · exact fun hcomma => head?_trimStart_gap_append hgap hcomma _

end Gap

/-! ## The search for the operand -/

namespace Lint

/-- The bytes that are dropped are those of some characters. -/
theorem dropBytes?_eq_some_iff {n : Nat} {cs rest : List Char} :
    dropBytes? n cs = some rest ↔ ∃ skipped, cs = skipped ++ rest ∧ String.utf8Len skipped = n := by
  induction cs generalizing n with
  | nil =>
    cases n with
    | zero => simp [dropBytes?, eq_comm]
    | succ n =>
      rw [dropBytes?]
      constructor
      · intro h
        cases h
      · rintro ⟨skipped, h, hlength⟩
        obtain ⟨rfl, rfl⟩ := List.append_eq_nil_iff.1 h.symm
        cases hlength
  | cons c cs ih =>
    cases n with
    | zero => simp [dropBytes?]
    | succ n =>
      rw [dropBytes?]
      constructor
      · intro h
        split at h
        · next hle =>
          obtain ⟨skipped, rfl, hlength⟩ := ih.1 h
          refine ⟨c :: skipped, rfl, ?_⟩
          rw [String.utf8Len_cons, hlength, Nat.sub_add_cancel hle]
        · cases h
      · rintro ⟨skipped, h, hlength⟩
        cases skipped with
        | nil => cases hlength
        | cons d skipped =>
          obtain ⟨rfl, rfl⟩ := List.cons.inj h
          rw [String.utf8Len_cons] at hlength
          rw [if_pos (by omega), ih]
          exact ⟨skipped, rfl, by omega⟩

section Search

variable {line mnemonic first skipped rest : List Char}

/-- What is looked at is what stands behind the characters that are skipped. -/
theorem lacksComma_of_skipped (hline : Text.trimStart line = skipped ++ rest)
    (hlength : String.utf8Len skipped = mnemonic.length) :
    lacksComma line mnemonic first = true ↔
      ∃ behind, Text.trimStart rest = first ++ behind ∧
        (Text.trimStart behind).head? ≠ some ',' := by
  have hdrop : dropBytes? mnemonic.length (Text.trimStart line) = some rest :=
    dropBytes?_eq_some_iff.2 ⟨skipped, hline, hlength⟩
  simp only [lacksComma, hdrop, Bool.and_eq_true, List.isPrefixOf_iff_prefix, bne_iff_ne]
  constructor
  · rintro ⟨⟨behind, hfront⟩, hhead⟩
    rw [← hfront, List.drop_left] at hhead
    exact ⟨behind, hfront.symm, hhead⟩
  · rintro ⟨behind, hfront, hhead⟩
    rw [hfront, List.drop_left]
    exact ⟨List.prefix_append first behind, hhead⟩

theorem exists_skipped (h : lacksComma line mnemonic first = true) :
    ∃ skipped rest, Text.trimStart line = skipped ++ rest ∧
      String.utf8Len skipped = mnemonic.length := by
  cases hdrop : dropBytes? mnemonic.length (Text.trimStart line) with
  | none =>
    rw [lacksComma, hdrop] at h
    cases h
  | some rest =>
    obtain ⟨skipped, hskipped⟩ := dropBytes?_eq_some_iff.1 hdrop
    exact ⟨skipped, rest, hskipped⟩

end Search

/-! ## Operands among separators -/

/-- A token in front of separators ends before them. -/
theorem exists_of_append_eq_append_gap {w xs ys gap zs : List Char} (hw : Line.IsToken w)
    (hgap : Text.IsGap Line.isSeparator gap) (hne : gap ≠ [])
    (h : w ++ ys = xs ++ (gap ++ zs)) : ∃ inner, xs = w ++ inner ∧ ys = inner ++ (gap ++ zs) := by
  rcases List.append_eq_append_iff.1 h with ⟨inner, hxs, hys⟩ | ⟨cs, rfl, htail⟩
  · exact ⟨inner, hxs, hys⟩
  · cases cs with
    | nil => exact ⟨[], by simp, by simpa using htail.symm⟩
    | cons c cs =>
      obtain ⟨d, gap, rfl⟩ := List.exists_cons_of_ne_nil hne
      obtain ⟨rfl, -⟩ := List.cons.inj htail
      have hsep := hgap d List.mem_cons_self
      rw [hw.no_separator d (by simp)] at hsep
      cases hsep

/-- A token behind separators begins behind them. -/
theorem exists_of_append_eq_gap_append {w xs ys gap zs : List Char} (hw : Line.IsToken w)
    (hgap : Text.IsGap Line.isSeparator gap) (h : xs ++ (w ++ ys) = gap ++ zs) :
    ∃ front, xs = gap ++ front ∧ zs = front ++ (w ++ ys) := by
  rcases List.append_eq_append_iff.1 h with ⟨cs, rfl, hw'⟩ | ⟨front, hxs, hzs⟩
  · cases cs with
    | nil => exact ⟨[], by simp, by simpa using hw'.symm⟩
    | cons c cs =>
      obtain ⟨d, w, rfl⟩ := List.exists_cons_of_ne_nil hw.ne_nil
      obtain ⟨rfl, -⟩ := List.cons.inj hw'
      have hsep := hgap d (by simp)
      rw [hw.no_separator d List.mem_cons_self] at hsep
      cases hsep
  · exact ⟨front, hxs, hzs⟩

/-- Whether the first operand is found in the mnemonic, with a rest of the mnemonic behind it. What
stands in front of the mnemonic from the first comma on is skipped for a part of it. -/
inductive FoundInMnemonic (before mnemonic first inner : List Char) : Prop
  | intro (skipped blanks front : List Char)
      (hskipped : Text.trimStart before ++ front = skipped ++ blanks)
      (hlength : String.utf8Len skipped = mnemonic.length)
      (hblanks : ∀ c ∈ blanks, Text.isBlank c = true)
      (hmnemonic : mnemonic = front ++ (first ++ inner))

section Layout

variable {text mnemonic first second : List Char} (w : Line.Layout text mnemonic first second)
  (hmnemonic : Line.IsToken mnemonic) (hfirst : Line.IsToken first)
  (hsecond : Line.IsToken second) (hascii : String.utf8Len mnemonic = mnemonic.length)

include hmnemonic hfirst hsecond hascii in
/-- Where no comma stands in front of the mnemonic, a comma is missing if there is none in front of
the second operand. -/
theorem lacksComma_iff_of_blank (hbefore : ',' ∉ w.before) :
    lacksComma text mnemonic first = true ↔ ',' ∉ w.gap ∧ ',' ∉ w.between := by
  have htrim : Text.trimStart text =
      mnemonic ++ (w.gap ++ (first ++ (w.between ++ (second ++ w.after)))) := by
    exact (congrArg Text.trimStart w.text_eq).trans
      (trimStart_gap_append w.isGap_before hbefore (hmnemonic.head?_append _))
  rw [lacksComma_of_skipped htrim hascii]
  by_cases hgap : ',' ∈ w.gap
  · have hhead := head?_trimStart_gap_append w.isGap_gap hgap
      (first ++ (w.between ++ (second ++ w.after)))
    simp only [hgap, not_true_eq_false, false_and, iff_false, not_exists]
    rintro behind ⟨hfound, -⟩
    rw [hfound] at hhead
    exact absurd (hfirst.head?_append behind _ hhead) (by decide)
  · rw [trimStart_gap_append w.isGap_gap hgap (hfirst.head?_append _)]
    simp only [hgap, not_false_eq_true, true_and, List.append_cancel_left_eq, ne_eq,
      exists_eq_left', head?_trimStart_eq_comma_iff w.isGap_between hsecond]

/-- Where a comma stands in front of the mnemonic, the text is skipped up to the first one. -/
theorem trimStart_of_comma (hbefore : ',' ∈ w.before) :
    Text.trimStart w.before ≠ [] ∧
      Text.trimStart text = Text.trimStart w.before ++
        (mnemonic ++ (w.gap ++ (first ++ (w.between ++ (second ++ w.after))))) := by
  have hhead := head?_trimStart_gap_append w.isGap_before hbefore []
  rw [List.append_nil] at hhead
  have hne : Text.trimStart w.before ≠ [] := by
    intro hnil
    rw [hnil] at hhead
    cases hhead
  exact ⟨hne, (congrArg Text.trimStart w.text_eq).trans (Text.trimStart_append hne _)⟩

/-- What is found behind a part of the mnemonic is found in the mnemonic. -/
theorem exists_foundInMnemonic {before gap skipped rest behind zs : List Char}
    (hbefore : Text.IsGap Line.isSeparator (Text.trimStart before))
    (hne : Text.trimStart before ≠ []) (hgap : Text.IsGap Line.isSeparator gap) (hgapne : gap ≠ [])
    (hmnemonic : Line.IsToken mnemonic) (hfirst : Line.IsToken first)
    (hascii : String.utf8Len mnemonic = mnemonic.length)
    (hline : skipped ++ rest = Text.trimStart before ++ mnemonic ++ (gap ++ zs))
    (hlength : String.utf8Len skipped = mnemonic.length)
    (hrest : Text.trimStart rest = first ++ behind) :
    ∃ inner, FoundInMnemonic before mnemonic first inner ∧ behind = inner ++ (gap ++ zs) := by
  -- What is skipped is shorter than what ends with the mnemonic, by what stands in front of it.
  have hshorter : String.utf8Len skipped < String.utf8Len (Text.trimStart before ++ mnemonic) := by
    have hpos : String.utf8Len (Text.trimStart before) ≠ 0 := fun h =>
      hne (String.utf8Len_eq_zero.1 h)
    rw [String.utf8Len_append]
    omega
  obtain ⟨part, hpart, rfl⟩ : ∃ part,
      Text.trimStart before ++ mnemonic = skipped ++ part ∧ rest = part ++ (gap ++ zs) := by
    rcases List.append_eq_append_iff.1 hline with ⟨part, h, h'⟩ | ⟨cs, h, -⟩
    · exact ⟨part, h, h'⟩
    · rw [h, String.utf8Len_append] at hshorter
      omega
  have hpartne : part ≠ [] := by
    rintro rfl
    rw [hpart, List.append_nil] at hshorter
    exact Nat.lt_irrefl _ hshorter
  rw [Text.trimStart_append (trimStart_ne_nil hmnemonic hpart hpartne)] at hrest
  obtain ⟨inner, hinner, hbehind⟩ :=
    exists_of_append_eq_append_gap hfirst hgap hgapne hrest.symm
  have hblanks : part.takeWhile Text.isBlank ++ (first ++ inner) = part := by
    rw [← hinner]
    exact List.takeWhile_append_dropWhile
  rw [← hblanks, ← List.append_assoc] at hpart
  obtain ⟨front, hfront, hmnemonic'⟩ :=
    exists_of_append_eq_gap_append hfirst hbefore hpart.symm
  exact ⟨inner, .intro _ _ front hfront.symm hlength (fun c hc => List.mem_takeWhile_imp hc)
    hmnemonic', hbehind⟩

include hmnemonic hfirst in
/-- An operand that is found in the mnemonic lacks a comma if none follows on it. -/
theorem lacksComma_of_foundInMnemonic {inner : List Char} (hbefore : ',' ∈ w.before)
    (hfound : FoundInMnemonic w.before mnemonic first inner) (hgap : inner = [] → ',' ∉ w.gap) :
    lacksComma text mnemonic first = true := by
  cases hfound with
  | intro skipped blanks front hskipped hlength hblanks hinner =>
    have hfront : Text.trimStart w.before ++ mnemonic = skipped ++ blanks ++ (first ++ inner) := by
      rw [← hskipped, List.append_assoc, ← hinner]
    have hline : Text.trimStart text = skipped ++ (blanks ++ (first ++ (inner ++
        (w.gap ++ (first ++ (w.between ++ (second ++ w.after))))))) := by
      rw [(trimStart_of_comma w hbefore).2, ← List.append_assoc, hfront]
      simp only [List.append_assoc]
    have hblankgap : Text.IsGap Line.isSeparator blanks := fun c hc =>
      Line.isSeparator_of_isBlank (hblanks c hc)
    have hnocomma : ',' ∉ blanks := fun hc => absurd (hblanks ',' hc) (by decide)
    refine (lacksComma_of_skipped hline hlength).2
      ⟨_, trimStart_gap_append hblankgap hnocomma (hfirst.head?_append _), ?_⟩
    cases inner with
    | nil => exact mt (head?_trimStart_eq_comma_iff w.isGap_gap hfirst).1 (hgap rfl)
    | cons c inner =>
      -- A letter of the mnemonic follows.
      have hletter (cs : List Char) : ∀ d, (c :: inner ++ cs).head? = some d →
          Line.isSeparator d = false := by
        rintro d ⟨⟩
        exact hmnemonic.no_separator c (by rw [hinner]; simp)
      rw [trimStart_eq_self (hletter _)]
      exact fun h => absurd (hletter _ _ h) (by decide)

include hmnemonic hfirst hascii in
/-- Where a comma stands in front of the mnemonic, one is missing if the operand is found in the
mnemonic and no comma follows on it there. -/
theorem lacksComma_iff_of_comma (hbefore : ',' ∈ w.before) :
    lacksComma text mnemonic first = true ↔
      ∃ inner, FoundInMnemonic w.before mnemonic first inner ∧ (inner = [] → ',' ∉ w.gap) := by
  constructor
  · intro h
    obtain ⟨hne, htrim⟩ := trimStart_of_comma w hbefore
    rw [← List.append_assoc] at htrim
    have hsub : Text.IsGap Line.isSeparator (Text.trimStart w.before) := fun c hc =>
      w.isGap_before c ((List.dropWhile_suffix _).subset hc)
    obtain ⟨skipped, rest, hline, hlength⟩ := exists_skipped h
    obtain ⟨behind, hbehind, hhead⟩ := (lacksComma_of_skipped hline hlength).1 h
    obtain ⟨inner, hinner, rfl⟩ := exists_foundInMnemonic hsub hne w.isGap_gap w.gap_ne_nil
      hmnemonic hfirst hascii (hline.symm.trans htrim) hlength hbehind
    refine ⟨inner, hinner, fun hnil => ?_⟩
    rwa [hnil, List.nil_append, ne_eq, head?_trimStart_eq_comma_iff w.isGap_gap hfirst] at hhead
  · rintro ⟨inner, hfound, hgap⟩
    exact lacksComma_of_foundInMnemonic w hmnemonic hfirst hbefore hfound hgap

end Layout

end Lint

/-! ## Mnemonics -/

namespace Op

variable {word : List Char} {op : Op} (h : ofMnemonic? word = some op)

include h

theorem lower_of_ofMnemonic? : word.map Char.toLower = op.mnemonic.toList := by
  have hfound := List.find?_some h
  exact (beq_iff_eq.1 hfound).symm

/-- Letters that are spelt in ASCII and are no decimal digits. -/
theorem letter_of_mem_mnemonic {c : Char} (hc : c ∈ word) :
    c.utf8Size = 1 ∧ Text.digit? 10 c = none := by
  have hall : all.all (fun op => op.mnemonic.toList.all fun c =>
      c.utf8Size == 1 && (Text.digit? 10 c).isNone) = true := by decide +kernel
  have hsize : c.toLower.utf8Size = c.utf8Size :=
    Text.forall_toLower (P := fun c c' => c'.utf8Size = c.utf8Size) (fun _ => rfl)
      (by decide +kernel) c
  have hmem : c.toLower ∈ op.mnemonic.toList := by
    rw [← lower_of_ofMnemonic? h]
    exact List.mem_map_of_mem hc
  have hletter := List.all_eq_true.1 (List.all_eq_true.1 hall op op.mem_all) _ hmem
  rw [Bool.and_eq_true, beq_iff_eq, Option.isNone_iff_eq_none, hsize, Text.digit?_toLower]
    at hletter
  exact hletter

theorem utf8Len_mnemonic : String.utf8Len word = word.length := by
  have hsize : ∀ c ∈ word, c.utf8Size = 1 := fun c hc => (letter_of_mem_mnemonic h hc).1
  clear h
  induction word with
  | nil => rfl
  | cons c cs ih =>
    rw [String.utf8Len_cons, List.length_cons, hsize c List.mem_cons_self,
      ih fun d hd => hsize d (List.mem_cons_of_mem c hd)]

end Op

/-- A register has a decimal digit in its name. -/
theorem exists_digit_of_readRegister {token : List Char} {k : UInt8}
    (h : readRegister token = .ok k) : ∃ c ∈ token, ∃ d, Text.digit? 10 c = some d := by
  obtain ⟨-, enclosed, htoken⟩ := readRegister_eq_ok_iff.1 h
  cases htoken with
  | intro hname =>
    cases hname with
    | bare _ hdigits | enclosed _ hdigits =>
      obtain ⟨c, hc⟩ := List.exists_mem_of_ne_nil _ hdigits.ne_nil
      obtain ⟨d, hd⟩ := hdigits.exists_digit? (by decide) hc
      exact ⟨c, by simp [hc], d, hd⟩

namespace Lint

/-- No register is found in a mnemonic. -/
theorem not_foundInMnemonic {before mnemonic first inner : List Char} {op : Op} {k : UInt8}
    (hop : Op.ofMnemonic? mnemonic = some op) (hregister : readRegister first = .ok k) :
    ¬FoundInMnemonic before mnemonic first inner := by
  intro h
  cases h with
  | intro _ _ _ _ _ _ hmnemonic =>
    obtain ⟨c, hc, d, hd⟩ := exists_digit_of_readRegister hregister
    have hmem : c ∈ mnemonic := by
      rw [hmnemonic]
      simp [hc]
    cases (Op.letter_of_mem_mnemonic hop hmem).2.symm.trans hd

/-! ## Reports -/

variable {labels : Labels} {problem : Problem} {op : Op}

theorem check_of_mem_checkOperand {position : Nat} {slot : Slot} {token : List Char}
    (h : problem ∈ checkOperand labels op position slot token) : problem.check ≠ .comma := by
  have hregister {slot : Slot}
      (h : problem ∈ checkParens op position slot token ++ checkRegister op position token) :
      problem.check ≠ .comma := by
    rcases List.mem_append.1 h with h | h
    · rw [check_of_mem_checkParens h]
      decide
    · rcases check_of_mem_checkRegister h with h | h
      all_goals
        rw [h]
        decide
  cases slot with
  | register | memory => exact hregister h
  | immediate =>
    rcases check_of_mem_checkImmediate h with h | ⟨name, -, h⟩
    · rw [h]
      decide
    · rw [check_of_mem_checkLabel h]
      decide

/-- A missing comma is reported of the first of two operands, behind which it is not found. -/
theorem missingComma_mem_checkLine_iff {text mnemonic first second : List Char}
    {more : List (List Char)} {token : String} {op' : Op}
    (htokens : Line.tokens text = mnemonic :: first :: second :: more)
    (hop : Op.ofMnemonic? mnemonic = some op) (harity : op.arity = 2) :
    .missingComma token op' ∈ checkLine labels text ↔
      token = String.ofList first ∧ op' = op ∧ lacksComma text mnemonic first = true := by
  rw [checkLine_eq htokens hop, List.mem_append, List.mem_append, checkComma]
  constructor
  · rintro ((hcount | hcomma) | hoperands)
    · cases check_of_mem_checkCount hcount
    · split at hcomma
      · next hlacks =>
        cases List.mem_singleton.1 hcomma
        exact ⟨rfl, rfl, (Bool.and_eq_true_iff.1 hlacks).2⟩
      · cases hcomma
    · obtain ⟨_, _, _, -, hoperand⟩ := mem_checkOperands.1 hoperands
      exact absurd rfl (check_of_mem_checkOperand hoperand)
  · rintro ⟨rfl, rfl, hlacks⟩
    refine .inl (.inr ?_)
    rw [harity, hlacks]
    exact List.mem_singleton_self _

end Lint

/-- Whether lint reports, with the number of a line, that a comma is missing behind a token. -/
def Program.ReportsComma (p : Program) (line : Line) (token : List Char) (op : Op) : Prop :=
  ⟨line.number, .missingComma (String.ofList token) op⟩ ∈ p.lint

/-- **When a missing comma is reported.** Take a line with an operation that takes two operands and
with at least two of them. A missing comma is reported of no other operand than the first, and so it
is, where no comma stands in front of that operand, if none stands between it and the second one and
only then. A comma between the mnemonic and the operand keeps it from being reported. With a comma
in front of the mnemonic it is reported if the operand is found in the mnemonic and no comma is
found behind that place, which is never so if the operand is a register. -/
theorem missing_comma_reported {source : String} {line : Line} {mnemonic first second : List Char}
    {more : List (List Char)} {op : Op}
    (hline : line ∈ (Program.ofSource source).executable.toList)
    (htokens : Line.tokens line.text = mnemonic :: first :: second :: more)
    (hop : Op.ofMnemonic? mnemonic = some op) (harity : op.arity = 2) :
    (∀ token op', (Program.ofSource source).ReportsComma line token op' →
      token = first ∧ op' = op) ∧
    Nonempty (Line.Layout line.text mnemonic first second) ∧
    ∀ w : Line.Layout line.text mnemonic first second,
      (',' ∉ w.before → ',' ∉ w.gap →
        ((Program.ofSource source).ReportsComma line first op ↔ ',' ∉ w.between)) ∧
      (',' ∉ w.before → ',' ∈ w.gap → ¬(Program.ofSource source).ReportsComma line first op) ∧
      (',' ∈ w.before → ((Program.ofSource source).ReportsComma line first op ↔
        ∃ inner, Lint.FoundInMnemonic w.before mnemonic first inner ∧
          (inner = [] → ',' ∉ w.gap))) ∧
      (',' ∈ w.before → ∀ k, readRegister first = .ok k →
        ¬(Program.ofSource source).ReportsComma line first op) := by
  have hreport (token : List Char) (op' : Op) :
      (Program.ofSource source).ReportsComma line token op' ↔
        token = first ∧ op' = op ∧ Lint.lacksComma line.text mnemonic first = true := by
    rw [Program.ReportsComma, Program.mem_lint_number hline,
      Lint.missingComma_mem_checkLine_iff htokens hop harity, String.ofList_inj]
  have htoken {w : List Char} (hw : w ∈ mnemonic :: first :: second :: more) : Line.IsToken w :=
    Line.isToken_of_mem_tokens (htokens ▸ hw)
  have hmnemonic : Line.IsToken mnemonic := htoken (by simp)
  have hfirst : Line.IsToken first := htoken (by simp)
  have hsecond : Line.IsToken second := htoken (by simp)
  have hascii := Op.utf8Len_mnemonic hop
  refine ⟨fun token op' h => ⟨((hreport token op').1 h).1, ((hreport token op').1 h).2.1⟩,
    Line.nonempty_layout htokens, fun w => ?_⟩
  simp only [hreport, true_and]
  refine ⟨fun hbefore hgap => ?_, fun hbefore hgap => ?_, fun hbefore => ?_,
    fun hbefore k hregister => ?_⟩
  · rw [Lint.lacksComma_iff_of_blank w hmnemonic hfirst hsecond hascii hbefore]
    exact and_iff_right hgap
  · rw [Lint.lacksComma_iff_of_blank w hmnemonic hfirst hsecond hascii hbefore]
    exact fun h => h.1 hgap
  · exact Lint.lacksComma_iff_of_comma w hmnemonic hfirst hascii hbefore
  · rw [Lint.lacksComma_iff_of_comma w hmnemonic hfirst hascii hbefore]
    rintro ⟨inner, hfound, -⟩
    exact Lint.not_foundInMnemonic hop hregister hfound

/-- A comma that is missing, and one that is reported as missing and is not. -/
theorem missing_comma_reported_rightly_and_wrongly :
    (Program.ofSource "add r1 r2").ReportsComma ⟨1, "add r1 r2".toList⟩ "r1".toList (.alu .add) ∧
      (Program.ofSource ",li i,r2").ReportsComma ⟨1, ",li i,r2".toList⟩ "i".toList .li := by
  constructor
  · have hline : ⟨1, "add r1 r2".toList⟩ ∈
        (Program.ofSource "add r1 r2").executable.toList := by decide +kernel
    have htokens : Line.tokens "add r1 r2".toList = ["add".toList, "r1".toList, "r2".toList] := by
      decide +kernel
    have hop : Op.ofMnemonic? "add".toList = some (.alu .add) := by decide +kernel
    obtain ⟨-, -, hreported⟩ := missing_comma_reported hline htokens hop rfl
    refine ((hreported ?_).1 ?_ ?_).2 ?_
    · exact
        { before := [], gap := [' '], between := [' '], after := []
          text_eq := by decide +kernel
          isGap_before := List.all_eq_true.1 (by decide)
          isGap_gap := List.all_eq_true.1 (by decide)
          isGap_between := List.all_eq_true.1 (by decide)
          gap_ne_nil := by decide }
    all_goals decide
  · have hline : ⟨1, ",li i,r2".toList⟩ ∈
        (Program.ofSource ",li i,r2").executable.toList := by decide +kernel
    have htokens : Line.tokens ",li i,r2".toList = ["li".toList, "i".toList, "r2".toList] := by
      decide +kernel
    have hop : Op.ofMnemonic? "li".toList = some .li := by decide +kernel
    obtain ⟨-, -, hreported⟩ := missing_comma_reported hline htokens hop rfl
    refine ((hreported ?_).2.2.1 ?_).2 ⟨[], ?_, fun _ => ?_⟩
    · exact
        { before := [','], gap := [' '], between := [','], after := []
          text_eq := by decide +kernel
          isGap_before := List.all_eq_true.1 (by decide)
          isGap_gap := List.all_eq_true.1 (by decide)
          isGap_between := List.all_eq_true.1 (by decide)
          gap_ne_nil := by decide }
    · decide
    · refine .intro [',', 'l'] [] ['l'] ?_ ?_ (List.forall_mem_nil _) ?_
      all_goals decide +kernel
    · decide

/-- Nothing is reported of operands with no comma between them, if one stands behind the
mnemonic. -/
theorem missing_comma_unreported :
    ⟨1, "add, r1 r2".toList⟩ ∈ (Program.ofSource "add, r1 r2").executable.toList ∧
      Line.tokens "add, r1 r2".toList = ["add".toList, "r1".toList, "r2".toList] ∧
      Op.ofMnemonic? "add".toList = some (.alu .add) ∧ (Op.alu .add).arity = 2 ∧
      (∃ w : Line.Layout "add, r1 r2".toList "add".toList "r1".toList "r2".toList,
        ',' ∉ w.between) ∧
      ¬(Program.ofSource "add, r1 r2").ReportsComma ⟨1, "add, r1 r2".toList⟩ "r1".toList
        (.alu .add) := by
  have hlint : (Program.ofSource "add, r1 r2").lint = [] := by decide +kernel
  refine ⟨by decide +kernel, by decide +kernel, by decide +kernel, rfl, ⟨?_, ?_⟩, ?_⟩
  · exact
      { before := [], gap := [',', ' '], between := [' '], after := []
        text_eq := by decide +kernel
        isGap_before := List.all_eq_true.1 (by decide)
        isGap_gap := List.all_eq_true.1 (by decide)
        isGap_between := List.all_eq_true.1 (by decide)
        gap_ne_nil := by decide }
  · decide
  · intro h
    rw [Program.ReportsComma, hlint] at h
    cases h

end WordMachine
