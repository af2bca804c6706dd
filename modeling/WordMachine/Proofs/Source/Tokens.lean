import WordMachine.Proofs.Source.Spelling
import WordMachine.Proofs.Text.Spacing

/-!
# The tokens of a line

How a line has to be written for given words to be its tokens (`Line.LaidOut`): they stand in order
with separators between and around them, and a comment may follow. A semicolon begins a comment at
the beginning of a word only. The tokens of a line are the words that it is written with, and they
are no others (`tokens_eq_iff`).
-/

namespace WordMachine

namespace Line

/-- Whether a text is words with separators between and around them, and maybe a comment behind
them. A separator stands between the last word and the comment. -/
inductive LaidOut (ws : List (List Char)) : List Char → Prop
  | bare {before body after : List Char} (hbefore : Text.IsGap isSeparator before)
      (hbody : Text.Joined isSeparator ws body) (hafter : Text.IsGap isSeparator after) :
      LaidOut ws (before ++ body ++ after)
  | commented {before body after : List Char} (hbefore : Text.IsGap isSeparator before)
      (hbody : Text.Joined isSeparator ws body) (hafter : Text.IsGap isSeparator after)
      (hsep : ws = [] ∨ after ≠ []) (comment : List Char) :
      LaidOut ws (before ++ body ++ after ++ ';' :: comment)

theorem IsToken.isWord {w : List Char} (h : IsToken w) : Text.IsWord isSeparator w :=
  ⟨h.ne_nil, h.no_separator⟩

/-- Words of which none begins a comment are all tokens. -/
theorem takeWhile_append_of_isToken {ws : List (List Char)} (hws : ∀ w ∈ ws, IsToken w)
    (vs : List (List Char)) :
    ((ws ++ vs).takeWhile fun w => !startsComment w) =
      ws ++ vs.takeWhile fun w => !startsComment w := by
  apply List.takeWhile_append_of_pos
  intro w hw
  rw [(hws w hw).no_comment, Bool.not_false]

/-- The tokens of a text are the first of its words, and a comment begins behind them if there are
others. -/
theorem exists_words_eq (text : List Char) :
    ∃ rest, Text.words isSeparator text = tokens text ++ rest ∧
      (rest = [] ∨ ∃ comment vs, rest = (';' :: comment) :: vs) := by
  refine ⟨(Text.words isSeparator text).dropWhile fun w => !startsComment w, ?_, ?_⟩
  · rw [tokens_eq_words, List.takeWhile_append_dropWhile]
  · have hstop := List.head?_dropWhile_not (fun w => !startsComment w)
      (Text.words isSeparator text)
    cases hrest : (Text.words isSeparator text).dropWhile fun w => !startsComment w with
    | nil => exact .inl rfl
    | cons w vs =>
      rw [hrest, List.head?_cons] at hstop
      have hcomment : startsComment w = true := by simpa using hstop
      cases w with
      | nil => cases hcomment
      | cons c cs =>
        obtain rfl := startsComment_cons.1 hcomment
        exact .inr ⟨cs, vs, rfl⟩

namespace LaidOut

variable {ws : List (List Char)} {text : List Char}

theorem tokens_eq (h : LaidOut ws text) (hws : ∀ w ∈ ws, IsToken w) : tokens text = ws := by
  have hwords : ∀ w ∈ ws, Text.IsWord isSeparator w := fun w hw => (hws w hw).isWord
  rw [tokens_eq_words]
  cases h with
  | bare hbefore hbody hafter =>
    have hspaced : Text.Spaced isSeparator ws _ := .intro hbefore hbody hafter
    rw [hspaced.words_eq hwords]
    have htake := takeWhile_append_of_isToken hws []
    rwa [List.append_nil, List.takeWhile_nil, List.append_nil] at htake
  | @commented before body after hbefore hbody hafter hsep comment =>
    have hspaced : Text.Spaced isSeparator ws _ := .intro hbefore hbody hafter
    have hsemicolon : isSeparator ';' = false := by decide
    obtain ⟨w, vs, hcomment⟩ := Text.words_cons_of_not hsemicolon comment
    have hwords : Text.words isSeparator (before ++ body ++ after ++ ';' :: comment) =
        ws ++ (';' :: w) :: vs := by
      rcases hsep with rfl | hne
      · obtain rfl := hbody.eq_nil
        rw [List.append_nil, Text.words_gap_append (hbefore.append hafter), hcomment,
          List.nil_append]
      · rw [Text.words_append_append hafter hne, Text.words_gap_append hbefore,
          hbody.words_eq hwords, hcomment]
    rw [hwords, takeWhile_append_of_isToken hws,
      List.takeWhile_cons_of_neg (by simp [startsComment]), List.append_nil]

/-- Where all words are tokens, there is no comment. -/
theorem of_spaced (h : Text.Spaced isSeparator ws text) : LaidOut ws text := by
  cases h with
  | intro hbefore hbody hafter => exact .bare hbefore hbody hafter

/-- A word that begins with a semicolon begins the comment. -/
theorem of_spaced_append {comment : List Char} {vs : List (List Char)}
    (h : Text.Spaced isSeparator (ws ++ (';' :: comment) :: vs) text) : LaidOut ws text := by
  cases h with
  | @intro before _ after hbefore hbody hafter =>
    obtain ⟨front, gap, back, rfl, hfront, hgap, hsep⟩ := hbody.exists_of_append
    have hlaid : LaidOut ws (before ++ front ++ gap ++ ';' :: (comment ++ back ++ after)) :=
      .commented hbefore hfront hgap hsep _
    simpa using hlaid

end LaidOut

theorem laidOut_tokens (text : List Char) : LaidOut (tokens text) text := by
  have hspaced : Text.Spaced isSeparator (Text.words isSeparator text) text :=
    Text.spaced_words text
  obtain ⟨rest, hwords, rfl | ⟨comment, vs, rfl⟩⟩ := exists_words_eq text
  · rw [hwords, List.append_nil] at hspaced
    exact .of_spaced hspaced
  · rw [hwords] at hspaced
    exact .of_spaced_append hspaced

end Line

/-- **The tokens of a line are the words that it is written with.** Words are the tokens of a text
if each of them can be a token, separators stand between and around them, and nothing but a comment
stands behind them, and only then. -/
theorem tokens_eq_iff (text : List Char) (ws : List (List Char)) :
    Line.tokens text = ws ↔ (∀ w ∈ ws, Line.IsToken w) ∧ Line.LaidOut ws text := by
  constructor
  · intro h
    subst h
    exact ⟨fun w hw => Line.isToken_of_mem_tokens hw, Line.laidOut_tokens text⟩
  · intro h
    exact h.2.tokens_eq h.1

end WordMachine
