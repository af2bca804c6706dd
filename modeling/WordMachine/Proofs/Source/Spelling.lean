import WordMachine.Proofs.Source.Edit

/-!
# Words that are spelled out on a line

A text that consists of tokens with blanks and commas between them, in the way that instructions are
printed (`Line.Spells`). A token holds no separator and begins no comment (`Line.IsToken`), whatever
else it is made of. The words are the tokens of the text, there is nothing to trim at its ends, and
it is the text of an instruction on a single line unless it begins like the declaration of a label.
-/

namespace WordMachine

namespace Line

/-! ## Pieces between separators -/

/-- What stands between the separators of a text, comment included. -/
def pieces (text : List Char) : List (List Char) :=
  (text.splitOnP isSeparator).filter fun token => !token.isEmpty

theorem pieces_eq_words (text : List Char) : pieces text = Text.words isSeparator text :=
  rfl

/-! ## Tokens -/

/-- Whether a text can be a token of a line. -/
structure IsToken (w : List Char) : Prop where
  ne_nil : w ≠ []
  no_separator : ∀ c ∈ w, isSeparator c = false
  no_comment : startsComment w = false

theorem isToken_of_mem_tokens {text w : List Char} (h : w ∈ tokens text) : IsToken w := by
  rw [tokens_eq_words] at h
  obtain ⟨hne, hseparator⟩ := Text.ne_nil_of_mem_words ((List.takeWhile_prefix _).subset h)
  have hcomment := List.mem_takeWhile_imp h
  exact ⟨hne, hseparator, by simpa using hcomment⟩

theorem startsComment_cons {c : Char} {cs : List Char} :
    startsComment (c :: cs) = true ↔ c = ';' := by
  simp [startsComment]

namespace IsToken

/-- A text without separators and semicolons is a token. -/
theorem of_forall {w : List Char} (hne : w ≠ [])
    (hplain : ∀ c ∈ w, isSeparator c = false ∧ c ≠ ';') : IsToken w := by
  refine ⟨hne, fun c hc => (hplain c hc).1, Bool.eq_false_iff.2 fun h => ?_⟩
  obtain ⟨c, cs, rfl⟩ := List.exists_cons_of_ne_nil hne
  exact (hplain c List.mem_cons_self).2 (startsComment_cons.1 h)

theorem not_mem_newline {w : List Char} (h : IsToken w) : '\n' ∉ w := by
  intro hnewline
  exact absurd (h.no_separator '\n' hnewline) (by decide)

end IsToken

/-! ## Spelling -/

/-- Whether a text spells words out: they stand between its separators, and it begins and ends with
one of them. -/
structure Spells (text : List Char) (words : List (List Char)) : Prop where
  pieces_eq : pieces text = words
  no_comment : ∀ w ∈ words, startsComment w = false
  no_newline : '\n' ∉ text
  first : ∃ c cs, text = c :: cs ∧ isSeparator c = false
  last : ∃ cs c, text = cs ++ [c] ∧ isSeparator c = false

namespace Spells

theorem word {w : List Char} (h : IsToken w) : Spells w [w] := by
  refine ⟨Text.words_eq_singleton h.ne_nil h.no_separator, ?_, h.not_mem_newline, ?_, ?_⟩
  · exact List.forall_mem_singleton.2 h.no_comment
  · obtain ⟨c, cs, rfl⟩ := List.exists_cons_of_ne_nil h.ne_nil
    exact ⟨c, cs, rfl, h.no_separator c List.mem_cons_self⟩
  · have hlast : w.getLast h.ne_nil ∈ w := List.getLast_mem h.ne_nil
    exact ⟨w.dropLast, w.getLast h.ne_nil, (List.dropLast_append_getLast h.ne_nil).symm,
      h.no_separator _ hlast⟩

section Separated

variable {sep : List Char} (hne : sep ≠ [])
  (hsep : ∀ c ∈ sep, isSeparator c = true ∧ c ≠ '\n')

include hne hsep

theorem append {xs ys : List Char} {ws vs : List (List Char)} (hxs : Spells xs ws)
    (hys : Spells ys vs) : Spells (xs ++ sep ++ ys) (ws ++ vs) := by
  refine ⟨?_, ?_, ?_, ?_, ?_⟩
  · rw [pieces_eq_words, Text.words_append_append (fun c hc => (hsep c hc).1) hne,
      ← pieces_eq_words, ← pieces_eq_words, hxs.pieces_eq, hys.pieces_eq]
  · intro w hw
    rcases List.mem_append.1 hw with hw | hw
    · exact hxs.no_comment w hw
    · exact hys.no_comment w hw
  · intro hnewline
    rcases List.mem_append.1 hnewline with hnewline | hnewline
    · rcases List.mem_append.1 hnewline with hnewline | hnewline
      · exact hxs.no_newline hnewline
      · exact (hsep _ hnewline).2 rfl
    · exact hys.no_newline hnewline
  · obtain ⟨c, cs, rfl, hc⟩ := hxs.first
    exact ⟨c, cs ++ sep ++ ys, by simp, hc⟩
  · obtain ⟨cs, c, rfl, hc⟩ := hys.last
    exact ⟨xs ++ sep ++ cs, c, by simp, hc⟩

/-- Tokens are spelled out by joining them with separators. -/
theorem intercalate {ws : List (List Char)} (hws : ws ≠ []) (htokens : ∀ w ∈ ws, IsToken w) :
    Spells (sep.intercalate ws) ws := by
  induction ws with
  | nil => exact absurd rfl hws
  | cons w ws ih =>
    have hw : Spells w [w] := .word (htokens w List.mem_cons_self)
    cases ws with
    | nil =>
      rw [List.intercalate_singleton]
      exact hw
    | cons v ws =>
      have hrest := ih (List.cons_ne_nil v ws) fun u hu => htokens u (List.mem_cons_of_mem _ hu)
      rw [List.intercalate_cons_cons]
      exact hw.append hne hsep hrest

end Separated

/-! ## Reading what is spelled out -/

section

variable {text : List Char} {words : List (List Char)} (h : Spells text words)

include h

theorem tokens_eq : tokens text = words := by
  have hpieces : tokens text = (pieces text).takeWhile fun token => !startsComment token := rfl
  rw [hpieces, h.pieces_eq, List.takeWhile_eq_self_iff]
  intro w hw
  rw [h.no_comment w hw]
  rfl

theorem ne_nil : text ≠ [] := by
  obtain ⟨c, cs, rfl, -⟩ := h.first
  exact List.cons_ne_nil c cs

theorem trim_eq : Text.trim text = text := by
  have hblank {c : Char} (hc : isSeparator c = false) : ¬Text.isBlank c = true := by
    rw [isSeparator, Bool.or_eq_false_iff] at hc
    simp [hc.1]
  have hstart : Text.trimStart text = text := by
    obtain ⟨c, cs, rfl, hc⟩ := h.first
    exact List.dropWhile_cons_of_neg (hblank hc)
  obtain ⟨cs, c, rfl, hc⟩ := h.last
  rw [Text.trim, hstart]
  exact List.rdropWhile_concat_neg _ _ _ (hblank hc)

theorem kind_eq (hlabel : text.head? ≠ some ':') : Kind.ofText text = .instruction := by
  have htrim := h.trim_eq
  have hpieces := h.pieces_eq
  obtain ⟨c, cs, rfl, hc⟩ := h.first
  have hcolon : c ≠ ':' := by
    rintro rfl
    exact hlabel rfl
  have hsemicolon : c ≠ ';' := by
    rintro rfl
    -- The first word begins with the semicolon.
    obtain ⟨w, ws, hwords⟩ := Text.words_cons_of_not hc cs
    have hmem : ';' :: w ∈ words := by
      rw [← hpieces, pieces_eq_words, hwords]
      exact List.mem_cons_self
    exact absurd (startsComment_cons.2 rfl) (Bool.eq_false_iff.1 (h.no_comment _ hmem))
  rw [Kind.ofText_of_trim htrim, if_neg hsemicolon, if_neg hcolon]

end

end Spells

end Line

end WordMachine
