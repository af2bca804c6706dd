import Mathlib.Data.List.DropRight
import Mathlib.Data.List.TakeWhile
import WordMachine.Proofs.Text.Words
import WordMachine.Source.Line

/-!
# Edits that leave a line what it is

Blanks at the ends of a text, and a comment behind an instruction (`Line.Edited`). They change
neither the kind of the line (`Line.Edited.kind_eq`) nor its tokens (`Line.Edited.tokens_eq`), and
what is not an instruction is the same text when it is trimmed, so that a label keeps its name
(`Line.Edited.trim_eq`).
-/

namespace WordMachine

/-! ## Trimming -/

namespace Text

/-- Trimming takes blanks away from both ends. -/
theorem exists_trim (text : List Char) :
    ∃ before after, text = before ++ trim text ++ after ∧
      (∀ c ∈ before, isBlank c = true) ∧ ∀ c ∈ after, isBlank c = true := by
  have hend : trim text ++ (trimStart text).rtakeWhile isBlank = trimStart text :=
    List.rdropWhile_append_rtakeWhile
  refine ⟨text.takeWhile isBlank, (trimStart text).rtakeWhile isBlank, ?_,
    fun c => List.mem_takeWhile_imp, fun c => List.mem_rtakeWhile_imp⟩
  rw [List.append_assoc, hend]
  exact List.takeWhile_append_dropWhile.symm

/-- A trimmed text begins with the first character that is not blank. -/
theorem head?_trim (text : List Char) :
    (trim text).head? = text.find? fun c => !isBlank c := by
  have hend : trim text ++ (trimStart text).rtakeWhile isBlank = trimStart text :=
    List.rdropWhile_append_rtakeWhile
  rw [List.find?_not_eq_head?_dropWhile]
  cases htrim : trim text with
  | nil =>
    have hblank : ∀ c ∈ trimStart text, isBlank c = true := List.rdropWhile_eq_nil_iff.1 htrim
    rw [← List.dropWhile_idempotent]
    exact congrArg List.head? (List.dropWhile_eq_nil_iff.2 hblank).symm
  | cons c cs =>
    have hstart : text.dropWhile isBlank = trimStart text := rfl
    rw [hstart, ← hend, htrim]
    rfl

section Blanks

variable {before after : List Char} (hbefore : ∀ c ∈ before, isBlank c = true)
  (hafter : ∀ c ∈ after, isBlank c = true)

include hbefore hafter

theorem trim_append_append (text : List Char) : trim (before ++ text ++ after) = trim text := by
  have hstart : trimStart (before ++ text ++ after) = trimStart (text ++ after) := by
    rw [trimStart, trimStart, List.append_assoc, List.dropWhile_append_of_pos hbefore]
  rw [trim, trim, hstart, trimStart, trimStart, List.dropWhile_append]
  split
  · next hempty =>
    -- There is nothing but blanks.
    rw [List.isEmpty_iff.1 hempty, List.dropWhile_eq_nil_iff.2 hafter]
  · have hreverse : ∀ c ∈ after.reverse, isBlank c = true := by
      intro c hc
      exact hafter c (List.mem_reverse.1 hc)
    rw [dropWhileEnd, dropWhileEnd, List.reverse_append, List.dropWhile_append_of_pos hreverse]

end Blanks

end Text

namespace Line

/-! ## Kinds -/

theorem Kind.ofText_of_trim {text cs : List Char} {c : Char} (h : Text.trim text = c :: cs) :
    ofText text = if c = ';' then .comment else if c = ':' then .label else .instruction := by
  rw [ofText, h]
  split
  · next heq => exact nomatch heq
  · next heq =>
    obtain ⟨rfl, -⟩ := List.cons.inj heq
    rfl
  · next heq =>
    obtain ⟨rfl, -⟩ := List.cons.inj heq
    rfl
  · next hcomment hlabel =>
    have hc : c ≠ ';' := by
      rintro rfl
      exact hcomment cs rfl
    have hc' : c ≠ ':' := by
      rintro rfl
      exact hlabel cs rfl
    rw [if_neg hc, if_neg hc']

theorem Kind.ofText_of_trim_nil {text : List Char} (h : Text.trim text = []) :
    ofText text = .blank := by
  rw [ofText, h]

/-- The first character that is not blank tells the kind. -/
theorem Kind.ofText_eq {text text' : List Char}
    (h : (text'.find? fun c => !Text.isBlank c) = text.find? fun c => !Text.isBlank c) :
    ofText text' = ofText text := by
  rw [← Text.head?_trim, ← Text.head?_trim] at h
  cases htrim : Text.trim text with
  | nil =>
    rw [htrim, List.head?_nil, List.head?_eq_none_iff] at h
    rw [ofText_of_trim_nil htrim, ofText_of_trim_nil h]
  | cons c cs =>
    rw [htrim, List.head?_cons, List.head?_eq_some_iff] at h
    obtain ⟨cs', htrim'⟩ := h
    rw [ofText_of_trim htrim, ofText_of_trim htrim']

/-! ## Edits -/

/-- Edits of the text of a line. Blanks are added at its ends, and a comment behind an instruction,
with a blank before it. -/
inductive Edited : List Char → List Char → Prop
  | pad {text before after : List Char} (hbefore : ∀ c ∈ before, Text.isBlank c = true)
      (hafter : ∀ c ∈ after, Text.isBlank c = true) : Edited text (before ++ text ++ after)
  | comment {text before gap : List Char} (comment : List Char)
      (hkind : Kind.ofText text = .instruction) (hbefore : ∀ c ∈ before, Text.isBlank c = true)
      (hgap : ∀ c ∈ gap, Text.isBlank c = true) (hne : gap ≠ []) :
      Edited text (before ++ text ++ gap ++ ';' :: comment)

theorem tokens_eq_words (text : List Char) :
    tokens text = (Text.words isSeparator text).takeWhile fun token => !startsComment token :=
  rfl

theorem isSeparator_of_isBlank {c : Char} (h : Text.isBlank c = true) : isSeparator c = true := by
  rw [isSeparator, h, Bool.true_or]

namespace Edited

protected theorem refl (text : List Char) : Edited text text := by
  have hempty : ∀ c ∈ ([] : List Char), Text.isBlank c = true := fun c hc => nomatch hc
  have h : Edited text ([] ++ text ++ []) := .pad hempty hempty
  rwa [List.nil_append, List.append_nil] at h

theorem trim (text : List Char) : Edited (Text.trim text) text := by
  obtain ⟨before, after, htext, hbefore, hafter⟩ := Text.exists_trim text
  have h : Edited (Text.trim text) (before ++ Text.trim text ++ after) := .pad hbefore hafter
  rwa [← htext] at h

variable {text text' : List Char} (h : Edited text text')

include h

theorem subset : text ⊆ text' := by
  cases h with
  | pad => simp
  | comment => simp

theorem kind_eq : Kind.ofText text' = Kind.ofText text := by
  apply Kind.ofText_eq
  have hfind {cs : List Char} (hcs : ∀ c ∈ cs, Text.isBlank c = true) :
      (cs.find? fun c => !Text.isBlank c) = none := by
    rw [List.find?_eq_none]
    intro c hc
    simp [hcs c hc]
  cases h with
  | pad hbefore hafter =>
    rw [List.find?_append, List.find?_append, hfind hbefore, hfind hafter, Option.none_or,
      Option.or_none]
  | comment comment hkind hbefore =>
    -- An instruction has a first character before its comment.
    obtain ⟨c, hc⟩ : ∃ c, (text.find? fun c => !Text.isBlank c) = some c := by
      rw [← Text.head?_trim]
      cases htrim : Text.trim text with
      | nil => exact nomatch (Kind.ofText_of_trim_nil htrim).symm.trans hkind
      | cons c cs => exact ⟨c, rfl⟩
    rw [List.append_assoc, List.find?_append, List.find?_append, hfind hbefore, Option.none_or, hc,
      Option.some_or]

theorem tokens_eq : tokens text' = tokens text := by
  rw [tokens_eq_words, tokens_eq_words]
  cases h with
  | pad hbefore hafter =>
    rw [Text.words_append_gap fun c hc => isSeparator_of_isBlank (hafter c hc),
      Text.words_gap_append fun c hc => isSeparator_of_isBlank (hbefore c hc)]
  | comment comment _ hbefore hgap hne =>
    have hsemicolon : isSeparator ';' = false := by decide
    obtain ⟨w, ws, hwords⟩ := Text.words_cons_of_not hsemicolon comment
    rw [Text.words_append_append (fun c hc => isSeparator_of_isBlank (hgap c hc)) hne, hwords,
      Text.words_gap_append fun c hc => isSeparator_of_isBlank (hbefore c hc),
      List.takeWhile_append]
    split
    · next hall =>
      rw [List.takeWhile_cons_of_neg (by simp [startsComment]), List.append_nil]
      exact ((List.takeWhile_prefix _).eq_of_length hall).symm
    · rfl

/-- A comment cannot be put behind a label. -/
theorem trim_eq (hkind : Kind.ofText text ≠ .instruction) : Text.trim text' = Text.trim text := by
  cases h with
  | pad hbefore hafter => exact Text.trim_append_append hbefore hafter text
  | comment _ hinstruction => exact absurd hinstruction hkind

protected theorem trans {text'' : List Char} (h' : Edited text' text'') : Edited text text'' := by
  have hkind := h.kind_eq
  cases h with
  | @pad before after hbefore hafter =>
    cases h' with
    | @pad before' after' hbefore' hafter' =>
      have h : Edited text (before' ++ before ++ text ++ (after ++ after')) :=
        .pad (List.forall_mem_append.2 ⟨hbefore', hbefore⟩)
          (List.forall_mem_append.2 ⟨hafter, hafter'⟩)
      simpa using h
    | @comment before' gap comment hinstruction hbefore' hgap hne =>
      have h : Edited text (before' ++ before ++ text ++ (after ++ gap) ++ ';' :: comment) :=
        .comment comment (hkind ▸ hinstruction) (List.forall_mem_append.2 ⟨hbefore', hbefore⟩)
          (List.forall_mem_append.2 ⟨hafter, hgap⟩) (List.append_ne_nil_of_right_ne_nil _ hne)
      simpa using h
  | @comment before gap comment hinstruction hbefore hgap hne =>
    -- What is added behind a comment belongs to it.
    cases h' with
    | @pad before' after' hbefore' _ =>
      have h : Edited text (before' ++ before ++ text ++ gap ++ ';' :: (comment ++ after')) :=
        .comment _ hinstruction (List.forall_mem_append.2 ⟨hbefore', hbefore⟩) hgap hne
      simpa using h
    | @comment before' gap' comment' _ hbefore' =>
      have h : Edited text
          (before' ++ before ++ text ++ gap ++ ';' :: (comment ++ gap' ++ ';' :: comment')) :=
        .comment _ hinstruction (List.forall_mem_append.2 ⟨hbefore', hbefore⟩) hgap hne
      simpa using h

end Edited

end Line

end WordMachine
