import WordMachine.Text.Blank

/-!
# The words of a text

What stands between separators, of whatever kind they are (`Text.words`). Separators at either end
of a text make no words, and the words of texts with separators between them are the words of the
one and then of the other (`words_append_append`).
-/

namespace WordMachine.Text

/-- What stands between the separators of a text. -/
def words (sep : Char → Bool) (cs : List Char) : List (List Char) :=
  (cs.splitOnP sep).filter fun word => !word.isEmpty

variable {sep : Char → Bool}

theorem words_eq_singleton {w : List Char} (hne : w ≠ []) (hw : ∀ c ∈ w, sep c = false) :
    words sep w = [w] := by
  simp [words, List.splitOnP_eq_singleton hw, hne]

/-- A word goes on from its first character. -/
theorem words_cons_of_not {c : Char} (hc : sep c = false) (cs : List Char) :
    ∃ w ws, words sep (c :: cs) = (c :: w) :: ws := by
  obtain ⟨w, ws, hsplit⟩ := List.exists_cons_of_ne_nil (List.splitOnP_ne_nil sep cs)
  refine ⟨w, ws.filter fun word => !word.isEmpty, ?_⟩
  rw [words, List.splitOnP_cons_eq_if_modifyHead, hc, hsplit]
  rfl

/-- A piece between separators holds none. -/
theorem not_sep_of_mem_splitOnP {w cs : List Char} (h : w ∈ cs.splitOnP sep) :
    ∀ c ∈ w, sep c = false := by
  induction cs generalizing w with
  | nil =>
    obtain rfl : w = [] := List.mem_singleton.1 h
    exact fun c hc => nomatch hc
  | cons c cs ih =>
    obtain ⟨v, vs, hsplit⟩ := List.exists_cons_of_ne_nil (List.splitOnP_ne_nil sep cs)
    rw [List.splitOnP_cons_eq_if_modifyHead] at h
    split at h
    · rcases List.mem_cons.1 h with rfl | h
      · exact fun c hc => nomatch hc
      · exact ih h
    · next hc =>
      rw [hsplit, List.modifyHead_cons] at h
      rcases List.mem_cons.1 h with rfl | h
      · -- The first piece goes on with the character in front of it.
        refine List.forall_mem_cons.2 ⟨Bool.eq_false_iff.2 hc, ih ?_⟩
        exact hsplit ▸ List.mem_cons_self
      · exact ih (hsplit ▸ List.mem_cons_of_mem v h)

/-- A word holds no separator and at least one character. -/
theorem ne_nil_of_mem_words {w cs : List Char} (h : w ∈ words sep cs) :
    w ≠ [] ∧ ∀ c ∈ w, sep c = false := by
  obtain ⟨hpiece, hne⟩ := List.mem_filter.1 h
  exact ⟨by simpa using hne, not_sep_of_mem_splitOnP hpiece⟩

section Separators

variable {gap : List Char} (hgap : ∀ c ∈ gap, sep c = true)

include hgap

theorem words_gap_append (cs : List Char) : words sep (gap ++ cs) = words sep cs := by
  induction gap with
  | nil => rfl
  | cons c gap ih =>
    have hc : sep c = true := hgap c List.mem_cons_self
    rw [← ih fun d hd => hgap d (List.mem_cons_of_mem _ hd), List.cons_append, words,
      List.splitOnP_cons_eq_if_modifyHead, if_pos hc]
    rfl

/-- Separators separate. -/
theorem words_append_append (hne : gap ≠ []) (xs ys : List Char) :
    words sep (xs ++ gap ++ ys) = words sep xs ++ words sep ys := by
  cases gap with
  | nil => exact absurd rfl hne
  | cons c gap =>
    have hc : sep c = true := hgap c List.mem_cons_self
    have hrest := words_gap_append (fun d hd => hgap d (List.mem_cons_of_mem _ hd)) ys
    rw [← hrest, List.append_assoc, List.cons_append, words, List.splitOnP_append_cons _ _ hc,
      List.filter_append]
    rfl

theorem words_append_gap (cs : List Char) : words sep (cs ++ gap) = words sep cs := by
  by_cases hne : gap = []
  · rw [hne, List.append_nil]
  · have hsplit := words_append_append hgap hne cs []
    rw [List.append_nil] at hsplit
    rw [hsplit]
    exact List.append_nil _

end Separators

end WordMachine.Text
