import WordMachine.Text.Lines

/-!
# Lines of texts that are joined

A newline ends a line (`lines_append_newline`). Texts that are joined by newlines come apart into
the same texts, if none of them holds a newline itself, but for an empty text at the end, which is
lost (`exists_intercalate_eq`).
-/

namespace WordMachine.Text

theorem splitOn_of_not_mem {xs : List Char} (hxs : '\n' ∉ xs) : xs.splitOn '\n' = [xs] := by
  apply List.splitOnP_eq_singleton
  intro c hc
  rw [beq_eq_false_iff_ne]
  rintro rfl
  exact hxs hc

theorem lines_append_newline {xs : List Char} (hxs : '\n' ∉ xs) (ys : List Char) :
    lines (xs ++ '\n' :: ys) = xs :: lines ys := by
  have hsplit : (xs ++ '\n' :: ys).splitOn '\n' = xs.splitOn '\n' ++ ys.splitOn '\n' :=
    List.splitOnP_append_cons xs ys rfl
  obtain ⟨y, rest, hrest⟩ := List.exists_cons_of_ne_nil (List.splitOnP_ne_nil (· == '\n') ys)
  have hrest : ys.splitOn '\n' = y :: rest := hrest
  -- What is left behind the newline decides whether the text ends in one.
  simp only [lines, hsplit, splitOn_of_not_mem hxs, hrest, List.singleton_append,
    List.getLast?_cons_cons, List.dropLast_cons_cons]
  split <;> rfl

theorem lines_of_not_mem {xs : List Char} (hne : xs ≠ []) (hxs : '\n' ∉ xs) : lines xs = [xs] := by
  rw [lines, splitOn_of_not_mem hxs, List.getLast?_singleton,
    if_neg fun h => hne (Option.some.inj h)]

/-- Lines with a newline behind each of them. -/
theorem lines_flatMap_newline {texts : List (List Char)} (h : ∀ t ∈ texts, '\n' ∉ t) :
    lines (texts.flatMap (· ++ ['\n'])) = texts := by
  induction texts with
  | nil => rfl
  | cons t texts ih =>
    rw [List.flatMap_cons, List.append_assoc, List.singleton_append,
      lines_append_newline (h t List.mem_cons_self), ih fun t ht => h t (List.mem_cons_of_mem _ ht)]

theorem exists_intercalate_eq {texts : List (List Char)} (hline : ∀ t ∈ texts, '\n' ∉ t) :
    ∃ rest, texts = lines (['\n'].intercalate texts) ++ rest ∧ (rest = [] ∨ rest = [[]]) := by
  by_cases htexts : texts = []
  · subst htexts
    exact ⟨[], rfl, .inl rfl⟩
  · have hsplit : (['\n'].intercalate texts).splitOn '\n' = texts :=
      List.splitOn_intercalate '\n' hline htexts
    rw [lines, hsplit]
    split
    · next hlast =>
      obtain ⟨before, rfl⟩ := List.getLast?_eq_some_iff.1 hlast
      exact ⟨[[]], by rw [List.dropLast_concat], .inr rfl⟩
    · exact ⟨[], (List.append_nil _).symm, .inl rfl⟩

theorem lines_intercalate {texts : List (List Char)} (hne : ∀ t ∈ texts, t ≠ [])
    (hline : ∀ t ∈ texts, '\n' ∉ t) : lines (['\n'].intercalate texts) = texts := by
  obtain ⟨rest, htexts, rfl | rfl⟩ := exists_intercalate_eq hline
  · rw [List.append_nil] at htexts
    exact htexts.symm
  · have hmem : [] ∈ texts := by
      rw [htexts]
      exact List.mem_append_right _ List.mem_cons_self
    exact absurd rfl (hne [] hmem)

end WordMachine.Text
