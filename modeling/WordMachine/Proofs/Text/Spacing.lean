import Mathlib.Data.List.TakeWhile
import WordMachine.Proofs.Text.Words

/-!
# Words with separators between them

Texts in which words stand with separators between each and the next (`Joined`), and with more of
them at either end (`Spaced`). Every text is made of its words in this way, and there is no other
way to make it (`words_eq_iff`).
-/

namespace WordMachine.Text

/-- Whether a text consists of separators. It may be empty. -/
def IsGap (sep : Char → Bool) (gap : List Char) : Prop :=
  ∀ c ∈ gap, sep c = true

/-- Whether a text can be a word. -/
structure IsWord (sep : Char → Bool) (w : List Char) : Prop where
  ne_nil : w ≠ []
  no_separator : ∀ c ∈ w, sep c = false

/-- Whether a text is words with one or more separators between each of them and the next. -/
inductive Joined (sep : Char → Bool) : List (List Char) → List Char → Prop
  | nil : Joined sep [] []
  | single (w : List Char) : Joined sep [w] w
  | cons {w v gap text : List Char} {vs : List (List Char)} (hgap : IsGap sep gap) (hne : gap ≠ [])
      (h : Joined sep (v :: vs) text) : Joined sep (w :: v :: vs) (w ++ gap ++ text)

/-- Whether a text is words with separators between and around them. -/
inductive Spaced (sep : Char → Bool) (ws : List (List Char)) : List Char → Prop
  | intro {before body after : List Char} (hbefore : IsGap sep before) (hbody : Joined sep ws body)
      (hafter : IsGap sep after) : Spaced sep ws (before ++ body ++ after)

variable {sep : Char → Bool}

theorem isGap_nil : IsGap sep [] := by
  intro c hc
  cases hc

theorem IsGap.append {xs ys : List Char} (hxs : IsGap sep xs) (hys : IsGap sep ys) :
    IsGap sep (xs ++ ys) := by
  intro c hc
  rcases List.mem_append.1 hc with hc | hc
  · exact hxs c hc
  · exact hys c hc

theorem isWord_of_mem_words {w cs : List Char} (h : w ∈ words sep cs) : IsWord sep w := by
  obtain ⟨hne, hsep⟩ := ne_nil_of_mem_words h
  exact ⟨hne, hsep⟩

/-! ## Reading joined words -/

namespace Joined

variable {ws : List (List Char)} {text : List Char}

theorem eq_nil (h : Joined sep [] text) : text = [] := by
  cases h
  rfl

theorem words_eq (h : Joined sep ws text) (hwords : ∀ w ∈ ws, IsWord sep w) :
    words sep text = ws := by
  induction h with
  | nil => rfl
  | single w =>
    have hw := hwords w List.mem_cons_self
    exact words_eq_singleton hw.ne_nil hw.no_separator
  | cons hgap hne _ ih =>
    rw [List.forall_mem_cons] at hwords
    rw [words_append_append hgap hne, ih hwords.2,
      words_eq_singleton hwords.1.ne_nil hwords.1.no_separator, List.singleton_append]

/-- The words before one of them are joined as well. -/
theorem exists_of_append {v : List Char} {vs : List (List Char)}
    (h : Joined sep (ws ++ v :: vs) text) :
    ∃ front gap back, text = front ++ gap ++ (v ++ back) ∧ Joined sep ws front ∧ IsGap sep gap ∧
      (ws = [] ∨ gap ≠ []) := by
  induction ws generalizing text with
  | nil =>
    rw [List.nil_append] at h
    cases h with
    | single => exact ⟨[], [], [], by simp, .nil, isGap_nil, .inl rfl⟩
    | @cons _ u gap text _ hgap hne h =>
      exact ⟨[], [], gap ++ text, by simp, .nil, isGap_nil, .inl rfl⟩
  | cons w ws ih =>
    cases ws with
    | nil =>
      cases h with
      | @cons _ _ gap text _ hgap hne h =>
        obtain ⟨front, gap', back, rfl, hfront, hgap', -⟩ := ih h
        obtain rfl := hfront.eq_nil
        refine ⟨w, gap ++ gap', back, by simp, .single w, hgap.append hgap', .inr ?_⟩
        simp [hne]
    | cons u ws =>
      cases h with
      | @cons _ _ gap text _ hgap hne h =>
        obtain ⟨front, gap', back, rfl, hfront, hgap', hne'⟩ := ih h
        refine ⟨w ++ gap ++ front, gap', back, by simp, hfront.cons hgap hne, hgap', .inr ?_⟩
        exact hne'.resolve_left (List.cons_ne_nil u ws)

end Joined

theorem Spaced.words_eq {ws : List (List Char)} {text : List Char} (h : Spaced sep ws text)
    (hwords : ∀ w ∈ ws, IsWord sep w) : words sep text = ws := by
  cases h with
  | intro hbefore hbody hafter =>
    rw [words_append_gap hafter, words_gap_append hbefore, hbody.words_eq hwords]

/-! ## Taking a text apart -/

/-- A text begins with a run of characters that satisfy a predicate, and goes on with one that does
not. -/
theorem exists_run (p : Char → Bool) (cs : List Char) :
    ∃ run rest, cs = run ++ rest ∧ (∀ c ∈ run, p c = true) ∧
      ∀ c, rest.head? = some c → p c = false := by
  refine ⟨cs.takeWhile p, cs.dropWhile p, List.takeWhile_append_dropWhile.symm,
    fun c hc => List.mem_takeWhile_imp hc, ?_⟩
  intro c hc
  have hstop := List.head?_dropWhile_not p cs
  rwa [hc] at hstop

theorem eq_nil_of_head? {p : Char → Bool} {cs : List Char}
    (h : ∀ c, cs.head? = some c → p c = false) (hnot : ∀ c, cs.head? = some c → (!p c) = false) :
    cs = [] := by
  cases cs with
  | nil => rfl
  | cons c cs =>
    have hc := hnot c rfl
    rw [h c rfl] at hc
    cases hc

/-- A text that does not begin with a separator is its words with separators between and behind
them. -/
theorem exists_joined (text : List Char) (hhead : ∀ c, text.head? = some c → sep c = false) :
    ∃ body after, text = body ++ after ∧ Joined sep (words sep text) body ∧ IsGap sep after := by
  induction hlength : text.length using Nat.strongRecOn generalizing text with
  | ind n ih =>
    -- The first word, the separators behind it and what they separate it from.
    obtain ⟨w, rest, hrest, hw, hstop⟩ := exists_run (fun c => !sep c) text
    obtain ⟨gap, later, rfl, hrun, hlater⟩ := exists_run sep rest
    have hgap : IsGap sep gap := hrun
    by_cases hempty : w = []
    · rw [hempty, List.nil_append] at hrest
      obtain rfl : text = [] := eq_nil_of_head? hhead (hrest ▸ hstop)
      exact ⟨[], [], rfl, .nil, isGap_nil⟩
    have hword : words sep w = [w] := words_eq_singleton hempty (by simpa using hw)
    by_cases hlast : gap = []
    · rw [hlast, List.nil_append] at hstop
      have hnil : later = [] := eq_nil_of_head? hlater hstop
      refine ⟨w, [], ?_, ?_, isGap_nil⟩
      · simp [hrest, hlast, hnil]
      · rw [hrest, hlast, hnil, List.append_nil, List.append_nil, hword]
        exact .single w
    · have hshorter : later.length < n := by
        have hpos : 0 < gap.length := List.length_pos_iff.2 hlast
        rw [← hlength, hrest, List.length_append, List.length_append]
        omega
      obtain ⟨body, after, hbody, hjoined, hafter⟩ := ih later.length hshorter later hlater rfl
      have hwords : words sep text = w :: words sep later := by
        rw [hrest, ← List.append_assoc, words_append_append hgap hlast, hword,
          List.singleton_append]
      rw [hwords]
      cases hws : words sep later with
      | nil =>
        rw [hws] at hjoined
        obtain rfl := hjoined.eq_nil
        exact ⟨w, gap ++ after, by rw [hrest, hbody, List.nil_append], .single w,
          hgap.append hafter⟩
      | cons v vs =>
        rw [hws] at hjoined
        refine ⟨w ++ gap ++ body, after, ?_, hjoined.cons hgap hlast, hafter⟩
        simp [hrest, hbody]

theorem spaced_words (text : List Char) : Spaced sep (words sep text) text := by
  obtain ⟨before, rest, rfl, hbefore, hhead⟩ := exists_run sep text
  obtain ⟨body, after, rfl, hbody, hafter⟩ := exists_joined rest hhead
  rw [words_gap_append hbefore, ← List.append_assoc]
  exact .intro hbefore hbody hafter

/-- The words of a text are those that it is made of, with separators between and around them. -/
theorem words_eq_iff {text : List Char} {ws : List (List Char)} :
    words sep text = ws ↔ (∀ w ∈ ws, IsWord sep w) ∧ Spaced sep ws text := by
  constructor
  · intro h
    subst h
    exact ⟨fun w hw => isWord_of_mem_words hw, spaced_words text⟩
  · intro h
    exact h.2.words_eq h.1

end WordMachine.Text
