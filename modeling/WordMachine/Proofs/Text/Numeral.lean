import Mathlib.Data.List.Basic
import Mathlib.Tactic.IntervalCases
import WordMachine.Text.Numeral

/-!
# Numerals are read as they are written

The digits of a number denote it in every radix up to sixteen (`natural?_toDigits`), with or without
zeros in front (`natural?_padded`).
-/

namespace WordMachine.Text

/-! ## Digits -/

theorem digit?_digitChar {radix d : Nat} (hradix : radix ≤ 16) (hd : d < radix) :
    digit? radix d.digitChar = some d := by
  have hlt : d < 16 := Nat.lt_of_lt_of_le hd hradix
  interval_cases d <;> simp [digit?, Nat.digitChar, hd]

theorem ofDigits_append_singleton (radix : Nat) (ds : List Nat) (d : Nat) :
    ofDigits radix (ds ++ [d]) = ofDigits radix ds * radix + d := by
  simp [ofDigits]

/-- Zeros in front do not change what digits denote. -/
theorem ofDigits_replicate_append (radix k : Nat) (ds : List Nat) :
    ofDigits radix (List.replicate k 0 ++ ds) = ofDigits radix ds := by
  induction k with
  | zero => rfl
  | succ k ih =>
    rw [List.replicate_succ, List.cons_append, ← ih]
    simp [ofDigits]

section Radix

variable {radix : Nat} (hone : 1 < radix) (hradix : radix ≤ 16)

include hone hradix

/-- The digits of a number have values, which denote the number. -/
theorem mapM_digit?_toDigits (n : Nat) :
    ∃ ds, (Nat.toDigits radix n).mapM (digit? radix) = some ds ∧ ofDigits radix ds = n := by
  induction n using Nat.strongRecOn with
  | ind n ih =>
    rw [Nat.toDigits_eq_if hone]
    split
    · next hn =>
      refine ⟨[n], ?_, ?_⟩
      · simp [digit?_digitChar hradix hn]
      · simp [ofDigits]
    · next hn =>
      -- Digits are written from the front, so the last one is split off.
      have hlast : n % radix < radix := Nat.mod_lt _ (by omega)
      obtain ⟨ds, hds, hvalue⟩ := ih (n / radix) (Nat.div_lt_self (by omega) hone)
      refine ⟨ds ++ [n % radix], ?_, ?_⟩
      · simp [List.mapM_append, hds, digit?_digitChar hradix hlast]
      · rw [ofDigits_append_singleton, hvalue, Nat.div_add_mod']

theorem natural?_toDigits (n : Nat) : natural? radix (Nat.toDigits radix n) = some n := by
  obtain ⟨ds, hds, hvalue⟩ := mapM_digit?_toDigits hone hradix n
  have hne : (Nat.toDigits radix n).isEmpty = false := by simp [Nat.toDigits_ne_nil]
  simp [natural?, hne, hds, hvalue]

/-- A padded numeral denotes its number. -/
theorem natural?_padded (width n : Nat) : natural? radix (padded radix width n) = some n := by
  obtain ⟨ds, hds, hvalue⟩ := mapM_digit?_toDigits hone hradix n
  have hzeros (k : Nat) : (List.replicate k '0').mapM (digit? radix) =
      some (List.replicate k 0) := by
    have hzero : digit? radix '0' = some 0 := digit?_digitChar hradix (Nat.lt_of_succ_lt hone)
    induction k with
    | zero => rfl
    | succ k ih => simp [List.replicate_succ, hzero, ih]
  have hne : (padded radix width n).isEmpty = false := by simp [padded, Nat.toDigits_ne_nil]
  rw [natural?, hne]
  simp [padded, List.mapM_append, hzeros, hds, ofDigits_replicate_append, hvalue]

end Radix

/-- What is read as a number is made of digits. -/
theorem exists_digit? {radix n : Nat} {cs : List Char} (h : natural? radix cs = some n) {c : Char}
    (hc : c ∈ cs) : ∃ d, digit? radix c = some d := by
  have hmem (ds : List Nat) (hds : cs.mapM (digit? radix) = some ds) :
      ∃ d, digit? radix c = some d := by
    clear h
    induction cs generalizing ds with
    | nil => exact nomatch hc
    | cons c' cs ih =>
      rw [List.mapM_cons] at hds
      obtain ⟨d, hd, hds⟩ := Option.bind_eq_some_iff.1 hds
      obtain ⟨rest, hrest, -⟩ := Option.bind_eq_some_iff.1 hds
      rcases List.mem_cons.1 hc with rfl | hc
      · exact ⟨d, hd⟩
      · exact ih hc rest hrest
  unfold natural? at h
  split at h
  · exact nomatch h
  · obtain ⟨ds, hds, -⟩ := Option.map_eq_some_iff.1 h
    exact hmem ds hds

theorem isDigit_of_mem_decimal {n : Nat} {c : Char} (h : c ∈ decimal n) : c.isDigit = true :=
  Nat.isDigit_of_mem_toDigits (by decide) (by decide) h

theorem decimal_ne_nil (n : Nat) : decimal n ≠ [] :=
  Nat.toDigits_ne_nil

theorem length_padded {radix width n : Nat} (hone : 1 < radix) (hwidth : 0 < width)
    (hn : n < radix ^ width) : (padded radix width n).length = width := by
  have hlength : (Nat.toDigits radix n).length ≤ width :=
    (Nat.length_toDigits_le_iff hone hwidth).2 hn
  simp only [padded, List.length_append, List.length_replicate]
  omega

end WordMachine.Text
