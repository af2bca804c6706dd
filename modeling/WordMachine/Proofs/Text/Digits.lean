import Mathlib.Data.List.Induction
import WordMachine.Proofs.Except
import WordMachine.Proofs.Text.Numeral

/-!
# What numerals denote

Digits in positional notation and the number that they denote (`Digits`), which is the number that
they are read as (`natural?_eq_some_iff`), and numerals with an optional plus sign and a largest
number (`Unsigned`, `unsigned?_eq_some_iff`). Reading from the left with a bound finds the number up
to the bound (`bounded_eq_ok_iff`) and stops where the digits so far denote a greater one
(`bounded_eq_overflow_iff`), whatever stands behind them.
-/

namespace WordMachine.Text

/-! ## Digits -/

/-- Whether a character is the digit of a number in a radix. Letters may be in either case. -/
structure IsDigit (radix : Nat) (c : Char) (d : Nat) : Prop where
  lt : d < radix
  eq : c = d.digitChar ∨ c = d.digitChar.toUpper

/-- A radix admits the hexadecimal digits below it. -/
theorem digit?_eq_some_iff_lt {radix d : Nat} {c : Char} :
    digit? radix c = some d ↔ d < radix ∧ digit? 16 c = some d := by
  have hzero : '0'.toNat = 48 := rfl
  have hlower : 'a'.toNat = 97 := rfl
  have hupper : 'A'.toNat = 65 := rfl
  simp only [digit?, Option.ite_none_right_eq_some, Option.some.injEq]
  split
  · next h =>
    have hc : c.toNat ≤ 57 := h.2
    omega
  · split
    · next h =>
      have hc : c.toNat ≤ 102 := h.2
      omega
    · split
      · next h =>
        have hc : c.toNat ≤ 70 := h.2
        omega
      · omega

/-- There are ten digits, and the letters up to f. -/
theorem toNat_le_of_digit? {c : Char} {d : Nat} (h : digit? 16 c = some d) : c.toNat ≤ 102 := by
  by_contra hlarge
  have hdigit : ¬('0' ≤ c ∧ c ≤ '9') := by
    intro hc
    have : c.toNat ≤ 57 := hc.2
    omega
  have hlower : ¬('a' ≤ c ∧ c ≤ 'f') := by
    intro hc
    have : c.toNat ≤ 102 := hc.2
    omega
  have hupper : ¬('A' ≤ c ∧ c ≤ 'F') := by
    intro hc
    have : c.toNat ≤ 70 := hc.2
    omega
  simp [digit?, hdigit, hlower, hupper] at h

theorem eq_digitChar_of_digit? {c : Char} {d : Nat} (hd : d < 16) (h : digit? 16 c = some d) :
    c = d.digitChar ∨ c = d.digitChar.toUpper := by
  have hall : ∀ n < 103, ∀ d < 16, digit? 16 (Char.ofNat n) = some d →
      Char.ofNat n = d.digitChar ∨ Char.ofNat n = d.digitChar.toUpper := by
    decide +kernel
  have hc : Char.ofNat c.toNat = c := Char.ofNat_toNat c
  rw [← hc] at h ⊢
  exact hall _ (Nat.lt_succ_of_le (toNat_le_of_digit? (hc ▸ h))) d hd h

theorem digit?_eq_some_iff {radix d : Nat} {c : Char} (hradix : radix ≤ 16) :
    digit? radix c = some d ↔ IsDigit radix c d := by
  rw [digit?_eq_some_iff_lt]
  constructor
  · intro h
    exact ⟨h.1, eq_digitChar_of_digit? (Nat.lt_of_lt_of_le h.1 hradix) h.2⟩
  · intro h
    refine ⟨h.lt, ?_⟩
    have hlt : d < 16 := Nat.lt_of_lt_of_le h.lt hradix
    rcases h.eq with rfl | rfl
    · exact digit?_digitChar (Nat.le_refl 16) hlt
    · interval_cases d <;> decide

/-! ## Numbers in positional notation -/

/-- Whether characters are the digits of a number in a radix. Each digit counts for the radix times
as much as the one behind it. -/
inductive Digits (radix : Nat) : List Char → Nat → Prop
  | single {c : Char} {d : Nat} (h : IsDigit radix c d) : Digits radix [c] d
  | snoc {cs : List Char} {n d : Nat} {c : Char} (hcs : Digits radix cs n) (h : IsDigit radix c d) :
      Digits radix (cs ++ [c]) (n * radix + d)

theorem Digits.ne_nil {radix n : Nat} {cs : List Char} (h : Digits radix cs n) : cs ≠ [] := by
  cases h with
  | single => exact List.cons_ne_nil _ _
  | snoc => simp

/-- A character that is no hexadecimal digit does not occur in a number. -/
theorem Digits.not_mem {radix n : Nat} {cs : List Char} (hradix : radix ≤ 16)
    (h : Digits radix cs n) {c : Char} (hc : digit? 16 c = none) : c ∉ cs := by
  have hdigit {c' : Char} {d : Nat} (hd : IsDigit radix c' d) : c ≠ c' := by
    rintro rfl
    have hsome := digit?_eq_some_iff_lt.1 ((digit?_eq_some_iff hradix).2 hd)
    cases hc.symm.trans hsome.2
  induction h with
  | single h => simpa using hdigit h
  | snoc _ h ih => simpa using ⟨ih, hdigit h⟩

/-- The value of characters ends with that of the last one. -/
theorem mapM_digit?_append_singleton {radix n : Nat} {cs : List Char} {c : Char} :
    ((cs ++ [c]).mapM (digit? radix)).map (ofDigits radix) = some n ↔
      ∃ m d, (cs.mapM (digit? radix)).map (ofDigits radix) = some m ∧ digit? radix c = some d ∧
        n = m * radix + d := by
  rw [List.mapM_append]
  cases cs.mapM (digit? radix) with
  | none => simp
  | some ds =>
    cases hc : digit? radix c with
    | none => simp [hc]
    | some d => simp [hc, ofDigits_append_singleton, eq_comm]

theorem natural?_append_singleton {radix : Nat} {cs : List Char} {c : Char} :
    natural? radix (cs ++ [c]) = ((cs ++ [c]).mapM (digit? radix)).map (ofDigits radix) := by
  rw [natural?, if_neg (by simp)]

/-- What is read as a number are its digits. -/
theorem natural?_eq_some_iff {radix n : Nat} {cs : List Char} (hradix : radix ≤ 16) :
    natural? radix cs = some n ↔ Digits radix cs n := by
  constructor
  · intro h
    induction cs using List.reverseRecOn generalizing n with
    | nil => cases h
    | append_singleton cs c ih =>
      rw [natural?_append_singleton] at h
      obtain ⟨m, d, hm, hd, rfl⟩ := mapM_digit?_append_singleton.1 h
      rw [digit?_eq_some_iff hradix] at hd
      by_cases hcs : cs = []
      · -- The first digit has no other in front of it.
        subst hcs
        obtain rfl : 0 = m := Option.some.inj hm
        simpa using Digits.single hd
      · refine .snoc (ih ?_) hd
        rwa [natural?, if_neg (by simpa using hcs)]
  · intro h
    induction h with
    | single hd =>
      rw [← digit?_eq_some_iff hradix] at hd
      simp [natural?, hd, ofDigits]
    | @snoc cs m d c hcs hd ih =>
      rw [← digit?_eq_some_iff hradix] at hd
      rw [natural?, if_neg (by simpa using hcs.ne_nil)] at ih
      rw [natural?_append_singleton, mapM_digit?_append_singleton]
      exact ⟨m, d, ih, hd, rfl⟩

theorem digits_decimal (n : Nat) : Digits 10 (decimal n) n :=
  (natural?_eq_some_iff (by decide)).1 (natural?_toDigits (by decide) (by decide) n)

/-- A number is made of digits. -/
theorem Digits.exists_digit? {radix n : Nat} {cs : List Char} (hradix : radix ≤ 16)
    (h : Digits radix cs n) {c : Char} (hc : c ∈ cs) : ∃ d, digit? radix c = some d :=
  Text.exists_digit? ((natural?_eq_some_iff hradix).2 h) hc

/-! ## Numbers up to a bound -/

section Bounded

variable {radix max : Nat}

theorem extend_append (value : Nat) (cs cs' : List Char) :
    extend radix max value (cs ++ cs') =
      extend radix max value cs >>= fun n => extend radix max n cs' := by
  induction cs generalizing value with
  | nil => rfl
  | cons c cs ih =>
    rw [List.cons_append, extend, extend]
    split
    · rfl
    · split
      · exact ih _
      · rfl

theorem bounded_append {cs : List Char} (hne : cs ≠ []) (cs' : List Char) :
    bounded radix max (cs ++ cs') = bounded radix max cs >>= fun n => extend radix max n cs' := by
  rw [bounded, bounded, if_neg (by simpa using fun h => absurd h hne), if_neg (by simpa using hne),
    extend_append]

variable {value : Nat} {c : Char}

theorem extend_singleton_of_some {d : Nat} (hd : digit? radix c = some d) :
    extend radix max value [c] =
      if value * radix + d ≤ max then .ok (value * radix + d) else .error .overflow := by
  simp only [extend, hd]

/-- Digits are read as their number, unless it is above the bound. -/
theorem bounded_of_digits (hradix : radix ≤ 16) {cs : List Char} {n : Nat}
    (h : Digits radix cs n) (max : Nat) :
    bounded radix max cs = if n ≤ max then .ok n else .error .overflow := by
  induction h with
  | single hd =>
    rw [← digit?_eq_some_iff hradix] at hd
    rw [bounded, if_neg (by simp), extend_singleton_of_some hd, Nat.zero_mul, Nat.zero_add]
  | @snoc cs n d c hcs hd ih =>
    have hle : n ≤ n * radix + d :=
      Nat.le_add_right_of_le (Nat.le_mul_of_pos_right n (Nat.zero_lt_of_lt hd.lt))
    rw [← digit?_eq_some_iff hradix] at hd
    rw [bounded_append hcs.ne_nil, ih]
    split
    · exact extend_singleton_of_some hd
    · next hmax =>
      -- Further digits do not take the number below the bound again.
      rw [if_neg fun h => hmax (Nat.le_trans hle h)]
      rfl

/-- Whether characters are the digits of a number, or none of them stand for zero. -/
def Leads (radix : Nat) (lead : List Char) (value : Nat) : Prop :=
  lead = [] ∧ value = 0 ∨ Digits radix lead value

theorem Leads.digits {lead : List Char} (h : Leads radix lead value) {d : Nat}
    (hd : IsDigit radix c d) : Digits radix (lead ++ [c]) (value * radix + d) := by
  rcases h with ⟨rfl, rfl⟩ | h
  · simpa using Digits.single hd
  · exact .snoc h hd

section Extend

variable (hradix : radix ≤ 16) {lead cs : List Char} (hlead : Leads radix lead value)

include hradix hlead

theorem leads_of_extend {n : Nat} (hvalue : value ≤ max)
    (h : extend radix max value cs = .ok n) : Leads radix (lead ++ cs) n ∧ n ≤ max := by
  induction cs generalizing lead value with
  | nil =>
    obtain rfl := Except.ok.inj h
    rw [List.append_nil]
    exact ⟨hlead, hvalue⟩
  | cons c cs ih =>
    rw [extend] at h
    split at h
    · cases h
    · next d hd =>
      split at h
      · next hle =>
        have hnext := ih (.inr (hlead.digits ((digit?_eq_some_iff hradix).1 hd))) hle h
        rwa [List.append_assoc, List.singleton_append] at hnext
      · cases h

/-- The digits up to the one where reading stops denote a number above the bound. -/
theorem exists_of_extend_overflow (h : extend radix max value cs = .error .overflow) :
    ∃ first n, first <+: lead ++ cs ∧ Digits radix first n ∧ max < n := by
  induction cs generalizing lead value with
  | nil => cases h
  | cons c cs ih =>
    rw [extend] at h
    split at h
    · cases h
    · next d hd =>
      have hdigits := hlead.digits ((digit?_eq_some_iff hradix).1 hd)
      split at h
      · have hnext := ih (.inr hdigits) h
        rwa [List.append_assoc, List.singleton_append] at hnext
      · next hmax =>
        refine ⟨lead ++ [c], _, ⟨cs, ?_⟩, hdigits, Nat.lt_of_not_le hmax⟩
        rw [List.append_assoc, List.singleton_append]

end Extend

/-- What is read with a bound are the digits of a number up to the bound. -/
theorem bounded_eq_ok_iff (hradix : radix ≤ 16) {cs : List Char} {n : Nat} :
    bounded radix max cs = .ok n ↔ Digits radix cs n ∧ n ≤ max := by
  constructor
  · intro h
    rw [bounded] at h
    split at h
    · cases h
    · next hne =>
      obtain ⟨hleads, hmax⟩ := leads_of_extend hradix (.inl ⟨rfl, rfl⟩) (Nat.zero_le max) h
      rcases hleads with ⟨rfl, -⟩ | hdigits
      · exact absurd rfl hne
      · exact ⟨hdigits, hmax⟩
  · intro h
    rw [bounded_of_digits hradix h.1, if_pos h.2]

/-- The bound is exceeded where digits at the front denote a number above it. What follows these
digits does not matter. -/
theorem bounded_eq_overflow_iff (hradix : radix ≤ 16) {cs : List Char} :
    bounded radix max cs = .error .overflow ↔
      ∃ first n, first <+: cs ∧ Digits radix first n ∧ max < n := by
  constructor
  · intro h
    rw [bounded] at h
    split at h
    · cases h
    · exact exists_of_extend_overflow hradix (.inl ⟨rfl, rfl⟩) h
  · intro h
    obtain ⟨first, n, ⟨rest, rfl⟩, hdigits, hmax⟩ := h
    rw [bounded_append hdigits.ne_nil, bounded_of_digits hradix hdigits,
      if_neg (Nat.not_le_of_lt hmax)]
    rfl

end Bounded

/-! ## Unsigned numerals -/

/-- Whether characters are a number of at most `max`, with or without a plus sign. -/
inductive Unsigned (radix max : Nat) : List Char → Nat → Prop
  | plain {cs : List Char} {n : Nat} (h : Digits radix cs n) (hmax : n ≤ max) :
      Unsigned radix max cs n
  | plus {cs : List Char} {n : Nat} (h : Digits radix cs n) (hmax : n ≤ max) :
      Unsigned radix max ('+' :: cs) n

/-- A character that is neither a digit nor the sign does not occur in a numeral. -/
theorem Unsigned.not_mem {radix max n : Nat} {cs : List Char} (hradix : radix ≤ 16)
    (h : Unsigned radix max cs n) {c : Char} (hc : digit? 16 c = none) (hsign : c ≠ '+') :
    c ∉ cs := by
  cases h with
  | plain h => exact h.not_mem hradix hc
  | plus h => simpa [hsign] using h.not_mem hradix hc

/-- What is read as an unsigned numeral is one. -/
theorem unsigned?_eq_some_iff {radix max n : Nat} {cs : List Char} (hradix : radix ≤ 16) :
    unsigned? radix max cs = some n ↔ Unsigned radix max cs n := by
  have hplus (digits : List Char) :
      unsigned? radix max ('+' :: digits) = (natural? radix digits).filter (· ≤ max) := rfl
  have hplain (hcs : ∀ digits, cs ≠ '+' :: digits) :
      unsigned? radix max cs = (natural? radix cs).filter (· ≤ max) := by
    unfold unsigned?
    split
    · next digits => exact absurd rfl (hcs digits)
    · rfl
  constructor
  · intro h
    by_cases hsign : ∃ digits, cs = '+' :: digits
    · obtain ⟨digits, rfl⟩ := hsign
      rw [hplus, Option.filter_eq_some_iff, natural?_eq_some_iff hradix] at h
      exact .plus h.1 (by simpa using h.2)
    · rw [hplain (not_exists.1 hsign), Option.filter_eq_some_iff, natural?_eq_some_iff hradix] at h
      exact .plain h.1 (by simpa using h.2)
  · intro h
    cases h with
    | plain h hmax =>
      have hsign (digits : List Char) : cs ≠ '+' :: digits := by
        rintro rfl
        exact h.not_mem hradix (by decide) List.mem_cons_self
      rw [hplain hsign, Option.filter_eq_some_iff, natural?_eq_some_iff hradix]
      exact ⟨h, by simpa using hmax⟩
    | plus h hmax =>
      rw [hplus, Option.filter_eq_some_iff, natural?_eq_some_iff hradix]
      exact ⟨h, by simpa using hmax⟩

end WordMachine.Text
