import WordMachine.Proofs.Text.Digits
import WordMachine.Source.Operand

/-!
# Numbers in operands

How a number is written as an operand (`Numeral`): the mark of its radix, its sign and its digits,
of which the first two can be missing. A numeral is read as its number if that is an eight-bit
value, and refused with its number otherwise (`readByte_numeral`). What is no numeral is refused for
its form, unless a number at its front is beyond the range of 64-bit integers already
(`readByte_overflow`, `readByte_malformed`). References to labels are told apart by their colon
(`immediate_grammar`).
-/

namespace WordMachine

/-! ## Numerals -/

/-- The marks of the radixes. Decimal numbers have none. -/
inductive RadixMark : List Char → Nat → Prop
  | decimal : RadixMark [] 10
  | hexadecimal {c : Char} (h : c = 'x' ∨ c = 'X') : RadixMark ['0', c] 16
  | binary {c : Char} (h : c = 'b' ∨ c = 'B') : RadixMark ['0', c] 2
  | octal {c : Char} (h : c = 'o' ∨ c = 'O') : RadixMark ['0', c] 8

/-- The signs of numbers, and whether they make a number negative. -/
inductive SignMark : List Char → Bool → Prop
  | none : SignMark [] false
  | plus : SignMark ['+'] false
  | minus : SignMark ['-'] true

/-- A number with a sign. -/
def signedValue (negative : Bool) (n : Nat) : Int :=
  if negative then -n else n

/-- Whether a text is written as a number. The sign stands behind the mark of the radix. -/
inductive Numeral : List Char → Int → Prop
  | intro {mark sign digits : List Char} {radix n : Nat} {negative : Bool}
      (hmark : RadixMark mark radix) (hsign : SignMark sign negative)
      (hdigits : Text.Digits radix digits n) :
      Numeral (mark ++ sign ++ digits) (signedValue negative n)

theorem RadixMark.le {mark : List Char} {radix : Nat} (h : RadixMark mark radix) : radix ≤ 16 := by
  cases h with
  | decimal => decide
  | hexadecimal => decide
  | binary => decide
  | octal => decide

/-! ## Taking numerals apart -/

theorem exists_radixMark (cs : List Char) :
    ∃ mark, RadixMark mark (splitRadix cs).1 ∧ cs = mark ++ (splitRadix cs).2 := by
  unfold splitRadix
  split
  · exact ⟨_, .hexadecimal (.inl rfl), rfl⟩
  · exact ⟨_, .hexadecimal (.inr rfl), rfl⟩
  · exact ⟨_, .binary (.inl rfl), rfl⟩
  · exact ⟨_, .binary (.inr rfl), rfl⟩
  · exact ⟨_, .octal (.inl rfl), rfl⟩
  · exact ⟨_, .octal (.inr rfl), rfl⟩
  · exact ⟨_, .decimal, rfl⟩

theorem exists_signMark (cs : List Char) :
    ∃ sign, SignMark sign (splitSign cs).1 ∧ cs = sign ++ (splitSign cs).2 := by
  unfold splitSign
  split
  · exact ⟨_, .minus, rfl⟩
  · exact ⟨_, .plus, rfl⟩
  · exact ⟨_, .none, rfl⟩

/-- A text whose second character is a decimal digit behind a zero has no mark. -/
theorem splitRadix_eq_decimal {cs : List Char}
    (h : ∀ c rest, cs = '0' :: c :: rest → ∃ d, Text.digit? 10 c = some d) :
    splitRadix cs = (10, cs) := by
  unfold splitRadix
  split
  case h_7 => rfl
  all_goals
    obtain ⟨d, hd⟩ := h _ _ rfl
    cases hd

/-- The first two characters of a text tell its radix. -/
theorem splitRadix_cons_cons (c c' : Char) (cs : List Char) :
    splitRadix (c :: c' :: cs) =
      if c = '0' ∧ (c' = 'x' ∨ c' = 'X') then (16, cs)
      else if c = '0' ∧ (c' = 'b' ∨ c' = 'B') then (2, cs)
      else if c = '0' ∧ (c' = 'o' ∨ c' = 'O') then (8, cs)
      else (10, c :: c' :: cs) := by
  unfold splitRadix
  split
  case h_7 hx hX hb hB ho hO =>
    rw [if_neg, if_neg, if_neg]
    · rintro ⟨rfl, rfl | rfl⟩
      · exact ho _ rfl
      · exact hO _ rfl
    · rintro ⟨rfl, rfl | rfl⟩
      · exact hb _ rfl
      · exact hB _ rfl
    · rintro ⟨rfl, rfl | rfl⟩
      · exact hx _ rfl
      · exact hX _ rfl
  all_goals
    next heq =>
      cases heq
      rfl

theorem splitSign_eq_none {c : Char} (hminus : c ≠ '-') (hplus : c ≠ '+') (cs : List Char) :
    splitSign (c :: cs) = (false, c :: cs) := by
  unfold splitSign
  split
  · next heq => exact absurd (List.cons.inj heq).1 hminus
  · next heq => exact absurd (List.cons.inj heq).1 hplus
  · rfl

theorem SignMark.splitSign_append {sign digits : List Char} {radix n : Nat} {negative : Bool}
    (hsign : SignMark sign negative) (hradix : radix ≤ 16) (hdigits : Text.Digits radix digits n)
    (rest : List Char) : splitSign (sign ++ (digits ++ rest)) = (negative, digits ++ rest) := by
  cases hsign with
  | plus => rfl
  | minus => rfl
  | none =>
    have hminus : '-' ∉ digits := hdigits.not_mem hradix (by decide)
    have hplus : '+' ∉ digits := hdigits.not_mem hradix (by decide)
    obtain ⟨c, cs, rfl⟩ := List.exists_cons_of_ne_nil hdigits.ne_nil
    rw [List.mem_cons, not_or] at hminus hplus
    exact splitSign_eq_none (Ne.symm hminus.1) (Ne.symm hplus.1) _

/-- The zero is the one decimal number behind whose first digit the mark of a radix can stand. -/
theorem SignMark.splitRadix_append {sign digits rest : List Char} {n : Nat} {negative : Bool}
    (hsign : SignMark sign negative) (hdigits : Text.Digits 10 digits n)
    (hrest : rest = [] ∨ n ≠ 0) :
    splitRadix (sign ++ (digits ++ rest)) = (10, sign ++ (digits ++ rest)) := by
  apply splitRadix_eq_decimal
  intro c cs h
  cases hsign with
  | plus => cases h
  | minus => cases h
  | none =>
    obtain ⟨c', cs', rfl⟩ := List.exists_cons_of_ne_nil hdigits.ne_nil
    cases cs' with
    | cons c'' cs' =>
      cases h
      exact hdigits.exists_digit? (by decide) (by simp)
    | nil =>
      rcases hrest with rfl | hn
      · cases h
      · obtain ⟨rfl, -⟩ := List.cons.inj h
        have hzero := (Text.natural?_eq_some_iff (by decide)).2 hdigits
        exact absurd (Option.some.inj hzero).symm hn

namespace Numeral

/-- How a text that is a numeral, or goes on behind one other than zero, is taken apart. -/
theorem exists_split {first : List Char} {z : Int} (h : Numeral first z) (rest : List Char)
    (hrest : rest = [] ∨ z ≠ 0) :
    ∃ radix signed negative digits n, radix ≤ 16 ∧ splitRadix (first ++ rest) = (radix, signed) ∧
      splitSign signed = (negative, digits ++ rest) ∧ Text.Digits radix digits n ∧
      z = signedValue negative n := by
  cases h with
  | @intro mark sign digits radix n negative hmark hsign hdigits =>
    have hle := hmark.le
    have hassoc : mark ++ sign ++ digits ++ rest = mark ++ (sign ++ (digits ++ rest)) := by simp
    refine ⟨radix, sign ++ (digits ++ rest), negative, digits, n, hle, ?_,
      hsign.splitSign_append hle hdigits rest, hdigits, rfl⟩
    rw [hassoc]
    cases hmark with
    | decimal =>
      refine hsign.splitRadix_append hdigits (hrest.imp_right fun hz => ?_)
      rintro rfl
      exact hz (by cases negative <;> rfl)
    | hexadecimal h => rcases h with rfl | rfl <;> rfl
    | binary h => rcases h with rfl | rfl <;> rfl
    | octal h => rcases h with rfl | rfl <;> rfl

end Numeral

/-! ## Reading numbers -/

/-- A number, or the end of the range of 64-bit integers that it lies behind. -/
def clampInt64 (z : Int) : Int :=
  if z < -9223372036854775808 then -9223372036854775808
  else if 9223372036854775807 < z then 9223372036854775807 else z

/-- The bound of the digits behind a sign tells whether the number is a 64-bit integer. -/
theorem clampInt64_signedValue_eq_self_iff {negative : Bool} {n : Nat} :
    clampInt64 (signedValue negative n) = signedValue negative n ↔
      n ≤ if negative then int64Max + 1 else int64Max := by
  simp only [clampInt64, signedValue, int64Max]
  cases negative with
  | true =>
    simp only [if_true]
    split <;> try split
    all_goals omega
  | false =>
    simp only [Bool.false_eq_true, if_false]
    split <;> try split
    all_goals omega

theorem clampInt64_signedValue_of_lt {negative : Bool} {n : Nat}
    (h : (if negative then int64Max + 1 else int64Max) < n) :
    clampInt64 (signedValue negative n) =
      (if negative then -(int64Max + 1 : Nat) else int64Max : Int) := by
  simp only [clampInt64, signedValue, int64Max] at h ⊢
  cases negative with
  | true =>
    simp only [if_true] at h ⊢
    rw [if_pos (by omega)]
    rfl
  | false =>
    simp only [Bool.false_eq_true, if_false] at h ⊢
    rw [if_neg (by omega), if_pos (by omega)]
    rfl

/-- An eight-bit value is a 64-bit integer. -/
theorem clampInt64_eq_self {z : Int} (h : 0 ≤ z ∧ z ≤ 255) : clampInt64 z = z := by
  rw [clampInt64, if_neg (by omega), if_neg (by omega)]

section Parts

variable {token signed digits : List Char} {radix : Nat} {negative : Bool}
  (hsplit : splitRadix (Text.trim token) = (radix, signed))
  (hsign : splitSign signed = (negative, digits))

include hsplit hsign

theorem readByte_of_ok {n : Nat}
    (h : Text.bounded radix (if negative then int64Max + 1 else int64Max) digits = .ok n) :
    readByte token =
      if 0 ≤ signedValue negative n ∧ signedValue negative n ≤ 255 then .ok (UInt8.ofNat n)
      else .error (immediateRange (signedValue negative n)) := by
  simp only [readByte, hsplit, hsign, h]
  cases negative with
  | true =>
    -- Of the numbers with a minus sign, zero alone is an eight-bit value.
    simp only [signedValue, if_true, Bool.true_and, bne_iff_ne]
    by_cases hn : n = 0
    · subst hn
      rfl
    · rw [if_pos hn, if_neg (by omega)]
  | false =>
    simp only [signedValue, Bool.false_eq_true, if_false, Bool.false_and]
    by_cases hn : n ≤ 255
    · rw [if_pos hn, if_pos (by omega)]
    · rw [if_neg hn, if_neg (by omega)]

theorem readByte_of_overflow
    (h : Text.bounded radix (if negative then int64Max + 1 else int64Max) digits =
      .error .overflow) :
    readByte token =
      .error (immediateRange (if negative then -(int64Max + 1 : Nat) else int64Max)) := by
  simp only [readByte, hsplit, hsign, h]

theorem readByte_of_malformed
    (h : Text.bounded radix (if negative then int64Max + 1 else int64Max) digits =
      .error .malformed) :
    readByte token = .error (.malformed .number (String.ofList token)) := by
  simp only [readByte, hsplit, hsign, h]

end Parts

theorem toNat_signedValue {negative : Bool} {n : Nat} (h : 0 ≤ signedValue negative n) :
    (signedValue negative n).toNat = n := by
  cases negative with
  | true =>
    simp only [signedValue, if_true] at h ⊢
    omega
  | false => rfl

/-- A number that is not an eight-bit value is refused with it, or with the 64-bit integer that is
nearest to it. -/
theorem readByte_numeral {token : List Char} {z : Int} (h : Numeral (Text.trim token) z) :
    readByte token =
      if 0 ≤ z ∧ z ≤ 255 then .ok (UInt8.ofNat z.toNat)
      else .error (immediateRange (clampInt64 z)) := by
  obtain ⟨radix, signed, negative, digits, n, hradix, hsplit, hsign, hdigits, rfl⟩ :=
    h.exists_split [] (.inl rfl)
  rw [List.append_nil] at hsplit hsign
  have hbounded := Text.bounded_of_digits hradix hdigits
    (if negative then int64Max + 1 else int64Max)
  by_cases hmax : n ≤ if negative then int64Max + 1 else int64Max
  · rw [if_pos hmax] at hbounded
    rw [readByte_of_ok hsplit hsign hbounded, clampInt64_signedValue_eq_self_iff.2 hmax]
    by_cases hbyte : 0 ≤ signedValue negative n ∧ signedValue negative n ≤ 255
    · rw [if_pos hbyte, if_pos hbyte, toNat_signedValue hbyte.1]
    · rw [if_neg hbyte, if_neg hbyte]
  · rw [if_neg hmax] at hbounded
    have hbyte : ¬(0 ≤ signedValue negative n ∧ signedValue negative n ≤ 255) := fun hbyte =>
      hmax (clampInt64_signedValue_eq_self_iff.1 (clampInt64_eq_self hbyte))
    rw [readByte_of_overflow hsplit hsign hbounded, if_neg hbyte,
      clampInt64_signedValue_of_lt (Nat.lt_of_not_le hmax)]

/-- A number at the front that is no 64-bit integer is refused, whatever stands behind it. -/
theorem readByte_overflow {token first : List Char} {z : Int} (hfirst : first <+: Text.trim token)
    (h : Numeral first z) (hz : clampInt64 z ≠ z) :
    readByte token = .error (immediateRange (clampInt64 z)) := by
  obtain ⟨rest, hrest⟩ := hfirst
  have hne : z ≠ 0 := by
    rintro rfl
    exact hz (clampInt64_eq_self (by decide))
  obtain ⟨radix, signed, negative, digits, n, hradix, hsplit, hsign, hdigits, rfl⟩ :=
    h.exists_split rest (.inr hne)
  rw [hrest] at hsplit
  rw [Ne, clampInt64_signedValue_eq_self_iff, Nat.not_le] at hz
  rw [clampInt64_signedValue_of_lt hz]
  apply readByte_of_overflow hsplit hsign
  exact (Text.bounded_eq_overflow_iff hradix).2
    ⟨digits, n, List.prefix_append digits rest, hdigits, hz⟩

/-- What is no numeral is refused for its form, unless it is refused for a number at its front. -/
theorem readByte_malformed {token : List Char} (h : ∀ z, ¬Numeral (Text.trim token) z)
    (hfirst : ∀ first z, first <+: Text.trim token → Numeral first z → clampInt64 z = z) :
    readByte token = .error (.malformed .number (String.ofList token)) := by
  obtain ⟨mark, hmark, hcs⟩ := exists_radixMark (Text.trim token)
  obtain ⟨sign, hsign, hsigned⟩ := exists_signMark (splitRadix (Text.trim token)).2
  rw [hsigned, ← List.append_assoc] at hcs
  cases hbounded : Text.bounded (splitRadix (Text.trim token)).1
      (if (splitSign (splitRadix (Text.trim token)).2).1 then int64Max + 1 else int64Max)
      (splitSign (splitRadix (Text.trim token)).2).2 with
  | ok n =>
    have hdigits := ((Text.bounded_eq_ok_iff hmark.le).1 hbounded).1
    exact absurd (.intro hmark hsign hdigits) (hcs ▸ h _)
  | error fault =>
    cases fault with
    | malformed => exact readByte_of_malformed rfl rfl hbounded
    | overflow =>
      obtain ⟨first, n, ⟨rest, hrest⟩, hdigits, hmax⟩ :=
        (Text.bounded_eq_overflow_iff hmark.le).1 hbounded
      have hprefix : mark ++ sign ++ first <+: Text.trim token := by
        rw [hcs, ← hrest, ← List.append_assoc]
        exact List.prefix_append _ rest
      have hfits := hfirst _ _ hprefix (.intro hmark hsign hdigits)
      exact absurd (clampInt64_signedValue_eq_self_iff.1 hfits) (Nat.not_le_of_lt hmax)

/-- What is read as a number is a numeral of an eight-bit value. -/
theorem readByte_eq_ok_iff {token : List Char} {k : UInt8} :
    readByte token = .ok k ↔ Numeral (Text.trim token) k.toNat := by
  have hk := k.toNat_lt
  constructor
  · intro h
    by_cases hnumeral : ∃ z, Numeral (Text.trim token) z
    · obtain ⟨z, hz⟩ := hnumeral
      rw [readByte_numeral hz] at h
      split at h
      · next hbyte =>
        obtain rfl := Except.ok.inj h
        have hvalue : ((UInt8.ofNat z.toNat).toNat : Int) = z := by
          rw [UInt8.toNat_ofNat']
          omega
        rwa [hvalue]
      · cases h
    · exfalso
      by_cases hfirst : ∃ first z, first <+: Text.trim token ∧ Numeral first z ∧ clampInt64 z ≠ z
      · obtain ⟨first, z, hprefix, hz, hclamp⟩ := hfirst
        rw [readByte_overflow hprefix hz hclamp] at h
        cases h
      · rw [readByte_malformed (not_exists.1 hnumeral) fun first z hprefix hz =>
          by_contra fun hclamp => hfirst ⟨first, z, hprefix, hz, hclamp⟩] at h
        cases h
  · intro h
    rw [readByte_numeral h, if_pos (by omega), Int.toNat_natCast, UInt8.ofNat_toNat]

/-! ## Immediate operands -/

/-- A token is a reference to a label where something stands behind its colon. -/
theorem readImmediate_eq_label_iff {token : List Char} {name : String} :
    readImmediate token = .ok (.label name) ↔
      name = String.ofList token ∧ ∃ c cs, token = ':' :: c :: cs := by
  unfold readImmediate
  split
  · simp
  · next cs hcolon =>
    have hcs : cs ≠ [] := fun hcs => hcolon hcs
    obtain ⟨c, cs, rfl⟩ := List.exists_cons_of_ne_nil hcs
    simp [eq_comm]
  · next hlabel =>
    constructor
    · intro h
      obtain ⟨v, -, hv⟩ := except_map_eq_ok.1 h
      cases hv
    · intro h
      obtain ⟨-, c, cs, rfl⟩ := h
      exact absurd rfl (hlabel (c :: cs))

/-- What does not begin with a colon is read as a number. -/
theorem readImmediate_eq_readByte {token : List Char} (h : token.head? ≠ some ':') :
    readImmediate token = (readByte token).map Operand.imm := by
  unfold readImmediate
  split
  · exact absurd rfl h
  · exact absurd rfl h
  · rfl

/-- **The immediate operands that are read.** A token is read as a number if it is a numeral of an
eight-bit value when it is trimmed, and only then. Other numerals are refused as out of range with
their numbers, taken into the range of 64-bit integers. What is no numeral is refused in the same
way if a number at its front is beyond that range, and for its form otherwise. A token that begins
with a colon is never read as a number: it refers to a label, if there is something behind the
colon. -/
theorem immediate_grammar (token : List Char) :
    (∀ k, readByte token = .ok k ↔ Numeral (Text.trim token) k.toNat) ∧
    (∀ z, Numeral (Text.trim token) z → ¬(0 ≤ z ∧ z ≤ 255) →
      readByte token = .error (.outOfRange .immediate (clampInt64 z) 255)) ∧
    ((∀ z, ¬Numeral (Text.trim token) z) →
      (∀ first z, first <+: Text.trim token → Numeral first z → clampInt64 z ≠ z →
        readByte token = .error (.outOfRange .immediate (clampInt64 z) 255)) ∧
      ((∀ first z, first <+: Text.trim token → Numeral first z → clampInt64 z = z) →
        readByte token = .error (.malformed .number (String.ofList token)))) ∧
    (∀ name, readImmediate token = .ok (.label name) ↔
      name = String.ofList token ∧ ∃ c cs, token = ':' :: c :: cs) ∧
    (token = [':'] → readImmediate token = .error (.malformed .label ":")) ∧
    (token.head? ≠ some ':' → readImmediate token = (readByte token).map Operand.imm) := by
  refine ⟨fun k => readByte_eq_ok_iff, ?_, ?_, fun name => readImmediate_eq_label_iff, ?_,
    readImmediate_eq_readByte⟩
  · intro z hz hbyte
    rw [readByte_numeral hz, if_neg hbyte]
    rfl
  · intro hnone
    exact ⟨fun first z => readByte_overflow, readByte_malformed hnone⟩
  · rintro rfl
    rfl

/-- An octal number below the 64-bit integers, a decimal number above them with a fraction behind
it, and a mark and a sign without digits. -/
theorem immediate_grammar_beyond_int64 :
    (Numeral (Text.trim "0O-001000000000000000000001".toList) (-9223372036854775809) ∧
      readByte "0O-001000000000000000000001".toList =
        .error (.outOfRange .immediate (-9223372036854775808) 255)) ∧
    ((∀ z, ¬Numeral (Text.trim "9223372036854775808.5".toList) z) ∧
      "9223372036854775808".toList <+: Text.trim "9223372036854775808.5".toList ∧
      Numeral "9223372036854775808".toList 9223372036854775808 ∧
      readByte "9223372036854775808.5".toList =
        .error (.outOfRange .immediate 9223372036854775807 255)) ∧
    ((∀ z, ¬Numeral (Text.trim "0x-".toList) z) ∧
      (∀ first z, first <+: Text.trim "0x-".toList → Numeral first z → clampInt64 z = z) ∧
      readByte "0x-".toList = .error (.malformed .number "0x-")) := by
  have hoctal : Numeral (Text.trim "0O-001000000000000000000001".toList)
      (-9223372036854775809) :=
    .intro (.octal (.inr rfl) : RadixMark ['0', 'O'] 8) .minus
      ((Text.natural?_eq_some_iff (n := 9223372036854775809) (by decide)).1 (by decide +kernel))
  have hlarge : Numeral "9223372036854775808".toList 9223372036854775808 :=
    .intro .decimal .none
      ((Text.natural?_eq_some_iff (n := 9223372036854775808) (by decide)).1 (by decide +kernel))
  have hfraction (z : Int) : ¬Numeral (Text.trim "9223372036854775808.5".toList) z := by
    intro h
    obtain ⟨radix, signed, negative, digits, n, hradix, hsplit, hsign, hdigits, -⟩ :=
      h.exists_split [] (.inl rfl)
    have hdecimal : splitRadix (Text.trim "9223372036854775808.5".toList ++ []) =
        (10, "9223372036854775808.5".toList) := by decide +kernel
    obtain ⟨-, rfl⟩ := Prod.mk.inj (hdecimal.symm.trans hsplit)
    have hplain : splitSign "9223372036854775808.5".toList =
        (false, "9223372036854775808.5".toList) := by decide +kernel
    obtain ⟨-, h⟩ := Prod.mk.inj (hplain.symm.trans hsign)
    rw [List.append_nil] at h
    exact hdigits.not_mem (c := '.') hradix (by decide) (h ▸ by decide +kernel)
  have hbare : readByte "0x-".toList = .error (.malformed .number "0x-") := by decide +kernel
  have hnone (z : Int) : ¬Numeral (Text.trim "0x-".toList) z := by
    intro h
    rw [readByte_numeral h] at hbare
    split at hbare
    · cases hbare
    · cases hbare
  have hbare_front (first : List Char) (z : Int) (hfirst : first <+: Text.trim "0x-".toList)
      (h : Numeral first z) : clampInt64 z = z := by
    by_contra hclamp
    have hrange := readByte_overflow hfirst h hclamp
    rw [hbare] at hrange
    cases hrange
  have hfront : "9223372036854775808".toList <+: Text.trim "9223372036854775808.5".toList := by
    decide +kernel
  refine ⟨⟨hoctal, ?_⟩, ⟨hfraction, hfront, hlarge, ?_⟩, hnone, hbare_front, ?_⟩
  · exact (immediate_grammar _).2.1 _ hoctal (by decide)
  · exact ((immediate_grammar _).2.2.1 hfraction).1 _ _ hfront hlarge (by decide)
  · exact ((immediate_grammar _).2.2.1 hnone).2 hbare_front

end WordMachine
