import Mathlib.Algebra.Group.Int.Defs
import Mathlib.Algebra.Group.Nat.Defs
import WordMachine.Machine.Alu

/-!
# The arithmetic of words in numbers

A word is a number below 65536, and the signed number in two's complement that differs from it by a
multiple of 65536 (`signed_eq`). What the operations on words do is integer arithmetic modulo 65536:
`Word.wrap` is the number of the word that an integer has. A shift by `n` positions is a product
with `2 ^ n`, or a quotient rounded down, for every count: the cases in which the operations shift
by fewer positions than they are told to are those in which nothing, or only the sign, is left
(`toNat_shiftLeft`, `toNat_shiftRight`, `signed_shiftRightSigned`).
-/

namespace WordMachine

namespace Word

/-! ## Numbers of words -/

/-- The signed number that the number of a word stands for. -/
def twosComplement (n : Nat) : Int :=
  if n < 32768 then n else n - 65536

/-- The number of the word that an integer has. -/
def wrap (z : Int) : Nat :=
  (z % 65536).toNat

theorem signed_eq (w : Word) : w.signed = twosComplement w.toNat := by
  have hcond : w.signed = if 2 * w.toNat < 65536 then (w.toNat : Int) else w.toNat - 65536 :=
    BitVec.toInt_eq_toNat_cond w.toBitVec
  rw [hcond, twosComplement]
  split <;> split <;> omega

theorem signed_lt (w : Word) : w.signed < 32768 :=
  w.toInt16.toInt_lt

theorem le_signed (w : Word) : -32768 ≤ w.signed :=
  w.toInt16.le_toInt

/-- A word has the number that an integer wraps to if they differ by a multiple of 65536. -/
theorem toNat_eq_wrap {w : Word} {z : Int} (h : (65536 : Int) ∣ z - w.toNat) :
    w.toNat = wrap z := by
  have := w.toNat_lt
  unfold wrap
  omega

theorem dvd_signed_sub (w : Word) : (65536 : Int) ∣ w.signed - w.toNat := by
  rw [signed_eq, twosComplement]
  split <;> omega

theorem wrap_signed (w : Word) : wrap w.signed = w.toNat :=
  (toNat_eq_wrap w.dvd_signed_sub).symm

theorem signed_injective : Function.Injective signed := by
  intro v w h
  apply UInt16.toNat_inj.1
  rw [← wrap_signed v, ← wrap_signed w, h]

/-! ## Sums, differences and complements -/

theorem toNat_add (a b : Word) : (a + b).toNat = wrap (a.toNat + b.toNat) := by
  rw [UInt16.toNat_add, wrap]
  omega

theorem toNat_sub (a b : Word) : (a - b).toNat = wrap (a.toNat - b.toNat) := by
  have := a.toNat_lt
  have := b.toNat_lt
  rw [UInt16.toNat_sub, wrap]
  omega

theorem toNat_not (b : Word) : (~~~b).toNat = wrap (-1 - b.toNat) := by
  have := b.toNat_lt
  rw [UInt16.toNat_not, wrap]
  simp [UInt16.size]
  omega

theorem toNat_neg (b : Word) : (~~~b + 1).toNat = wrap (-b.toNat) := by
  rw [toNat_add, toNat_not]
  simp [wrap]
  omega

/-- Words are added as signed numbers modulo 65536. -/
theorem signed_add (a b : Word) : signed (a + b) = (a.signed + b.signed).bmod 65536 := by
  rw [signed, UInt16.toInt16_add, Int16.toInt_add]
  rfl

end Word

/-! ## Shifts -/

theorem shiftCount_eq (count : Word) :
    shiftCount count = (Word.twosComplement count.toNat).toNat := by
  rw [shiftCount, Word.signed_eq]

/-- A count of fewer than sixteen positions is not reduced. -/
theorem toNat_ofNat_mod_of_lt {n : Nat} (h : n < 16) : (UInt16.ofNat n).toNat % 16 = n := by
  rw [UInt16.toNat_ofNat']
  omega

theorem toNat_shiftLeft (v count : Word) :
    (shiftLeft v count).toNat = v.toNat * 2 ^ shiftCount count % 65536 := by
  unfold shiftLeft
  by_cases h : shiftCount count < 16
  · rw [if_pos h, UInt16.toNat_shiftLeft, toNat_ofNat_mod_of_lt h, Nat.shiftLeft_eq]
  · rw [if_neg h]
    have hdvd : 2 ^ 16 ∣ v.toNat * 2 ^ shiftCount count :=
      Nat.dvd_mul_left_of_dvd (Nat.pow_dvd_pow 2 (Nat.not_lt.1 h)) _
    exact (Nat.mod_eq_zero_of_dvd hdvd).symm

theorem toNat_shiftRight (v count : Word) :
    (shiftRight v count).toNat = v.toNat / 2 ^ shiftCount count := by
  unfold shiftRight
  by_cases h : shiftCount count < 16
  · rw [if_pos h, UInt16.toNat_shiftRight, toNat_ofNat_mod_of_lt h, Nat.shiftRight_eq_div_pow]
  · rw [if_neg h]
    have hlt : v.toNat < 2 ^ shiftCount count :=
      Nat.lt_of_lt_of_le v.toNat_lt (Nat.pow_le_pow_right (by decide) (Nat.not_lt.1 h))
    exact (Nat.div_eq_of_lt hlt).symm

/-- From fifteen positions on, a signed shift leaves the sign. -/
theorem Word.signed_div_pow (v : Word) {n : Nat} (h : 15 ≤ n) :
    v.signed / 2 ^ n = if v.signed < 0 then -1 else 0 := by
  have hpow : (2 : Int) ^ 15 ≤ 2 ^ n := by
    exact_mod_cast Nat.pow_le_pow_right (by decide : 0 < 2) h
  have hlt := v.signed_lt
  have hle := v.le_signed
  split
  · next hneg => exact Int.ediv_eq_neg_one_of_neg_of_le hneg (by omega)
  · next hpos => exact Int.ediv_eq_zero_of_lt (by omega) (by omega)

theorem signed_shiftRightSigned (v count : Word) :
    (shiftRightSigned v count).signed = v.signed / 2 ^ shiftCount count := by
  have hshift : (shiftRightSigned v count).signed = v.signed / 2 ^ min (shiftCount count) 15 := by
    refine BitVec.toInt_sshiftRight.trans ?_
    rw [Int.shiftRight_eq_div_pow, Int.natCast_pow]
    rfl
  rw [hshift]
  by_cases h : shiftCount count ≤ 15
  · rw [Nat.min_eq_left h]
  · have hge : 15 ≤ shiftCount count := Nat.le_of_not_le h
    rw [Nat.min_eq_right hge, v.signed_div_pow hge, v.signed_div_pow (Nat.le_refl 15)]

theorem toNat_shiftRightSigned (v count : Word) :
    (shiftRightSigned v count).toNat =
      Word.wrap (Word.twosComplement v.toNat / 2 ^ shiftCount count) := by
  rw [← Word.signed_eq, ← signed_shiftRightSigned, Word.wrap_signed]

end WordMachine
