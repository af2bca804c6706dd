import Mathlib.Data.Nat.Bitwise
import WordMachine.Proofs.Machine.InstructionSet

/-!
# Shifts position by position

A word is shifted by one position as many times as the count says; the machine does it at once, and
takes care of the counts for which a shift of sixteen bits is not defined. A shift by one position
doubles the number of a word, modulo 65536, or halves it, rounding down (`toNat_shiftLeftOnce`,
`toNat_shiftRightOnce`, `signed_shiftRightSignedOnce`), so by induction `n` of them multiply or
divide it by `2 ^ n`, and this is what a shift does to it for every count (`shift_eq_iterate`).
-/

namespace WordMachine

namespace Word

/-! ## One position -/

def shiftLeftOnce (w : Word) : Word :=
  w <<< 1

def shiftRightOnce (w : Word) : Word :=
  w >>> 1

/-- A shift to the right by one position that keeps the sign. -/
def shiftRightSignedOnce (w : Word) : Word :=
  (w &&& (0x8000 : Word)) ||| (w >>> 1)

theorem toNat_shiftLeftOnce (w : Word) : w.shiftLeftOnce.toNat = w.toNat * 2 % 65536 := by
  rw [shiftLeftOnce, UInt16.toNat_shiftLeft, Nat.shiftLeft_eq]
  rfl

theorem toNat_shiftRightOnce (w : Word) : w.shiftRightOnce.toNat = w.toNat / 2 := by
  rw [shiftRightOnce, UInt16.toNat_shiftRight, Nat.shiftRight_eq_div_pow]
  rfl

/-- The sign bit stands above the fifteen bits that the others are moved to. -/
theorem toNat_shiftRightSignedOnce (w : Word) :
    w.shiftRightSignedOnce.toNat = 2 ^ 15 * (w.toNat / 2 ^ 15) + w.toNat / 2 := by
  have hlt : w.toNat < 2 ^ 16 := w.toNat_lt
  have hsign : w.toNat &&& 2 ^ 15 = 2 ^ 15 * (w.toNat / 2 ^ 15) := by
    rw [Nat.and_two_pow, Nat.toNat_testBit, Nat.mul_comm]
    omega
  have hhalf : (w >>> 1).toNat = w.toNat / 2 := w.toNat_shiftRightOnce
  rw [shiftRightSignedOnce, UInt16.toNat_or, UInt16.toNat_and, hhalf]
  show w.toNat &&& 2 ^ 15 ||| w.toNat / 2 = _
  rw [hsign, Nat.two_pow_add_eq_or_of_lt (by omega)]

theorem signed_shiftRightSignedOnce (w : Word) :
    w.shiftRightSignedOnce.signed = w.signed / 2 := by
  have := w.toNat_lt
  rw [signed_eq, signed_eq, toNat_shiftRightSignedOnce, twosComplement, twosComplement]
  split <;> split <;> omega

/-! ## Any number of positions -/

theorem toNat_iterate_shiftLeftOnce (w : Word) (n : Nat) :
    (shiftLeftOnce^[n] w).toNat = w.toNat * 2 ^ n % 65536 := by
  induction n with
  | zero =>
    have := w.toNat_lt
    show w.toNat = w.toNat * 2 ^ 0 % 65536
    omega
  | succ n ih =>
    -- What has gone out of sixteen bits after `n` positions stays out after one more.
    rw [Function.iterate_succ_apply', toNat_shiftLeftOnce, ih, Nat.mod_mul_mod, Nat.mul_assoc,
      Nat.pow_succ]

theorem toNat_iterate_shiftRightOnce (w : Word) (n : Nat) :
    (shiftRightOnce^[n] w).toNat = w.toNat / 2 ^ n := by
  induction n with
  | zero => exact (Nat.div_one _).symm
  | succ n ih =>
    rw [Function.iterate_succ_apply', toNat_shiftRightOnce, ih, Nat.div_div_eq_div_mul,
      Nat.pow_succ]

theorem signed_iterate_shiftRightSignedOnce (w : Word) (n : Nat) :
    (shiftRightSignedOnce^[n] w).signed = w.signed / 2 ^ n := by
  induction n with
  | zero => exact (Int.ediv_one _).symm
  | succ n ih =>
    rw [Function.iterate_succ_apply', signed_shiftRightSignedOnce, ih,
      Int.ediv_ediv_of_nonneg (Int.pow_nonneg (by decide)), Int.pow_succ]

end Word

/-! ## Shifts by a count -/

theorem shiftLeft_eq_iterate (v count : Word) :
    shiftLeft v count = Word.shiftLeftOnce^[shiftCount count] v := by
  apply UInt16.toNat_inj.1
  rw [toNat_shiftLeft, Word.toNat_iterate_shiftLeftOnce]

theorem shiftRight_eq_iterate (v count : Word) :
    shiftRight v count = Word.shiftRightOnce^[shiftCount count] v := by
  apply UInt16.toNat_inj.1
  rw [toNat_shiftRight, Word.toNat_iterate_shiftRightOnce]

theorem shiftRightSigned_eq_iterate (v count : Word) :
    shiftRightSigned v count = Word.shiftRightSignedOnce^[shiftCount count] v := by
  -- The signed numbers agree also beyond the fifteen positions at which the shift stops.
  apply Word.signed_injective
  rw [signed_shiftRightSigned, Word.signed_iterate_shiftRightSignedOnce]

open InstructionSet (positions)

/-- **Shifts are loops.** A shift by a count is as many shifts by one position as the count says,
where a count is read as a signed number and a negative one does not shift. For every count, those
of sixteen and more included, a shift to the left multiplies the number of the word by a power of
two, modulo 65536, and a shift to the right divides it by one, rounding down; where the sign is
kept, it is the signed number that is divided, and the result is taken modulo 65536. -/
theorem shift_eq_iterate (v count : Word) :
    (shiftLeft v count = Word.shiftLeftOnce^[positions count.toNat] v ∧
      (shiftLeft v count).toNat = v.toNat * 2 ^ positions count.toNat % 65536) ∧
    (shiftRight v count = Word.shiftRightOnce^[positions count.toNat] v ∧
      (shiftRight v count).toNat = v.toNat / 2 ^ positions count.toNat) ∧
    (shiftRightSigned v count = Word.shiftRightSignedOnce^[positions count.toNat] v ∧
      (shiftRightSigned v count).toNat =
        Word.wrap (Word.twosComplement v.toNat / 2 ^ positions count.toNat)) := by
  rw [InstructionSet.positions_toNat]
  refine ⟨⟨?_, toNat_shiftLeft v count⟩, ⟨?_, toNat_shiftRight v count⟩,
    ⟨?_, toNat_shiftRightSigned v count⟩⟩
  · exact shiftLeft_eq_iterate v count
  · exact shiftRight_eq_iterate v count
  · exact shiftRightSigned_eq_iterate v count

/-- A negative count leaves a word as it is, and the largest one leaves the sign. -/
example : shiftLeft 0x1234 0xffff = 0x1234 ∧ shiftRightSigned 0x8234 0x7fff = 0xffff := by
  decide

end WordMachine
