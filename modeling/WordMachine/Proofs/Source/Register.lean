import Mathlib.Data.List.DropRight
import WordMachine.Proofs.Text.Digits
import WordMachine.Source.Operand

/-!
# Registers in operands

How a register is written as an operand (`RegisterToken`): a letter and the digits of its number, in
parentheses or not, with any number of commas behind them. A register is found in these tokens and
in no others (`registerNumber?_eq_some_iff`). It is read if there is a register with its number, and
refused with the number otherwise (`register_grammar`).
-/

namespace WordMachine

/-! ## Names of registers -/

/-- Whether a text names the register with a number, in parentheses or without. -/
inductive RegisterName : List Char → Nat → Bool → Prop
  | bare {c : Char} {digits : List Char} {n : Nat} (hc : c = 'r' ∨ c = 'R')
      (hdigits : Text.Digits 10 digits n) : RegisterName (c :: digits) n false
  | enclosed {c : Char} {digits : List Char} {n : Nat} (hc : c = 'r' ∨ c = 'R')
      (hdigits : Text.Digits 10 digits n) : RegisterName ('(' :: (c :: digits) ++ [')']) n true

/-- Whether a token names a register in front of commas. -/
inductive RegisterToken : List Char → Nat → Bool → Prop
  | intro {name commas : List Char} {n : Nat} {enclosed : Bool}
      (hname : RegisterName name n enclosed) (hcommas : ∀ c ∈ commas, c = ',') :
      RegisterToken (name ++ commas) n enclosed

/-- There need be no commas. -/
theorem RegisterToken.of_registerName {name : List Char} {n : Nat} {enclosed : Bool}
    (h : RegisterName name n enclosed) : RegisterToken name n enclosed := by
  have htoken : RegisterToken (name ++ []) n enclosed := .intro h (List.forall_mem_nil _)
  rwa [List.append_nil] at htoken

/-! ## Commas -/

theorem exists_dropCommas (token : List Char) :
    ∃ commas, token = dropCommas token ++ commas ∧ ∀ c ∈ commas, c = ',' := by
  refine ⟨token.rtakeWhile (· == ','), List.rdropWhile_append_rtakeWhile.symm, ?_⟩
  intro c hc
  simpa using List.mem_rtakeWhile_imp hc

theorem dropCommas_append {commas : List Char} (h : ∀ c ∈ commas, c = ',') (cs : List Char) :
    dropCommas (cs ++ commas) = dropCommas cs := by
  have hreverse : ∀ c ∈ commas.reverse, (c == ',') = true := by
    intro c hc
    simpa using h c (List.mem_reverse.1 hc)
  rw [dropCommas, dropCommas, Text.dropWhileEnd, Text.dropWhileEnd, List.reverse_append,
    List.dropWhile_append_of_pos hreverse]

theorem dropCommas_eq_self {cs : List Char} (h : ',' ∉ cs) : dropCommas cs = cs := by
  apply List.rdropWhile_eq_self_iff.2
  intro hne hlast
  have hmem := List.getLast_mem hne
  rw [beq_iff_eq] at hlast
  exact h (hlast ▸ hmem)

/-! ## Parentheses -/

theorem unparen_parentheses (cs : List Char) : unparen ('(' :: cs ++ [')']) = cs := by
  simp [unparen]

theorem unparen_cons_of_ne {c : Char} (hc : c ≠ '(') (cs : List Char) :
    unparen (c :: cs) = c :: cs := by
  unfold unparen
  split
  · next heq => exact absurd (List.cons.inj heq).1 hc
  · rfl

/-- Parentheses are taken away in pairs only. -/
theorem unparen_cases (cs : List Char) :
    cs = '(' :: unparen cs ++ [')'] ∨ unparen cs = cs := by
  unfold unparen
  split
  · next rest =>
    split
    · next hlast =>
      refine .inl ?_
      rw [List.cons_append, List.dropLast_append_getLast? _ hlast]
    · exact .inr rfl
  · exact .inr rfl

/-! ## Finding the register -/

theorem registerNumber?_cons {c : Char} (hc : c = 'r' ∨ c = 'R') (digits : List Char) :
    registerNumber? (c :: digits) = Text.natural? 10 digits := by
  rcases hc with rfl | rfl
  · rfl
  · rfl

theorem registerNumber?_eq_none {c : Char} (hc : ¬(c = 'r' ∨ c = 'R')) (digits : List Char) :
    registerNumber? (c :: digits) = none := by
  unfold registerNumber?
  split
  · next heq => exact absurd (.inl (List.cons.inj heq).1) hc
  · next heq => exact absurd (.inr (List.cons.inj heq).1) hc
  · rfl

theorem exists_of_registerNumber? {cs : List Char} {n : Nat} (h : registerNumber? cs = some n) :
    ∃ c digits, cs = c :: digits ∧ (c = 'r' ∨ c = 'R') ∧ Text.Digits 10 digits n := by
  unfold registerNumber? at h
  split at h
  · exact ⟨_, _, rfl, .inl rfl, (Text.natural?_eq_some_iff (by decide)).1 h⟩
  · exact ⟨_, _, rfl, .inr rfl, (Text.natural?_eq_some_iff (by decide)).1 h⟩
  · cases h

namespace RegisterName

variable {name : List Char} {n : Nat} {enclosed : Bool} (h : RegisterName name n enclosed)

include h

theorem not_mem_comma : ',' ∉ name := by
  have hletter {c : Char} (hc : c = 'r' ∨ c = 'R') : ',' ≠ c := by
    rcases hc with rfl | rfl <;> decide
  cases h with
  | bare hc hdigits =>
    have hnone := hdigits.not_mem (c := ',') (by decide) (by decide)
    simp [hletter hc, hnone]
  | enclosed hc hdigits =>
    have hnone := hdigits.not_mem (c := ',') (by decide) (by decide)
    simp [hletter hc, hnone]

theorem registerNumber?_unparen : registerNumber? (unparen name) = some n := by
  cases h with
  | @bare c digits n hc hdigits =>
    have hparen : c ≠ '(' := by
      rcases hc with rfl | rfl <;> decide
    rw [unparen_cons_of_ne hparen, registerNumber?_cons hc, Text.natural?_eq_some_iff (by decide)]
    exact hdigits
  | enclosed hc hdigits =>
    rw [unparen_parentheses, registerNumber?_cons hc, Text.natural?_eq_some_iff (by decide)]
    exact hdigits

end RegisterName

namespace RegisterToken

variable {token : List Char} {n : Nat} {enclosed : Bool} (h : RegisterToken token n enclosed)

include h

/-- What is left of the token without its commas. -/
theorem registerName : RegisterName (dropCommas token) n enclosed := by
  cases h with
  | intro hname hcommas =>
    rwa [dropCommas_append hcommas, dropCommas_eq_self hname.not_mem_comma]

theorem isParenthesized_eq : isParenthesized token = enclosed := by
  have hname := h.registerName
  simp only [isParenthesized]
  generalize dropCommas token = name at hname
  cases hname with
  | bare hc => rcases hc with rfl | rfl <;> rfl
  | enclosed =>
    rw [List.getLast?_concat]
    rfl

end RegisterToken

/-- A register is found in the tokens that name it. -/
theorem registerNumber?_eq_some_iff {token : List Char} {n : Nat} :
    registerNumber? (unparen (dropCommas token)) = some n ↔
      ∃ enclosed, RegisterToken token n enclosed := by
  constructor
  · intro h
    obtain ⟨commas, htoken, hcommas⟩ := exists_dropCommas token
    obtain ⟨c, digits, hname, hc, hdigits⟩ := exists_of_registerNumber? h
    rcases unparen_cases (dropCommas token) with hcs | hcs
    · rw [hname] at hcs
      exact ⟨true, htoken ▸ .intro (hcs ▸ .enclosed hc hdigits) hcommas⟩
    · rw [hcs] at hname
      exact ⟨false, htoken ▸ .intro (hname ▸ .bare hc hdigits) hcommas⟩
  · intro h
    obtain ⟨enclosed, h⟩ := h
    exact h.registerName.registerNumber?_unparen

/-! ## Reading registers -/

theorem readRegister_of_token {token : List Char} {n : Nat} {enclosed : Bool}
    (h : RegisterToken token n enclosed) :
    readRegister token =
      if n ≤ 15 then .ok (UInt8.ofNat n)
      else .error (.outOfRange .register (min n int64Max : Nat) 15) := by
  have hnumber := registerNumber?_eq_some_iff.2 ⟨enclosed, h⟩
  simp only [readRegister, hnumber]

theorem readRegister_of_no_token {token : List Char}
    (h : ∀ n enclosed, ¬RegisterToken token n enclosed) :
    readRegister token = .error (.malformed .register (String.ofList token)) := by
  have hnumber : registerNumber? (unparen (dropCommas token)) = none := by
    rw [Option.eq_none_iff_forall_ne_some]
    intro n hn
    obtain ⟨enclosed, hn⟩ := registerNumber?_eq_some_iff.1 hn
    exact h n enclosed hn
  simp only [readRegister, hnumber]

theorem readRegister_eq_ok_iff {token : List Char} {k : UInt8} :
    readRegister token = .ok k ↔
      k.toNat ≤ 15 ∧ ∃ enclosed, RegisterToken token k.toNat enclosed := by
  constructor
  · intro h
    by_cases htoken : ∃ n enclosed, RegisterToken token n enclosed
    · obtain ⟨n, enclosed, hn⟩ := htoken
      rw [readRegister_of_token hn] at h
      split at h
      · next hle =>
        obtain rfl := Except.ok.inj h
        have hvalue : (UInt8.ofNat n).toNat = n := by
          rw [UInt8.toNat_ofNat']
          omega
        rw [hvalue]
        exact ⟨hle, enclosed, hn⟩
      · cases h
    · have hnone : ∀ n enclosed, ¬RegisterToken token n enclosed := fun n enclosed hn =>
        htoken ⟨n, enclosed, hn⟩
      rw [readRegister_of_no_token hnone] at h
      cases h
  · intro h
    obtain ⟨hle, enclosed, h⟩ := h
    rw [readRegister_of_token h, if_pos hle, UInt8.ofNat_toNat]

/-- **The registers that are read.** A token is read as a register if it names one that exists, and
only then; and it counts as a memory reference if the name is in parentheses. A token that names a
register with another number is refused as out of range with that number, or with the largest 64-bit
integer if the number is above it. All other tokens are refused for their form. -/
theorem register_grammar (token : List Char) :
    (∀ k, readRegister token = .ok k ↔
      k.toNat ≤ 15 ∧ ∃ enclosed, RegisterToken token k.toNat enclosed) ∧
    (∀ n enclosed, RegisterToken token n enclosed → isParenthesized token = enclosed ∧
      (15 < n → readRegister token =
        .error (.outOfRange .register (min n 9223372036854775807 : Nat) 15))) ∧
    ((∀ n enclosed, ¬RegisterToken token n enclosed) →
      readRegister token = .error (.malformed .register (String.ofList token))) := by
  refine ⟨fun k => readRegister_eq_ok_iff, ?_, readRegister_of_no_token⟩
  intro n enclosed h
  refine ⟨h.isParenthesized_eq, fun hn => ?_⟩
  rw [readRegister_of_token h, if_neg (Nat.not_le_of_lt hn)]
  rfl

/-- A register in parentheses whose number is above the 64-bit integers, in front of commas, and a
register with a parenthesis and a comma inside. -/
theorem register_grammar_saturated :
    (RegisterToken "(R0018446744073709551616),,".toList 18446744073709551616 true ∧
      isParenthesized "(R0018446744073709551616),,".toList = true ∧
      readRegister "(R0018446744073709551616),,".toList =
        .error (.outOfRange .register 9223372036854775807 15)) ∧
    ((∀ n enclosed, ¬RegisterToken "(r1,".toList n enclosed) ∧
      readRegister "(r1,".toList = .error (.malformed .register "(r1,")) := by
  have hlarge : RegisterToken "(R0018446744073709551616),,".toList 18446744073709551616 true := by
    have hdigits : Text.Digits 10 "0018446744073709551616".toList 18446744073709551616 :=
      (Text.natural?_eq_some_iff (by decide)).1 (by decide +kernel)
    have hname : RegisterName "(R0018446744073709551616)".toList 18446744073709551616 true :=
      .enclosed (.inr rfl) hdigits
    exact .intro hname (List.forall_mem_cons.2 ⟨rfl, List.forall_mem_singleton.2 rfl⟩)
  have hopen (n : Nat) (enclosed : Bool) : ¬RegisterToken "(r1,".toList n enclosed := by
    intro h
    have hnumber := registerNumber?_eq_some_iff.2 ⟨enclosed, h⟩
    have hnone : registerNumber? (unparen (dropCommas "(r1,".toList)) = none := by decide +kernel
    rw [hnone] at hnumber
    cases hnumber
  obtain ⟨hparens, hread⟩ := (register_grammar _).2.1 _ _ hlarge
  exact ⟨⟨hlarge, hparens, hread (by decide)⟩, hopen, (register_grammar _).2.2 hopen⟩

end WordMachine
