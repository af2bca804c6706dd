import WordMachine.Proofs.Instruction.Reading
import WordMachine.Proofs.Source.Number
import WordMachine.Proofs.Source.Register
import WordMachine.Proofs.Text.LetterCase

/-!
# Reading does not depend on letter case

Mnemonics, registers and numbers are read alike in either letter case. Each reader takes a token and
the token in lower case to the same result, but for the token that an error quotes
(`readRegister_lower`, `readByte_lower`). References to labels are told apart by case. So lines
whose tokens agree in this sense (`Line.SameToken`) hold the same instruction, or are refused for
the same reason (`read_letter_case`).
-/

namespace WordMachine

/-- Whether two tokens are the same in lower case. References to labels have to be the same as they
are written. -/
structure Line.SameToken (token token' : List Char) : Prop where
  lower_eq : Text.lower token = Text.lower token'
  label_eq : token.head? = some ':' → token = token'

/-- An error without the token that it quotes. -/
def LineError.unquoted : LineError → LineError
  | malformed part _ => malformed part ""
  | unknownInstruction _ => unknownInstruction ""
  | e => e

/-! ## Registers -/

theorem dropCommas_lower (cs : List Char) :
    dropCommas (Text.lower cs) = Text.lower (dropCommas cs) := by
  apply Text.dropWhileEnd_lower
  intro c
  rw [Bool.eq_iff_iff, beq_iff_eq, beq_iff_eq, Text.toLower_eq_iff (by decide)]

theorem unparen_lower (cs : List Char) : unparen (Text.lower cs) = Text.lower (unparen cs) := by
  cases cs with
  | nil => rfl
  | cons c cs =>
    rw [Text.lower_cons]
    by_cases hc : c = '('
    · subst hc
      have hlast : (Text.lower cs).getLast? = some ')' ↔ cs.getLast? = some ')' := by
        rw [Text.lower, List.getLast?_map, Text.map_toLower_eq_some_iff (by decide)]
      have hopen : '('.toLower = '(' := rfl
      rw [hopen, unparen, unparen]
      by_cases hclose : cs.getLast? = some ')'
      · rw [if_pos hclose, if_pos (hlast.2 hclose), Text.lower, Text.lower, List.map_dropLast]
      · rw [if_neg hclose, if_neg (mt hlast.1 hclose)]
        rfl
    · have hlower : c.toLower ≠ '(' := mt (Text.toLower_eq_iff (by decide) c).1 hc
      rw [unparen_cons_of_ne hc, unparen_cons_of_ne hlower]
      rfl

theorem registerNumber?_lower (cs : List Char) :
    registerNumber? (Text.lower cs) = registerNumber? cs := by
  cases cs with
  | nil => rfl
  | cons c cs =>
    have hletter : c.toLower = 'r' ∨ c.toLower = 'R' ↔ c = 'r' ∨ c = 'R' :=
      Text.toLower_eq_or_iff (by decide +kernel) c
    rw [Text.lower_cons]
    by_cases hc : c = 'r' ∨ c = 'R'
    · rw [registerNumber?_cons hc, registerNumber?_cons (hletter.2 hc), Text.natural?_lower]
    · rw [registerNumber?_eq_none hc, registerNumber?_eq_none (fun h => hc (hletter.1 h))]

theorem readRegister_lower (token : List Char) :
    (readRegister (Text.lower token)).mapError LineError.unquoted =
      (readRegister token).mapError LineError.unquoted := by
  simp only [readRegister, dropCommas_lower, unparen_lower, registerNumber?_lower]
  split
  · rfl
  · rfl

/-! ## Numbers -/

theorem splitRadix_lower (cs : List Char) :
    splitRadix (Text.lower cs) = ((splitRadix cs).1, Text.lower (splitRadix cs).2) := by
  rcases cs with _ | ⟨c, _ | ⟨c', cs⟩⟩
  · rfl
  · have hshort (c : Char) : splitRadix [c] = (10, [c]) := splitRadix_eq_decimal (by simp)
    rw [Text.lower_cons, hshort c]
    exact hshort c.toLower
  · have hzero : c.toLower = '0' ↔ c = '0' := Text.toLower_eq_iff (by decide) c
    have hx : c'.toLower = 'x' ∨ c'.toLower = 'X' ↔ c' = 'x' ∨ c' = 'X' :=
      Text.toLower_eq_or_iff (by decide +kernel) c'
    have hb : c'.toLower = 'b' ∨ c'.toLower = 'B' ↔ c' = 'b' ∨ c' = 'B' :=
      Text.toLower_eq_or_iff (by decide +kernel) c'
    have ho : c'.toLower = 'o' ∨ c'.toLower = 'O' ↔ c' = 'o' ∨ c' = 'O' :=
      Text.toLower_eq_or_iff (by decide +kernel) c'
    simp only [Text.lower_cons, splitRadix_cons_cons, hzero, hx, hb, ho]
    split
    · rfl
    · split
      · rfl
      · split
        · rfl
        · rfl

theorem splitSign_lower (cs : List Char) :
    splitSign (Text.lower cs) = ((splitSign cs).1, Text.lower (splitSign cs).2) := by
  cases cs with
  | nil => rfl
  | cons c cs =>
    by_cases hminus : c = '-'
    · subst hminus
      rfl
    · by_cases hplus : c = '+'
      · subst hplus
        rfl
      · have hminus' : c.toLower ≠ '-' := mt (Text.toLower_eq_iff (by decide) c).1 hminus
        have hplus' : c.toLower ≠ '+' := mt (Text.toLower_eq_iff (by decide) c).1 hplus
        rw [Text.lower_cons, splitSign_eq_none hminus' hplus', splitSign_eq_none hminus hplus]
        rfl

theorem readByte_lower (token : List Char) :
    (readByte (Text.lower token)).mapError LineError.unquoted =
      (readByte token).mapError LineError.unquoted := by
  simp only [readByte, Text.trim_lower, splitRadix_lower, splitSign_lower, Text.bounded_lower]
  split
  · rfl
  · rfl
  · rfl

/-! ## Operands -/

namespace Line.SameToken

variable {token token' : List Char} (h : SameToken token token')

include h

theorem head?_iff : token.head? = some ':' ↔ token'.head? = some ':' := by
  have hlower (cs : List Char) : (Text.lower cs).head? = some ':' ↔ cs.head? = some ':' := by
    rw [Text.lower, List.head?_map, Text.map_toLower_eq_some_iff (by decide)]
  rw [← hlower token, h.lower_eq, hlower token']

theorem readRegister_eq :
    (readRegister token).mapError LineError.unquoted =
      (readRegister token').mapError LineError.unquoted := by
  rw [← readRegister_lower, h.lower_eq, readRegister_lower]

theorem readImmediate_eq :
    (readImmediate token).mapError LineError.unquoted =
      (readImmediate token').mapError LineError.unquoted := by
  by_cases hlabel : token.head? = some ':'
  · rw [h.label_eq hlabel]
  · rw [readImmediate_eq_readByte hlabel, readImmediate_eq_readByte (mt h.head?_iff.2 hlabel)]
    apply mapError_map_congr
    rw [← readByte_lower, h.lower_eq, readByte_lower]

theorem read_eq (slot : Slot) :
    (slot.read token).mapError LineError.unquoted =
      (slot.read token').mapError LineError.unquoted := by
  cases slot with
  | register => exact mapError_map_congr h.readRegister_eq _
  | memory => exact mapError_map_congr h.readRegister_eq _
  | immediate => exact h.readImmediate_eq

end Line.SameToken

/-! ## Lines -/

theorem readOperands_letter_case (slots : List Slot) {tokens tokens' : List (List Char)}
    (h : List.Forall₂ Line.SameToken tokens tokens') :
    (readOperands slots tokens).mapError LineError.unquoted =
      (readOperands slots tokens').mapError LineError.unquoted := by
  induction h generalizing slots with
  | nil => rfl
  | cons htoken _ ih =>
    cases slots with
    | nil => rfl
    | cons slot slots =>
      apply mapError_bind_congr (htoken.read_eq slot)
      intro operand
      exact mapError_bind_congr (ih slots) fun _ => rfl

theorem ofMnemonic?_letter_case {word word' : List Char} (h : Text.lower word = Text.lower word') :
    Op.ofMnemonic? word = Op.ofMnemonic? word' := by
  rw [Text.lower, Text.lower] at h
  rw [Op.ofMnemonic?, Op.ofMnemonic?, h]

theorem read_unquoted {text text' : List Char}
    (h : List.Forall₂ Line.SameToken (Line.tokens text) (Line.tokens text')) (line : Nat) :
    (Instruction.read text line).mapError LineError.unquoted =
      (Instruction.read text' line).mapError LineError.unquoted := by
  cases htokens : Line.tokens text with
  | nil =>
    rw [htokens, List.forall₂_nil_left_iff] at h
    simp only [Instruction.read, htokens, h]
  | cons mnemonic args =>
    rw [htokens, List.forall₂_cons_left_iff] at h
    obtain ⟨mnemonic', args', hmnemonic, hargs, htokens'⟩ := h
    simp only [Instruction.read, htokens, htokens', ofMnemonic?_letter_case hmnemonic.lower_eq,
      hargs.length_eq]
    split
    · rfl
    · split
      · rfl
      · exact mapError_bind_congr (readOperands_letter_case _ hargs) fun _ => rfl

/-- **Reading does not depend on letter case.** Two lines whose tokens are the same but for the case
of letters outside references to labels hold the same instruction, or both are refused, for reasons
that differ in the token that is quoted at most. -/
theorem read_letter_case {text text' : List Char}
    (h : List.Forall₂ Line.SameToken (Line.tokens text) (Line.tokens text')) (line line' : Nat) :
    (∃ i i', Instruction.read text line = .ok i ∧ Instruction.read text' line' = .ok i' ∧
      i.same i' = true) ∨
    ∃ e e', Instruction.read text line = .error e ∧ Instruction.read text' line' = .error e' ∧
      e.unquoted = e'.unquoted := by
  have hunquoted := read_unquoted h line
  rw [read_of_tokens_eq rfl line line']
  cases hread : Instruction.read text line with
  | ok i =>
    cases hread' : Instruction.read text' line with
    | ok i' =>
      rw [hread, hread'] at hunquoted
      obtain rfl := Except.ok.inj hunquoted
      exact .inl ⟨i, i.onLine line', rfl, rfl, by simp [Instruction.same, Instruction.onLine]⟩
    | error e =>
      rw [hread, hread'] at hunquoted
      cases hunquoted
  | error e =>
    cases hread' : Instruction.read text' line with
    | ok i =>
      rw [hread, hread'] at hunquoted
      cases hunquoted
    | error e' =>
      rw [hread, hread'] at hunquoted
      exact .inr ⟨e, e', rfl, rfl, Except.error.inj hunquoted⟩

/-- A mnemonic and a register in other letters, with the same label. -/
theorem read_letter_case_far :
    List.Forall₂ Line.SameToken (Line.tokens "LI R1, :Far".toList)
        (Line.tokens "li r1, :Far ; near".toList) ∧
      ∃ i, Instruction.read "li r1, :Far ; near".toList 2 = .ok i ∧
        Instruction.same ⟨.li, [.reg 1, .label ":Far"], 1⟩ i = true := by
  have htokens : Line.tokens "LI R1, :Far".toList = ["LI".toList, "R1".toList, ":Far".toList] := by
    decide +kernel
  have htokens' : Line.tokens "li r1, :Far ; near".toList =
      ["li".toList, "r1".toList, ":Far".toList] := by
    decide +kernel
  have hread : Instruction.read "LI R1, :Far".toList 1 =
      .ok ⟨.li, [.reg 1, .label ":Far"], 1⟩ := by
    decide +kernel
  have h : List.Forall₂ Line.SameToken (Line.tokens "LI R1, :Far".toList)
      (Line.tokens "li r1, :Far ; near".toList) := by
    rw [htokens, htokens']
    exact .cons ⟨by decide, by decide⟩ (.cons ⟨by decide, by decide⟩
      (.cons ⟨by decide, by decide⟩ .nil))
  refine ⟨h, ?_⟩
  rcases read_letter_case h 1 2 with ⟨i, i', hi, hi', hsame⟩ | ⟨e, e', he, -⟩
  · rw [hread] at hi
    obtain rfl := Except.ok.inj hi
    exact ⟨i', hi', hsame⟩
  · rw [hread] at he
    cases he

end WordMachine
