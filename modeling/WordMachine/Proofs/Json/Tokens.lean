import WordMachine.Json.Basic
import WordMachine.Json.Token
import WordMachine.Proofs.Text.Numeral

/-!
# Printed values are read as tokens

The tokens of a value (`Json.tokens`) are what its text is read as, wherever it is indented and
whatever its strings hold (`ofText?_pretty`). A text stands for tokens (`JsonToken.Denotes`) if they
are read from it in front of everything that does not go on with a number: of all tokens only
numbers have no end of their own.
-/

namespace WordMachine

/-! ## The tokens of a value -/

namespace Json

mutual

def tokens : Json → List JsonToken
  | null => [.null]
  | number n => [.number (some n)]
  | string s => [.string (s.toList.map Char.toNat)]
  | array items => .opening .square :: (itemTokens items ++ [.closing .square])
  | object members => .opening .curly :: (memberTokens members ++ [.closing .curly])

/-- The tokens of items with commas between them. -/
def itemTokens : List Json → List JsonToken
  | [] => []
  | [item] => item.tokens
  | item :: items => item.tokens ++ .comma :: itemTokens items

/-- The tokens of members with commas between them. -/
def memberTokens : List (String × Json) → List JsonToken
  | [] => []
  | [(key, value)] => .string (key.toList.map Char.toNat) :: .colon :: value.tokens
  | (key, value) :: members =>
    .string (key.toList.map Char.toNat) :: .colon ::
      (value.tokens ++ .comma :: memberTokens members)

end

theorem itemTokens_cons (item : Json) (items : List Json) :
    itemTokens (item :: items) =
      item.tokens ++ items.flatMap fun item => .comma :: item.tokens := by
  induction items generalizing item with
  | nil => simp [itemTokens]
  | cons next items ih => simp [itemTokens, ih]

/-- The tokens of a member with a token in front of them. -/
def memberTokensAfter (token : JsonToken) (member : String × Json) : List JsonToken :=
  token :: .string (member.1.toList.map Char.toNat) :: .colon :: member.2.tokens

theorem memberTokens_cons (token : JsonToken) (member : String × Json)
    (members : List (String × Json)) :
    token :: memberTokens (member :: members) =
      memberTokensAfter token member ++ members.flatMap (memberTokensAfter .comma) := by
  induction members generalizing token member with
  | nil => simp [memberTokens, memberTokensAfter]
  | cons next members ih =>
    rw [List.flatMap_cons, ← ih]
    simp [memberTokens, memberTokensAfter]

end Json

/-! ## Texts that stand for tokens -/

namespace JsonToken

/-- Whether tokens are what a text is read as in front of every text of a kind. -/
structure Denotes (follows : List Char → Prop) (cs : List Char) (ts : List JsonToken) : Prop where
  length_le : ts.length ≤ cs.length
  readAll_append : ∀ (fuel : Nat) (before : List JsonToken) (rest : List Char), follows rest →
    readAll (ts.length + fuel) before (cs ++ rest) = readAll fuel (ts.reverse ++ before) rest

/-- Any text. -/
def Anything (_ : List Char) : Prop :=
  True

/-- Whether a number can end in front of a text. -/
def EndsNumber (rest : List Char) : Prop :=
  ∀ c, rest.head? = some c → c.isDigit = false ∧ c ≠ '.' ∧ c ≠ 'e' ∧ c ≠ 'E'

theorem endsNumber_nil : EndsNumber [] := by
  intro c hc
  cases hc

/-- A character that no number goes on with. -/
theorem endsNumber_cons {c : Char} (h : c.isDigit = false ∧ c ≠ '.' ∧ c ≠ 'e' ∧ c ≠ 'E')
    (cs : List Char) : EndsNumber (c :: cs) := by
  intro d hd
  obtain rfl : c = d := Option.some.inj hd
  exact h

theorem EndsNumber.append {cs rest : List Char} (hcs : EndsNumber cs) (hrest : EndsNumber rest) :
    EndsNumber (cs ++ rest) := by
  cases cs with
  | nil => exact hrest
  | cons c cs => exact hcs

namespace Denotes

variable {P Q : List Char → Prop} {cs cs' : List Char} {ts ts' : List JsonToken}

theorem append (h : Denotes P cs ts) (h' : Denotes Q cs' ts')
    (hfollows : ∀ rest, Q rest → P (cs' ++ rest)) : Denotes Q (cs ++ cs') (ts ++ ts') where
  length_le := by
    have := h.length_le
    have := h'.length_le
    simp only [List.length_append]
    omega
  readAll_append fuel before rest hrest := by
    rw [List.length_append, Nat.add_assoc, List.append_assoc,
      h.readAll_append _ _ _ (hfollows rest hrest), h'.readAll_append _ _ _ hrest,
      List.reverse_append, List.append_assoc]

theorem mark_append (h : Denotes Anything cs ts) (h' : Denotes Q cs' ts') :
    Denotes Q (cs ++ cs') (ts ++ ts') :=
  h.append h' fun _ _ => trivial

theorem append_ends (h : Denotes EndsNumber cs ts) (h' : Denotes EndsNumber cs' ts')
    (hends : EndsNumber cs') : Denotes EndsNumber (cs ++ cs') (ts ++ ts') :=
  h.append h' fun _ hrest => hends.append hrest

theorem endsNumber (h : Denotes Anything cs ts) : Denotes EndsNumber cs ts where
  length_le := h.length_le
  readAll_append fuel before rest _ := h.readAll_append fuel before rest trivial

end Denotes

/-- Blanks stand for nothing. -/
theorem denotes_spaces {cs : List Char} (h : ∀ c ∈ cs, isSpace c = true) :
    Denotes Anything cs [] where
  length_le := Nat.zero_le _
  readAll_append fuel before rest _ := by
    have hdrop : (cs ++ rest).dropWhile isSpace = rest.dropWhile isSpace :=
      List.dropWhile_append_of_pos h
    simp only [List.length_nil, Nat.zero_add, List.reverse_nil, List.nil_append]
    cases fuel with
    | zero => simp only [readAll, hdrop]
    | succ fuel => simp only [readAll, hdrop]

/-- A text that is read as a token stands for it. -/
theorem denotes_of_read {Q : List Char → Prop} {c : Char} {cs : List Char} {token : JsonToken}
    (hspace : isSpace c = false)
    (h : ∀ rest, Q rest → read (c :: cs ++ rest) = some (token, rest)) :
    Denotes Q (c :: cs) [token] where
  length_le := by simp
  readAll_append fuel before rest hrest := by
    have hdrop : (c :: cs ++ rest).dropWhile isSpace = c :: cs ++ rest :=
      List.dropWhile_cons_of_neg (by simp [hspace])
    rw [List.length_singleton, Nat.add_comm, readAll, hdrop, List.cons_append]
    simp only [← List.cons_append, h rest hrest]
    rfl

/-! ## Numbers -/

theorem isSpace_of_isDigit {c : Char} (hc : c.isDigit = true) : isSpace c = false := by
  rw [Bool.eq_false_iff]
  intro hspace
  simp only [isSpace, Bool.or_eq_true, beq_iff_eq] at hspace
  rcases hspace with ((rfl | rfl) | rfl) | rfl
  all_goals exact absurd hc (by decide)

theorem readDigits_append {digits rest : List Char} (hne : digits ≠ [])
    (hdigits : ∀ c ∈ digits, c.isDigit = true) (hrest : EndsNumber rest) :
    readDigits (digits ++ rest) = some (digits, rest) := by
  have htake : rest.takeWhile Char.isDigit = [] := by
    cases rest with
    | nil => rfl
    | cons c rest => exact List.takeWhile_cons_of_neg (by simp [(hrest c rfl).1])
  have hdrop : rest.dropWhile Char.isDigit = rest := by
    cases rest with
    | nil => rfl
    | cons c rest => exact List.dropWhile_cons_of_neg (by simp [(hrest c rfl).1])
  rw [readDigits, List.takeWhile_append_of_pos hdigits, List.dropWhile_append_of_pos hdigits, htake,
    hdrop, List.append_nil]
  obtain ⟨c, cs, rfl⟩ := List.exists_cons_of_ne_nil hne
  rfl

theorem skipFraction_eq {rest : List Char} (h : EndsNumber rest) :
    skipFraction rest = some (false, rest) := by
  unfold skipFraction
  split
  · exact absurd rfl (h _ rfl).2.1
  · rfl

theorem skipExponent_eq {rest : List Char} (h : EndsNumber rest) :
    skipExponent rest = some (false, rest) := by
  unfold skipExponent
  split
  case h_7 => rfl
  case h_1 | h_2 | h_5 => exact absurd rfl (h _ rfl).2.2.1
  case h_3 | h_4 | h_6 => exact absurd rfl (h _ rfl).2.2.2

/-- A number is written with a zero in front only if it is zero. -/
theorem length_decimal {n : Nat} (h : (Text.decimal n).head? = some '0') :
    (Text.decimal n).length = 1 := by
  have hhead (n : Nat) (hn : n ≠ 0) : (Nat.toDigits 10 n).head? ≠ some '0' := by
    induction n using Nat.strongRecOn with
    | ind n ih =>
      rw [Nat.toDigits_eq_if (by decide)]
      split
      · next hlt =>
        rw [List.head?_cons]
        have hzero : ∀ d < 10, some (Nat.digitChar d) = some '0' → d = 0 := by decide
        exact fun h => hn (hzero n hlt h)
      · next hge =>
        rw [List.head?_append_of_ne_nil _ Nat.toDigits_ne_nil]
        exact ih (n / 10) (by omega) (by omega)
  have hn : n = 0 := by
    by_contra hn
    exact hhead n hn h
  rw [hn]
  rfl

theorem read_of_isDigit {c : Char} (hc : c.isDigit = true) (cs : List Char) :
    read (c :: cs) = readNumber (c :: cs) := by
  unfold read
  split
  case h_11 => rfl
  all_goals
    next heq =>
      obtain ⟨rfl, -⟩ := List.cons.inj heq
      exact absurd hc (by decide)

theorem read_decimal (n : Nat) {rest : List Char} (hrest : EndsNumber rest) :
    read (Text.decimal n ++ rest) = some (.number (some n), rest) := by
  have hdigits : ∀ c ∈ Text.decimal n, c.isDigit = true := fun c hc =>
    Text.isDigit_of_mem_decimal hc
  have hnatural : Text.natural? 10 (Text.decimal n) = some n :=
    Text.natural?_toDigits (by decide) (by decide) n
  have hread := readDigits_append (Text.decimal_ne_nil n) hdigits hrest
  have hzero := @length_decimal n
  obtain ⟨c, cs, hcs⟩ := List.exists_cons_of_ne_nil (Text.decimal_ne_nil n)
  rw [hcs] at hdigits hnatural hread hzero ⊢
  rw [List.cons_append] at hread ⊢
  have hc : c.isDigit = true := hdigits c List.mem_cons_self
  have hfront : ¬ ((c :: cs).head? = some '0' ∧ (c :: cs).length ≠ 1) := fun h => h.2 (hzero h.1)
  rw [read_of_isDigit hc, readNumber]
  · simp only [hread, Option.bind_eq_bind, Option.bind_some, if_neg hfront, skipFraction_eq hrest,
      skipExponent_eq hrest, hnatural]
    rfl
  · intro rest' heq
    obtain ⟨rfl, -⟩ := List.cons.inj heq
    exact absurd hc (by decide)

/-! ## Strings -/

/-- An escaped character is read as its unit. -/
theorem readString_escape (units : List Nat) (c : Char) (rest : List Char) :
    readString units (Json.escape c ++ rest) = readString (c.toNat :: units) rest := by
  unfold Json.escape
  split
  case h_8 =>
    split
    · next hcontrol =>
      have hlength : (Text.padded 16 4 c.toNat).length = 4 :=
        Text.length_padded (by decide) (by decide) (by omega)
      have hunit : Text.natural? 16 (Text.padded 16 4 c.toNat) = some c.toNat :=
        Text.natural?_padded (by decide) (by decide) 4 c.toNat
      obtain ⟨d₁, d₂, d₃, d₄, hdigits⟩ := List.length_eq_four.1 hlength
      rw [hdigits] at hunit ⊢
      simp only [List.cons_append, List.nil_append, readString, hunit]
    · next hquote hbackslash _ _ _ _ _ hplain =>
      rw [List.singleton_append, readString, if_neg hplain]
      · exact hquote
      · exact fun _ _ _ _ _ h => absurd h hbackslash
      · exact fun _ _ h => absurd h hbackslash
  all_goals rfl

theorem readString_append (units : List Nat) (cs rest : List Char) :
    readString units (cs.flatMap Json.escape ++ '"' :: rest) =
      some (units.reverse ++ cs.map Char.toNat, rest) := by
  induction cs generalizing units with
  | nil => simp [readString]
  | cons c cs ih =>
    rw [List.flatMap_cons, List.append_assoc, readString_escape, ih]
    simp

theorem denotes_quoted (s : String) :
    Denotes Anything (Json.quoted s).toList [.string (s.toList.map Char.toNat)] := by
  rw [Json.quoted, String.toList_ofList]
  refine denotes_of_read rfl fun rest _ => ?_
  have hread := readString_append [] s.toList rest
  simp only [List.cons_append, List.append_eq, List.append_assoc, List.nil_append, read, hread]
  rfl

theorem denotes_decimal (n : Nat) : Denotes EndsNumber (Text.decimal n) [.number (some n)] := by
  have hread (rest : List Char) (hrest : EndsNumber rest) := read_decimal n hrest
  have hdigits : ∀ c ∈ Text.decimal n, c.isDigit = true := fun c hc =>
    Text.isDigit_of_mem_decimal hc
  obtain ⟨c, cs, hcs⟩ := List.exists_cons_of_ne_nil (Text.decimal_ne_nil n)
  rw [hcs] at hread hdigits ⊢
  exact denotes_of_read (isSpace_of_isDigit (hdigits c List.mem_cons_self)) hread

theorem denotes_newline (depth : Nat) : Denotes Anything (Json.newline depth).toList [] := by
  rw [Json.newline, String.toList_ofList]
  refine denotes_spaces (List.forall_mem_cons.2 ⟨rfl, fun c hc => ?_⟩)
  rw [(List.mem_replicate.1 hc).2]
  rfl

theorem endsNumber_newline_append (depth : Nat) (cs : List Char) :
    EndsNumber ((Json.newline depth).toList ++ cs) := by
  rw [Json.newline, String.toList_ofList]
  exact endsNumber_cons (by decide) _

/-! ## Values -/

theorem denotes_mark {c : Char} {token : JsonToken} (hspace : isSpace c = false)
    (h : ∀ rest, read (c :: rest) = some (token, rest)) : Denotes Anything [c] [token] :=
  denotes_of_read hspace fun rest _ => h rest

/-- Whether what a value is printed as stands for its tokens, wherever it is printed. -/
def Printed (j : Json) : Prop :=
  ∀ (out : String) (depth : Nat), ∃ cs,
    (j.appendTo out depth).toList = out.toList ++ cs ∧ Denotes EndsNumber cs j.tokens

theorem exists_appendItems {items : List Json} (h : ∀ item ∈ items, Printed item) (out : String)
    (depth : Nat) :
    ∃ cs, (Json.appendItems out depth items).toList = out.toList ++ cs ∧ EndsNumber cs ∧
      Denotes EndsNumber cs (items.flatMap fun item => .comma :: item.tokens) := by
  induction items generalizing out with
  | nil =>
    exact ⟨[], (List.append_nil _).symm, endsNumber_nil, (denotes_spaces (by simp)).endsNumber⟩
  | cons item items ih =>
    obtain ⟨cs, hcs, hitem⟩ :=
      h item List.mem_cons_self (out ++ "," ++ Json.newline depth) depth
    obtain ⟨cs', hcs', hends, hitems⟩ := ih (fun i hi => h i (List.mem_cons_of_mem _ hi))
      (item.appendTo (out ++ "," ++ Json.newline depth) depth)
    refine ⟨',' :: (Json.newline depth).toList ++ (cs ++ cs'), ?_,
      endsNumber_cons (by decide) _, ?_⟩
    · rw [Json.appendItems, hcs', hcs]
      simp [String.toList_append]
    · have hcomma : Denotes Anything [','] [.comma] := denotes_mark rfl fun _ => rfl
      exact (hcomma.mark_append (denotes_newline depth)).mark_append
        (hitem.append_ends hitems hends)

theorem printed_array {items : List Json} (h : ∀ item ∈ items, Printed item) :
    Printed (.array items) := by
  intro out depth
  have hopening : Denotes Anything ['['] [.opening .square] := denotes_mark rfl fun _ => rfl
  have hclosing : Denotes Anything [']'] [.closing .square] := denotes_mark rfl fun _ => rfl
  cases items with
  | nil =>
    refine ⟨['[', ']'], ?_, (hopening.mark_append hclosing).endsNumber⟩
    rw [Json.appendTo, String.toList_append]
    rfl
  | cons item items =>
    obtain ⟨cs, hcs, hitem⟩ := h item List.mem_cons_self (out ++ "[" ++ Json.newline (depth + 1))
      (depth + 1)
    obtain ⟨cs', hcs', hends, hitems⟩ := exists_appendItems
      (fun i hi => h i (List.mem_cons_of_mem _ hi))
      (item.appendTo (out ++ "[" ++ Json.newline (depth + 1)) (depth + 1)) (depth + 1)
    have hend := ((denotes_newline depth).mark_append hclosing).endsNumber
    have hends' := endsNumber_newline_append depth [']']
    refine ⟨'[' :: (Json.newline (depth + 1)).toList ++
      (cs ++ cs' ++ ((Json.newline depth).toList ++ [']'])), ?_, ?_⟩
    · rw [Json.appendTo]
      simp [hcs', hcs, String.toList_append]
    · rw [Json.tokens, Json.itemTokens_cons]
      exact (hopening.mark_append (denotes_newline (depth + 1))).mark_append
        ((hitem.append_ends hitems hends).append_ends hend hends')

theorem denotes_key (key : String) :
    Denotes Anything ((Json.quoted key).toList ++ [':', ' '])
      [.string (key.toList.map Char.toNat), .colon] := by
  have hcolon : Denotes Anything [':'] [.colon] := denotes_mark rfl fun _ => rfl
  have hblank : Denotes Anything [' '] [] := denotes_spaces (by simp [isSpace])
  exact (denotes_quoted key).mark_append (hcolon.mark_append hblank)

theorem exists_appendMembers {members : List (String × Json)} (h : ∀ x ∈ members, Printed x.2)
    (out : String) (depth : Nat) :
    ∃ cs, (Json.appendMembers out depth members).toList = out.toList ++ cs ∧ EndsNumber cs ∧
      Denotes EndsNumber cs (members.flatMap (Json.memberTokensAfter .comma)) := by
  induction members generalizing out with
  | nil =>
    exact ⟨[], (List.append_nil _).symm, endsNumber_nil, (denotes_spaces (by simp)).endsNumber⟩
  | cons member members ih =>
    obtain ⟨key, value⟩ := member
    let start := out ++ "," ++ Json.newline depth ++ Json.quoted key ++ ": "
    obtain ⟨cs, hcs, hvalue⟩ := h _ List.mem_cons_self start depth
    obtain ⟨cs', hcs', hends, hmembers⟩ := ih (fun x hx => h x (List.mem_cons_of_mem _ hx))
      (value.appendTo start depth)
    refine ⟨',' :: (Json.newline depth).toList ++ (((Json.quoted key).toList ++ [':', ' ']) ++
      (cs ++ cs')), ?_, endsNumber_cons (by decide) _, ?_⟩
    · rw [Json.appendMembers, hcs', hcs]
      simp [start, String.toList_append]
    · have hcomma : Denotes Anything [','] [.comma] := denotes_mark rfl fun _ => rfl
      exact (hcomma.mark_append (denotes_newline depth)).mark_append
        ((denotes_key key).mark_append (hvalue.append_ends hmembers hends))

theorem printed_object {members : List (String × Json)} (h : ∀ x ∈ members, Printed x.2) :
    Printed (.object members) := by
  intro out depth
  have hopening : Denotes Anything ['\x7b'] [.opening .curly] := denotes_mark rfl fun _ => rfl
  have hclosing : Denotes Anything ['\x7d'] [.closing .curly] := denotes_mark rfl fun _ => rfl
  cases members with
  | nil =>
    refine ⟨['\x7b', '\x7d'], ?_, (hopening.mark_append hclosing).endsNumber⟩
    rw [Json.appendTo, String.toList_append]
    rfl
  | cons member members =>
    obtain ⟨key, value⟩ := member
    let start := out ++ "\x7b" ++ Json.newline (depth + 1) ++ Json.quoted key ++ ": "
    obtain ⟨cs, hcs, hvalue⟩ := h _ List.mem_cons_self start (depth + 1)
    obtain ⟨cs', hcs', hends, hmembers⟩ := exists_appendMembers
      (fun x hx => h x (List.mem_cons_of_mem _ hx)) (value.appendTo start (depth + 1)) (depth + 1)
    have hend := ((denotes_newline depth).mark_append hclosing).endsNumber
    have hends' := endsNumber_newline_append depth ['\x7d']
    refine ⟨'\x7b' :: (Json.newline (depth + 1)).toList ++
      (((Json.quoted key).toList ++ [':', ' ']) ++
        (cs ++ cs' ++ ((Json.newline depth).toList ++ ['\x7d']))), ?_, ?_⟩
    · rw [Json.appendTo]
      simp [start, hcs', hcs, String.toList_append]
    · rw [Json.tokens, ← List.cons_append, Json.memberTokens_cons]
      exact (hopening.mark_append (denotes_newline (depth + 1))).mark_append
        ((denotes_key key).mark_append
          ((hvalue.append_ends hmembers hends).append_ends hend hends'))

theorem printed (j : Json) : Printed j := by
  -- The items of an array and the values of an object are printed as the induction says.
  refine @Json.rec Printed (fun items => ∀ item ∈ items, Printed item)
    (fun members => ∀ x ∈ members, Printed x.2) (fun x => Printed x.2)
    ?null ?number ?string ?array ?object ?noItem ?item ?noMember ?member ?pair j
  case null =>
    have hnull : Denotes Anything "null".toList [.null] := denotes_of_read rfl fun _ _ => rfl
    exact fun out _ => ⟨_, String.toList_append, hnull.endsNumber⟩
  case number =>
    intro n out depth
    refine ⟨Text.decimal n, ?_, denotes_decimal n⟩
    rw [Json.appendTo, String.toList_append, String.toList_ofList]
  case string => exact fun s out _ => ⟨_, String.toList_append, (denotes_quoted s).endsNumber⟩
  case array => exact fun _ h => printed_array h
  case object => exact fun _ h => printed_object h
  case noItem => exact fun _ h => absurd h List.not_mem_nil
  case item => exact fun _ _ hitem hitems => List.forall_mem_cons.2 ⟨hitem, hitems⟩
  case noMember => exact fun _ h => absurd h List.not_mem_nil
  case member => exact fun _ _ hmember hmembers => List.forall_mem_cons.2 ⟨hmember, hmembers⟩
  case pair => exact fun _ _ h => h

/-- A value on lines of its own is read as its tokens. -/
theorem ofText?_pretty (j : Json) : ofText? (j.pretty ++ "\n").toList = some j.tokens := by
  obtain ⟨cs, hcs, hprinted⟩ := printed j "" 0
  have htext : (j.pretty ++ "\n").toList = cs ++ ['\n'] := by
    rw [String.toList_append, Json.pretty, hcs]
    rfl
  have hend (fuel : Nat) (before : List JsonToken) :
      readAll fuel before ['\n'] = some before.reverse := by
    cases fuel <;> rfl
  obtain ⟨fuel, hfuel⟩ := Nat.exists_eq_add_of_le hprinted.length_le
  rw [ofText?, htext, List.length_append, hfuel, Nat.add_assoc,
    hprinted.readAll_append _ _ _ (endsNumber_cons (by decide) _), hend]
  simp

end JsonToken

end WordMachine
