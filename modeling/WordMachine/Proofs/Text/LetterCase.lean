import Mathlib.Data.List.Basic
import WordMachine.Proofs.Text.Digits
import WordMachine.Text.Blank

/-!
# Letter case

Texts with their capital letters in lower case (`lower`). Only the letters of ASCII have a case
here. A letter is the same digit in either case and is blank in neither, so trimming a text and
reading its digits does not depend on the case of its letters (`trim_lower`, `natural?_lower`,
`bounded_lower`).
-/

namespace WordMachine.Text

/-! ## Characters -/

/-- A relation holds between characters and their lower case if it holds between equal characters
and for each of the capital letters. -/
theorem forall_toLower {P : Char → Char → Prop} (hself : ∀ c, P c c)
    (hcapital : ∀ n < 91, 65 ≤ n → P (Char.ofNat n) (Char.ofNat n).toLower) (c : Char) :
    P c c.toLower := by
  by_cases hc : 65 ≤ c.toNat ∧ c.toNat ≤ 90
  · have h := hcapital c.toNat (by omega) hc.1
    rwa [Char.ofNat_toNat] at h
  · have hlower : c.toLower = c := dif_neg fun h => hc ⟨h.1, h.2⟩
    rw [hlower]
    exact hself c

theorem isBlank_toLower (c : Char) : isBlank c.toLower = isBlank c :=
  forall_toLower (P := fun c c' => isBlank c' = isBlank c) (fun _ => rfl) (by decide +kernel) c

/-- A character other than a letter is the lower case of no other one. -/
theorem toLower_eq_iff {d : Char} (hd : d.isAlpha = false) (c : Char) : c.toLower = d ↔ c = d := by
  apply forall_toLower (P := fun c c' => c' = d ↔ c = d) (fun _ => Iff.rfl)
  intro n hn hn'
  have hletters : ∀ n < 91, 65 ≤ n →
      (Char.ofNat n).isAlpha = true ∧ (Char.ofNat n).toLower.isAlpha = true := by decide +kernel
  obtain ⟨hcapital, hlower⟩ := hletters n hn hn'
  have hne {c : Char} (hc : c.isAlpha = true) : c ≠ d := by
    rintro rfl
    rw [hd] at hc
    cases hc
  exact iff_of_false (hne hlower) (hne hcapital)

/-- Whether a character is one of two is seen from its lower case if this is so for the capital
letters, as it is if the two are one letter in both cases. -/
theorem toLower_eq_or_iff {d d' : Char}
    (hcapital : ∀ n < 91, 65 ≤ n → ((Char.ofNat n).toLower = d ∨ (Char.ofNat n).toLower = d' ↔
      Char.ofNat n = d ∨ Char.ofNat n = d')) (c : Char) :
    c.toLower = d ∨ c.toLower = d' ↔ c = d ∨ c = d' :=
  forall_toLower (P := fun c c' => c' = d ∨ c' = d' ↔ c = d ∨ c = d') (fun _ => Iff.rfl) hcapital c

theorem map_toLower_eq_some_iff {d : Char} (hd : d.isAlpha = false) (o : Option Char) :
    o.map Char.toLower = some d ↔ o = some d := by
  cases o with
  | none => simp
  | some c => simpa using toLower_eq_iff hd c

theorem digit?_toLower (radix : Nat) (c : Char) : digit? radix c.toLower = digit? radix c := by
  have hdigit : digit? 16 c.toLower = digit? 16 c :=
    forall_toLower (P := fun c c' => digit? 16 c' = digit? 16 c) (fun _ => rfl)
      (by decide +kernel) c
  apply Option.ext
  intro d
  rw [digit?_eq_some_iff_lt, hdigit, ← digit?_eq_some_iff_lt]

/-! ## Texts -/

/-- A text with its capital letters in lower case. -/
def lower (cs : List Char) : List Char :=
  cs.map Char.toLower

theorem lower_cons (c : Char) (cs : List Char) : lower (c :: cs) = c.toLower :: lower cs :=
  rfl

/-- Dropping characters from the end does not depend on the case of letters if it is not for them
that characters are dropped. -/
theorem dropWhileEnd_lower {p : Char → Bool} (hp : ∀ c, p c.toLower = p c) (cs : List Char) :
    dropWhileEnd p (lower cs) = lower (dropWhileEnd p cs) := by
  have hcomp : p ∘ Char.toLower = p := funext hp
  rw [lower, dropWhileEnd, ← List.map_reverse, List.dropWhile_map, hcomp, ← List.map_reverse]
  rfl

theorem trim_lower (cs : List Char) : trim (lower cs) = lower (trim cs) := by
  have hcomp : isBlank ∘ Char.toLower = isBlank := funext isBlank_toLower
  have hstart : trimStart (lower cs) = lower (trimStart cs) := by
    rw [trimStart, lower, List.dropWhile_map, hcomp]
    rfl
  rw [trim, hstart, dropWhileEnd_lower isBlank_toLower]
  rfl

theorem mapM_digit?_lower (radix : Nat) (cs : List Char) :
    (lower cs).mapM (digit? radix) = cs.mapM (digit? radix) := by
  induction cs with
  | nil => rfl
  | cons c cs ih => rw [lower_cons, List.mapM_cons, List.mapM_cons, digit?_toLower, ih]

theorem natural?_lower (radix : Nat) (cs : List Char) :
    natural? radix (lower cs) = natural? radix cs := by
  rw [natural?, natural?, mapM_digit?_lower, lower, List.isEmpty_map]

theorem extend_lower (radix max value : Nat) (cs : List Char) :
    extend radix max value (lower cs) = extend radix max value cs := by
  induction cs generalizing value with
  | nil => rfl
  | cons c cs ih =>
    rw [lower_cons, extend, extend, digit?_toLower]
    split
    · rfl
    · split
      · exact ih _
      · rfl

theorem bounded_lower (radix max : Nat) (cs : List Char) :
    bounded radix max (lower cs) = bounded radix max cs := by
  rw [bounded, bounded, extend_lower, lower, List.isEmpty_map]

end WordMachine.Text
