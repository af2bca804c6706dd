import Mathlib.Logic.Function.Iterate
import WordMachine.Machine.Run
import WordMachine.Proofs.Machine.Step

/-!
# Runs as iterated steps

`m.after p n` is the machine after `n` calls of `step`, whether or not a call traps or comes after a
`halt`. A run takes such steps for as long as they succeed and the machine has not halted
(`Passes`), and then ends in one of three ways (`Ends`): the machine has halted, the next step
traps, or the steps are used up. That is all a run does (`run_eq_iff`).
-/

namespace WordMachine

namespace Machine

/-- The machine after a number of calls of `step`. -/
def after (p : Program) (n : Nat) (m : Machine) : Machine :=
  (fun m => (m.step p).2)^[n] m

variable {p : Program} {m m' : Machine} {words : List Word}

/-- Of a machine that is reset only the size of its memory is left. -/
theorem reset_eq_new (m : Machine) : m.reset = new m.memory.size :=
  rfl

@[simp] theorem after_zero : m.after p 0 = m :=
  rfl

theorem after_succ (n : Nat) : m.after p (n + 1) = ((m.after p n).step p).2 :=
  Function.iterate_succ_apply' ..

theorem step_after (n : Nat) : (m.step p).2.after p n = m.after p (n + 1) :=
  (Function.iterate_succ_apply ..).symm

theorem size_after (n : Nat) : (m.after p n).memory.size = m.memory.size := by
  induction n with
  | zero => rfl
  | succ n ih => rw [after_succ, size_step, ih]

/-! ## Steps that succeed -/

/-- Steps that succeed, each from a machine that has not halted, and their words in order. -/
inductive Passes (p : Program) : Machine → List Word → Machine → Prop
  | nil {m : Machine} : Passes p m [] m
  | cons {m m₁ m' : Machine} {s : Step} {words : List Word} (hrunning : m.cpu.halted = false)
      (hstep : m.step p = (.ok s, m₁)) (hrest : Passes p m₁ words m') :
      Passes p m (s.word :: words) m'

theorem Passes.eq_after (h : Passes p m words m') : m' = m.after p words.length := by
  induction h with
  | nil => rfl
  | @cons m m₁ m' s words _ hstep _ ih =>
    have hm₁ : (m.step p).2 = m₁ := by rw [hstep]
    rw [ih, ← hm₁, step_after, List.length_cons]

/-- The word at a position is that of the step at that position. -/
theorem Passes.of_getElem? (h : Passes p m words m') {k : Nat} {w : Word}
    (hk : words[k]? = some w) :
    (m.after p k).cpu.halted = false ∧ ∃ s, ((m.after p k).step p).1 = .ok s ∧ s.word = w := by
  induction h generalizing k with
  | nil => exact nomatch hk
  | @cons m m₁ m' s words hrunning hstep _ ih =>
    have hm₁ : (m.step p).2 = m₁ := by rw [hstep]
    cases k with
    | zero =>
      obtain rfl := Option.some.inj hk
      exact ⟨hrunning, s, by rw [after_zero, hstep], rfl⟩
    | succ k =>
      rw [← step_after, hm₁]
      exact ih hk

theorem Passes.of_lt (h : Passes p m words m') {k : Nat} (hk : k < words.length) :
    (m.after p k).cpu.halted = false ∧ ∃ s, ((m.after p k).step p).1 = .ok s := by
  obtain ⟨hrunning, s, hs, -⟩ := h.of_getElem? (List.getElem?_eq_getElem hk)
  exact ⟨hrunning, s, hs⟩

theorem exists_passes {n : Nat}
    (h : ∀ k < n, (m.after p k).cpu.halted = false ∧ ∃ s, ((m.after p k).step p).1 = .ok s) :
    ∃ words, words.length = n ∧ Passes p m words (m.after p n) := by
  induction n generalizing m with
  | zero => exact ⟨[], rfl, .nil⟩
  | succ n ih =>
    obtain ⟨hrunning, s, hs⟩ := h 0 (Nat.zero_lt_succ n)
    obtain ⟨words, hlength, hpasses⟩ := @ih (m.step p).2 fun k hk => by
      rw [step_after]
      exact h (k + 1) (Nat.succ_lt_succ hk)
    rw [step_after] at hpasses
    exact ⟨s.word :: words, by rw [List.length_cons, hlength],
      .cons hrunning (Prod.ext hs rfl) hpasses⟩

/-! ## The ends of a run -/

/-- How a run of at most so many steps ends, and in which machine. A run looks whether the machine
has halted before it counts, and counts before it takes a step. -/
inductive Ends (p : Program) (budget : Nat) (m : Machine) : Except Trap Trace → Machine → Prop
  /-- The machine has halted. -/
  | halted {words : List Word} {m' : Machine} (hpasses : Passes p m words m')
      (hhalted : m'.cpu.halted = true) (hle : words.length ≤ budget) :
      Ends p budget m (.ok { words := words.toArray, steps := words.length }) m'
  /-- There is one more step to take, and it traps. -/
  | trapped {words : List Word} {m' : Machine} {trap : Trap} (hpasses : Passes p m words m')
      (hrunning : m'.cpu.halted = false) (harises : trap.ArisesAt p m')
      (hlt : words.length < budget) : Ends p budget m (.error trap) m'
  /-- The steps are used up, whatever the next one would do. -/
  | limited {words : List Word} {m' : Machine} (hpasses : Passes p m words m')
      (hrunning : m'.cpu.halted = false) (hlength : words.length = budget) :
      Ends p budget m (.error (.stepLimit budget)) m'

/-- A step that succeeds in front of a run leads to the end of that run, with one more word in its
trace or a limit that is higher by one. -/
theorem Ends.cons {budget : Nat} {m₁ : Machine} {s : Step} {x : Except Trap Trace}
    (hrunning : m.cpu.halted = false) (hstep : m.step p = (.ok s, m₁))
    (h : Ends p budget m₁ x m') : ∃ x', Ends p (budget + 1) m x' m' := by
  cases h with
  | halted hpasses hhalted hle =>
    exact ⟨_, .halted (.cons hrunning hstep hpasses) hhalted (Nat.succ_le_succ hle)⟩
  | trapped hpasses hrunning' harises hlt =>
    exact ⟨_, .trapped (.cons hrunning hstep hpasses) hrunning' harises (Nat.succ_lt_succ hlt)⟩
  | limited hpasses hrunning' hlength =>
    exact ⟨_, .limited (.cons hrunning hstep hpasses) hrunning' (congrArg Nat.succ hlength)⟩

theorem exists_ends (p : Program) (budget : Nat) (m : Machine) :
    ∃ x m', Ends p budget m x m' := by
  induction budget generalizing m with
  | zero =>
    cases hhalted : m.cpu.halted with
    | true => exact ⟨_, _, .halted .nil hhalted (Nat.le_refl 0)⟩
    | false => exact ⟨_, _, .limited .nil hhalted rfl⟩
  | succ budget ih =>
    cases hhalted : m.cpu.halted with
    | true => exact ⟨_, _, .halted .nil hhalted (Nat.zero_le _)⟩
    | false =>
      rcases hstep : m.step p with ⟨trap | s, m₁⟩
      · obtain ⟨harises, rfl⟩ := step_eq_error_iff.1 hstep
        exact ⟨_, _, .trapped .nil hhalted harises (Nat.zero_lt_succ budget)⟩
      · obtain ⟨x, m', h⟩ := ih m₁
        obtain ⟨x', h⟩ := h.cons hhalted hstep
        exact ⟨x', m', h⟩

/-- With more steps a run ends alike, unless it ended because its steps were used up. -/
theorem Ends.mono {budget budget' : Nat} {x : Except Trap Trace} (h : Ends p budget m x m')
    (hle : budget ≤ budget') (hlimit : ∀ n, x ≠ .error (.stepLimit n)) :
    Ends p budget' m x m' := by
  cases h with
  | halted hpasses hhalted hle' => exact .halted hpasses hhalted (Nat.le_trans hle' hle)
  | trapped hpasses hrunning harises hlt =>
    exact .trapped hpasses hrunning harises (Nat.lt_of_lt_of_le hlt hle)
  | limited => exact absurd rfl (hlimit budget)

/-! ## Runs -/

/-- A run executes decoded lines, which is what a step does. -/
theorem stepWith_decodeAt : m.stepWith (p.code.decodeAt m.cpu.pc) = m.step p := by
  rw [Program.decodeAt_code, step]

section RunFrom

variable {limit fuel : Nat} {trace : Trace}

theorem runFrom_of_halted (hhalted : m.cpu.halted = true) :
    runFrom p.code limit fuel trace m = (.ok trace, m) := by
  cases fuel with
  | zero => rw [runFrom, if_pos hhalted]
  | succ fuel => rw [runFrom, if_pos hhalted]

theorem runFrom_zero (hrunning : m.cpu.halted = false) :
    runFrom p.code limit 0 trace m = (.error (.stepLimit limit), m) := by
  rw [runFrom, if_neg (Bool.eq_false_iff.1 hrunning)]

theorem runFrom_of_ok {s : Step} (hrunning : m.cpu.halted = false)
    (hstep : m.step p = (.ok s, m')) :
    runFrom p.code limit (fuel + 1) trace m =
      runFrom p.code limit fuel ⟨trace.words.push s.word, trace.steps + 1⟩ m' := by
  rw [runFrom, if_neg (Bool.eq_false_iff.1 hrunning), stepWith_decodeAt, hstep]

theorem runFrom_of_error {trap : Trap} (hrunning : m.cpu.halted = false)
    (hstep : m.step p = (.error trap, m')) :
    runFrom p.code limit (fuel + 1) trace m = (.error trap, m') := by
  rw [runFrom, if_neg (Bool.eq_false_iff.1 hrunning), stepWith_decodeAt, hstep]

theorem runFrom_of_passes (h : Passes p m words m') :
    runFrom p.code limit (words.length + fuel) trace m =
      runFrom p.code limit fuel
        ⟨trace.words ++ words.toArray, trace.steps + words.length⟩ m' := by
  induction h generalizing trace with
  | nil => simp
  | @cons m m₁ m' s words hrunning hstep _ ih =>
    rw [List.length_cons, Nat.add_right_comm, runFrom_of_ok hrunning hstep, ih]
    congr 2
    · simp
    · change trace.steps + 1 + words.length = trace.steps + (words.length + 1)
      omega

end RunFrom

theorem Ends.runFrom_eq {budget : Nat} {x : Except Trap Trace} (h : Ends p budget m x m') :
    runFrom p.code budget budget {} m = (x, m') := by
  cases h with
  | @halted words _ hpasses hhalted hle =>
    obtain ⟨fuel, rfl⟩ := Nat.exists_eq_add_of_le hle
    rw [runFrom_of_passes hpasses, runFrom_of_halted hhalted]
    simp
  | @trapped words _ trap hpasses hrunning harises hlt =>
    obtain ⟨fuel, rfl⟩ := Nat.exists_eq_add_of_lt hlt
    rw [Nat.add_assoc, runFrom_of_passes hpasses,
      runFrom_of_error hrunning (step_eq_error_iff.2 ⟨harises, rfl⟩)]
  | @limited words _ hpasses hrunning hlength =>
    obtain rfl := hlength
    have hrest : runFrom p.code words.length (words.length + 0) {} m =
        runFrom p.code words.length 0 _ m' := runFrom_of_passes hpasses
    exact hrest.trans (runFrom_zero hrunning)

/-- A run takes the machine that is reset to one of the three ends. -/
theorem run_eq_iff {settings : Settings} {x : Except Trap Trace} :
    m.run p settings = (x, m') ↔ Ends p settings.budget m.reset x m' := by
  constructor
  · intro h
    obtain ⟨x', m'', hends⟩ := exists_ends p settings.budget m.reset
    have heq : m.run p settings = (x', m'') := hends.runFrom_eq
    cases h.symm.trans heq
    exact hends
  · exact Ends.runFrom_eq

theorem size_run {settings : Settings} {x : Except Trap Trace} (h : m.run p settings = (x, m')) :
    m'.memory.size = m.memory.size := by
  have hsize (n : Nat) : (m.reset.after p n).memory.size = m.memory.size := by
    rw [size_after]
    exact m.memory.size_clear
  cases run_eq_iff.1 h with
  | halted hpasses => exact hpasses.eq_after ▸ hsize _
  | trapped hpasses => exact hpasses.eq_after ▸ hsize _
  | limited hpasses => exact hpasses.eq_after ▸ hsize _

/-- A run that completes takes the reset machine through its steps to one that has halted, and its
words are theirs. -/
theorem exists_of_run {settings : Settings} {trace : Trace}
    (h : m.run p settings = (.ok trace, m')) :
    trace.steps = trace.words.size ∧ trace.words.size ≤ settings.budget ∧
      m' = m.reset.after p trace.words.size ∧ m'.cpu.halted = true ∧
      ∀ k w, trace.words[k]? = some w →
        (m.reset.after p k).cpu.halted = false ∧
          ∃ s, ((m.reset.after p k).step p).1 = .ok s ∧ s.word = w := by
  cases run_eq_iff.1 h with
  | halted hpasses hhalted hle =>
    refine ⟨rfl, hle, hpasses.eq_after, hhalted, ?_⟩
    intro k w hk
    exact hpasses.of_getElem? (by simpa using hk)

end Machine

end WordMachine
