import WordMachine.Proofs.Machine.Halt
import WordMachine.Proofs.Machine.Memory

/-!
# The limit of a run

A run starts with registers, flags and a memory of zeros, whatever the machine has done before
(`AtStart`). Where it stops without a limit is a number of steps from there (`StopsAfter`). With a
limit the run takes those steps if there are not too many, and otherwise as many as the limit says
(`run_eq_limited_iteration`). The boundary depends on the way of stopping: as many steps as the
limit are enough to find that the machine has halted, but not for a step that traps.
-/

namespace WordMachine

namespace Machine

/-! ## Where a run starts -/

/-- Whether a machine is at its start: it has not halted, and its registers, its flags and its
memory of some size are zero. -/
structure AtStart (m : Machine) (size : Nat) : Prop where
  get_eq : ∀ r, m.cpu.get r = 0
  flags_eq : m.cpu.flags = ⟨false, false, false, false⟩
  running : m.cpu.halted = false
  read_iff : ∀ address w, m.memory.read address = .ok w ↔ address.toNat < size ∧ w = 0

/-- A new machine is at its start, with as much memory as addresses reach. -/
theorem atStart_new {n : Nat} (h : n ≤ Word.count) : (new n).AtStart n where
  get_eq r := Vector.getElem_replicate r.isLt
  flags_eq := rfl
  running := rfl
  read_iff address w := by
    have hread : (new n).memory.read address = .ok w ↔ address.toNat < min n Word.count ∧ w = 0 :=
      Memory.read_zeros
    rwa [Nat.min_eq_left h] at hread

/-! ## Where a run stops -/

/-- Whether a run goes no further from a machine: it has halted or its next step traps. -/
def Stops (p : Program) (m : Machine) : Prop :=
  m.cpu.halted = true ∨ ∃ trap, (m.step p).1 = .error trap

/-- Whether a run from a machine stops after a number of steps, and not before. -/
def StopsAfter (p : Program) (n : Nat) (m : Machine) : Prop :=
  (m.after p n).Stops p ∧ ∀ k < n, ¬(m.after p k).Stops p

instance (p : Program) (m : Machine) : Decidable (m.Stops p) :=
  match h : (m.step p).1 with
  | .error trap => .isTrue (.inr ⟨trap, h⟩)
  | .ok _ =>
    decidable_of_iff (m.cpu.halted = true)
      ⟨.inl, fun hstops => hstops.resolve_right fun ⟨_, h'⟩ => nomatch h.symm.trans h'⟩

instance (p : Program) (n : Nat) (m : Machine) : Decidable (m.StopsAfter p n) :=
  inferInstanceAs (Decidable (_ ∧ ∀ k < n, _))

variable {p : Program} {m m' : Machine} {words : List Word}

/-- A run stops after one number of steps. -/
theorem StopsAfter.unique {n k : Nat} (h : m.StopsAfter p n) (h' : m.StopsAfter p k) : n = k := by
  rcases Nat.lt_trichotomy n k with hlt | heq | hgt
  · exact absurd h.1 (h'.2 n hlt)
  · exact heq
  · exact absurd h'.1 (h.2 k hgt)

theorem not_stops_iff :
    ¬m.Stops p ↔ m.cpu.halted = false ∧ ∃ s, (m.step p).1 = .ok s := by
  unfold Stops
  rw [not_or, Bool.not_eq_true]
  refine and_congr_right fun _ => ?_
  cases (m.step p).1 with
  | ok s => exact ⟨fun _ => ⟨s, rfl⟩, fun _ ⟨_, h⟩ => nomatch h⟩
  | error trap => exact ⟨fun h => absurd ⟨trap, rfl⟩ h, fun ⟨_, h⟩ => nomatch h⟩

theorem StopsAfter.exists_passes {n : Nat} (h : m.StopsAfter p n) :
    ∃ words, words.length = n ∧ Passes p m words (m.after p n) :=
  Machine.exists_passes fun k hk => not_stops_iff.1 (h.2 k hk)

theorem Passes.stopsAfter (h : Passes p m words m') (hstops : m'.Stops p) :
    m.StopsAfter p words.length :=
  ⟨h.eq_after ▸ hstops, fun _ hk => not_stops_iff.2 (h.of_lt hk)⟩

/-- A machine whose next step traps has not halted, however many steps it took. -/
theorem running_of_trap (hrunning : m.cpu.halted = false) {n : Nat} {trap : Trap}
    (htrap : ((m.after p n).step p).1 = .error trap) : (m.after p n).cpu.halted = false := by
  rw [← Bool.not_eq_true]
  intro hhalted
  obtain ⟨s, hstep, -⟩ := (atHalt_of_halted_after hrunning hhalted).step_eq hhalted
  rw [hstep] at htrap
  exact nomatch htrap

/-! ## Where a run ends -/

section Run

variable {settings : Settings} {n : Nat}

/-- A run that comes to a halted machine in time completes there, with the words of its steps. -/
theorem run_eq_ok (hstops : m.reset.StopsAfter p n)
    (hhalted : (m.reset.after p n).cpu.halted = true) (hle : n ≤ settings.budget) :
    ∃ trace, m.run p settings = (.ok trace, m.reset.after p n) ∧
      trace.steps = n ∧ trace.words.size = n ∧
      ∀ k < n, ∃ s, ((m.reset.after p k).step p).1 = .ok s ∧ trace.words[k]? = some s.word := by
  obtain ⟨words, rfl, hpasses⟩ := hstops.exists_passes
  refine ⟨_, run_eq_iff.2 (.halted hpasses hhalted hle), rfl, rfl, fun k hk => ?_⟩
  have hword : words[k]? = some words[k] := List.getElem?_eq_getElem hk
  obtain ⟨-, s, hs, hsword⟩ := hpasses.of_getElem? hword
  exact ⟨s, hs, by rw [List.getElem?_toArray, hword, hsword]⟩

/-- A run that comes to a step that traps, and may still take it, fails there with its trap. -/
theorem run_eq_trap {trap : Trap} (hstops : m.reset.StopsAfter p n)
    (htrap : ((m.reset.after p n).step p).1 = .error trap) (hlt : n < settings.budget) :
    m.run p settings = (.error trap, m.reset.after p n) := by
  obtain ⟨words, rfl, hpasses⟩ := hstops.exists_passes
  obtain ⟨harises, -⟩ := step_eq_error_iff.1 (Prod.ext htrap rfl)
  exact run_eq_iff.2 (.trapped hpasses (running_of_trap rfl htrap) harises hlt)

/-- A run that stops in neither way uses up its steps. -/
theorem run_eq_stepLimit
    (hother : ¬∃ n, m.reset.StopsAfter p n ∧
      ((m.reset.after p n).cpu.halted = true ∧ n ≤ settings.budget ∨
        (∃ trap, ((m.reset.after p n).step p).1 = .error trap) ∧ n < settings.budget)) :
    m.run p settings =
      (.error (.stepLimit settings.budget), m.reset.after p settings.budget) := by
  rcases hrun : m.run p settings with ⟨x, m'⟩
  cases run_eq_iff.1 hrun with
  | halted hpasses hhalted hle =>
    obtain rfl := hpasses.eq_after
    exact absurd ⟨_, hpasses.stopsAfter (.inl hhalted), .inl ⟨hhalted, hle⟩⟩ hother
  | trapped hpasses _ harises hlt =>
    obtain rfl := hpasses.eq_after
    have htrap := congrArg Prod.fst (step_eq_error_iff.2 ⟨harises, rfl⟩)
    exact absurd ⟨_, hpasses.stopsAfter (.inr ⟨_, htrap⟩), .inr ⟨⟨_, htrap⟩, hlt⟩⟩ hother
  | limited hpasses _ hlength => rw [hpasses.eq_after, hlength]

/-- A run that does not use up its steps is the same if it may take more. -/
theorem run_eq_of_budget_le {settings' : Settings} (hle : settings.budget ≤ settings'.budget)
    (hne : ∀ limit, (m.run p settings).1 ≠ .error (.stepLimit limit)) :
    m.run p settings' = m.run p settings := by
  rcases hrun : m.run p settings with ⟨x, m'⟩
  rw [hrun] at hne
  exact run_eq_iff.2 ((run_eq_iff.1 hrun).mono hle hne)

end Run

end Machine

/-- Settings whose limit, if they have one, is not below another allow as many steps as that. -/
theorem Settings.le_budget {settings : Settings} {limit : UInt64}
    (h : ∀ limit', settings.maxSteps = some limit' → limit ≤ limit') :
    limit.toNat ≤ settings.budget := by
  unfold budget
  split
  · next limit' hlimit => exact UInt64.le_iff_toNat_le.1 (h limit' hlimit)
  · exact Nat.le_of_lt limit.toNat_lt

/-- **A run is bounded iteration of steps, and the limit only truncates.** Let a run stop after so
many steps from a new machine, with registers, flags and a memory of zeros, if it stops at all. If
it stops because the machine has halted, after no more steps than the limit, it completes on that
machine, with the words of the steps in order. If it stops because the next step traps, after fewer
steps than the limit, it fails with that trap on that machine. In every other case it fails with the
limit, on the machine after as many steps. So a limit that is raised or removed changes nothing
about a run that did not fail with it. -/
theorem run_eq_limited_iteration (p : Program) (m : Machine) (limit : UInt64) :
    (Machine.new m.memory.size).AtStart m.memory.size ∧
    (∀ n, (Machine.new m.memory.size).StopsAfter p n →
      ((Machine.new m.memory.size).after p n).cpu.halted = true → n ≤ limit.toNat →
        ∃ trace, m.run p { maxSteps := some limit } =
            (.ok trace, (Machine.new m.memory.size).after p n) ∧
          trace.steps = n ∧ trace.words.size = n ∧
          ∀ k < n, ∃ s, (((Machine.new m.memory.size).after p k).step p).1 = .ok s ∧
            trace.words[k]? = some s.word) ∧
    (∀ n trap, (Machine.new m.memory.size).StopsAfter p n →
      (((Machine.new m.memory.size).after p n).step p).1 = .error trap → n < limit.toNat →
        m.run p { maxSteps := some limit } =
          (.error trap, (Machine.new m.memory.size).after p n)) ∧
    ((¬∃ n, (Machine.new m.memory.size).StopsAfter p n ∧
        (((Machine.new m.memory.size).after p n).cpu.halted = true ∧ n ≤ limit.toNat ∨
          (∃ trap, (((Machine.new m.memory.size).after p n).step p).1 = .error trap) ∧
            n < limit.toNat)) →
      m.run p { maxSteps := some limit } =
        (.error (.stepLimit limit.toNat), (Machine.new m.memory.size).after p limit.toNat)) ∧
    ∀ settings : Settings, (∀ limit', settings.maxSteps = some limit' → limit ≤ limit') →
      (∀ n, (m.run p { maxSteps := some limit }).1 ≠ .error (.stepLimit n)) →
        m.run p settings = m.run p { maxSteps := some limit } := by
  refine ⟨Machine.atStart_new m.memory.size_le, ?_⟩
  rw [← m.reset_eq_new]
  exact ⟨fun _ hstops hhalted hle => Machine.run_eq_ok hstops hhalted hle,
    fun _ _ hstops htrap hlt => Machine.run_eq_trap hstops htrap hlt,
    fun hother => Machine.run_eq_stepLimit hother,
    fun _ hlimit hne => Machine.run_eq_of_budget_le (Settings.le_budget hlimit) hne⟩

/-- A machine with a memory of four words that a run has halted, with a register, a flag and a word
that are not zero. -/
def haltedMachine : Machine :=
  ((Machine.new 4).run (.ofSource "li r1, 3\nst r1, (r1)\nsub r2, r1\nhalt") { maxSteps := some 9 }).2

/-- A run that halts after two steps and one whose second step traps, on a machine that has halted,
with the lowest limit that does not cut them short and with the one below, and the second run
without a limit. -/
theorem run_eq_limited_iteration_at_boundary :
    haltedMachine.cpu.halted = true ∧ haltedMachine.cpu.get 1 = 3 ∧
      haltedMachine.cpu.flags = { sign := true } ∧ haltedMachine.memory.read 3 = .ok 3 ∧
      (Machine.new 4).StopsAfter (Program.ofSource "li r1, 9\nhalt") 2 ∧
      (∃ trace, haltedMachine.run (Program.ofSource "li r1, 9\nhalt") { maxSteps := some 2 } =
        (.ok trace, (Machine.new 4).after (Program.ofSource "li r1, 9\nhalt") 2) ∧
          trace.steps = 2) ∧
      haltedMachine.run (Program.ofSource "li r1, 9\nhalt") { maxSteps := some 1 } =
        (.error (.stepLimit 1), (Machine.new 4).after (Program.ofSource "li r1, 9\nhalt") 1) ∧
      (Machine.new 4).StopsAfter (Program.ofSource "li r1, 9\nst r1, (r1)") 1 ∧
      haltedMachine.run (Program.ofSource "li r1, 9\nst r1, (r1)") { maxSteps := some 2 } =
        (.error (.bus 2 9 ⟨.write, 4⟩),
          (Machine.new 4).after (Program.ofSource "li r1, 9\nst r1, (r1)") 1) ∧
      haltedMachine.run (Program.ofSource "li r1, 9\nst r1, (r1)") { maxSteps := some 1 } =
        (.error (.stepLimit 1),
          (Machine.new 4).after (Program.ofSource "li r1, 9\nst r1, (r1)") 1) ∧
      haltedMachine.run (Program.ofSource "li r1, 9\nst r1, (r1)") {} =
        haltedMachine.run (Program.ofSource "li r1, 9\nst r1, (r1)") { maxSteps := some 2 } := by
  have hsize : haltedMachine.memory.size = 4 := by decide +kernel
  have hhalt : (Machine.new 4).StopsAfter (Program.ofSource "li r1, 9\nhalt") 2 := by
    decide +kernel
  have htrap : (Machine.new 4).StopsAfter (Program.ofSource "li r1, 9\nst r1, (r1)") 1 := by
    decide +kernel
  have hhaltAt (limit : UInt64) :=
    run_eq_limited_iteration (Program.ofSource "li r1, 9\nhalt") haltedMachine limit
  have htrapAt (limit : UInt64) :=
    run_eq_limited_iteration (Program.ofSource "li r1, 9\nst r1, (r1)") haltedMachine limit
  rw [hsize] at hhaltAt htrapAt
  have htwo := (htrapAt 2).2.2.1 1 (.bus 2 9 ⟨.write, 4⟩) htrap (by decide +kernel) (by decide)
  obtain ⟨trace, hrun, hsteps, -⟩ := (hhaltAt 2).2.1 2 hhalt (by decide +kernel) (by decide)
  refine ⟨by decide +kernel, by decide +kernel, by decide +kernel, by decide +kernel, hhalt,
    ⟨trace, hrun, hsteps⟩, ?_, htrap, htwo, ?_, ?_⟩
  · refine (hhaltAt 1).2.2.2.1 ?_
    rintro ⟨n, hn, ⟨-, hle⟩ | ⟨-, hlt⟩⟩
    · obtain rfl := hn.unique hhalt
      exact absurd hle (by decide)
    · obtain rfl := hn.unique hhalt
      exact absurd hlt (by decide)
  · refine (htrapAt 1).2.2.2.1 ?_
    rintro ⟨n, hn, ⟨hhalted, -⟩ | ⟨-, hlt⟩⟩
    · obtain rfl := hn.unique htrap
      exact absurd hhalted (by decide +kernel)
    · obtain rfl := hn.unique htrap
      exact absurd hlt (by decide)
  · refine (htrapAt 2).2.2.2.2 {} nofun fun n h => ?_
    rw [htwo] at h
    exact nomatch h

end WordMachine
