/-!
# Settings of a run

What can be set before a program is run.
-/

namespace WordMachine

structure Settings where
  /-- The number of steps after which a run is given up. -/
  maxSteps : Option UInt64 := none
  deriving DecidableEq, Repr

/-- The number of steps that a run may take. Without a limit it is above every limit. -/
def Settings.budget (settings : Settings) : Nat :=
  match settings.maxSteps with
  | some limit => limit.toNat
  | none => UInt64.size

end WordMachine
