/-
  What a computation can be told besides its circuit and its inputs.
-/

namespace CircuitWitness

/-- Switches of the engine. -/
structure Config where
  /-- Report every step in the life of a component to the log. -/
  logComponents : Bool := false
  /-- Record a trace. -/
  recordTrace : Bool := false
  /-- Refuse to read a signal that was never written, instead of reading zero. -/
  checkReads : Bool := false
  /-- Run a template's alternate body where it has one. -/
  useAlternate : Bool := false
  /-- Drop the handles of a component when it is released, instead of keeping them. -/
  reclaim : Bool := true
deriving DecidableEq, Inhabited

/-- The switches for tests: with a trace, and strict about reads. -/
def Config.diagnostic : Config := { recordTrace := true, checkReads := true }

end CircuitWitness
