import CircuitWitness.Computation.Audit
import CircuitWitness.Script.Meaning
/-
  A session: a computation driven by hand, statement by statement.

  Statements run on behalf of the main component, with registers that last for the whole session.
  A refused statement does not end the session; the next one finds the computation as the refused
  one left it.
-/

namespace CircuitWitness

/-- A computation driven by hand. -/
structure Session where
  computation : Computation
  registers : Registers

namespace Session

/-- A session on a fresh computation. -/
def start (circuit : Circuit) (config : Config) : Session :=
  ⟨Computation.start circuit config, []⟩

/-- Run one statement.  A refusal is an answer like any other; every other failure ends the
    session. -/
def step (s : Session) (statement : Statement) :
    Except Fault (Except Refusal Reply × Session) :=
  match (statement.step s.registers).run s.computation with
  | .ok (reply, registers) c => .ok (reply, ⟨c, registers⟩)
  | .error f _ => .error f

/-- The events after the first `n`. -/
def eventsFrom (s : Session) (n : Nat) : List Event := s.computation.trace.toList.drop n

/-- The notes after the first `n`. -/
def notesFrom (s : Session) (n : Nat) : List Note := s.computation.notes.toList.drop n

end Session
end CircuitWitness
