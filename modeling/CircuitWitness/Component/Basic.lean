/-
  Components: the instances of templates that a computation brings to life.

  A component is known by its handle, a 32-bit number that the compiled circuit chose for it, and
  passes through four stages in one direction:

      created  →  running  →  finished  →  released

  It is created when its parent asks for it, runs once all its inputs have arrived, has finished
  when its body returned, and is released when its parent gives back the handles it owned.
-/

namespace CircuitWitness

/-- The handle of a component. -/
structure Handle where
  index : Nat
deriving DecidableEq, Inhabited

namespace Handle

/-- The handle of the main component. -/
def mainComponent : Handle := ⟨0⟩

/-- Handles are 32-bit words. -/
def limit : Nat := UInt32.size

/-- The handle `offset` places further on, unless that is no handle any more. -/
def offset? (id : Handle) (offset : Nat) : Option Handle :=
  if id.index + offset < limit then some ⟨id.index + offset⟩ else none

/-- How messages show a handle. -/
def display (id : Handle) : String := s!"#{id.index}"

end Handle

/-- Where a component stands in its life. -/
inductive Stage where
  /-- Waiting for inputs. -/
  | created
  /-- The body has started and has not returned. -/
  | running
  /-- The body returned, and the outputs are final. -/
  | finished
  /-- The parent gave back the handles that the component owned. -/
  | released
deriving DecidableEq, Inhabited

/-- How messages show a stage. -/
def Stage.display : Stage → String
  | .created => "Created"
  | .running => "Running"
  | .finished => "Finished"
  | .released => "Released"

end CircuitWitness
