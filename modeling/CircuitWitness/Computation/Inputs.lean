import CircuitWitness.Computation.Schedule
/-
  Main inputs, assigned one element at a time.

  Each element is addressed by the hash of its input's name and an index.  The assignment that
  completes the main input block creates the main component over it and runs it.  A refused
  assignment writes nothing.
-/

namespace CircuitWitness

/-- Where an element of a main input goes, if the circuit still takes inputs and has such an
    element. -/
def Computation.inputSlot (c : Computation) (hash : UInt64) (index : Nat) : Except Refusal Nat :=
  if c.pendingInputs = 0 then .error .allInputsAssigned
  else
    match c.circuit.inputs.find? hash with
    | none => .error (.unknownInput hash)
    | some s =>
      if s.size ≤ index then .error (.inputIndexOutOfRange hash index s.size)
      else .ok (c.circuit.mainInputStart + s.offset + index)

namespace Action

/-- Count the inputs of the main component whose signals are already written. -/
def arriveAll (enter : Enter) : List Nat → Action Unit
  | [] => return ()
  | signal :: rest => do
    arrive enter .mainComponent signal
    arriveAll enter rest

/-- Create the main component and count its inputs, which runs it. -/
def runMain (enter : Enter) : Action Unit := do
  let circuit := (← get).circuit
  create enter .mainComponent circuit.mainTemplate circuit.mainSignalStart "main" none
  arriveAll enter (List.range' circuit.mainInputStart circuit.mainInputCount)

/-- Assign one element of a main input, addressed by hash. -/
def assignByHash (enter : Enter) (hash : UInt64) (index : Nat) (v : Scalar) : Action Unit := do
  let signal ← look fun c => c.inputSlot hash index
  if ← inRange fun c => c.store.isWritten? signal then
    refuse (.inputAssignedTwice hash index)
  else
    setSignal signal v
    let remaining := (← get).pendingInputs - 1
    modify fun c => { c with pendingInputs := remaining }
    if remaining = 0 then runMain enter else return ()

/-- Assign one element of a main input, addressed by name. -/
def assignByName (enter : Enter) (name : String) (index : Nat) (v : Scalar) : Action Unit := do
  if ((← get).circuit.inputs.findName? name).isNone then refuse (.unknownInputName name)
  else assignByHash enter (inputHash name) index v

/-- Assign the elements of one input from an index on. -/
def assignElements (enter : Enter) (name : String) : Nat → List Scalar → Action Unit
  | _, [] => return ()
  | index, v :: rest => do
    assignByName enter name index v
    assignElements enter name (index + 1) rest

/-- Assign the elements of some inputs, entry by entry. -/
def assignEntries (enter : Enter) : List (String × List Scalar) → Action Unit
  | [] => return ()
  | (name, values) :: rest => do
    assignElements enter name 0 values
    assignEntries enter rest

/-- Assign every value of an assignment, up to the first that is refused. -/
def assignAll (enter : Enter) (inputs : InputValues) : Action Unit :=
  assignEntries enter inputs.entries

end Action
end CircuitWitness
