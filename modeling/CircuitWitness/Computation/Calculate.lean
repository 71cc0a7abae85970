import CircuitWitness.Computation.Run
import CircuitWitness.Input.Document
/-
  Calculating a witness: from input values to the values of the witness signals.

  There are three ways in.  Values by name go through the assignment of main inputs, so each is
  checked and the last one runs the main component.  A JSON document is first turned into such
  values.  Values in order are written straight into the main input block.

  Every calculation starts afresh, so nothing is carried from one to another.
-/

namespace CircuitWitness

namespace Action

/-- Assign inputs by name, and run the main component if it has no input at all. -/
def feed (inputs : InputValues) : Action Unit := do
  Request.run (.assignAll inputs)
  let c ← get
  if (c.registry.stage? .mainComponent).isSome then return ()
  else if c.pendingInputs ≠ 0 then
    refuse (.inputsIncomplete c.pendingInputs c.circuit.mainShape.inputCounter)
  else
    Request.run .runMain

/-- Write signals that follow one another. -/
def setSignals : Nat → List Scalar → Action Unit
  | _, [] => return ()
  | i, v :: rest => do
    setSignal i v
    setSignals (i + 1) rest

/-- Write the main inputs in order, and run the main component. -/
def feedOrdered (values : List Scalar) : Action Unit := do
  let expected := (← get).circuit.mainInputCount
  if values.length < expected then
    refuse (.inputsIncomplete ((expected - values.length) % UInt32.size) (expected % UInt32.size))
  else if expected < values.length then
    refuse (.invalidInputValue "<ordered>"
      s!"{values.length} values for {expected} main inputs")
  else
    setSignals (← get).circuit.mainInputStart values
    modify fun c => { c with pendingInputs := 0 }
    Request.run .runMain

/-- Where an action ends, if it does not fail. -/
def final (act : Action Unit) (c : Computation) : Except Fault Computation :=
  match act c with
  | .ok () c => .ok c
  | .error f _ => .error f

end Action

namespace Circuit

/-- The finished computation for inputs given by name. -/
def calculation (circuit : Circuit) (config : Config) (inputs : InputValues) :
    Except Fault Computation :=
  (Action.feed inputs).final (Computation.start circuit config)

/-- The witness for inputs given by name. -/
def calculate (circuit : Circuit) (config : Config) (inputs : InputValues) :
    Except Fault (List Scalar) :=
  (circuit.calculation config inputs).map Computation.witness

/-- The witness for inputs given by a JSON document. -/
def calculateJson (circuit : Circuit) (config : Config) (text : String) :
    Except Fault (List Scalar) :=
  match InputValues.ofJson text with
  | .ok inputs => circuit.calculate config inputs
  | .error e => .error (.refused e)

/-- The witness for the main inputs in order. -/
def calculateOrdered (circuit : Circuit) (config : Config) (values : List Scalar) :
    Except Fault (List Scalar) :=
  ((Action.feedOrdered values).final (Computation.start circuit config)).map Computation.witness

end Circuit
end CircuitWitness
