import CircuitWitness.ConstantPool
import CircuitWitness.Template.Table
import CircuitWitness.Input.Map
/-
  Circuits: the static half of a computation.

  A `CircuitDescription` is whatever a compiler hands over; `accept` checks it and makes a
  `Circuit` of it.  The checks come in a fixed order, and the first that fails is reported:

    1. every template has an entry, the main template among them;
    2. there is a handle for the main component;
    3. signal 0 is left to the constant one, and the main component's signals are in the store;
    4. the named inputs lie among the main inputs and do not overlap, and if there are any, they
       leave no main input out;
    5. every witness entry is a signal of the store.
-/

namespace CircuitWitness

/-- A circuit as it is handed over. -/
structure CircuitDescription where
  name : String
  totalSignals : Nat := 0
  totalComponents : Nat := 1
  mainTemplate : TemplateId := ⟨0⟩
  /-- The main component's first signal; signal 0 is the constant one. -/
  mainSignalStart : Nat := 1
  constants : ConstantPool := .empty
  templates : TemplateTable := .empty
  inputs : InputMap := .empty
  /-- The signals that make up the witness; all of them if none is named. -/
  witness : List Nat := []

/-- A circuit that was accepted. -/
structure Circuit extends CircuitDescription where
  /-- The shape of the main template. -/
  mainShape : TemplateShape

/-! ## Acceptance -/

/-- Whether a main input belongs to a declared signal. -/
def InputSignal.covers (s : InputSignal) (position : Nat) : Bool :=
  s.offset ≤ position && position < s.stop

/-- Whether a main input belongs to one of some declared signals. -/
def coveredBy (signals : List InputSignal) (position : Nat) : Bool :=
  signals.any fun s => s.covers position

/-- The named inputs lie among `inputs` main inputs and overlap none of the `earlier` ones. -/
def checkInputs (inputs : Nat) : List InputSignal → List InputSignal → Except CircuitDefect Unit
  | _, [] => .ok ()
  | earlier, s :: rest =>
    if inputs < s.stop then .error (.inputOutside s.name s.offset s.stop inputs)
    else
      match (List.range' s.offset s.size).find? (coveredBy earlier) with
      | some position => .error (.inputOverlap s.name position)
      | none => checkInputs inputs (s :: earlier) rest

namespace CircuitDescription

/-- The named inputs cover every main input once; a circuit without named inputs needs none. -/
def checkCoverage (d : CircuitDescription) (inputs : Nat) : Except CircuitDefect Unit :=
  match checkInputs inputs [] d.inputs.signals with
  | .error e => .error e
  | .ok () =>
    if d.inputs.isEmpty then .ok ()
    else
      match (List.range inputs).find? fun i => !coveredBy d.inputs.signals i with
      | some position => .error (.inputGap position)
      | none => .ok ()

/-- All checks after the one that finds the main template. -/
def check (d : CircuitDescription) (main : TemplateShape) : Except CircuitDefect Unit :=
  let stop := d.mainSignalStart + main.signals
  if d.totalComponents = 0 then .error .noComponents
  else if d.mainSignalStart = 0 then .error .reservedSignal
  else if d.totalSignals < stop then
    .error (.mainBlockOutside d.mainSignalStart stop d.totalSignals)
  else
    match d.checkCoverage main.inputs with
    | .error e => .error e
    | .ok () =>
      match d.witness.find? fun signal => d.totalSignals ≤ signal with
      | some signal => .error (.missingWitnessSignal signal)
      | none => .ok ()

/-- Check a description, and make a circuit of it. -/
def accept (d : CircuitDescription) : Except Refusal Circuit :=
  match d.templates.validate with
  | .error e => .error e
  | .ok () =>
    match d.templates.shape? d.mainTemplate with
    | none => .error (.invalidCircuit (.missingMainTemplate d.mainTemplate))
    | some main =>
      match d.check main with
      | .error e => .error (.invalidCircuit e)
      | .ok () => .ok ⟨d, main⟩

end CircuitDescription

namespace Circuit

/-- The first signal of the main input block. -/
def mainInputStart (c : Circuit) : Nat := c.mainSignalStart + c.mainShape.inputStart

/-- The number of main inputs. -/
def mainInputCount (c : Circuit) : Nat := c.mainShape.inputs

/-- The number of witness entries. -/
def witnessLength (c : Circuit) : Nat :=
  if c.witness.isEmpty then c.totalSignals else c.witness.length

/-- The signal that a witness entry stands for; nothing if the witness is not so long.  Without
    named entries every index stands for the signal of that index. -/
def witnessSignal? (c : Circuit) (i : Nat) : Option Nat :=
  if c.witness.isEmpty then some i else c.witness[i]?

end Circuit
end CircuitWitness
