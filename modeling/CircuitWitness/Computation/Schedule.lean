import CircuitWitness.Computation.Basic
/-
  Activation by counting inputs.

  A component starts with a count of its inputs.  Every write into its input block lowers the
  count, and the write that takes it to zero runs the body there and then, before the writer's
  next step.  Reading lowers nothing, and neither do writes to signals that a component owns.

  Creating, writing and running call each other through the bodies.  Here that circle is cut: each
  operation takes as `enter` what it means to run a body, and `Computation/Run` closes the circle.
-/

namespace CircuitWitness

/-- What it means to run a body for a component. -/
abbrev Enter := Body → Handle → Action Unit

/-- The body that a component is about to run: it has not started, all inputs arrived, and its
    template has an entry. -/
def Computation.startable (c : Computation) (id : Handle) : Except Refusal Body :=
  match c.component id with
  | .error e => .error e
  | .ok r =>
    if r.stage ≠ .created then .error (c.defect id (.alreadyTriggered r.stage))
    else if r.pending ≠ 0 then .error (c.defect id (.pendingInputs r.pending))
    else
      match c.circuit.templates.body? r.template c.config.useAlternate with
      | some body => .ok body
      | none => .error (c.defect id (.unknownTemplate r.template))

/-- Where the input of a component goes: the global index of the signal, if it is an input and the
    component has not started. -/
def Computation.inputSignal (c : Computation) (id : Handle) (localSignal : Nat) :
    Except Refusal Nat :=
  match c.component id with
  | .error e => .error e
  | .ok r =>
    match c.circuit.templates.shape? r.template with
    | none => .error (c.defect id (.unknownTemplate r.template))
    | some shape =>
      if !shape.isInput localSignal then
        .error (c.defect id (.notAnInput localSignal shape.inputStart shape.inputEnd))
      else if r.stage ≠ .created then .error (c.defect id (.inputAfterStart r.stage))
      else .ok (r.signalStart + localSignal)

namespace Action

/-- Run a component.  It finishes if its body returns, and stays running if the body fails. -/
def trigger (enter : Enter) (id : Handle) : Action Unit := do
  let body ← look fun c => c.startable id
  modifyComponent id fun r => { r with stage := .running }
  record (.triggered id)
  whileActive id (enter body id)
  modifyComponent id fun r => { r with stage := .finished }
  record (.finished id)

/-- An input of a component now holds its value: count it, and run the component if it was the
    last one. -/
def arrive (enter : Enter) (id : Handle) (signal : Nat) : Action Unit := do
  let remaining ← countInput id
  record (.inputWritten id signal remaining)
  if remaining = 0 then trigger enter id else return ()

/-- Create a component over the block that starts at `signalStart`. -/
def create (enter : Enter) (id : Handle) (template : TemplateId) (signalStart : Nat)
    (label : String) (parent : Option Handle) : Action Unit := do
  match (← get).circuit.templates.shape? template with
  | none => refuse (.graphDefect id label (.unknownTemplate template))
  | some shape =>
    enroll id
      (Component.fresh template signalStart shape.inputCounter shape.slots label parent)
    record (.created id template)
    if shape.inputs = 0 then trigger enter id else return ()

/-- Create a child.  The parent's slot holds the handle before the child exists. -/
def createChild (enter : Enter) (parent : Handle) (slot : Nat) (child : Handle)
    (template : TemplateId) (signalStart : Nat) (label : String) : Action Unit := do
  keepChild parent slot child
  create enter child template signalStart label (some parent)

/-- Write one input of a component. -/
def writeInput (enter : Enter) (id : Handle) (localSignal : Nat) (v : Scalar) :
    Action Unit := do
  let signal ← look fun c => c.inputSignal id localSignal
  setSignal signal v
  arrive enter id signal

/-- Write inputs of a component that follow one another, up to the first that is refused. -/
def writeInputs (enter : Enter) (id : Handle) : Nat → List Scalar → Action Unit
  | _, [] => return ()
  | localSignal, v :: rest => do
    writeInput enter id localSignal v
    writeInputs enter id (localSignal + 1) rest

end Action
end CircuitWitness
