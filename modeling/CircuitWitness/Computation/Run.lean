import CircuitWitness.Computation.Inputs
import CircuitWitness.Computation.Release
/-
  Running bodies.

  `Request.perform` answers one request, given what it means to enter a body; `Program.runWith`
  follows a program from answer to answer.  `enterWithin` closes the circle between them: to enter
  a body is to follow it, with one level of nesting less for the bodies it starts in turn.

  A body is entered only when its component leaves the created state, and no component returns to
  that state.  So bodies are never nested deeper than there are handles, and that number is the
  bound which `Computation.nesting` gives to every operation.
-/

namespace CircuitWitness

/-- Answer one request. -/
def Request.perform (enter : Enter) : (q : Request) → Action q.Answer
  | .signal i => Action.signal i
  | .setSignal i v => Action.setSignal i v
  | .constant i => Action.inRange fun c => c.circuit.constants.get? i
  | .signalStart id => Action.look fun c => c.signalStart id
  | .handleAfter parent offset => Action.look fun c => c.handleAfter parent offset
  | .child parent slot => Action.look fun c => c.child parent slot
  | .active => do return (← get).active
  | .stage id => do return (← get).registry.stage? id
  | .label id => do return (← get).registry.label id
  | .templateName id => do return (← get).templateName id
  | .create id template start name parent => Action.create enter id template start name parent
  | .createChild parent slot id template start name =>
    Action.createChild enter parent slot id template start name
  | .writeInput id localSignal v => Action.writeInput enter id localSignal v
  | .writeInputs id start values => Action.writeInputs enter id start values
  | .countInput id => Action.countInput id
  | .trigger id => Action.trigger enter id
  | .release id => Action.release id
  | .releaseChildren parent => Action.releaseChildren parent
  | .assert id v line => Action.look fun c => c.assert id v line
  | .assignByHash hash index v => Action.assignByHash enter hash index v
  | .assignByName name index v => Action.assignByName enter name index v
  | .assignAll inputs => Action.assignAll enter inputs
  | .runMain => Action.runMain enter
  | .peek i => Action.inRange fun c =>
    (c.store.read? i).bind fun v => (c.store.isWritten? i).map fun written => (v, written)
  | .witness i => Action.inRange fun c => c.witness? i
  | .witnessLength => do return (← get).circuit.witnessLength
  | .trace => do return (← get).trace
  | .note n => modify fun c => { c with notes := c.notes.push n }

/-- Follow a program.  It is told of refusals and may go on; any other failure ends it. -/
def Program.runWith {α : Type} (enter : Enter) : Program α → Action α
  | .done a => return a
  | .ask q next => fun c =>
    match q.perform enter c with
    | .ok a c => (next (.ok a)).runWith enter c
    | .error (.refused e) c => (next (.error e)).runWith enter c
    | .error .outOfRange c => .error .outOfRange c
    | .error .tooDeep c => .error .tooDeep c

/-- Follow a procedure and fail as it does. -/
def Procedure.runWith {α : Type} (enter : Enter) (p : Procedure α) : Action α := do
  match ← Program.runWith enter p.run with
  | .ok a => return a
  | .error e => Action.refuse e

/-- Enter a body, with room for so many levels of bodies below the present one. -/
def enterWithin : Nat → Enter
  | 0 => fun _ _ => throw .tooDeep
  | levels + 1 => fun body id => (body id).runWith (enterWithin levels)

/-- How deep bodies can be nested: each belongs to a component of its own. -/
def Computation.nesting (c : Computation) : Nat := c.registry.capacity

/-- Answer one request from outside all bodies. -/
def Request.run (q : Request) : Action q.Answer := fun c => q.perform (enterWithin c.nesting) c

/-- Follow a program from outside all bodies. -/
def Program.run {α : Type} (p : Program α) : Action α := fun c =>
  p.runWith (enterWithin c.nesting) c

/-- Follow a procedure from outside all bodies. -/
def Procedure.run {α : Type} (p : Procedure α) : Action α := fun c =>
  Procedure.runWith (enterWithin c.nesting) p c

end CircuitWitness
