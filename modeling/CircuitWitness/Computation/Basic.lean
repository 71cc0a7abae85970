import CircuitWitness.Circuit
import CircuitWitness.Component.Registry
import CircuitWitness.Config
import CircuitWitness.SignalStore
/-
  The state of one computation, and the steps that start no body.

  A `Computation` holds everything a computation changes: the signal store, the registry, the trace,
  how many main inputs are still to come, and which component is running.  An `Action` is a step
  on it.  An action may fail in three ways:

  * `refused`: the engine says no and says why.  The computation stays as the action left it, and
    whoever asked may go on with it.
  * `outOfRange`: an index that no compiled circuit produces.  The computation is over.
  * `tooDeep`: bodies are nested deeper than the caller allowed.  `Computation/Run` shows where the
    bound comes from.
-/

namespace CircuitWitness

/-- The state of one computation. -/
structure Computation where
  circuit : Circuit
  config : Config
  store : SignalStore
  registry : Registry
  trace : Trace
  /-- Main inputs that were not assigned yet. -/
  pendingInputs : Nat
  /-- The component whose body is running. -/
  active : Option Handle
  /-- What bodies noted down. -/
  notes : Array Note

/-- How an action fails. -/
inductive Fault where
  | refused (e : Refusal)
  | outOfRange
  | tooDeep
deriving DecidableEq

/-- A step on the state of a computation. -/
abbrev Action := EStateM Fault Computation

namespace Computation

/-! ## Looking -/

/-- A fresh computation: signal 0 holds the constant one, and nothing else has happened. -/
def start (circuit : Circuit) (config : Config) : Computation :=
  let store := SignalStore.allocate circuit.totalSignals
  let trace := Trace.empty config.recordTrace
  { circuit := circuit
    config := config
    store := store.write 0 1
    registry := Registry.empty circuit.totalComponents
    trace := if store.size = 0 then trace else trace.record (.signalWritten 0)
    pendingInputs := circuit.mainShape.inputCounter
    active := none
    notes := #[] }

/-- A defect of the graph, found at a component. -/
def defect (c : Computation) (id : Handle) (d : GraphDefect) : Refusal :=
  .graphDefect id (c.registry.label id) d

/-- The record of a component. -/
def component (c : Computation) (id : Handle) : Except Refusal Component :=
  match c.registry.get? id with
  | some r => .ok r
  | none => .error (c.defect id .unknownComponent)

/-- The first signal of a component's block. -/
def signalStart (c : Computation) (id : Handle) : Except Refusal Nat :=
  (c.component id).map Component.signalStart

/-- The name of a component's template, for messages. -/
def templateName (c : Computation) (id : Handle) : String :=
  match (c.registry.get? id).bind fun r => c.circuit.templates.shape? r.template with
  | some shape => shape.name
  | none => "<unknown>"

/-- The handle `offset` places after a parent's own. -/
def handleAfter (c : Computation) (parent : Handle) (offset : Nat) :
    Except Refusal Handle :=
  match parent.offset? offset with
  | some id => .ok id
  | none => .error (c.defect parent (.componentOutOfRange c.registry.capacity))

/-- The child that a slot holds. -/
def child (c : Computation) (parent : Handle) (slot : Nat) :
    Except Refusal Handle :=
  match c.component parent with
  | .error e => .error e
  | .ok r =>
    match r.slots[slot]? with
    | some (some child) => .ok child
    | some none => .error (c.defect parent (.unallocatedSubcomponent slot))
    | none => .error (c.defect parent (.slotOutOfRange slot r.slots.size))

/-- Refuse unless a value is true, in the name of a component's template. -/
def assert (c : Computation) (id : Handle) (value : Scalar) (line : Nat) :
    Except Refusal Unit :=
  if value.isTrue then .ok ()
  else .error (.assertionFailed (c.templateName id) (c.registry.label id) line)

/-- An entry of the witness, if the witness is so long. -/
def witness? (c : Computation) (i : Nat) : Option Scalar :=
  (c.circuit.witnessSignal? i).bind c.store.read?

/-- The whole witness. -/
def witness (c : Computation) : List Scalar :=
  if c.circuit.witness.isEmpty then c.store.values
  else c.circuit.witness.map fun signal => (c.store.read? signal).getD 0

/-- The whole witness, each entry as its canonical number. -/
def witnessNumbers (c : Computation) : List Nat := c.witness.map Scalar.val

end Computation

/-! ## Acting -/

namespace Action

/-- Fail with a refusal. -/
def refuse {α : Type} (e : Refusal) : Action α := throw (.refused e)

/-- A look at the computation that may refuse. -/
def look {α : Type} (f : Computation → Except Refusal α) : Action α := fun c =>
  match f c with
  | .ok a => .ok a c
  | .error e => .error (.refused e) c

/-- A look at the computation that may be out of range. -/
def inRange {α : Type} (f : Computation → Option α) : Action α := fun c =>
  match f c with
  | some a => .ok a c
  | none => .error .outOfRange c

/-- Fail with a defect of the graph, found at a component. -/
def defect {α : Type} (id : Handle) (d : GraphDefect) : Action α :=
  look fun c => .error (c.defect id d)

/-- Append an event to the trace. -/
def record (e : Event) : Action Unit := modify fun c => { c with trace := c.trace.record e }

/-- Change the record of a component. -/
def modifyComponent (id : Handle) (f : Component → Component) : Action Unit :=
  modify fun c => { c with registry := c.registry.modify id f }

/-- The value of a signal.  The trace says whether it was written; one that was not reads as
    zero, or is refused when reads are strict. -/
def signal (i : Nat) : Action Scalar := do
  let written ← inRange fun c => c.store.isWritten? i
  record (.signalRead i written)
  if !written && (← get).config.checkReads then
    look fun c => .error (c.defect (c.active.getD .mainComponent) (.unwrittenSignal i))
  else
    inRange fun c => c.store.read? i

/-- Write a signal. -/
def setSignal (i : Nat) (v : Scalar) : Action Unit := do
  let _ ← inRange fun c => c.store.isWritten? i
  modify fun c => { c with store := c.store.write i v }
  record (.signalWritten i)

/-- Keep the handle of a child in a slot of its parent. -/
def keepChild (parent : Handle) (slot : Nat) (child : Handle) : Action Unit := do
  let slots := (← look fun c => c.component parent).slots.size
  if slots ≤ slot then defect parent (.slotOutOfRange slot slots)
  else modifyComponent parent fun r => { r with slots := r.slots.setIfInBounds slot (some child) }

/-- Count one input of a component and answer how many are left. -/
def countInput (id : Handle) : Action Nat := do
  match (← look fun c => c.component id).pending with
  | 0 => defect id .counterUnderflow
  | remaining + 1 =>
    modifyComponent id fun r => { r with pending := remaining }
    return remaining

/-- Enter a new component into the registry. -/
def enroll (id : Handle) (r : Component) : Action Unit := fun c =>
  match c.registry.create id r with
  | .ok registry => .ok () { c with registry := registry }
  | .error d => .error (.refused (c.defect id d)) c

/-- Act while a component counts as running, and restore what ran before, also after a failure. -/
def whileActive {α : Type} (id : Handle) (act : Action α) : Action α := fun c =>
  let caller := c.active
  match act { c with active := some id } with
  | .ok a c => .ok a { c with active := caller }
  | .error f c => .error f { c with active := caller }

end Action
end CircuitWitness
