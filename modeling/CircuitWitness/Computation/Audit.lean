import CircuitWitness.Computation.Calculate
/-
  The audit of a computation: did its trace follow the rules of scheduling?

  Every component has to have run once, directly after the last of its inputs arrived, with one
  arrival for each declared input and none after the start; every component except the main one
  has to be released; and no signal may have been read before it was written.  Components are
  looked at in the order of their handles, and the first breach is reported.
-/

namespace CircuitWitness

/-- A breach of the rules of scheduling. -/
inductive AuditFailure where
  /-- There is no trace to look at. -/
  | traceOff
  /-- The component's template has no entry. -/
  | noTemplate (label : String)
  /-- The component did not run exactly once. -/
  | triggerCount (label : String) (count : Nat)
  /-- Inputs of the component are outstanding. -/
  | stillPending (label : String)
  /-- More or fewer inputs arrived than are declared. -/
  | arrivalCount (label : String) (count inputs : Nat)
  /-- No event of the component is a start. -/
  | noTrigger (label : String)
  /-- An input arrived after the start. -/
  | lateArrival (label : String)
  /-- The start does not come directly after the last arrival. -/
  | triggerNotAfterLast (label : String)
  /-- The component was not released. -/
  | notReleased (label : String) (stage : Stage)
  /-- Signals were read before they were written. -/
  | unwrittenReads (signals : List Nat)
deriving DecidableEq

/-- Numbers in brackets, with commas between them. -/
def displayNumbers (ns : List Nat) : String := "[" ++ ", ".intercalate (ns.map Nat.repr) ++ "]"

/-- The words for a breach. -/
def AuditFailure.message : AuditFailure → String
  | .traceOff => "trace recording is off"
  | .noTemplate label => s!"{label}: no template info"
  | .triggerCount label count => s!"{label}: triggered {count} times"
  | .stillPending label => s!"{label}: counter never reached zero"
  | .arrivalCount label count inputs => s!"{label}: {count} decrements for {inputs} inputs"
  | .noTrigger label => s!"{label}: no trigger event"
  | .lateArrival label => s!"{label}: input written after the trigger"
  | .triggerNotAfterLast label => s!"{label}: trigger does not follow the last input"
  | .notReleased label stage => s!"{label}: not released by its parent (" ++ stage.display ++ ")"
  | .unwrittenReads signals => "signals read before written: " ++ displayNumbers signals

/-- Among the events of one component, the arrivals come before the start, and the last one comes
    directly before it. -/
def checkArrivals (label : String) (triggerAt : Nat) :
    Nat → List Event → Except AuditFailure Unit
  | _, [] => .ok ()
  | position, .inputWritten _ _ remaining :: rest =>
    if triggerAt ≤ position then .error (.lateArrival label)
    else if (remaining == 0) != (position + 1 == triggerAt) then
      .error (.triggerNotAfterLast label)
    else checkArrivals label triggerAt (position + 1) rest
  | position, _ :: rest => checkArrivals label triggerAt (position + 1) rest

/-- Whether an event is the start of a body. -/
def Event.isTriggered : Event → Bool
  | .triggered _ => true
  | _ => false

namespace Computation

/-- The audit of one component. -/
def auditComponent (c : Computation) (id : Handle) (r : Component) : Except AuditFailure Unit :=
  let triggers := c.trace.triggers id
  let arrivals := c.trace.arrivals id
  let events := c.trace.eventsOf id
  match c.circuit.templates.shape? r.template with
  | none => .error (.noTemplate r.label)
  | some shape =>
    if triggers ≠ 1 then .error (.triggerCount r.label triggers)
    else if r.pending ≠ 0 then .error (.stillPending r.label)
    else if arrivals ≠ shape.inputs then .error (.arrivalCount r.label arrivals shape.inputs)
    else
      match events.findIdx? Event.isTriggered with
      | none => .error (.noTrigger r.label)
      | some triggerAt =>
        match checkArrivals r.label triggerAt 0 events with
        | .error e => .error e
        | .ok () =>
          if id ≠ .mainComponent ∧ r.stage ≠ .released then .error (.notReleased r.label r.stage)
          else .ok ()

/-- The audit of some components, up to the first breach. -/
def auditComponents (c : Computation) : List (Handle × Component) → Except AuditFailure Unit
  | [] => .ok ()
  | (id, r) :: rest =>
    match c.auditComponent id r with
    | .error e => .error e
    | .ok () => c.auditComponents rest

/-- The audit of a computation. -/
def audit (c : Computation) : Except AuditFailure Unit :=
  if !c.trace.enabled then .error .traceOff
  else
    match c.auditComponents c.registry.toList with
    | .error e => .error e
    | .ok () =>
      if c.trace.earlyReads.isEmpty then .ok ()
      else .error (.unwrittenReads c.trace.earlyReads)

end Computation

/-! ## Audited runs -/

/-- The switches of an audited run: diagnostic, and with a log of all components. -/
def Config.audited : Config := { Config.diagnostic with logComponents := true }

/-- The computation that is to be audited, for inputs given by name. -/
def Circuit.auditedRun (circuit : Circuit) (inputs : InputValues) : Except Fault Computation :=
  circuit.calculation .audited inputs

/-- The words for an audited run that did not get through. -/
def Circuit.auditedRunMessage (circuit : Circuit) (e : Refusal) : String :=
  "calculating witness for `" ++ circuit.name ++ "`: " ++ e.message

end CircuitWitness
