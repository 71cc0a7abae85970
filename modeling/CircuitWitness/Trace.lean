import CircuitWitness.Component.Basic
import CircuitWitness.Template.Shape
/-
  The execution trace: what happened during a computation, in order.

  A trace that is switched off stays empty.  The queries are counts and selections over the list
  of events, so a statement about them is a statement about that list.
-/

namespace CircuitWitness

/-- One step that a trace can show. -/
inductive Event where
  | created (component : Handle) (template : TemplateId)
  /-- An input of the component arrived, and `remaining` are still outstanding. -/
  | inputWritten (component : Handle) (signal remaining : Nat)
  | triggered (component : Handle)
  | finished (component : Handle)
  | released (component : Handle)
  | signalWritten (signal : Nat)
  /-- A signal was read; `written` says whether it had been written before. -/
  | signalRead (signal : Nat) (written : Bool)
deriving DecidableEq, Inhabited

/-- The component that an event is about; reads and writes of signals are about none. -/
def Event.component? : Event → Option Handle
  | .created c _ | .inputWritten c _ _ | .triggered c | .finished c | .released c => some c
  | .signalWritten _ | .signalRead _ _ => none

/-- The events of a computation, if it records them. -/
structure Trace where
  enabled : Bool
  events : Array Event
deriving DecidableEq, Inhabited

namespace Trace

/-- A trace without events. -/
def empty (enabled : Bool) : Trace := ⟨enabled, #[]⟩

/-- Append an event, unless the trace is switched off. -/
def record (t : Trace) (e : Event) : Trace :=
  if t.enabled then ⟨t.enabled, t.events.push e⟩ else t

/-- Forget the events and stay switched on or off. -/
def clear (t : Trace) : Trace := ⟨t.enabled, #[]⟩

def toList (t : Trace) : List Event := t.events.toList

/-! ## Queries -/

/-- The events that are about a component. -/
def eventsOf (t : Trace) (id : Handle) : List Event :=
  t.toList.filter fun e => e.component? == some id

/-- How often a component's body was started. -/
def triggers (t : Trace) (id : Handle) : Nat :=
  t.toList.countP fun
    | .triggered c => c == id
    | _ => false

/-- How many inputs of a component arrived. -/
def arrivals (t : Trace) (id : Handle) : Nat :=
  t.toList.countP fun
    | .inputWritten c _ _ => c == id
    | _ => false

/-- Where, among all events, a component's body was first started. -/
def firstTrigger? (t : Trace) (id : Handle) : Option Nat :=
  t.toList.findIdx? fun
    | .triggered c => c == id
    | _ => false

/-- The signals that were read before they had been written, in the order of the reads. -/
def earlyReads (t : Trace) : List Nat :=
  t.toList.filterMap fun
    | .signalRead i false => some i
    | _ => none

/-! ## Small laws -/

/-- Recording appends when the trace is on and does nothing when it is off. -/
theorem toList_record (t : Trace) (e : Event) :
    (t.record e).toList = if t.enabled then t.toList ++ [e] else t.toList := by
  unfold record toList; split <;> simp

@[simp] theorem enabled_record (t : Trace) (e : Event) : (t.record e).enabled = t.enabled := by
  unfold record; split <;> rfl

end Trace
end CircuitWitness
