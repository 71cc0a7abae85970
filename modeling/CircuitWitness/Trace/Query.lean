import CircuitWitness.Trace
/-
  Questions to a trace, and what the answers look like.
-/

namespace CircuitWitness

/-- A question to a trace. -/
inductive TraceQuery where
  | events
  | isEnabled
  | eventsOf (component : Handle)
  | triggers (component : Handle)
  | arrivals (component : Handle)
  | firstTrigger (component : Handle)
  | earlyReads
deriving DecidableEq, Inhabited

/-- An answer of a trace. -/
inductive TraceAnswer where
  | flag (b : Bool)
  | events (list : List Event)
  | count (n : Nat)
  | position (n : Option Nat)
  | signals (list : List Nat)
deriving DecidableEq, Inhabited

/-- What a trace answers to a question. -/
def Trace.answer (t : Trace) : TraceQuery → TraceAnswer
  | .events => .events t.toList
  | .isEnabled => .flag t.enabled
  | .eventsOf id => .events (t.eventsOf id)
  | .triggers id => .count (t.triggers id)
  | .arrivals id => .count (t.arrivals id)
  | .firstTrigger id => .position (t.firstTrigger? id)
  | .earlyReads => .signals t.earlyReads

end CircuitWitness
