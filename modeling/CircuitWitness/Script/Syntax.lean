import CircuitWitness.Input.Values
import CircuitWitness.Scalar.Operation
import CircuitWitness.Trace.Query
/-
  A small language for bodies: statements over signals, handles and registers.

  Expressions denote handles, signals and values.  Statements act on a computation or look at it,
  and a `Reply` is what one of them found out.
-/

namespace CircuitWitness

/-- A handle. -/
inductive HandleExpr where
  | handle (id : Handle)
  /-- The component that the statements run for. -/
  | self
  /-- The child in a slot. -/
  | slot (parent : HandleExpr) (slot : Nat)
  /-- The handle some places after another. -/
  | child (parent : HandleExpr) (offset : Nat)

mutual

/-- The global index of a signal. -/
inductive SignalExpr where
  | signal (index : Nat)
  /-- A signal of a component, counted from the start of its block. -/
  | ofComponent (component : HandleExpr) (offset : Nat)
  /-- A signal as many places after another as a value says. -/
  | indexed (base : SignalExpr) (offset : ValueExpr)

/-- A value. -/
inductive ValueExpr where
  | literal (a : Scalar)
  | signal (s : SignalExpr)
  | constant (index : Nat)
  /-- The register of a name; one that was never set holds zero. -/
  | register (name : String)
  | unary (op : Scalar.UnaryOp) (a : ValueExpr)
  | binary (op : Scalar.BinaryOp) (a b : ValueExpr)

end

/-- One step of a body. -/
inductive Statement where
  | set (s : SignalExpr) (v : ValueExpr)
  /-- Keep a value in a register. -/
  | keep (register : String) (v : ValueExpr)
  | eval (v : ValueExpr)
  | write (c : HandleExpr) (localSignal : Nat) (v : ValueExpr)
  | writes (c : HandleExpr) (start : Nat) (vs : List ValueExpr)
  /-- In the name of a new component, each mark for the running component stands for its name. -/
  | create (c : HandleExpr) (template : TemplateId) (start : SignalExpr) (label : String)
      (parent : Option HandleExpr)
  | createChild (parent : HandleExpr) (slot : Nat) (child : HandleExpr) (template : TemplateId)
      (start : SignalExpr) (label : String)
  | trigger (c : HandleExpr)
  | countInput (c : HandleExpr)
  | release (c : Option HandleExpr)
  | releaseChildren (c : HandleExpr)
  | assert (c : HandleExpr) (v : ValueExpr) (line : Nat)
  | branch (condition : ValueExpr) (yes no : List Statement)
  /-- Note the running component and how the present one looks. -/
  | note
  | assignByHash (hash : UInt64) (index : Nat) (v : ValueExpr)
  | assignByName (name : String) (index : Nat) (v : ValueExpr)
  | assignAll (inputs : InputValues)
  | runMain
  | stage (c : HandleExpr)
  | label (c : HandleExpr)
  | handle (c : HandleExpr)
  | signalStart (c : HandleExpr)
  | peek (index : Nat)
  | witness (index : Nat)
  | witnessLength
  | trace (query : TraceQuery)

/-- What a statement found out. -/
inductive Reply where
  | nothing
  | scalar (a : Scalar)
  | number (n : Nat)
  | stage (s : Option Stage)
  | names (label template : String)
  | handle (id : Handle)
  | slot (value : Scalar) (written : Bool)
  | trace (answer : TraceAnswer)
deriving DecidableEq, Inhabited

end CircuitWitness
