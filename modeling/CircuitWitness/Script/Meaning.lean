import CircuitWitness.Script.Syntax
import CircuitWitness.Template.Table
/-
  What scripts mean.

  Every look-up in an expression is a request to the engine, so it can be refused and it shows in
  the trace.  Operands are resolved from left to right.  A list of statements runs in order up to
  the first refusal, with registers of its own; registers that were set before a refusal keep
  their values.

  `Statement.body` makes a template body of such a list.  `Statement.step` runs one statement on
  behalf of a caller outside all bodies, and answers what the statement found out.
-/

namespace CircuitWitness

/-! ## Registers -/

/-- The values of the registers that were set, the latest first. -/
abbrev Registers := List (String × Scalar)

/-- A procedure over registers.  A refusal leaves them as they are. -/
abbrev Scripted := ExceptT Refusal (StateT Registers Program)

namespace Scripted

/-- Make one request. -/
def request (q : Request) : Scripted q.Answer :=
  ExceptT.mk fun registers => .ask q fun answer => .done (answer, registers)

/-- The value of a register. -/
def register (name : String) : Scripted Scalar := do
  return ((← getThe Registers).lookup name).getD 0

/-- Set a register. -/
def keep (name : String) (v : Scalar) : Scripted Unit :=
  modifyThe Registers fun registers => (name, v) :: registers

/-- A value as an index. -/
def index (v : Scalar) : Scripted Nat :=
  match v.toIndex? with
  | some n => return n
  | none => throw (.indexOverflow v)

end Scripted

/-! ## Expressions -/

/-- The handle that an expression denotes. -/
def HandleExpr.resolve (self : Handle) : HandleExpr → Scripted Handle
  | .handle id => return id
  | .self => return self
  | .slot parent n => do Scripted.request (.child (← parent.resolve self) n)
  | .child parent offset => do Scripted.request (.handleAfter (← parent.resolve self) offset)

/-- The handle that an expression denotes, where there is one. -/
def HandleExpr.resolveOption (self : Handle) :
    Option HandleExpr → Scripted (Option Handle)
  | none => return none
  | some c => return some (← c.resolve self)

mutual

/-- The signal that an expression denotes. -/
def SignalExpr.resolve (self : Handle) : SignalExpr → Scripted Nat
  | .signal index => return index
  | .ofComponent c offset => do
    return (← Scripted.request (.signalStart (← c.resolve self))) + offset
  | .indexed base offset => do
    let start ← base.resolve self
    return start + (← Scripted.index (← offset.eval self))

/-- The value that an expression denotes. -/
def ValueExpr.eval (self : Handle) : ValueExpr → Scripted Scalar
  | .literal a => return a
  | .signal s => do Scripted.request (.signal (← s.resolve self))
  | .constant index => Scripted.request (.constant index)
  | .register name => Scripted.register name
  | .unary op a => return op.eval (← a.eval self)
  | .binary op a b => do
    let x ← a.eval self
    return op.eval x (← b.eval self)

end

/-- The values of some expressions, from left to right. -/
def evalAll (self : Handle) : List ValueExpr → Scripted (List Scalar)
  | [] => return []
  | v :: rest => do
    let a ← v.eval self
    return a :: (← evalAll self rest)

/-! ## Statements -/

/-- The mark that stands for the name of the running component. -/
def selfMark : String := "\x7bself\x7d"

/-- A name with every mark for the running component filled in. -/
def fillLabel (self : Handle) (label : String) : Scripted String := do
  let name ← Scripted.request (.label self)
  return name.intercalate (label.splitOn selfMark)

mutual

/-- Run one statement. -/
def Statement.exec (self : Handle) : Statement → Scripted Reply
  | .set s v => do
    let index ← s.resolve self
    Scripted.request (.setSignal index (← v.eval self))
    return .nothing
  | .keep name v => do
    Scripted.keep name (← v.eval self)
    return .nothing
  | .eval v => return .scalar (← v.eval self)
  | .write c localSignal v => do
    let id ← c.resolve self
    Scripted.request (.writeInput id localSignal (← v.eval self))
    return .nothing
  | .writes c start vs => do
    let id ← c.resolve self
    Scripted.request (.writeInputs id start (← evalAll self vs))
    return .nothing
  | .create c template start name parent => do
    let id ← c.resolve self
    let index ← start.resolve self
    let name ← fillLabel self name
    Scripted.request (.create id template index name (← HandleExpr.resolveOption self parent))
    return .nothing
  | .createChild parent slot child template start name => do
    let parentId ← parent.resolve self
    let id ← child.resolve self
    let index ← start.resolve self
    let name ← fillLabel self name
    Scripted.request (.createChild parentId slot id template index name)
    return .nothing
  | .trigger c => do
    Scripted.request (.trigger (← c.resolve self))
    return .nothing
  | .countInput c => return .number (← Scripted.request (.countInput (← c.resolve self)))
  | .release c => do
    Scripted.request (.release (← HandleExpr.resolveOption self c))
    return .nothing
  | .releaseChildren c => do
    Scripted.request (.releaseChildren (← c.resolve self))
    return .nothing
  | .assert c v line => do
    let id ← c.resolve self
    Scripted.request (.assert id (← v.eval self) line)
    return .nothing
  | .branch condition yes no => do
    if (← condition.eval self).isTrue then execAll self yes else execAll self no
    return .nothing
  | .note => do
    let active ← Scripted.request .active
    let name ← Scripted.request (.label self)
    let template ← Scripted.request (.templateName self)
    let stage ← Scripted.request (.stage self)
    Scripted.request (.note ⟨active, self, name, template, stage⟩)
    return .nothing
  | .assignByHash hash index v => do
    Scripted.request (.assignByHash hash index (← v.eval self))
    return .nothing
  | .assignByName name index v => do
    Scripted.request (.assignByName name index (← v.eval self))
    return .nothing
  | .assignAll inputs => do
    Scripted.request (.assignAll inputs)
    return .nothing
  | .runMain => do
    Scripted.request .runMain
    return .nothing
  | .stage c => return .stage (← Scripted.request (.stage (← c.resolve self)))
  | .label c => do
    let id ← c.resolve self
    let name ← Scripted.request (.label id)
    return .names name (← Scripted.request (.templateName id))
  | .handle c => return .handle (← c.resolve self)
  | .signalStart c => return .number (← Scripted.request (.signalStart (← c.resolve self)))
  | .peek index => do
    let (value, written) ← Scripted.request (.peek index)
    return .slot value written
  | .witness index => return .scalar (← Scripted.request (.witness index))
  | .witnessLength => return .number (← Scripted.request .witnessLength)
  | .trace query => return .trace ((← Scripted.request .trace).answer query)

/-- Run statements in order. -/
def execAll (self : Handle) : List Statement → Scripted Unit
  | [] => return ()
  | s :: rest => do
    let _ ← s.exec self
    execAll self rest

end

/-- The body that runs some statements, with registers of its own. -/
def Statement.body (statements : List Statement) : Body := fun self =>
  ExceptT.mk ((execAll self statements).run.run [] >>= fun r => pure r.1)

/-- One statement on behalf of the main component, from outside all bodies: what it found out or
    why it was refused, and the registers after it. -/
def Statement.step (s : Statement) (registers : Registers) :
    Program (Except Refusal Reply × Registers) :=
  (s.exec .mainComponent).run.run registers

end CircuitWitness
