import CircuitWitness.Error
import CircuitWitness.Input.Values
import CircuitWitness.Trace
/-
  Template bodies, as values.

  A body acts on a computation only by asking the engine: for a signal, for a new child, for an
  input of a child to be written.  So a body is a tree.  Each node is a `Request`, and it has one
  branch for each answer the engine may give, refusals included.  Bodies are finite along every
  branch, and nothing in them depends on how the engine answers.

  * `Request` lists what can be asked, and `Request.Answer` says what the answer is made of.
  * `Program` is the tree; a program sees every refusal and may go on after one.
  * `Procedure` is a program that gives up at the first refusal it meets, which is how compiled
    bodies behave.  It is a monad, so bodies are written in `do` notation.
-/

namespace CircuitWitness

/-- A remark that a body leaves for whoever inspects the computation: the component whose body
    is running, and one component as it looked at that moment. -/
structure Note where
  active : Option Handle
  component : Handle
  label : String
  template : String
  stage : Option Stage
deriving DecidableEq, Inhabited

/-- What a body can ask of the engine. -/
inductive Request where
  /-- The value of a signal. -/
  | signal (index : Nat)
  /-- Write a signal that the component owns. -/
  | setSignal (index : Nat) (value : Scalar)
  /-- An entry of the constant pool. -/
  | constant (index : Nat)
  /-- The first signal of a component's block. -/
  | signalStart (component : Handle)
  /-- The handle some places after a component's own. -/
  | handleAfter (parent : Handle) (offset : Nat)
  /-- The child that a slot holds. -/
  | child (parent : Handle) (slot : Nat)
  /-- The component whose body is running. -/
  | active
  | stage (component : Handle)
  | label (component : Handle)
  | templateName (component : Handle)
  /-- Create a component; one without inputs runs at once. -/
  | create (component : Handle) (template : TemplateId) (signalStart : Nat)
      (label : String) (parent : Option Handle)
  /-- Create a child and keep its handle in a slot of the parent. -/
  | createChild (parent : Handle) (slot : Nat) (child : Handle)
      (template : TemplateId) (signalStart : Nat) (label : String)
  /-- Write one input of a component; the last one runs it. -/
  | writeInput (component : Handle) (localSignal : Nat) (value : Scalar)
  /-- Write inputs of a component that follow one another. -/
  | writeInputs (component : Handle) (start : Nat) (values : List Scalar)
  /-- Count an input of a component without writing one. -/
  | countInput (component : Handle)
  /-- Run a component whose inputs have all arrived. -/
  | trigger (component : Handle)
  /-- Give back the handles that a component owns. -/
  | release (component : Option Handle)
  /-- Release every child of a component. -/
  | releaseChildren (parent : Handle)
  /-- Refuse unless a value is true. -/
  | assert (component : Handle) (value : Scalar) (line : Nat)
  /-- Assign one element of a main input, addressed by hash. -/
  | assignByHash (hash : UInt64) (index : Nat) (value : Scalar)
  /-- Assign one element of a main input, addressed by name. -/
  | assignByName (name : String) (index : Nat) (value : Scalar)
  /-- Assign all values of an assignment. -/
  | assignAll (inputs : InputValues)
  /-- Create the main component over its written inputs, and run it. -/
  | runMain
  /-- The value of a signal and whether it was written, without a trace of the look. -/
  | peek (index : Nat)
  /-- An entry of the witness. -/
  | witness (index : Nat)
  | witnessLength
  /-- The trace so far. -/
  | trace
  /-- Leave a note. -/
  | note (note : Note)

/-- What the answer to a request is made of. -/
@[reducible] def Request.Answer : Request → Type
  | .signal _ | .constant _ | .witness _ => Scalar
  | .signalStart _ | .countInput _ | .witnessLength => Nat
  | .handleAfter _ _ | .child _ _ => Handle
  | .active => Option Handle
  | .stage _ => Option Stage
  | .label _ | .templateName _ => String
  | .peek _ => Scalar × Bool
  | .trace => Trace
  | .setSignal _ _ | .create _ _ _ _ _ | .createChild _ _ _ _ _ _ | .writeInput _ _ _
  | .writeInputs _ _ _ | .trigger _ | .release _ | .releaseChildren _ | .assert _ _ _
  | .assignByHash _ _ _ | .assignByName _ _ _ | .assignAll _ | .runMain | .note _ => Unit

/-- A finite program over the requests, with one branch for every answer. -/
inductive Program (α : Type) where
  | done (a : α)
  | ask (q : Request) (next : Except Refusal q.Answer → Program α)

namespace Program

/-- Run one program and then another that depends on its result. -/
def bind {α β : Type} : Program α → (α → Program β) → Program β
  | done a, f => f a
  | ask q next, f => ask q fun answer => (next answer).bind f

instance : Monad Program where
  pure := done
  bind := bind

end Program

/-- A program that stops at the first refusal it meets. -/
abbrev Procedure := ExceptT Refusal Program

/-- The body of a template, given the component it runs for. -/
abbrev Body := Handle → Procedure Unit

namespace Procedure

/-- Make one request. -/
def request (q : Request) : Procedure q.Answer := ExceptT.mk (.ask q .done)

/-! ## The requests, one by one -/

def signal (index : Nat) : Procedure Scalar := request (.signal index)

def setSignal (index : Nat) (value : Scalar) : Procedure Unit := request (.setSignal index value)

def constant (index : Nat) : Procedure Scalar := request (.constant index)

def signalStart (component : Handle) : Procedure Nat := request (.signalStart component)

def handleAfter (parent : Handle) (offset : Nat) : Procedure Handle :=
  request (.handleAfter parent offset)

def child (parent : Handle) (slot : Nat) : Procedure Handle :=
  request (.child parent slot)

def active : Procedure (Option Handle) := request .active

def stage (component : Handle) : Procedure (Option Stage) :=
  request (.stage component)

def label (component : Handle) : Procedure String := request (.label component)

def templateName (component : Handle) : Procedure String := request (.templateName component)

def create (component : Handle) (template : TemplateId) (signalStart : Nat) (label : String)
    (parent : Option Handle) : Procedure Unit :=
  request (.create component template signalStart label parent)

def createChild (parent : Handle) (slot : Nat) (child : Handle) (template : TemplateId)
    (signalStart : Nat) (label : String) : Procedure Unit :=
  request (.createChild parent slot child template signalStart label)

def writeInput (component : Handle) (localSignal : Nat) (value : Scalar) : Procedure Unit :=
  request (.writeInput component localSignal value)

def writeInputs (component : Handle) (start : Nat) (values : List Scalar) : Procedure Unit :=
  request (.writeInputs component start values)

def countInput (component : Handle) : Procedure Nat := request (.countInput component)

def trigger (component : Handle) : Procedure Unit := request (.trigger component)

def release (component : Option Handle) : Procedure Unit := request (.release component)

def releaseChildren (parent : Handle) : Procedure Unit := request (.releaseChildren parent)

def assert (component : Handle) (value : Scalar) (line : Nat) : Procedure Unit :=
  request (.assert component value line)

def assignByHash (hash : UInt64) (index : Nat) (value : Scalar) : Procedure Unit :=
  request (.assignByHash hash index value)

def assignByName (name : String) (index : Nat) (value : Scalar) : Procedure Unit :=
  request (.assignByName name index value)

def assignAll (inputs : InputValues) : Procedure Unit := request (.assignAll inputs)

def runMain : Procedure Unit := request .runMain

def peek (index : Nat) : Procedure (Scalar × Bool) := request (.peek index)

def witness (index : Nat) : Procedure Scalar := request (.witness index)

def witnessLength : Procedure Nat := request .witnessLength

def trace : Procedure Trace := request .trace

def note (n : Note) : Procedure Unit := request (.note n)

end Procedure
end CircuitWitness
