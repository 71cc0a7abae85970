/-
  Templates from outside: their identities, and their shapes as the compiler laid them out.

  The signals of an instance form one block.  Local signals are numbered from its start: first
  the outputs, then the inputs, then whatever else the body needs.
-/

namespace CircuitWitness

/-- The identity of a template. -/
structure TemplateId where
  index : Nat
deriving DecidableEq, Inhabited

/-- How messages show a template's identity. -/
def TemplateId.display (id : TemplateId) : String := s!"T{id.index}"

/-- What is known about a template without running it. -/
structure TemplateShape where
  name : String
  /-- Output signals, at the start of the block. -/
  outputs : Nat
  /-- Input signals, after the outputs. -/
  inputs : Nat
  /-- All signals of the block, outputs and inputs among them. -/
  signals : Nat
  /-- Slots for the handles of children. -/
  slots : Nat
deriving DecidableEq, Inhabited

namespace TemplateShape

/-- The first local signal of the input block. -/
def inputStart (shape : TemplateShape) : Nat := shape.outputs

/-- The local signal after the last input. -/
def inputEnd (shape : TemplateShape) : Nat := shape.outputs + shape.inputs

/-- Whether a local signal is one of the inputs. -/
def isInput (shape : TemplateShape) (localSignal : Nat) : Bool :=
  shape.inputStart ≤ localSignal && localSignal < shape.inputEnd

/-- Input counters are 32-bit words, so a count is taken modulo `2 ^ 32`. -/
def inputCounter (shape : TemplateShape) : Nat := shape.inputs % UInt32.size

end TemplateShape
end CircuitWitness
