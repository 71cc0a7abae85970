import CircuitWitness.Error
import CircuitWitness.Input.Hash
/-
  The declared inputs of a circuit.

  An input signal is a stretch of the main component's input block, addressed by the hash of its
  name.  Two inputs may not share a hash, so a name is refused when it was declared before and
  also when it merely collides with one that was; what a hash finds is therefore unique.
-/

namespace CircuitWitness

/-- A declared input signal. -/
structure InputSignal where
  name : String
  /-- Distance from the start of the main input block. -/
  offset : Nat
  /-- Number of elements. -/
  size : Nat
deriving DecidableEq, Inhabited

/-- The address of a declared input. -/
def InputSignal.hash (s : InputSignal) : UInt64 := inputHash s.name

/-- The input element after the last one of this signal. -/
def InputSignal.stop (s : InputSignal) : Nat := s.offset + s.size

/-- The declared inputs, in the order of their declaration. -/
structure InputMap where
  signals : List InputSignal
deriving DecidableEq, Inhabited

namespace InputMap

def empty : InputMap := ⟨[]⟩

/-- The input with a given address. -/
def find? (m : InputMap) (hash : UInt64) : Option InputSignal :=
  m.signals.find? fun s => s.hash == hash

/-- The input that the address of a name finds. -/
def findName? (m : InputMap) (name : String) : Option InputSignal := m.find? (inputHash name)

/-- Declare an input. -/
def insert (m : InputMap) (s : InputSignal) : Except Refusal InputMap :=
  if (m.find? s.hash).isSome then .error (.invalidCircuit (.inputTwice s.name))
  else .ok ⟨m.signals ++ [s]⟩

/-- Declare some inputs, in order. -/
def ofList (signals : List InputSignal) : Except Refusal InputMap :=
  signals.foldlM insert empty

/-- The number of input elements that the declarations cover. -/
def totalSize (m : InputMap) : Nat := m.signals.foldl (fun total s => total + s.size) 0

def size (m : InputMap) : Nat := m.signals.length

def isEmpty (m : InputMap) : Bool := m.signals.isEmpty

end InputMap
end CircuitWitness
