import CircuitWitness.Error
import CircuitWitness.Scalar.Literal
/-
  The constant pool: scalars that every body of a circuit may refer to by position.

  Entries are appended while a circuit is being described, and a position once given out keeps
  its value.
-/

namespace CircuitWitness

/-- The constants of a circuit, by position. -/
structure ConstantPool where
  values : Array Scalar
deriving DecidableEq, Inhabited

namespace ConstantPool

def empty : ConstantPool := ⟨#[]⟩

def ofList (values : List Scalar) : ConstantPool := ⟨values.toArray⟩

def size (pool : ConstantPool) : Nat := pool.values.size

/-- The constant at a position, if the pool reaches so far. -/
def get? (pool : ConstantPool) (i : Nat) : Option Scalar := pool.values[i]?

def toList (pool : ConstantPool) : List Scalar := pool.values.toList

/-- Append a constant.  It takes the position that was the size of the pool. -/
def push (pool : ConstantPool) (v : Scalar) : ConstantPool := ⟨pool.values.push v⟩

/-- Append the constant that a literal denotes. -/
def pushLiteral (pool : ConstantPool) (literal : String) : Except Refusal ConstantPool :=
  match Scalar.ofLiteral? literal with
  | some v => .ok (pool.push v)
  | none => .error (.invalidCircuit (.badConstant literal))

/-- Append the constants that some literals denote, in order. -/
def ofLiterals (literals : List String) : Except Refusal ConstantPool :=
  literals.foldlM pushLiteral empty

/-! ## Small laws -/

@[simp] theorem size_push (pool : ConstantPool) (v : Scalar) :
    (pool.push v).size = pool.size + 1 := by simp [push, size]

/-- A constant is found at the position it was given. -/
theorem get?_push_size (pool : ConstantPool) (v : Scalar) :
    (pool.push v).get? pool.size = some v := by simp [push, get?, size]

end ConstantPool
end CircuitWitness
